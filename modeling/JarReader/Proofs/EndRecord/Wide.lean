import JarReader.Proofs.EndRecord.Locate

namespace JarReader.Zip.EndRecord

open Bytes View

def wideAt (b : ByteArray) (limit offset : Nat) : Option (Zip64Record × Nat) :=
  if offset + Zip64Record.size ≤ limit then
    (Zip64Record.decode (b.extract offset (offset + Zip64Record.size))).toOption.map (·, offset)
  else none

def wideFor (b : ByteArray) (l : Nat) : Option (Zip64Record × Nat) :=
  (if Zip64Record.size ≤ l then wideAt b l (l - Zip64Record.size) else none).or
    (wideAt b l (u64At b (l + 8)).toNat)

variable {d : Disk} {v : View}

lemma zip64RecordAt_eq (hv : v.Whole d) {limit : Nat} (hl : limit ≤ v.length) (offset : Nat) :
    zip64RecordAt d v limit offset = .ok (wideAt (v.bytes d) limit offset) := by
  by_cases ho : offset + Zip64Record.size ≤ limit
  · have hb := hv.readExact_eq (i := offset) (n := Zip64Record.size) (by omega)
    have hs : ((v.bytes d).extract offset (offset + Zip64Record.size)).size = Zip64Record.size := by
      rw [ByteArray.size_extract, hv.size_bytes]
      omega
    simp only [zip64RecordAt, wideAt, if_pos ho, if_neg (Nat.not_lt.mpr ho), hb, bind, Except.bind]
    generalize (v.bytes d).extract offset (offset + Zip64Record.size) = bytes at hs
    by_cases h32 : u32At bytes 0 = Zip64Record.signature
    · simp [Zip64Record.decode, h32, hs, Except.toOption, pure, Except.pure]
    · simp [Zip64Record.decode, h32, hs, Except.toOption, pure, Except.pure]
  · simp [zip64RecordAt, wideAt, ho, Nat.lt_of_not_le ho, pure, Except.pure]

lemma zip64Record?_eq (hv : v.Whole d) {e : Nat} (he : e ≤ v.length) :
    zip64Record? d v e =
      if e < Zip64Locator.size then .ok none
      else if u32At (v.bytes d) (e - Zip64Locator.size) ≠ Zip64Locator.signature then .ok none
      else
        match wideFor (v.bytes d) (e - Zip64Locator.size) with
        | some found => .ok (some found)
        | none => .error (.format (.zip64 .recordNotFound)) := by
  by_cases hl : e < Zip64Locator.size
  · simp [zip64Record?, hl, pure, Except.pure]
  obtain ⟨l, rfl⟩ := Nat.exists_eq_add_of_le' (Nat.le_of_not_lt hl)
  have hb := hv.readExact_eq (i := l) (n := Zip64Locator.size) he
  have hs : ((v.bytes d).extract l (l + Zip64Locator.size)).size = Zip64Locator.size := by
    rw [ByteArray.size_extract, hv.size_bytes]
    omega
  have h32 : u32At ((v.bytes d).extract l (l + Zip64Locator.size)) 0 = u32At (v.bytes d) l := by
    rw [u32At_extract (by simp only [Zip64Locator.size]; omega), Nat.add_zero]
  have h64 : u64At ((v.bytes d).extract l (l + Zip64Locator.size)) 8 = u64At (v.bytes d) (l + 8) :=
    u64At_extract (by simp only [Zip64Locator.size]; omega)
  simp only [zip64Record?, if_neg hl, Nat.add_sub_cancel, hb, bind, Except.bind, h32]
  generalize (v.bytes d).extract l (l + Zip64Locator.size) = bytes at hs h32 h64
  by_cases hsig : u32At (v.bytes d) l = Zip64Locator.signature
  · have hdecode : Zip64Locator.decode bytes =
        .ok ⟨u32At bytes 4, u64At (v.bytes d) (l + 8), u32At bytes 16⟩ := by
      simp [Zip64Locator.decode, h32, hs, hsig, h64]
    simp only [hsig, hdecode, ne_eq, not_true_eq_false, if_false, wideFor,
      zip64RecordAt_eq hv (show l ≤ v.length by omega)]
    by_cases hr : Zip64Record.size ≤ l
    · rw [if_pos hr, if_pos hr]
      cases wideAt (v.bytes d) l (l - Zip64Record.size) with
      | some found => rfl
      | none => cases wideAt (v.bytes d) l (u64At (v.bytes d) (l + 8)).toNat <;> rfl
    · rw [if_neg hr, if_neg hr]
      cases wideAt (v.bytes d) l (u64At (v.bytes d) (l + 8)).toNat <;> rfl
  · simp [hsig, pure, Except.pure]

lemma wideAt_eq_some_iff {b : ByteArray} {limit offset o : Nat} {wide : Zip64Record} :
    wideAt b limit offset = some (wide, o) ↔
      offset = o ∧ o + Zip64Record.size ≤ limit ∧
        Zip64Record.decode (b.extract o (o + Zip64Record.size)) = .ok wide := by
  by_cases ho : offset + Zip64Record.size ≤ limit
  · rw [wideAt, if_pos ho]
    cases hd : Zip64Record.decode (b.extract offset (offset + Zip64Record.size)) with
    | error fault =>
      constructor
      · rintro ⟨⟩
      · rintro ⟨rfl, _, hw⟩
        rw [hd] at hw
        cases hw
    | ok found =>
      constructor
      · rintro ⟨⟩
        exact ⟨rfl, ho, hd⟩
      · rintro ⟨rfl, _, hw⟩
        rw [hd] at hw
        cases hw
        rfl
  · rw [wideAt, if_neg ho]
    constructor
    · rintro ⟨⟩
    · rintro ⟨rfl, hl, _⟩
      contradiction

lemma wideFor_adjacent_iff {b : ByteArray} {o : Nat} {wide : Zip64Record} :
    wideFor b (o + Zip64Record.size) = some (wide, o) ↔
      Zip64Record.decode (b.extract o (o + Zip64Record.size)) = .ok wide := by
  rw [wideFor, if_pos (Nat.le_add_left _ _), Nat.add_sub_cancel, Option.or_eq_some_iff,
    wideAt_eq_some_iff, wideAt_eq_some_iff]
  constructor
  · rintro (⟨_, _, hw⟩ | ⟨_, _, _, hw⟩) <;> exact hw
  · intro hw
    exact .inl ⟨rfl, Nat.le_refl _, hw⟩

lemma zip64Record?_eq_none_iff (hv : v.Whole d) {e : Nat} (he : e ≤ v.length) :
    zip64Record? d v e = .ok none ↔
      (Zip64Locator.size ≤ e →
        u32At (v.bytes d) (e - Zip64Locator.size) ≠ Zip64Locator.signature) := by
  rw [zip64Record?_eq hv he]
  by_cases hl : e < Zip64Locator.size
  · simp [hl, Nat.not_le.mpr hl]
  · by_cases hs : u32At (v.bytes d) (e - Zip64Locator.size) = Zip64Locator.signature
    · simp only [hs, ne_eq, not_true_eq_false, hl, if_false]
      split <;> simp [Nat.le_of_not_lt hl]
    · simp [hs, hl]

lemma zip64Record?_adjacent_iff (hv : v.Whole d) {o : Nat} {wide : Zip64Record}
    (he : o + Zip64Record.size + Zip64Locator.size ≤ v.length) :
    zip64Record? d v (o + Zip64Record.size + Zip64Locator.size) = .ok (some (wide, o)) ↔
      u32At (v.bytes d) (o + Zip64Record.size) = Zip64Locator.signature ∧
        Zip64Record.decode ((v.bytes d).extract o (o + Zip64Record.size)) = .ok wide := by
  rw [zip64Record?_eq hv he, if_neg (Nat.not_lt.mpr (Nat.le_add_left _ _)), Nat.add_sub_cancel,
    ← wideFor_adjacent_iff]
  by_cases hs : u32At (v.bytes d) (o + Zip64Record.size) = Zip64Locator.signature
  · rw [if_neg (not_not_intro hs)]
    cases wideFor (v.bytes d) (o + Zip64Record.size) with
    | none => simp
    | some found => simp [hs]
  · simp [hs]

end JarReader.Zip.EndRecord
