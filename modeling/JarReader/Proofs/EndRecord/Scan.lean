import JarReader.Proofs.EndRecord.Decode
import JarReader.Proofs.EndRecord.Wide
import JarReader.Zip.Writing

/-! The end record that is located is the one at the last consistent position, so the windows of the
search do not matter. -/

namespace JarReader.Zip.EndRecord

open Bytes View

structure Consistent (b : ByteArray) (o : Nat) : Prop where
  signature : b.extract o (o + 4) = ⟨#[0x50, 0x4B, 0x05, 0x06]⟩
  size : o + 22 ≤ b.size
  comment : o + 22 + (u16At b (o + 20)).toNat = b.size

def LastConsistent (b : ByteArray) (o : Nat) : Prop :=
  Consistent b o ∧ ∀ o', Consistent b o' → o' ≤ o

lemma consistent_iff_fitsAt {b : ByteArray} {o : Nat} : Consistent b o ↔ fitsAt b o = true := by
  have hs : (ofNumber 4 EndFields.signature.toNat).toByteArray = ⟨#[0x50, 0x4B, 0x05, 0x06]⟩ := rfl
  simp only [fitsAt, Bool.and_eq_true, decide_eq_true_eq]
  constructor
  · rintro ⟨hsignature, hsize, hcomment⟩
    have h4 : o + 4 ≤ b.size := by omega
    exact ⟨⟨hsize, (u32At_eq_iff h4 _).mpr (hsignature.trans hs.symm)⟩, hcomment⟩
  · rintro ⟨⟨hsize, hsignature⟩, hcomment⟩
    have h4 : o + 4 ≤ b.size := Nat.le_trans (by simp [EndFields.size]) hsize
    exact ⟨((u32At_eq_iff h4 _).mp hsignature).trans hs, hsize, hcomment⟩

lemma lastConsistent_iff {b : ByteArray} {o : Nat} : LastConsistent b o ↔ LastFit b o := by
  simp only [LastConsistent, LastFit, consistent_iff_fitsAt]
  constructor
  · rintro ⟨ho, hlater⟩
    refine ⟨ho, fun o' h => ?_⟩
    by_contra hf
    have := hlater o' (by simpa using hf)
    omega
  · rintro ⟨ho, hlater⟩
    refine ⟨ho, fun o' hf => ?_⟩
    by_contra h
    rw [hlater o' (by omega)] at hf
    cases hf

lemma decode_extract {b : ByteArray} {o : Nat} (h : Consistent b o) :
    EndFields.decode (b.extract o b.size) = .ok (EndFields.readAt b o) := by
  have hsize := h.size
  have hl : (b.extract o b.size).size = b.size - o := by rw [ByteArray.size_extract, Nat.min_self]
  have h16 (i : Nat) (hi : i + 2 ≤ 22) : u16At (b.extract o b.size) i = u16At b (o + i) :=
    u16At_extract (by omega)
  have h32 (i : Nat) (hi : i + 4 ≤ 22) : u32At (b.extract o b.size) i = u32At b (o + i) :=
    u32At_extract (by omega)
  have hsignature : u32At b o = EndFields.signature := by
    have hf := consistent_iff_fitsAt.mp h
    simp only [fitsAt, Bool.and_eq_true, decide_eq_true_eq] at hf
    exact hf.1.2
  have hread : EndFields.readAt (b.extract o b.size) 0 = EndFields.readAt b o := by
    simp [EndFields.readAt, h16, h32]
  have henough : ¬ b.size - o < EndFields.size := by
    rw [EndFields.size]
    omega
  simp [EndFields.decode, hl, henough, h32, hsignature, hread]

variable {d : Disk} {v : View}

lemma place_ne_missing (entries size offset directoryEnd : Nat) (zip64 : Bool)
    (comment : ByteArray) :
    place entries size offset directoryEnd zip64 comment ≠ .error (.format .missingEndRecord) := by
  rw [place]
  split <;> simp

lemma zip64Record?_ne_missing (hv : v.Whole d) {e : Nat} (he : e ≤ v.length) :
    zip64Record? d v e ≠ .error (.format .missingEndRecord) := by
  rw [zip64Record?_eq hv he]
  split
  · simp
  · split
    · simp
    · split <;> simp

lemma decode_ne_missing (hv : v.Whole d) {e : Nat} (he : e ≤ v.length) {record : ByteArray}
    {fields : EndFields} (hf : EndFields.decode record = .ok fields) :
    decode d v e record ≠ .error (.format .missingEndRecord) := by
  have hw := zip64Record?_ne_missing hv he
  cases hs : fields.escaped with
  | false =>
    simp only [decode, hf, hs, pure, Except.pure, bind, Except.bind]
    apply place_ne_missing
  | true =>
    cases hz : zip64Record? d v e with
    | error f =>
      rw [hz] at hw
      simpa [decode, hf, hs, hz, bind, Except.bind] using hw
    | ok found? =>
      simp only [decode, hf, hs, hz, bind, Except.bind]
      cases found? with
      | none => apply place_ne_missing
      | some found => apply place_ne_missing

lemma comment_decode {e : Nat} {record : ByteArray} {r : EndRecord}
    (h : decode d v e record = .ok r) :
    r.comment = record.extract EndFields.size record.size := by
  obtain ⟨_, _, ⟨_, _, _, _, hp⟩ | ⟨_, hp⟩⟩ := decode_eq_ok_iff.mp h
  · rw [(place_eq_ok_iff.mp hp).2]
  · rw [(place_eq_ok_iff.mp hp).2]

structure Plain (b : ByteArray) (o : Nat) (r : EndRecord) : Prop where
  zip64 : r.zip64 = false
  entries : r.entries = (u16At b (o + 10)).toNat
  directorySize : r.directorySize = (u32At b (o + 12)).toNat
  directoryOffset : r.directoryOffset = (u32At b (o + 16)).toNat

/-- The values of `r` are those of the ZIP64 record at `e`, in front of the locator that stands
before the end record at `o`. -/
structure Wide (b : ByteArray) (o e : Nat) (r : EndRecord) : Prop where
  zip64 : r.zip64 = true
  before : e + 56 + 20 ≤ o
  locator : u32At b (o - 20) = Zip64Locator.signature
  position : e + 56 + 20 = o ∨ e = (u64At b (o - 12)).toNat
  signature : u32At b e = Zip64Record.signature
  entries : r.entries = (u64At b (e + 32)).toNat
  directorySize : r.directorySize = (u64At b (e + 40)).toNat
  directoryOffset : r.directoryOffset = (u64At b (e + 48)).toNat

def StandsAt (b : ByteArray) (r : EndRecord) (e : Nat) : Prop :=
  ∃ o, LastConsistent b o ∧ (Plain b o r ∧ e = o ∨ Wide b o e r)

lemma le_size_of_standsAt {b : ByteArray} {r : EndRecord} {e : Nat} (h : StandsAt b r e) :
    e + 22 ≤ b.size := by
  obtain ⟨o, ho, ⟨_, rfl⟩ | hw⟩ := h
  · exact ho.1.size
  · have := ho.1.size
    have := hw.before
    omega

lemma zip64Record_decode_extract {b : ByteArray} {e : Nat} {wide : Zip64Record}
    (h : Zip64Record.decode (b.extract e (e + Zip64Record.size)) = .ok wide) :
    u32At b e = Zip64Record.signature ∧ wide.entries = u64At b (e + 32) ∧
      wide.directorySize = u64At b (e + 40) ∧ wide.directoryOffset = u64At b (e + 48) := by
  have h32 : u32At (b.extract e (e + Zip64Record.size)) 0 = u32At b e := by
    rw [u32At_extract (by simp [Zip64Record.size]), Nat.add_zero]
  have h64 (i : Nat) (hi : i + 8 ≤ 56) :
      u64At (b.extract e (e + Zip64Record.size)) i = u64At b (e + i) :=
    u64At_extract (by simp only [Zip64Record.size]; omega)
  unfold Zip64Record.decode at h
  split at h
  · cases h
  · rename_i hs
    simp only [h32, ne_eq, Bool.or_eq_true, decide_eq_true_eq, not_or, not_not] at hs
    obtain rfl := Except.ok.inj h
    exact ⟨hs.2, h64 32 (by decide), h64 40 (by decide), h64 48 (by decide)⟩

lemma zip64Record?_eq_some {o e : Nat} {wide : Zip64Record} (hv : v.Whole d) (ho : o ≤ v.length)
    (h : zip64Record? d v o = .ok (some (wide, e))) :
    e + 56 + 20 ≤ o ∧ u32At (v.bytes d) (o - 20) = Zip64Locator.signature ∧
      (e + 56 + 20 = o ∨ e = (u64At (v.bytes d) (o - 12)).toNat) ∧
      Zip64Record.decode ((v.bytes d).extract e (e + Zip64Record.size)) = .ok wide := by
  rw [zip64Record?_eq hv ho] at h
  by_cases hl : o < Zip64Locator.size
  · rw [if_pos hl] at h
    cases h
  by_cases hs : u32At (v.bytes d) (o - Zip64Locator.size) = Zip64Locator.signature
  · rw [if_neg hl, if_neg (not_not_intro hs)] at h
    cases hf : wideFor (v.bytes d) (o - Zip64Locator.size) with
    | none =>
      rw [hf] at h
      cases h
    | some found =>
      rw [hf] at h
      cases h
      simp only [Zip64Locator.size] at hl hs hf
      rw [wideFor, Option.or_eq_some_iff] at hf
      rcases hf with hf | ⟨_, hf⟩
      · by_cases hr : Zip64Record.size ≤ o - 20
        · rw [if_pos hr] at hf
          obtain ⟨rfl, _, hd⟩ := wideAt_eq_some_iff.mp hf
          simp only [Zip64Record.size] at hr hd ⊢
          exact ⟨by omega, hs, .inl (by omega), hd⟩
        · rw [if_neg hr] at hf
          cases hf
      · obtain ⟨he, hr, hd⟩ := wideAt_eq_some_iff.mp hf
        have h12 : o - 20 + 8 = o - 12 := by omega
        rw [h12] at he
        simp only [Zip64Record.size] at hr
        exact ⟨by omega, hs, .inr he.symm, hd⟩
  · rw [if_neg hl, if_pos hs] at h
    cases h

lemma exists_standsAt (hv : v.Whole d) {r : EndRecord} (h : locate d v = .ok r) :
    ∃ e, StandsAt (v.bytes d) r e ∧ r.archiveStart + r.directoryOffset + r.directorySize = e := by
  obtain ⟨o, ho, hdecode⟩ := (locate_eq_ok_iff hv).mp h
  have hlast := lastConsistent_iff.mpr ho
  have hsize := hlast.1.size
  rw [hv.size_bytes] at hsize
  obtain ⟨fields, hf, hr⟩ := decode_eq_ok_iff.mp hdecode
  rcases hr with ⟨wide, e, _, hz, hp⟩ | ⟨_, hp⟩
  · obtain ⟨hl, rfl⟩ := place_eq_ok_iff.mp hp
    obtain ⟨hbefore, hlocator, hposition, hd⟩ := zip64Record?_eq_some hv (by omega) hz
    obtain ⟨hsignature, hentries, hdsize, hdoffset⟩ := zip64Record_decode_extract hd
    refine ⟨e, ⟨o, hlast, .inr ?_⟩, by dsimp only; omega⟩
    exact ⟨rfl, hbefore, hlocator, hposition, hsignature, congrArg UInt64.toNat hentries,
      congrArg UInt64.toNat hdsize, congrArg UInt64.toNat hdoffset⟩
  · obtain ⟨hl, rfl⟩ := place_eq_ok_iff.mp hp
    have hread := decode_extract hlast.1
    rw [hv.size_bytes, hf] at hread
    cases hread
    exact ⟨o, ⟨o, hlast, .inl ⟨⟨rfl, rfl, rfl, rfl⟩, rfl⟩⟩, by dsimp only; omega⟩

def locateAtOnce (d : Disk) (data : View) : Except Failure EndRecord := do
  match ← locateIn d data data.length with
  | some found => return found
  | none => throw (.format .missingEndRecord)

lemma locateAtOnce_eq (hv : v.Whole d) : locate d v = locateAtOnce d v := by
  rw [locate_eq hv, locateAtOnce, locateIn_eq hv (Nat.le_refl _)]
  cases search (v.bytes d) with
  | none => rfl
  | some i =>
    simp only [Nat.sub_self, Nat.zero_le, if_true]
    cases decode d v i ((v.bytes d).extract i v.length) <;> rfl

/-- No end record is found if no position is consistent, and otherwise the one at the last such
position, with its values or those of the ZIP64 record in front of it, and all that comes after it as
its comment. -/
theorem locate_last_consistent (hv : v.Whole d) :
    (locate d v = .error (.format .missingEndRecord) ↔ ∀ o, ¬ Consistent (v.bytes d) o) ∧
      (∀ o, LastConsistent (v.bytes d) o →
        EndFields.decode ((v.bytes d).extract o v.length) = .ok (EndFields.readAt (v.bytes d) o) ∧
        locate d v = decode d v o ((v.bytes d).extract o v.length)) ∧
      (∀ r, locate d v = .ok r → ∃ o e, LastConsistent (v.bytes d) o ∧
        (Plain (v.bytes d) o r ∧ e = o ∨ Wide (v.bytes d) o e r) ∧
        r.archiveStart + r.directoryOffset + r.directorySize = e ∧
        r.comment = (v.bytes d).extract (o + 22) v.length) ∧
      locate d v = locateAtOnce d v := by
  have hb := hv.size_bytes
  have hdecode (o : Nat) (ho : LastConsistent (v.bytes d) o) :
      EndFields.decode ((v.bytes d).extract o v.length) = .ok (EndFields.readAt (v.bytes d) o) ∧
        locate d v = decode d v o ((v.bytes d).extract o v.length) := by
    constructor
    · rw [← hb]
      exact decode_extract ho.1
    · rw [locate_eq hv, search_eq_some_iff.mpr (lastConsistent_iff.mp ho)]
  refine ⟨⟨?_, ?_⟩, hdecode, ?_, locateAtOnce_eq hv⟩
  · intro hmissing o ho
    cases hs : search (v.bytes d) with
    | none =>
      rw [search_eq_none_iff] at hs
      rw [consistent_iff_fitsAt, hs o] at ho
      cases ho
    | some i =>
      have hi := lastConsistent_iff.mpr (search_eq_some_iff.mp hs)
      obtain ⟨hf, hl⟩ := hdecode i hi
      rw [hl] at hmissing
      have := hi.1.size
      exact decode_ne_missing hv (by omega) hf hmissing
  · intro hnone
    have hs : search (v.bytes d) = none := by
      rw [search_eq_none_iff]
      intro o
      simpa [consistent_iff_fitsAt] using hnone o
    rw [locate_eq hv, hs]
  · intro r hr
    obtain ⟨e, ⟨o, ho, hvalues⟩, hsum⟩ := exists_standsAt hv hr
    refine ⟨o, e, ho, hvalues, hsum, ?_⟩
    rw [comment_decode ((hdecode o ho).2.symm.trans hr), ByteArray.extract_extract,
      ByteArray.size_extract, hb]
    congr 1
    omega

def signedComment : ByteArray :=
  (EndFields.encode ⟨0, 0, 2, 2, 0, 0, 30⟩ ++ List.replicate 4 0x20
    ++ ofNumber 4 EndFields.signature.toNat ++ List.replicate 22 0).toByteArray

theorem locate_last_consistent_signedComment :
    (ofBytes signedComment).Whole (.empty []) ∧ LastConsistent signedComment 0 ∧
      EndFields.decode signedComment = .ok ⟨0, 0, 2, 2, 0, 0, 30⟩ ∧
      ∃ r, locate (.empty []) (.ofBytes signedComment) = .ok r ∧ r.entries = 2 ∧
        r.directorySize = 0 ∧ r.directoryOffset = 0 ∧ r.archiveStart = 0 ∧ r.zip64 = false ∧
        r.comment = signedComment.extract 22 52 := by
  have hw := whole_ofBytes (.empty []) signedComment
  have hs : search signedComment = some 0 := by decide +kernel
  have hl := lastConsistent_iff.mpr (search_eq_some_iff.mp hs)
  obtain ⟨_, hdecode, hvalues, _⟩ := locate_last_consistent hw
  have hfields := (hdecode 0 (by rwa [bytes_ofBytes])).1
  rw [bytes_ofBytes, length_ofBytes, ByteArray.extract_zero_size] at hfields
  have hsome : (locate (.empty []) (.ofBytes signedComment)).toOption.isSome = true := by
    decide +kernel
  cases hr : locate (.empty []) (.ofBytes signedComment) with
  | error failure => simp [hr, Except.toOption] at hsome
  | ok r =>
    obtain ⟨o, e, ho, hstands, hsum, hcomment⟩ := hvalues r hr
    rw [bytes_ofBytes] at ho hstands hcomment
    obtain rfl : o = 0 := Nat.le_antisymm (hl.2 o ho.1) (ho.2 0 hl.1)
    obtain ⟨hplain, rfl⟩ | hwide := hstands
    · have hentries : r.entries = 2 := hplain.entries.trans (by decide +kernel)
      have hsize : r.directorySize = 0 := hplain.directorySize.trans (by decide +kernel)
      have hoffset : r.directoryOffset = 0 := hplain.directoryOffset.trans (by decide +kernel)
      exact ⟨hw, hl, hfields.trans (congrArg _ (by decide +kernel)), r, rfl, hentries, hsize, hoffset,
        by omega, hplain.zip64, hcomment⟩
    · have := hwide.before
      omega

end JarReader.Zip.EndRecord
