import JarReader.Proofs.EndRecord.Locate

namespace JarReader.Zip.EndRecord

open View

lemma place_eq_ok_iff {entries size offset directoryEnd : Nat} {zip64 : Bool}
    {comment : ByteArray} {r : EndRecord} :
    place entries size offset directoryEnd zip64 comment = .ok r ↔
      size + offset ≤ directoryEnd ∧
        r = ⟨entries, size, offset, directoryEnd - size - offset, zip64, comment⟩ := by
  unfold place
  split
  · constructor
    · rintro ⟨⟩
    · omega
  · constructor
    · rintro ⟨⟩
      exact ⟨by omega, rfl⟩
    · rintro ⟨_, rfl⟩
      rfl

def preceded (r : EndRecord) (n : Nat) : EndRecord := { r with archiveStart := r.archiveStart + n }

lemma place_preceded {entries size offset directoryEnd : Nat} {zip64 : Bool} {comment : ByteArray}
    {r : EndRecord} (h : place entries size offset directoryEnd zip64 comment = .ok r) (n : Nat) :
    place entries size offset (n + directoryEnd) zip64 comment = .ok (r.preceded n) := by
  obtain ⟨hl, rfl⟩ := place_eq_ok_iff.mp h
  refine place_eq_ok_iff.mpr ⟨by omega, ?_⟩
  simp only [preceded, mk.injEq, and_true, true_and]
  omega

variable {d : Disk} {v : View}

lemma decode_eq_ok_iff {e : Nat} {record : ByteArray} {r : EndRecord} :
    decode d v e record = .ok r ↔
      ∃ fields, EndFields.decode record = .ok fields ∧
        ((∃ wide o, fields.escaped = true ∧ zip64Record? d v e = .ok (some (wide, o)) ∧
            place wide.entries.toNat wide.directorySize.toNat wide.directoryOffset.toNat o true
              (record.extract EndFields.size record.size) = .ok r) ∨
          ((fields.escaped = true → zip64Record? d v e = .ok none) ∧
            place fields.entries.toNat fields.directorySize.toNat fields.directoryOffset.toNat e
              false (record.extract EndFields.size record.size) = .ok r)) := by
  unfold decode
  cases EndFields.decode record with
  | error fault => simp [throw, throwThe, MonadExceptOf.throw]
  | ok fields =>
    cases he : fields.escaped with
    | false => simp [he, bind, Except.bind, pure, Except.pure]
    | true =>
      cases hz : zip64Record? d v e with
      | error f => simp [he, bind, Except.bind]
      | ok found? =>
        cases found? with
        | none => simp [he, bind, Except.bind]
        | some found =>
          obtain ⟨wide, o⟩ := found
          simp [he, bind, Except.bind]

lemma locate_eq_ok_iff (hv : v.Whole d) {r : EndRecord} :
    locate d v = .ok r ↔
      ∃ i, LastFit (v.bytes d) i ∧
        decode d v i ((v.bytes d).extract i v.length) = .ok r := by
  rw [locate_eq hv]
  cases hs : search (v.bytes d) with
  | none =>
    constructor
    · rintro ⟨⟩
    · rintro ⟨i, hi, _⟩
      rw [search_eq_some_iff.mpr hi] at hs
      cases hs
  | some i =>
    constructor
    · exact fun h => ⟨i, search_eq_some_iff.mp hs, h⟩
    · rintro ⟨k, hk, h⟩
      rw [search_eq_some_iff.mpr hk] at hs
      cases hs
      exact h

end JarReader.Zip.EndRecord
