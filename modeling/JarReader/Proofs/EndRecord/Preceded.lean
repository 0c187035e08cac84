import JarReader.Proofs.EndRecord.Decode
import JarReader.Proofs.EndRecord.Wide
import JarReader.Zip.Directory.Record

namespace JarReader.Zip.EndRecord

open Bytes View

/-- If a ZIP64 record is found for the end record of `a`, then right before the locator. -/
def WideAdjacent (d : Disk) (a : ByteArray) : Prop :=
  ∀ i wide o, LastFit a i → zip64Record? d (.ofBytes a) i = .ok (some (wide, o)) →
    o + Zip64Record.size + Zip64Locator.size = i

variable {d : Disk} (p : ByteArray) {a : ByteArray}

lemma lastFit_append {i : Nat} (h : LastFit a i) : LastFit (p ++ a) (p.size + i) := by
  refine ⟨by rw [fitsAt_append]; exact h.1, fun j hj => ?_⟩
  obtain ⟨k, rfl⟩ := Nat.exists_eq_add_of_le (show p.size ≤ j by omega)
  rw [fitsAt_append]
  exact h.2 k (by omega)

lemma zip64Record?_append_none {e : Nat} (he : e ≤ a.size) (hl : Zip64Locator.size ≤ e)
    (h : zip64Record? d (.ofBytes a) e = .ok none) :
    zip64Record? d (.ofBytes (p ++ a)) (p.size + e) = .ok none := by
  have hs := (zip64Record?_eq_none_iff (whole_ofBytes d a) he).mp h hl
  rw [zip64Record?_eq_none_iff (whole_ofBytes d _)
    (by rw [length_ofBytes, ByteArray.size_append]; omega)]
  intro _
  rw [bytes_ofBytes] at hs ⊢
  rwa [Nat.add_sub_assoc hl, u32At_append_right]

lemma zip64Record?_append_some {o : Nat} {wide : Zip64Record}
    (he : o + Zip64Record.size + Zip64Locator.size ≤ a.size)
    (h : zip64Record? d (.ofBytes a) (o + Zip64Record.size + Zip64Locator.size) =
      .ok (some (wide, o))) :
    zip64Record? d (.ofBytes (p ++ a)) (p.size + (o + Zip64Record.size + Zip64Locator.size)) =
      .ok (some (wide, p.size + o)) := by
  obtain ⟨hl, hd⟩ := (zip64Record?_adjacent_iff (whole_ofBytes d a) he).mp h
  rw [bytes_ofBytes] at hl hd
  rw [← Nat.add_assoc, ← Nat.add_assoc, zip64Record?_adjacent_iff (whole_ofBytes d _)
    (by rw [length_ofBytes, ByteArray.size_append]; omega), bytes_ofBytes, Nat.add_assoc,
    u32At_append_right, ByteArray.extract_append_size_add]
  exact ⟨hl, hd⟩

lemma locator_fits {fields : EndFields} {e : Nat} (he : fields.escaped = true)
    (hcount : fields.entries.toNat * DirectoryRecord.fixedSize ≤ fields.directorySize.toNat)
    (hplace : fields.directorySize.toNat + fields.directoryOffset.toNat ≤ e) :
    Zip64Locator.size ≤ e := by
  simp only [EndFields.escaped, Bool.or_eq_true, decide_eq_true_eq] at he
  simp only [Zip64Locator.size, DirectoryRecord.fixedSize] at *
  rcases he with (h | h) | h
  · rw [h] at hcount
    have : (0xFFFF : UInt16).toNat = 65535 := rfl
    omega
  · rw [h] at hplace
    have : (0xFFFFFFFF : UInt32).toNat = 4294967295 := rfl
    omega
  · rw [h] at hplace
    have : (0xFFFFFFFF : UInt32).toNat = 4294967295 := rfl
    omega

lemma decode_append {e : Nat} {record : ByteArray} {r : EndRecord} (he : e ≤ a.size)
    (h : decode d (.ofBytes a) e record = .ok r)
    (hcount : r.entries * DirectoryRecord.fixedSize ≤ r.directorySize)
    (hwide : r.zip64 = true → ∀ wide o, zip64Record? d (.ofBytes a) e = .ok (some (wide, o)) →
      o + Zip64Record.size + Zip64Locator.size = e) :
    decode d (.ofBytes (p ++ a)) (p.size + e) record = .ok (r.preceded p.size) := by
  obtain ⟨fields, hf, hr⟩ := decode_eq_ok_iff.mp h
  refine decode_eq_ok_iff.mpr ⟨fields, hf, ?_⟩
  rcases hr with ⟨wide, o, hescaped, hz, hp⟩ | ⟨hz, hp⟩
  · obtain ⟨_, rfl⟩ := place_eq_ok_iff.mp hp
    obtain rfl := hwide rfl wide o hz
    exact .inl ⟨wide, p.size + o, hescaped, zip64Record?_append_some p he hz, place_preceded hp _⟩
  · refine .inr ⟨fun hescaped => ?_, place_preceded hp _⟩
    obtain ⟨hl, rfl⟩ := place_eq_ok_iff.mp hp
    -- with fewer bytes before the end record, the locator would be looked for in `p`
    exact zip64Record?_append_none p he (locator_fits hescaped hcount hl) (hz hescaped)

lemma locate_append {r : EndRecord} (h : locate d (.ofBytes a) = .ok r)
    (hcount : r.entries * DirectoryRecord.fixedSize ≤ r.directorySize)
    (hwide : r.zip64 = true → WideAdjacent d a) :
    locate d (.ofBytes (p ++ a)) = .ok (r.preceded p.size) := by
  rw [locate_eq_ok_iff (whole_ofBytes d _), bytes_ofBytes] at h ⊢
  obtain ⟨i, hi, hr⟩ := h
  have hs := (size_of_fitsAt hi.1).1
  refine ⟨p.size + i, lastFit_append p hi, ?_⟩
  have hb : (p ++ a).extract (p.size + i) (ofBytes (p ++ a)).length =
      a.extract i (ofBytes a).length := by
    simp only [ofBytes, ByteArray.size_append]
    exact ByteArray.extract_append_size_add
  rw [hb]
  exact decode_append p (by omega) hr hcount fun hz wide o => hwide hz i wide o hi

lemma archive_append {r : EndRecord} {v : View} (h : r.archive (.ofBytes a) = .ok v) :
    ∃ w, (r.preceded p.size).archive (.ofBytes (p ++ a)) = .ok w ∧ v.Alike d w := by
  obtain ⟨hl, rfl⟩ := archive_eq_ok_iff.mp h
  rw [length_ofBytes] at hl
  have hstart : (r.preceded p.size).archiveStart ≤ (ofBytes (p ++ a)).length := by
    simp only [preceded, length_ofBytes, ByteArray.size_append]
    omega
  have hrest : p.size + a.size - (p.size + r.archiveStart) = a.size - r.archiveStart := by omega
  have hw := archive_eq hstart
  refine ⟨_, hw, ((whole_ofBytes d a).part (part_of_archive h)).alike
    ((whole_ofBytes d _).part (part_of_archive hw)) ?_⟩
  rw [bytes_part (part_of_archive h), bytes_part (part_of_archive hw)]
  simp only [bytes_ofBytes, length_ofBytes, preceded, Nat.add_comm r.archiveStart p.size,
    ByteArray.size_append, hrest]
  rw [Nat.add_assoc, ByteArray.extract_append_size_add]

end JarReader.Zip.EndRecord
