import JarReader.Proofs.Directory.Extents
import JarReader.Proofs.Guarded.Reading
import JarReader.Proofs.Jar.Copy

namespace JarReader

open Zip Bytes

namespace Zip

lemma DirectoryRecord.get_extents_lt (r : DirectoryRecord) (q : Quantity) :
    r.extents.get q < UInt64.size := by
  rw [get_extents]
  split
  · exact number_lt _ _ 8
  · exact Nat.lt_trans (r.slot q).toNat_lt (by decide)

namespace LocalHeader

def SignedAt (b : ByteArray) (o : Nat) : Prop := b.extract o (o + 4) = ⟨#[0x50, 0x4B, 0x03, 0x04]⟩

instance (b : ByteArray) (o : Nat) : Decidable (SignedAt b o) :=
  inferInstanceAs (Decidable (_ = _))

def dataStart (b : ByteArray) (o : Nat) : Nat :=
  o + 30 + (u16At b (o + 26)).toNat + (u16At b (o + 28)).toNat

lemma decode_at {b : ByteArray} {o : Nat} (h : o + 30 ≤ b.size) :
    LocalHeader.decode (b.extract o (o + 30)) o =
      if SignedAt b o then .ok ⟨u16At b (o + 26), u16At b (o + 28)⟩ else .error (.localHeader o) := by
  have hs : (b.extract o (o + 30)).size = 30 := by
    rw [ByteArray.size_extract]
    omega
  have hsignature : u32At (b.extract o (o + 30)) 0 = u32At b o := u32At_extract (by omega)
  have hname : u16At (b.extract o (o + 30)) 26 = u16At b (o + 26) := u16At_extract (by omega)
  have hextra : u16At (b.extract o (o + 30)) 28 = u16At b (o + 28) := u16At_extract (by omega)
  have hiff : u32At b o = LocalHeader.signature ↔ SignedAt b o := u32At_eq_iff (by omega) _
  simp [decode, hs, hsignature, hname, hextra, hiff, fixedSize, ite_not]

end LocalHeader

end Zip

namespace Jar

open LocalHeader

structure Behind (d : Disk) (b : ByteArray) (o c : Nat) (result : Except Failure View) : Prop where
  found : (∃ v, result = .ok v) ↔ o + 30 ≤ b.size ∧ SignedAt b o ∧ dataStart b o + c ≤ b.size
  data : ∀ v, result = .ok v → v.bytes d = b.extract (dataStart b o) (dataStart b o + c)
  truncated : b.size < o + 30 → result = .error (.io (.endOfData 30 o b.size)) ∧
    (IoFault.endOfData 30 o b.size).kind = .unexpectedEof
  unsigned : o + 30 ≤ b.size → ¬ SignedAt b o → result = .error (.format (.localHeader o))
  overrun : o + 30 ≤ b.size → SignedAt b o → b.size < dataStart b o + c →
    result = .error (.outOfBounds (dataStart b o) c b.size)

variable {d : Disk} {j : Jar}

lemma entryData_eq (hj : j.archive.Whole d) (e : Entry) :
    j.entryData d e =
      if e.headerOffset + 30 ≤ (j.archive.bytes d).size then
        if SignedAt (j.archive.bytes d) e.headerOffset then
          j.archive.part (dataStart (j.archive.bytes d) e.headerOffset) e.compressedSize
        else .error (.format (.localHeader e.headerOffset))
      else .error (.io (.endOfData 30 e.headerOffset (j.archive.bytes d).size)) := by
  rw [entryData, hj.readExact_eq_ite _ (by decide), LocalHeader.fixedSize, ← hj.size_bytes]
  by_cases hl : e.headerOffset + 30 ≤ (j.archive.bytes d).size
  · rw [if_pos hl, if_pos hl]
    simp only [bind, Except.bind]
    rw [decode_at hl]
    by_cases hs : SignedAt (j.archive.bytes d) e.headerOffset
    · rw [if_pos hs, if_pos hs]
      simp only [LocalHeader.size, LocalHeader.fixedSize, dataStart, Nat.add_assoc]
    · rw [if_neg hs, if_neg hs]
      rfl
  · rw [if_neg hl, if_neg hl]
    rfl

lemma behind_entryData (hj : j.archive.Whole d) (e : Entry) :
    Behind d (j.archive.bytes d) e.headerOffset e.compressedSize (j.entryData d e) := by
  have hpart (offset length : Nat) : j.archive.part offset length =
      if offset + length ≤ (j.archive.bytes d).size then
        .ok { j.archive with start := j.archive.start + offset, length := length }
      else .error (.outOfBounds offset length (j.archive.bytes d).size) := by
    rw [View.part, hj.size_bytes]
  refine ⟨?_, fun v hv => ?_, fun hl => ?_, fun hl hs => ?_, fun hl hs hc => ?_⟩
  · rw [entryData_eq hj, hpart]
    split
    · split
      · split <;> simp_all
      · simp_all
    · simp_all
  · rw [entryData_eq hj] at hv
    split at hv
    · split at hv
      · exact View.bytes_part hv
      · cases hv
    · cases hv
  · rw [entryData_eq hj, if_neg (Nat.not_le_of_lt hl)]
    exact ⟨rfl, rfl⟩
  · rw [entryData_eq hj, if_pos hl, if_neg hs]
  · rw [entryData_eq hj, if_pos hl, if_pos hs, hpart, if_neg (Nat.not_le_of_lt hc)]

lemma headerOffset_lt {e : Entry} (he : e ∈ j.entries) :
    e.headerOffset < UInt64.size ∧ e.compressedSize < UInt64.size := by
  obtain ⟨record, _, rfl⟩ := List.mem_map.mp he
  exact ⟨record.get_extents_lt .headerOffset, record.get_extents_lt .compressedSize⟩

/-- The data of a listed entry are the bytes behind its local header, whatever its position and size
are. No sum on the way is more than 64 bits wide, as long as the file or the memory in which the jar
lies has a length of 63 bits. -/
theorem entryData_behind_header (hj : j.Opened d) {e : Entry} (he : e ∈ j.entries) {b : ByteArray}
    (hb : j.archive.bytes d = b) :
    e.headerOffset < 2 ^ 64 ∧ e.compressedSize < 2 ^ 64 ∧
      Behind d b e.headerOffset e.compressedSize (j.entryData d e) ∧
      (e.method = .stored → ∀ name, j.entry? name = some e →
        j.content? d name = (j.entryData d e).map fun v => some (v.bytes d)) ∧
      ((j.archive.source.bytes d).size < 2 ^ 63 →
        (Guarded.entryData d j e).run = some (j.entryData d e) ∧
        (e.method = .stored → ∀ room,
          (Guarded.storedContent d j room e).run = some (j.entryContent d e))) := by
  subst hb
  obtain ⟨ho, hc⟩ := headerOffset_lt he
  refine ⟨ho, hc, behind_entryData hj.whole e, fun hstored name hname => ?_, fun hsize => ?_⟩
  · rw [content?, hname]
    dsimp only
    rw [entryContent_stored hstored]
    cases j.entryData d e <;> rfl
  · have hsound : Guarded.Sound d j.archive := ⟨hj.whole, Nat.lt_trans hsize (by decide)⟩
    exact ⟨Guarded.run_entryData hsound hsize ho, Guarded.run_storedContent hsound hsize ho⟩

def extraBytes : ByteArray :=
  (Archive.mk [⟨"a".toUTF8, "x".toUTF8, ⟨#[1, 2, 3]⟩, 0⟩] .empty false).bytes

theorem entryData_behind_header_extraBytes :
    ∃ (j : Jar) (e : Entry), j.Opened (.empty []) ∧ e ∈ j.entries ∧ e.headerOffset = 0 ∧
      dataStart (j.archive.bytes (.empty [])) 0 = 34 ∧
      Behind (.empty []) (j.archive.bytes (.empty [])) e.headerOffset e.compressedSize
        (j.entryData (.empty []) e) ∧
      j.content? (.empty []) "a" =
        (j.entryData (.empty []) e).map (fun v => some (v.bytes (.empty []))) ∧
      (Guarded.entryData (.empty []) j e).run = some (j.entryData (.empty []) e) := by
  have hs : (ofData (.empty []) (.ofBytes extraBytes) "e.jar").toOption.any (fun j =>
      (j.archive.source.bytes (.empty [])).size < 2 ^ 63 &&
        dataStart (j.archive.bytes (.empty [])) 0 = 34 &&
        (j.entry? "a").any fun e => e.method = .stored && e.headerOffset = 0) = true := by
    decide +kernel
  obtain ⟨j, hj, hs⟩ := exists_eq_ok_of_any hs
  simp only [Option.any_eq_true, Bool.and_eq_true, decide_eq_true_eq] at hs
  obtain ⟨⟨hsize, hstart⟩, e, hname, hstored, hoffset⟩ := hs
  have ho : j.Opened (.empty []) := .data (.memory extraBytes) hj
  have hempty := start_ofView hj
  obtain ⟨_, _, hparse⟩ := exists_parse_of_ofView hj
  have he : e ∈ j.entries := by
    rw [entry?_of_start hempty, Option.map_eq_some_iff] at hname
    obtain ⟨record, hfind, rfl⟩ := hname
    rw [entries_of_start hempty]
    exact List.mem_map_of_mem (Directory.mem_of_find_eq_some hparse hfind).1
  obtain ⟨_, _, hbehind, hcontent, hguarded⟩ := entryData_behind_header ho he rfl
  exact ⟨j, e, ho, he, hoffset, hstart, hbehind, hcontent hstored "a" hname, (hguarded hsize).1⟩

end Jar

end JarReader
