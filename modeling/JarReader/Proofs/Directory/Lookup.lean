import JarReader.Proofs.Directory.Records
import JarReader.Zip.Writing
import Mathlib.Data.List.Find
import Mathlib.Data.List.Induction

namespace JarReader.Zip.Directory

open Bytes

def joined : (parts : List ByteArray) → ByteArray
  | [] => .empty
  | part :: parts => part ++ joined parts

def lastNamed (d : Directory) (name : ByteArray) : Option DirectoryRecord :=
  d.records.reverse.find? fun record => record.name == name

@[simp] lemma joined_append (xs ys : List ByteArray) : joined (xs ++ ys) = joined xs ++ joined ys := by
  induction xs with
  | nil => simp [joined]
  | cons x xs ih => simp [joined, ih, ByteArray.append_assoc]

lemma hashBytes_append (hash : UInt32) (a b : ByteArray) :
    hashBytes hash (a ++ b) = hashBytes (hashBytes hash a) b := by
  simp [hashBytes, ByteArray.data_append]

lemma foldl_hashBytes (hash : UInt32) (parts : List ByteArray) :
    parts.foldl hashBytes hash = hashBytes hash (joined parts) := by
  induction parts generalizing hash with
  | nil => rfl
  | cons part parts ih => rw [List.foldl_cons, ih, joined, hashBytes_append]

lemma matchesFrom_iff {name : ByteArray} {i : Nat} {parts : List ByteArray} (h : i ≤ name.size) :
    matchesFrom name i parts = true ↔ name.extract i name.size = joined parts := by
  induction parts generalizing i with
  | nil =>
    simp only [matchesFrom, joined, decide_eq_true_eq, ByteArray.extract_eq_empty_iff]
    omega
  | cons part parts ih =>
    simp only [matchesFrom, Bool.and_eq_true, occursAt_iff, joined]
    constructor
    · rintro ⟨hp, hm⟩
      have hs := congrArg ByteArray.size hp
      rw [ByteArray.size_extract] at hs
      have hi : i + part.size ≤ name.size := by omega
      rw [ByteArray.extract_eq_extract_append_extract (i + part.size) (by omega) hi, hp,
        (ih hi).mp hm]
    · intro he
      have hs := congrArg ByteArray.size he
      rw [ByteArray.size_extract, ByteArray.size_append] at hs
      have hi : i + part.size ≤ name.size := by omega
      rw [ByteArray.extract_eq_extract_append_extract (i + part.size) (by omega) hi] at he
      have hp : (name.extract i (i + part.size)).size = part.size := by
        rw [ByteArray.size_extract]
        omega
      exact ⟨ByteArray.append_inj_left he hp, (ih hi).mpr (by
        rw [ByteArray.append_inj_left he hp, ByteArray.append_right_inj] at he
        exact he)⟩

def hasSlash (name : ByteArray) : Bool := name.data.back? = some 0x2F

lemma hasSlash_iff_byteAt (name : ByteArray) :
    hasSlash name = decide (byteAt name (name.size - 1) = 0x2F) := by
  by_cases hs : name.size = 0
  · have : name = .empty := ByteArray.size_eq_zero_iff.mp hs
    subst this
    rfl
  · have hl : name.size - 1 < name.size := by omega
    simp [hasSlash, byteAt, Array.back?, hl, ByteArray.getElem_eq_getElem_data]

lemma endsWithSlash_eq (parts : List ByteArray) : endsWithSlash parts = hasSlash (joined parts) := by
  induction parts using List.reverseRecOn with
  | nil => rfl
  | append_singleton parts part ih =>
    have hj : joined (parts ++ [part]) = joined parts ++ part := by simp [joined]
    by_cases hs : part.size = 0
    · have hp : part = .empty := ByteArray.size_eq_zero_iff.mp hs
      rw [hj, hp, ByteArray.append_empty, ← ih]
      simp [endsWithSlash]
    · have hb : (joined parts ++ part).size - 1 = (joined parts).size + (part.size - 1) := by
        rw [ByteArray.size_append]
        omega
      rw [hj, hasSlash_iff_byteAt, hb, byteAt_append_right, endsWithSlash, List.reverse_append,
        List.reverse_singleton, List.singleton_append, List.find?_cons_of_pos (by simpa using hs)]

lemma eq_of_offset_eq {d : Directory} {r s : DirectoryRecord} (hr : r ∈ d.records)
    (hs : s ∈ d.records) (he : r.offset = s.offset) : r = s := by
  simp only [records, List.mem_map] at hr hs
  obtain ⟨x, _, rfl⟩ := hr
  obtain ⟨y, _, rfl⟩ := hs
  exact congrArg (recordAt d.bytes) he

lemma exists_lastNamed_of_mem {d : Directory} {record : DirectoryRecord} (hr : record ∈ d.records) :
    ∃ found, d.lastNamed record.name = some found ∧ found.name = record.name := by
  have hs : (d.lastNamed record.name).isSome = true := by
    rw [lastNamed, List.find?_isSome]
    exact ⟨record, List.mem_reverse.mpr hr, by simp⟩
  obtain ⟨found, hfound⟩ := Option.isSome_iff_exists.mp hs
  exact ⟨found, hfound, by simpa using List.find?_some hfound⟩

section Parsed

variable {b : ByteArray} {declared : Nat} {d : Directory} (h : parse b declared = .ok d)
include h

lemma wanted_eq (parts : List ByteArray) {slot : Slot} (hs : slot ∈ d.chains.slots) :
    (slot.hash = nameHash parts && matchesFrom (recordAt d.bytes slot.offset).name 0 parts) =
      ((recordAt d.bytes slot.offset).name == joined parts) := by
  obtain ⟨offsets, _, _, rfl, hi⟩ := indexed_of_parse h
  have hh := hi.hashes slot hs
  have hm : matchesFrom (recordAt d.bytes slot.offset).name 0 parts = true ↔
      (recordAt d.bytes slot.offset).name = joined parts := by
    rw [matchesFrom_iff (Nat.zero_le _), ByteArray.extract_zero_size]
  have hn : nameHash parts = hashBytes 0 (joined parts) := foldl_hashBytes 0 parts
  rw [Bool.eq_iff_iff, Bool.and_eq_true, decide_eq_true_eq, hm, beq_iff_eq, hh, hn]
  constructor
  · exact And.right
  · intro he
    exact ⟨congrArg _ he, he⟩

lemma findExact_eq (parts : List ByteArray) : d.findExact parts = d.lastNamed (joined parts) := by
  obtain ⟨_, _, _, _, hi⟩ := indexed_of_parse h
  simp only [findExact, lastNamed, records, size]
  rw [hi.threaded.findFrom_head (by simp_all), ← List.map_reverse, List.find?_map]
  refine congrArg _ (List.find?_congr fun slot hs => ?_)
  rw [wanted_eq h parts (by simpa using hs)]
  rfl

lemma find_congr {xs ys : List ByteArray} (hj : joined xs = joined ys) : d.find xs = d.find ys := by
  simp only [find, findExact_eq h, endsWithSlash_eq, joined_append, hj]

lemma mem_of_find_eq_some {parts : List ByteArray} {record : DirectoryRecord}
    (hf : d.find parts = some record) :
    record ∈ d.records ∧
      (record.name = joined parts ∨ record.name = joined parts ++ slash) := by
  have hlast {name : ByteArray} (hl : d.lastNamed name = some record) :
      record ∈ d.records ∧ record.name = name := by
    refine ⟨List.mem_reverse.mp (List.mem_of_find?_eq_some hl), ?_⟩
    simpa using List.find?_some hl
  have hslash : joined (parts ++ [slash]) = joined parts ++ slash := by simp [joined]
  rw [find, findExact_eq h, findExact_eq h, hslash] at hf
  split at hf
  · rename_i found hl
    cases hf
    exact ⟨(hlast hl).1, .inl (hlast hl).2⟩
  · split at hf
    · cases hf
    · exact ⟨(hlast hf).1, .inr (hlast hf).2⟩

lemma exists_find_of_mem {record : DirectoryRecord} (hr : record ∈ d.records)
    {parts : List ByteArray} (hn : record.name = joined parts) :
    ∃ found, d.find parts = some found ∧ found.name = joined parts := by
  obtain ⟨found, hfound, hname⟩ := exists_lastNamed_of_mem hr
  rw [hn] at hfound hname
  refine ⟨found, ?_, hname⟩
  rw [find, findExact_eq h, hfound]

lemma exists_find_of_slash {record : DirectoryRecord} (hr : record ∈ d.records)
    {parts : List ByteArray} (hn : record.name = joined parts ++ slash)
    (hnone : ∀ r ∈ d.records, r.name ≠ joined parts) (hs : hasSlash (joined parts) = false) :
    ∃ found, d.find parts = some found ∧ found.name = joined parts ++ slash := by
  obtain ⟨found, hfound, hname⟩ := exists_lastNamed_of_mem hr
  rw [hn] at hfound hname
  refine ⟨found, ?_, hname⟩
  have hmiss : d.lastNamed (joined parts) = none := by
    rw [lastNamed, List.find?_eq_none]
    intro r hmem
    simpa using hnone r (List.mem_reverse.mp hmem)
  have hjoined : joined (parts ++ [slash]) = joined parts ++ slash := by simp [joined]
  rw [find, findExact_eq h, hmiss, endsWithSlash_eq, hs, findExact_eq h, hjoined, hfound]
  rfl

/-- The index lists the records that stand one behind the other in `b`. A name in parts is looked up
as the whole name: it is the name of the last of these that has it, or else of the last that has it
with a slash behind, unless it ends with one. -/
theorem find_eq_lastNamed (parts : List ByteArray) :
    ∃ offsets, Records b 0 offsets ∧ offsets.length = declared ∧
      d.records = offsets.map (recordAt b) ∧
      d.find parts =
        (d.lastNamed (joined parts)).or
          (if hasSlash (joined parts) then none else d.lastNamed (joined parts ++ slash)) := by
  obtain ⟨offsets, hr, hl, rfl, hi⟩ := indexed_of_parse h
  refine ⟨offsets, hr, hl, records_eq hi, ?_⟩
  have hs : joined (parts ++ [slash]) = joined parts ++ slash := by simp [joined]
  rw [find, findExact_eq h, findExact_eq h, endsWithSlash_eq, hs]
  cases d.lastNamed (joined parts) with
  | none => rfl
  | some record => rfl

end Parsed

/-- Four records; the first two names have one hash, and the last name is that of the first. -/
def collidingBytes : ByteArray :=
  (Archive.directory 0 (["Aa", "BB", "lib/", "Aa"].map fun name =>
    ⟨name.toUTF8, .empty, .empty, 0⟩)).toByteArray

lemma records_collidingBytes : Records collidingBytes 0 [0, 48, 96, 146] := by
  have checked (offset size : Nat)
      (h : (checkRecord collidingBytes offset).toOption = some size := by decide +kernel) :
      checkRecord collidingBytes offset = .ok size := by
    cases hc : checkRecord collidingBytes offset <;> simp_all [Except.toOption]
  have last : Records collidingBytes 194 [] := .done (by decide +kernel)
  have fourth := Records.next (by decide +kernel) (checked 146 48) last
  have third := Records.next (by decide +kernel) (checked 96 50) fourth
  have second := Records.next (by decide +kernel) (checked 48 48) third
  exact .next (by decide +kernel) (checked 0 48) second

theorem find_eq_lastNamed_collidingBytes :
    ∃ d, parse collidingBytes 4 = .ok d ∧
      d.records = [0, 48, 96, 146].map (recordAt collidingBytes) ∧
      d.find ["A".toUTF8, .empty, "a".toUTF8] = some (recordAt collidingBytes 146) ∧
      (recordAt collidingBytes 146).name = "Aa".toUTF8 ∧
      d.find ["lib".toUTF8] = some (recordAt collidingBytes 96) ∧
      (recordAt collidingBytes 96).name = "lib/".toUTF8 := by
  obtain ⟨d, h⟩ : ∃ d, parse collidingBytes 4 = .ok d :=
    ⟨_, parse_eq_ok_iff.mpr ⟨by decide, _, records_collidingBytes, rfl, rfl⟩⟩
  obtain ⟨offsets, hr, _, hrecords, hsplit⟩ :=
    find_eq_lastNamed h ["A".toUTF8, .empty, "a".toUTF8]
  obtain rfl := hr.unique records_collidingBytes
  obtain ⟨_, _, _, _, hslashed⟩ := find_eq_lastNamed h ["lib".toUTF8]
  refine ⟨d, h, hrecords, ?_, by decide +kernel, ?_, by decide +kernel⟩
  · have hlast : d.lastNamed (joined ["A".toUTF8, .empty, "a".toUTF8]) =
        some (recordAt collidingBytes 146) := by
      rw [lastNamed, hrecords]
      exact List.find?_cons_of_pos (by decide +kernel)
    rw [hsplit, hlast]
    rfl
  · have hnone : d.lastNamed (joined ["lib".toUTF8]) = none := by
      rw [lastNamed, hrecords, List.find?_eq_none]
      decide +kernel
    have hlast : d.lastNamed (joined ["lib".toUTF8] ++ slash) =
        some (recordAt collidingBytes 96) := by
      rw [lastNamed, hrecords]
      refine (List.find?_cons_of_neg ?_).trans (List.find?_cons_of_pos ?_)
      all_goals decide +kernel
    have hplain : hasSlash (joined ["lib".toUTF8]) = false := by decide +kernel
    rw [hslashed, hnone, hlast, hplain]
    rfl

end JarReader.Zip.Directory
