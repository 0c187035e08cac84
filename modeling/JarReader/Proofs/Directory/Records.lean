import JarReader.Proofs.Bytes
import JarReader.Proofs.Directory.Chains

namespace JarReader.Zip.Directory

open Bytes DirectoryRecord

inductive Records (b : ByteArray) : Nat → List Nat → Prop
  | done {offset : Nat} : b.size ≤ offset → Records b offset []
  | next {offset size : Nat} {rest : List Nat} : offset < b.size →
      checkRecord b offset = .ok size → Records b (offset + size) rest →
      Records b offset (offset :: rest)

lemma Records.unique {b : ByteArray} {offset : Nat} {xs ys : List Nat} (hx : Records b offset xs)
    (hy : Records b offset ys) : xs = ys := by
  induction hx generalizing ys with
  | done hd =>
    cases hy with
    | done => rfl
    | next => omega
  | next hlt hc _ ih =>
    cases hy with
    | done => omega
    | next _ hc' hy =>
      rw [hc] at hc'
      cases hc'
      rw [ih hy]

lemma checkRecord_eq_ok_iff {b : ByteArray} {offset size : Nat} :
    checkRecord b offset = .ok size ↔
      fixedSize ≤ b.size - offset ∧ u32At b offset = DirectoryRecord.signature ∧
        sizeAt b offset ≤ b.size - offset ∧ size = sizeAt b offset := by
  unfold checkRecord
  split
  · constructor
    · rintro ⟨⟩
    · omega
  · split
    · constructor
      · rintro ⟨⟩
      · rintro ⟨_, hs, _⟩
        contradiction
    · split
      · constructor
        · rintro ⟨⟩
        · omega
      · simp_all [eq_comm]

lemma size_eq_of_toList_eq_append {all found : Array Nat} {rest : List Nat}
    (h : all.toList = found.toList ++ rest) : all.size = found.size + rest.length := by
  simpa using congrArg List.length h

lemma offsetsFrom_eq_ok_iff {b : ByteArray} {declared offset : Nat} {found all : Array Nat} :
    offsetsFrom b declared offset found = .ok all ↔
      ∃ rest, Records b offset rest ∧ all.toList = found.toList ++ rest ∧ all.size = declared := by
  fun_induction offsetsFrom b declared offset found with
  | case1 offset found ho hd =>
    constructor
    · rintro ⟨⟩
    · rintro ⟨rest, hr, ha, hs⟩
      have hl := size_eq_of_toList_eq_append ha
      cases hr with
      | done => omega
      | next => simp only [List.length_cons] at hl; omega
  | case2 offset found ho hd fault hc =>
    constructor
    · rintro ⟨⟩
    · rintro ⟨rest, hr, _⟩
      cases hr with
      | done => omega
      | next _ hc' => simp [hc] at hc'
  | case3 offset found ho hd size hc ih =>
    rw [ih]
    constructor
    · rintro ⟨rest, hr, ha, hs⟩
      exact ⟨offset :: rest, .next ho hc hr, by simpa using ha, hs⟩
    · rintro ⟨rest, hr, ha, hs⟩
      cases hr with
      | done => omega
      | next _ hc' hr =>
        rw [hc] at hc'
        cases hc'
        exact ⟨_, hr, by simpa using ha, hs⟩
  | case4 offset found ho hd =>
    constructor
    · rintro ⟨⟩
      exact ⟨[], .done (by omega), by simp, hd⟩
    · rintro ⟨rest, hr, ha, hs⟩
      cases hr with
      | done =>
        have ha : all = found := Array.ext' (by simpa using ha)
        rw [ha]
      | next => omega
  | case5 offset found ho hd =>
    constructor
    · rintro ⟨⟩
    · rintro ⟨rest, hr, ha, hs⟩
      have hl := size_eq_of_toList_eq_append ha
      cases hr with
      | done => simp only [List.length_nil] at hl; omega
      | next => omega

lemma parse_eq_ok_iff {b : ByteArray} {declared : Nat} {d : Directory} :
    parse b declared = .ok d ↔
      declared < endMark.toNat ∧ ∃ offsets, Records b 0 offsets ∧ offsets.length = declared ∧
        d = ⟨b, offsets.foldl (indexRecord b) (.empty (bucketCount b declared))⟩ := by
  constructor
  · intro h
    unfold parse at h
    split at h
    · cases h
    · split at h
      · cases h
      · rename_i offsets ho
        cases h
        obtain ⟨rest, hr, ha, hs⟩ := offsetsFrom_eq_ok_iff.mp ho
        have ha : offsets.toList = rest := by simpa using ha
        subst ha
        exact ⟨by omega, offsets.toList, hr, by simpa using hs, by simp⟩
  · rintro ⟨hd, offsets, hr, hs, rfl⟩
    have ho : offsetsFrom b declared 0 #[] = .ok offsets.toArray :=
      offsetsFrom_eq_ok_iff.mpr ⟨offsets, hr, by simp, by simpa using hs⟩
    simp [parse, Nat.not_le_of_lt hd, ho]

lemma Records.length_mul_le {b : ByteArray} {offset : Nat} {offsets : List Nat}
    (h : Records b offset offsets) : offsets.length * fixedSize ≤ b.size - offset := by
  induction h with
  | done => simp
  | @next offset size rest ho hc _ ih =>
    obtain ⟨_, _, hs, rfl⟩ := checkRecord_eq_ok_iff.mp hc
    simp only [List.length_cons, Nat.succ_mul, sizeAt] at *
    omega

lemma count_mul_le_of_parse {b : ByteArray} {declared : Nat} {d : Directory}
    (h : parse b declared = .ok d) : declared * fixedSize ≤ b.size := by
  obtain ⟨_, offsets, hr, rfl, _⟩ := parse_eq_ok_iff.mp h
  exact hr.length_mul_le

lemma name_recordAt (b : ByteArray) (offset : Nat) :
    (recordAt b offset).name =
      b.extract (offset + fixedSize) (offset + fixedSize + nameLengthAt b offset) := by
  have hl : (recordAt b offset).nameLength = nameLengthAt b offset := by
    simp only [nameLength, nameLengthAt, recordAt]
    rw [u16At_extract (by simp only [sizeAt, fixedSize]; omega), Nat.zero_add]
  rw [DirectoryRecord.name, hl, recordAt, ByteArray.extract_extract]
  congr 1
  simp only [sizeAt]
  omega

structure Indexed (b : ByteArray) (offsets : List Nat) (c : Chains) : Prop where
  threaded : c.Threaded
  offsets : c.slots.toList.map Slot.offset = offsets
  hashes : ∀ slot ∈ c.slots, slot.hash = hashBytes 0 (recordAt b slot.offset).name

lemma Indexed.size {b : ByteArray} {offsets : List Nat} {c : Chains} (h : Indexed b offsets c) :
    c.slots.size = offsets.length := by
  simpa using congrArg List.length h.offsets

lemma indexed_empty (b : ByteArray) {buckets : Nat} (h : 0 < buckets) :
    Indexed b [] (.empty buckets) :=
  ⟨Chains.threaded_empty h, rfl, by simp [Chains.empty]⟩

lemma Indexed.push {b : ByteArray} {offsets : List Nat} {c : Chains} (h : Indexed b offsets c)
    (hs : offsets.length < endMark.toNat) (offset : Nat) :
    Indexed b (offsets ++ [offset]) (indexRecord b c offset) := by
  rw [← h.size] at hs
  refine ⟨h.threaded.push hs _ _, ?_, ?_⟩
  · simp [indexRecord, Chains.push, h.offsets]
  · intro slot hslot
    simp only [indexRecord, Chains.push, Array.mem_push] at hslot
    rcases hslot with hold | rfl
    · exact h.hashes slot hold
    · simp only [name_recordAt]

lemma Indexed.foldl {b : ByteArray} {offsets more : List Nat} {c : Chains} (h : Indexed b offsets c)
    (hs : offsets.length + more.length ≤ endMark.toNat) :
    Indexed b (offsets ++ more) (more.foldl (indexRecord b) c) := by
  induction more generalizing offsets c with
  | nil => simpa using h
  | cons offset more ih =>
    simp only [List.length_cons] at hs
    have := ih (h.push (by omega) offset) (by simp only [List.length_append, List.length_singleton]; omega)
    simpa using this

lemma bucketCount_pos (b : ByteArray) (declared : Nat) : 0 < bucketCount b declared := by
  simp only [bucketCount]
  omega

lemma size_indexRecord (b : ByteArray) (c : Chains) (offset : Nat) :
    (indexRecord b c offset).slots.size = c.slots.size + 1 := by
  rw [indexRecord, Chains.push, Array.size_push]

lemma indexed_offsets (b : ByteArray) {offsets : List Nat} (hs : offsets.length ≤ endMark.toNat) :
    Indexed b offsets (offsets.foldl (indexRecord b) (.empty (bucketCount b offsets.length))) :=
  (indexed_empty b (bucketCount_pos _ _)).foldl (by simpa using hs)

lemma indexed_of_parse {b : ByteArray} {declared : Nat} {d : Directory}
    (h : parse b declared = .ok d) :
    ∃ offsets, Records b 0 offsets ∧ offsets.length = declared ∧ d.bytes = b ∧
      Indexed b offsets d.chains := by
  obtain ⟨hd, offsets, hr, rfl, rfl⟩ := parse_eq_ok_iff.mp h
  exact ⟨offsets, hr, rfl, rfl, indexed_offsets b (Nat.le_of_lt hd)⟩

lemma records_eq {b : ByteArray} {offsets : List Nat} {c : Chains} (h : Indexed b offsets c) :
    (⟨b, c⟩ : Directory).records = offsets.map (recordAt b) := by
  rw [records, ← h.offsets, List.map_map]
  rfl

end JarReader.Zip.Directory
