import JarReader.Jar.Content
import JarReader.Proofs.Guarded.Basic
import JarReader.Proofs.Jar.Opening

namespace JarReader.Guarded

open Bytes View Zip

lemma eq_add_of_sum {a b n : Nat} (h : sum a b = some n) : n = a + b := by
  rw [sum] at h
  split at h
  · exact (Option.some.inj h).symm
  · cases h

def read (d : Disk) (v : View) (position n : Nat) : Option ByteArray :=
  if position < v.length then do
    let first ← sum v.start position
    let last ← sum first (min n (v.length - position))
    return (v.source.bytes d).extract first last
  else some .empty

def readOn (d : Disk) (v : View) (position done n : Nat) : Option ByteArray := do
  let next ← sum position done
  read d v next n

def fill (d : Disk) (v : View) (position wanted : Nat) (got : ByteArray) :
    Option (Except Failure ByteArray) :=
  if got.size < wanted then
    match readOn d v position got.size (wanted - got.size) with
    | none => none
    | some bytes =>
      if bytes.size = 0 then some (.error (.io (.endOfData wanted position v.length)))
      else fill d v position wanted (got ++ bytes)
  else some (.ok got)
termination_by wanted - got.size
decreasing_by
  rw [ByteArray.size_append]
  omega

/-- Readings until nothing is left; the one at `position` has room for `room position + 1` bytes. -/
def drain (d : Disk) (v : View) (room : Nat → Nat) (position : Nat) (got : ByteArray) :
    Option ByteArray :=
  if position < v.length then
    match read d v position (room position + 1) with
    | none => none
    | some bytes =>
      if bytes.size = 0 then some got
      else
        match _next : sum position bytes.size with
        | none => none
        | some next => drain d v room next (got ++ bytes)
  else some got
termination_by v.length - position
decreasing_by
  have := eq_add_of_sum _next
  omega

variable {d : Disk} {v : View}

lemma read_eq (hv : Sound d v) (position n : Nat) :
    read d v position n = some ((v.bytes d).extract position (position + n)) := by
  have hs := hv.length_lt
  rw [← View.read_eq, read, View.read]
  by_cases hp : position < v.length
  · rw [if_pos hp, if_pos hp, sum_eq (by omega), Option.bind_eq_bind, Option.bind_some,
      sum_eq (by omega)]
    rfl
  · rw [if_neg hp, if_neg hp]

lemma extract_size (b : ByteArray) (i n : Nat) :
    b.extract i (i + (b.extract i (i + n)).size) = b.extract i (i + n) := by
  rw [ByteArray.size_extract]
  by_cases hi : i ≤ b.size
  · rw [← extract_min b i (i + n)]
    congr 1
    omega
  · rw [ByteArray.extract_eq_empty_iff.mpr (by omega), eq_comm, ByteArray.extract_eq_empty_iff]
    omega

def Got (d : Disk) (v : View) (position : Nat) (got : ByteArray) : Prop :=
  got = (v.bytes d).extract position (position + got.size)

section Got

variable {position : Nat} {got : ByteArray} (hgot : Got d v position got)
include hgot

lemma Got.append (n : Nat) :
    Got d v position
      (got ++ (v.bytes d).extract (position + got.size) (position + got.size + n)) := by
  have happend := ByteArray.extract_eq_extract_append_extract (a := v.bytes d) (i := position)
    (k := position + (got.size + n)) (position + got.size) (by omega) (by omega)
  rw [← hgot, ← Nat.add_assoc] at happend
  rw [Got, ← happend, Nat.add_assoc, extract_size]

variable (hv : Sound d v)
include hv

lemma Got.size_le : got.size ≤ v.length - position := by
  have hsize := congrArg ByteArray.size hgot
  rw [ByteArray.size_extract, hv.whole.size_bytes] at hsize
  omega

lemma Got.readOn_eq (hp : position < UInt64.size) (n : Nat) :
    readOn d v position got.size n =
      some ((v.bytes d).extract (position + got.size) (position + got.size + n)) := by
  have hs := hv.length_lt
  have hsize := hgot.size_le hv
  rw [readOn, sum_eq (by omega), Option.bind_eq_bind, Option.bind_some, read_eq hv]

lemma fill_eq (hp : position < UInt64.size) {wanted : Nat} (hle : got.size ≤ wanted) :
    fill d v position wanted got = some (v.readExact d position wanted) := by
  fun_induction fill d v position wanted got with
  | case1 got hlt hnone =>
    rw [hgot.readOn_eq hv hp] at hnone
    cases hnone
  | case2 got hlt bytes hbytes hempty =>
    rw [hgot.readOn_eq hv hp] at hbytes
    cases hbytes
    have hend : (v.read d position wanted).size ≠ wanted := by
      rw [ByteArray.size_extract, hv.whole.size_bytes] at hempty
      rw [View.read_eq, ByteArray.size_extract, hv.whole.size_bytes]
      omega
    rw [View.readExact, if_neg hend]
  | case3 got hlt bytes hbytes hempty ih =>
    rw [hgot.readOn_eq hv hp] at hbytes
    cases hbytes
    refine ih (hgot.append _) ?_
    rw [ByteArray.size_append, ByteArray.size_extract]
    omega
  | case4 got hlt =>
    obtain rfl : got.size = wanted := Nat.le_antisymm hle (Nat.le_of_not_lt hlt)
    rw [View.readExact, View.read_eq, ← hgot, if_pos rfl]

end Got

lemma fill_empty (hv : Sound d v) {position : Nat} (hp : position < UInt64.size) (n : Nat) :
    fill d v position n .empty = some (v.readExact d position n) :=
  fill_eq (by simp [Got]) hv hp (Nat.zero_le n)

lemma drain_eq (hv : Sound d v) (room : Nat → Nat) {position : Nat} {got : ByteArray}
    (hgot : Got d v 0 got) (hp : got.size = position) :
    drain d v room position got = some (v.bytes d) := by
  have hs := hv.length_lt
  fun_induction drain d v room position got with
  | case1 position got hlt hnone =>
    rw [read_eq hv] at hnone
    cases hnone
  | case2 position got hlt bytes hbytes hempty =>
    rw [read_eq hv] at hbytes
    cases hbytes
    rw [ByteArray.size_extract, hv.whole.size_bytes] at hempty
    omega
  | case3 position got hlt bytes hbytes hempty hnone =>
    rw [read_eq hv] at hbytes
    cases hbytes
    rw [sum_eq (by rw [ByteArray.size_extract, hv.whole.size_bytes]; omega)] at hnone
    cases hnone
  | case4 position got hlt bytes hbytes hempty next hnext ih =>
    rw [read_eq hv] at hbytes
    cases hbytes
    have hmore := hgot.append (room position + 1)
    rw [Nat.zero_add, hp] at hmore
    refine ih hmore ?_
    rw [eq_add_of_sum hnext, ByteArray.size_append, hp]
  | case5 position got hlt =>
    have hsize := hgot.size_le hv
    have hall : got.size = (v.bytes d).size := by
      rw [hv.whole.size_bytes]
      omega
    rw [Got, hall, Nat.zero_add, ByteArray.extract_zero_size] at hgot
    rw [hgot]

section Entry

def headerSize (h : LocalHeader) : Option Nat := do
  let size ← sum LocalHeader.fixedSize h.nameLength.toNat
  sum size h.extraLength.toNat

def partOrFault (v : View) (offset length : Nat) : ExceptT Failure Option View :=
  if (sum offset length).any (· ≤ v.length) then do
    let start ← sum v.start offset
    return { v with start := start, length := length }
  else throw (.outOfBounds offset length v.length)

def entryData (d : Disk) (j : Jar) (entry : Entry) : ExceptT Failure Option View := do
  let bytes ← ExceptT.mk (fill d j.archive entry.headerOffset LocalHeader.fixedSize .empty)
  match LocalHeader.decode bytes entry.headerOffset with
  | .ok header =>
    let size ← headerSize header
    let offset ← sum entry.headerOffset size
    partOrFault j.archive offset entry.compressedSize
  | .error fault => throw (.format fault)

def storedContent (d : Disk) (j : Jar) (room : Nat → Nat) (entry : Entry) :
    ExceptT Failure Option ByteArray := do
  let data ← entryData d j entry
  drain d data room 0 .empty

lemma headerSize_eq (h : LocalHeader) : headerSize h = some h.size := by
  have hname := h.nameLength.toNat_lt
  have hextra := h.extraLength.toNat_lt
  rw [headerSize, sum_eq (by simp only [LocalHeader.fixedSize, UInt64.size]; omega),
    Option.bind_eq_bind, Option.bind_some,
    sum_eq (by simp only [LocalHeader.fixedSize, UInt64.size]; omega)]
  rfl

lemma run_partOrFault (hv : Sound d v) (offset length : Nat) :
    (partOrFault v offset length).run = some (v.part offset length) := by
  have hs := hv.length_lt
  rw [partOrFault, View.part]
  by_cases hl : offset + length ≤ v.length
  · rw [sum_eq (by omega), if_pos (by simpa using hl), if_pos hl, sum_eq (by omega)]
    rfl
  · have hout : ¬ (sum offset length).any (· ≤ v.length) = true := by
      rw [sum]
      split
      · simpa using hl
      · simp
    rw [if_neg hout, if_neg hl]
    rfl

lemma size_le (h : LocalHeader) : h.size ≤ 30 + 65535 + 65535 := by
  have hname := h.nameLength.toNat_lt
  have hextra := h.extraLength.toNat_lt
  simp only [LocalHeader.size, LocalHeader.fixedSize]
  omega

section Jar

variable {j : Jar} (hj : Sound d j.archive) (hsize : (j.archive.source.bytes d).size < 2 ^ 63)
  {entry : Entry} (ho : entry.headerOffset < UInt64.size)
include hj hsize ho

lemma run_entryData : (entryData d j entry).run = some (j.entryData d entry) := by
  have hw := hj.whole
  simp only [View.Whole] at hw
  rw [entryData, Jar.entryData, fill_empty hj ho, hj.whole.readExact_eq_ite _ (by decide)]
  by_cases hl : entry.headerOffset + LocalHeader.fixedSize ≤ j.archive.length
  · rw [if_pos hl, ExceptT.run_bind]
    simp only [ExceptT.run_mk, Option.bind_some, bind, Except.bind]
    generalize (j.archive.bytes d).extract entry.headerOffset
      (entry.headerOffset + LocalHeader.fixedSize) = bytes
    cases LocalHeader.decode bytes entry.headerOffset with
    | error fault => rfl
    | ok header =>
      have hh := size_le header
      simp only [LocalHeader.fixedSize] at hl
      have hsum : sum entry.headerOffset header.size = some (entry.headerOffset + header.size) :=
        sum_eq (by simp only [UInt64.size]; omega)
      simp only [headerSize_eq]
      change (liftM (sum entry.headerOffset header.size) >>= fun offset =>
        partOrFault j.archive offset entry.compressedSize).run = _
      rw [hsum]
      exact run_partOrFault hj _ _
  · rw [if_neg hl]
    rfl

lemma run_storedContent (hstored : entry.method = .stored) (room : Nat → Nat) :
    (storedContent d j room entry).run = some (j.entryContent d entry) := by
  rw [storedContent, ExceptT.run_bind, run_entryData hj hsize ho, Jar.entryContent_stored hstored]
  cases hdata : j.entryData d entry with
  | error f => rfl
  | ok v =>
    have hv : Sound d v := by
      obtain ⟨_, _, _, _, hp⟩ := Jar.entryData_eq_ok_iff.mp hdata
      exact hj.part hp
    have hdrain : drain d v room 0 .empty = some (v.bytes d) := drain_eq hv room (by simp [Got]) rfl
    simp only [Option.bind_eq_bind, Option.bind_some, hdrain]
    rfl

end Jar

end Entry

end JarReader.Guarded
