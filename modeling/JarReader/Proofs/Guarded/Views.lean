import JarReader.Proofs.Guarded.Reading

/-! Reading into a buffer, reckoned in words: from memory, where the bytes are cut out and copied, and
from a file, where a position is sought and bytes are transferred until enough have come. -/

namespace JarReader

namespace View.Whole

variable {d : Disk} {v : View} (hv : v.Whole d) (position : Nat)
include hv

lemma readInto_eq (buffer : ByteArray) :
    v.readInto d position buffer =
      (min buffer.size (v.length - position),
        (v.bytes d).extract position (position + min buffer.size (v.length - position)) ++
          buffer.extract (min buffer.size (v.length - position)) buffer.size) := by
  have hs : (v.read d position buffer.size).size = min buffer.size (v.length - position) := by
    rw [View.read_eq, ByteArray.size_extract, hv.size_bytes]
    omega
  rw [View.readInto, hs]
  rw [View.read_eq] at hs ⊢
  rw [← hs, Guarded.extract_size]

lemma readInto_nothing {buffer : ByteArray} (h : v.length ≤ position ∨ buffer.size = 0) :
    v.readInto d position buffer = (0, buffer) := by
  have hn : min buffer.size (v.length - position) = 0 := by omega
  rw [hv.readInto_eq, hn, Nat.add_zero, ByteArray.extract_same, ByteArray.empty_append,
    ByteArray.extract_zero_size]

lemma readByte?_eq : v.readByte? d position = (v.bytes d)[position]? := by
  rw [View.readByte?, View.read_eq, getElem?_def, getElem?_def]
  by_cases hp : position < v.length
  · rw [dif_pos (by rw [ByteArray.size_extract, hv.size_bytes]; omega),
      dif_pos (by rwa [hv.size_bytes]), ByteArray.getElem_extract]
    simp
  · rw [dif_neg (by rw [ByteArray.size_extract, hv.size_bytes]; omega),
      dif_neg (by rwa [hv.size_bytes])]

end View.Whole

namespace Guarded

open Bytes View

def copyInto (b : ByteArray) (v : View) (position : Nat) (buffer : ByteArray) :
    Option (Nat × ByteArray) := do
  let last ← sum v.start v.length
  let data ← part? b v.start last
  if data.size ≤ position then return (0, buffer)
  else
    let available ← part? data position data.size
    let n := min buffer.size available.size
    let copied ← part? available 0 n
    return (n, copied ++ buffer.extract n buffer.size)

/-- Transfers bytes of a file until `wanted` are there or no more come. At each position of the file
the system gives as many at once as it likes, but none only at the end. -/
def transfer (b : ByteArray) (grant : Nat → Nat) (wanted position : Nat) (got : ByteArray) :
    Option ByteArray :=
  if got.size < wanted then
    let bytes := b.extract position (position + min (wanted - got.size) (grant position + 1))
    if bytes.size = 0 then some got
    else
      match sum position bytes.size with
      | none => none
      | some next => transfer b grant wanted next (got ++ bytes)
  else some got
termination_by wanted - got.size
decreasing_by
  change wanted - (got ++ bytes).size < wanted - got.size
  rw [ByteArray.size_append]
  omega

def seekInto (b : ByteArray) (grant : Nat → Nat) (v : View) (position : Nat) (buffer : ByteArray) :
    Option (Nat × ByteArray) :=
  if v.length ≤ position ∨ buffer.size = 0 then some (0, buffer)
  else do
    let left ← difference v.length position
    let first ← sum v.start position
    let got ← transfer b grant (min buffer.size left) first .empty
    return (got.size, got ++ buffer.extract got.size buffer.size)

def readInto (d : Disk) (grant : Nat → Nat) (v : View) (position : Nat) (buffer : ByteArray) :
    Option (Nat × ByteArray) :=
  match v.source with
  | .memory b => copyInto b v position buffer
  | .file id _ => seekInto (d.content id) grant v position buffer

def readByte (d : Disk) (grant : Nat → Nat) (v : View) (position : Nat) : Option (Option UInt8) := do
  let (n, buffer) ← readInto d grant v position ⟨#[0]⟩
  return if n = 0 then none else buffer[0]?

def fillBuffer (d : Disk) (grant : Nat → Nat) (v : View) (position wanted filled : Nat)
    (buffer : ByteArray) : Option (Except Failure ByteArray) :=
  if filled < wanted then
    match sum position filled >>= fun next =>
      readInto d grant v next (buffer.extract filled wanted) with
    | none => none
    | some (n, rest) =>
      if n = 0 then some (.error (.io (.endOfData wanted position v.length)))
      else fillBuffer d grant v position wanted (filled + n) (buffer.extract 0 filled ++ rest)
  else some (.ok buffer)
termination_by wanted - filled

def readExactInto (d : Disk) (grant : Nat → Nat) (v : View) (position : Nat) (buffer : ByteArray) :
    Option (Except Failure ByteArray) :=
  fillBuffer d grant v position buffer.size 0 buffer

/-- A new buffer has less than `2 ^ 63` bytes, or there is none. -/
def readVector (d : Disk) (grant : Nat → Nat) (v : View) (position n : Nat) :
    Option (Except Failure ByteArray) :=
  if n < 2 ^ 63 then readExactInto d grant v position ⟨.replicate n 0⟩ else none

variable {d : Disk} {v : View}

lemma copyInto_eq {b : ByteArray} (hv : Sound d v) (hb : v.source = .memory b) (position : Nat)
    (buffer : ByteArray) : copyInto b v position buffer = some (v.readInto d position buffer) := by
  have hw := hv.whole
  rw [View.Whole, hb, Source.bytes] at hw
  have hdata : part? b v.start (v.start + v.length) = some (v.bytes d) := by
    rw [part?_eq (Nat.le_add_right _ _) hw, bytes_eq, hb, Source.bytes]
  rw [copyInto, sum_eq hv.length_lt]
  simp only [Option.bind_eq_bind, Option.bind_some, hdata, hv.whole.size_bytes]
  by_cases hp : v.length ≤ position
  · rw [if_pos hp, hv.whole.readInto_nothing _ (.inl hp)]
    rfl
  · have hsize : ((v.bytes d).extract position v.length).size = v.length - position := by
      rw [ByteArray.size_extract, hv.whole.size_bytes]
      omega
    have hend : min (position + min buffer.size (v.length - position)) v.length =
        position + min buffer.size (v.length - position) := by omega
    rw [if_neg hp, hv.whole.readInto_eq, part?_eq (by omega) (Nat.le_of_eq hv.whole.size_bytes.symm)]
    simp only [Option.bind_some, hsize]
    rw [part?_eq (Nat.zero_le _) (by omega), ByteArray.extract_extract, Nat.add_zero, hend]
    rfl

lemma transfer_eq {b : ByteArray} (grant : Nat → Nat) {first wanted position : Nat}
    {got : ByteArray} (hgot : got = b.extract first position) (hp : first + got.size = position)
    (hle : got.size ≤ wanted) (hb : first + wanted ≤ b.size) (hsize : b.size < UInt64.size) :
    transfer b grant wanted position got = some (b.extract first (first + wanted)) := by
  -- What has come is always the bytes between `first` and `position`, however it was portioned.
  fun_induction transfer b grant wanted position got with
  | case1 position got hlt bytes hempty =>
    rw [ByteArray.size_extract] at hempty
    omega
  | case2 position got hlt bytes hempty hnone =>
    rw [sum_eq (by rw [ByteArray.size_extract]; omega)] at hnone
    cases hnone
  | case3 position got hlt bytes hempty next hnext ih =>
    obtain rfl := eq_add_of_sum hnext
    have hbytes : bytes.size = min (wanted - got.size) (grant position + 1) := by
      rw [ByteArray.size_extract]
      omega
    refine ih ?_ ?_ ?_
    · rw [hgot, hbytes, ← ByteArray.extract_eq_extract_append_extract] <;> omega
    · rw [ByteArray.size_append]
      omega
    · rw [ByteArray.size_append]
      omega
  | case4 position got hlt =>
    obtain rfl : got.size = wanted := Nat.le_antisymm hle (Nat.le_of_not_lt hlt)
    rw [hp, ← hgot]

lemma seekInto_eq {id : FileId} {path : String} (hv : Sound d v) (hb : v.source = .file id path)
    (grant : Nat → Nat) (position : Nat) (buffer : ByteArray) :
    seekInto (d.content id) grant v position buffer = some (v.readInto d position buffer) := by
  have hw := hv.whole
  have hs := hv.size
  rw [View.Whole, hb, Source.bytes] at hw
  rw [hb, Source.bytes] at hs
  rw [seekInto]
  by_cases hp : v.length ≤ position ∨ buffer.size = 0
  · rw [if_pos hp, hv.whole.readInto_nothing _ hp]
  · rw [if_neg hp, hv.whole.readInto_eq, difference_eq (by omega), Option.bind_eq_bind,
      Option.bind_some, sum_eq (by omega)]
    have htransfer : transfer (d.content id) grant (min buffer.size (v.length - position))
        (v.start + position) .empty = some ((d.content id).extract (v.start + position)
          (v.start + position + min buffer.size (v.length - position))) :=
      transfer_eq grant (by simp) (by simp) (Nat.zero_le _) (by omega) hs
    have hbytes : (v.bytes d).extract position
        (position + min buffer.size (v.length - position)) =
          (d.content id).extract (v.start + position)
            (v.start + position + min buffer.size (v.length - position)) := by
      rw [bytes_eq, hb, Source.bytes, ByteArray.extract_extract]
      congr 1
      omega
    have hsize : ((d.content id).extract (v.start + position)
        (v.start + position + min buffer.size (v.length - position))).size =
          min buffer.size (v.length - position) := by
      rw [ByteArray.size_extract]
      omega
    simp only [Option.bind_eq_bind, Option.bind_some, htransfer, hbytes, hsize]
    rfl

variable (hv : Sound d v) (grant : Nat → Nat)
include hv

lemma readInto_eq (position : Nat) (buffer : ByteArray) :
    readInto d grant v position buffer = some (v.readInto d position buffer) := by
  rw [readInto]
  split
  · rename_i hb
    exact copyInto_eq hv hb position buffer
  · rename_i hb
    exact seekInto_eq hv hb grant position buffer

lemma readByte_eq (position : Nat) :
    readByte d grant v position = some (v.readByte? d position) := by
  have hone : (⟨#[0]⟩ : ByteArray).size = 1 := rfl
  rw [readByte, readInto_eq hv]
  by_cases hp : position < v.length
  · have hn : min 1 (v.length - position) = 1 := by omega
    rw [hv.whole.readInto_eq, hone, hn, ByteArray.extract_same, ByteArray.append_empty,
      ← View.read_eq]
    rfl
  · have hnone : ¬ position < (v.bytes d).size := by rwa [hv.whole.size_bytes]
    rw [hv.whole.readInto_nothing _ (.inl (Nat.le_of_not_lt hp)), hv.whole.readByte?_eq,
      getElem?_neg (v.bytes d) position hnone]
    rfl

lemma Got.readInto_rest {position wanted filled : Nat} {buffer : ByteArray}
    (hgot : Got d v position (buffer.extract 0 filled)) (hp : position < UInt64.size)
    (hsize : buffer.size = wanted) (hlt : filled < wanted) :
    ∃ n rest, (sum position filled >>= fun next =>
        readInto d grant v next (buffer.extract filled wanted)) = some (n, rest) ∧
      n = min (wanted - filled) (v.length - (position + filled)) ∧ rest.size = wanted - filled ∧
      Got d v position ((buffer.extract 0 filled ++ rest).extract 0 (filled + n)) := by
  have hs := hv.length_lt
  have hfilled : (buffer.extract 0 filled).size = filled := by
    rw [ByteArray.size_extract]
    omega
  have hle := hgot.size_le hv
  have hrest : (buffer.extract filled wanted).size = wanted - filled := by
    rw [ByteArray.size_extract]
    omega
  have hmore := hgot.append (min (wanted - filled) (v.length - (position + filled)))
  rw [hfilled] at hle hmore
  have hbytes : ((v.bytes d).extract (position + filled) (position + filled +
      min (wanted - filled) (v.length - (position + filled)))).size =
        min (wanted - filled) (v.length - (position + filled)) := by
    rw [ByteArray.size_extract, hv.whole.size_bytes]
    omega
  rw [sum_eq (by omega), Option.bind_eq_bind, Option.bind_some, readInto_eq hv,
    hv.whole.readInto_eq, hrest]
  refine ⟨_, _, rfl, rfl, ?_, ?_⟩
  · rw [ByteArray.size_append, hbytes, ByteArray.size_extract, hrest]
    omega
  · rw [← ByteArray.append_assoc, ByteArray.extract_append_eq_left]
    · exact hmore
    · rw [ByteArray.size_append, hfilled, hbytes]

lemma fillBuffer_eq {position wanted filled : Nat} {buffer : ByteArray}
    (hgot : Got d v position (buffer.extract 0 filled)) (hp : position < UInt64.size)
    (hsize : buffer.size = wanted) (hle : filled ≤ wanted) :
    fillBuffer d grant v position wanted filled buffer = some (v.readExact d position wanted) := by
  -- The filled part of the buffer is what the view shows there; the rest is still to be overwritten.
  fun_induction fillBuffer d grant v position wanted filled buffer with
  | case1 filled buffer hlt hnone =>
    obtain ⟨n, rest, hread, _⟩ := hgot.readInto_rest hv grant hp hsize hlt
    rw [hnone] at hread
    cases hread
  | case2 filled buffer hlt rest hread =>
    obtain ⟨n, rest', hread', hn, _⟩ := hgot.readInto_rest hv grant hp hsize hlt
    rw [hread] at hread'
    cases hread'
    have hend : (v.read d position wanted).size ≠ wanted := by
      rw [View.read_eq, ByteArray.size_extract, hv.whole.size_bytes]
      omega
    rw [View.readExact, if_neg hend]
  | case3 filled buffer hlt n rest hread hn ih =>
    obtain ⟨n', rest', hread', hn', hrest, hmore⟩ := hgot.readInto_rest hv grant hp hsize hlt
    rw [hread] at hread'
    cases hread'
    refine ih hmore ?_ (by omega)
    rw [ByteArray.size_append, ByteArray.size_extract, hrest]
    omega
  | case4 filled buffer hlt =>
    obtain rfl : filled = wanted := Nat.le_antisymm hle (Nat.le_of_not_lt hlt)
    rw [← hsize, ByteArray.extract_zero_size] at hgot
    rw [View.readExact, View.read_eq, ← hsize, ← hgot, if_pos rfl]

lemma readExactInto_eq {position : Nat} (hp : position < UInt64.size) (buffer : ByteArray) :
    readExactInto d grant v position buffer = some (v.readExact d position buffer.size) :=
  fillBuffer_eq hv grant (by simp [Got]) hp rfl (Nat.zero_le _)

lemma readVector_eq {position : Nat} (hp : position < UInt64.size) (n : Nat) :
    readVector d grant v position n =
      if n < 2 ^ 63 then some (v.readExact d position n) else none := by
  have hn : (⟨.replicate n 0⟩ : ByteArray).size = n := Array.size_replicate
  rw [readVector, readExactInto_eq hv grant hp, hn]

end Guarded
end JarReader
