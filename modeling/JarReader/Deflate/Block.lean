import JarReader.Deflate.Code

/-!
Blocks of a compressed stream: data as it is, and data as symbols under a fixed code or under codes
that the block brings along. A block begins with a header; what follows adds to the output.
-/

namespace JarReader.Deflate

open Bytes

/-- Least value and number of extra bits, for each length symbol from 257 on. -/
def lengthTable : List (Nat × Nat) :=
  [(3, 0), (4, 0), (5, 0), (6, 0), (7, 0), (8, 0), (9, 0), (10, 0), (11, 1), (13, 1), (15, 1),
   (17, 1), (19, 2), (23, 2), (27, 2), (31, 2), (35, 3), (43, 3), (51, 3), (59, 3), (67, 4),
   (83, 4), (99, 4), (115, 4), (131, 5), (163, 5), (195, 5), (227, 5), (258, 0)]

/-- Least value and number of extra bits, for each distance symbol. -/
def distanceTable : List (Nat × Nat) :=
  [(1, 0), (2, 0), (3, 0), (4, 0), (5, 1), (7, 1), (9, 2), (13, 2), (17, 3), (25, 3), (33, 4),
   (49, 4), (65, 5), (97, 5), (129, 6), (193, 6), (257, 7), (385, 7), (513, 8), (769, 8), (1025, 9),
   (1537, 9), (2049, 10), (3073, 10), (4097, 11), (6145, 11), (8193, 12), (12289, 12), (16385, 13),
   (24577, 13)]

def takeValue (b : ByteArray) (table : List (Nat × Nat)) (symbol i : Nat) :
    Except Fault (Nat × Nat) :=
  match table[symbol]? with
  | none => .error .corrupt
  | some (least, width) => do
    let (more, i) ← takeBits b i width
    return (least + more, i)

inductive Addition where
  | byte (value : UInt8)
  | repetition (length distance : Nat)

def takeAddition (b : ByteArray) (literals distances : Code) (size i : Nat) :
    Except Fault (Option Addition × Nat) := do
  let (symbol, i) ← literals.read b i
  if symbol < 256 then return (some (.byte symbol.toUInt8), i)
  if symbol = 256 then return (none, i)
  let (length, i) ← takeValue b lengthTable (symbol - 257) i
  let (symbol, i) ← distances.read b i
  let (distance, i) ← takeValue b distanceTable symbol i
  if size < distance then throw .corrupt
  return (some (.repetition length distance), i)

/-- Repeats `count` bytes from `distance` bytes back, which may overlap what is added. -/
def repeatBytes (out : ByteArray) (distance : Nat) : (count : Nat) → ByteArray
  | 0 => out
  | count + 1 => repeatBytes (out.push (byteAt out (out.size - distance))) distance count

theorem size_repeatBytes (out : ByteArray) (distance count : Nat) :
    (repeatBytes out distance count).size = out.size + count := by
  induction count generalizing out with
  | zero => rfl
  | succ count ih =>
    simp only [repeatBytes, ih, ByteArray.size_push]
    omega

def Addition.write (limit : Nat) (out : ByteArray) : Addition → Option Addition × ByteArray
  | byte value => if out.size < limit then (none, out.push value) else (some (byte value), out)
  | repetition length distance =>
    let count := min length (limit - out.size)
    (if count < length then some (repetition (length - count) distance) else none,
      repeatBytes out distance count)

theorem Addition.le_size_of_write {limit : Nat} {out grown : ByteArray} {a rest : Addition}
    (h : a.write limit out = (some rest, grown)) : limit ≤ grown.size := by
  cases a with
  | byte value =>
    simp only [write] at h
    split at h
    · simp at h
    · obtain ⟨-, rfl⟩ := Prod.mk.inj h
      omega
  | repetition length distance =>
    obtain ⟨hr, rfl⟩ := Prod.mk.inj h
    split at hr
    · rw [size_repeatBytes]
      omega
    · simp at hr

def fixedLiterals : Code :=
  .ofLengths (.replicate 144 8 ++ .replicate 112 9 ++ .replicate 24 7 ++ .replicate 8 8)

def fixedDistances : Code := .ofLengths (.replicate 32 5)

def lengthOrder : List Nat :=
  [16, 17, 18, 0, 8, 7, 9, 6, 10, 5, 11, 4, 12, 3, 13, 2, 14, 1, 15]

def takeTriples (b : ByteArray) : (count i : Nat) → Except Fault (List Nat × Nat)
  | 0, i => .ok ([], i)
  | count + 1, i => do
    let (value, i) ← takeBits b i 3
    let (values, i) ← takeTriples b count i
    return (value :: values, i)

def takeLengths (b : ByteArray) (found : Array Nat) (symbol i : Nat) :
    Except Fault (Array Nat × Nat) :=
  if symbol < 16 then .ok (found.push symbol, i)
  else if symbol = 16 then
    match found.back? with
    | none => .error .corrupt
    | some last => do
      let (more, i) ← takeBits b i 2
      return (found ++ Array.replicate (3 + more) last, i)
  else if symbol = 17 then do
    let (more, i) ← takeBits b i 3
    return (found ++ Array.replicate (3 + more) 0, i)
  else do
    let (more, i) ← takeBits b i 7
    return (found ++ Array.replicate (11 + more) 0, i)

def lengths (b : ByteArray) (c : Code) (count i : Nat) (found : Array Nat) :
    Except Fault (Array Nat × Nat) :=
  if found.size < count then
    match c.read b i with
    | .error ending => .error ending
    | .ok (symbol, j) =>
      match takeLengths b found symbol j with
      | .error ending => .error ending
      | .ok (found, k) =>
        if i < k ∧ k ≤ bitCount b then lengths b c count k found else .error .corrupt
  else if found.size = count then .ok (found, i)
  else .error .corrupt
termination_by bitCount b - i

def takeCodes (b : ByteArray) (i : Nat) : Except Fault (Code × Code × Nat) := do
  let (literalCount, i) ← takeBits b i 5
  let (distanceCount, i) ← takeBits b i 5
  let (lengthCount, i) ← takeBits b i 4
  if 286 < literalCount + 257 || 30 < distanceCount + 1 then throw .corrupt
  let (triples, i) ← takeTriples b (lengthCount + 4) i
  let lengthLengths := (List.range 19).map fun value =>
    ((lengthOrder.zip triples).lookup value).getD 0
  if !Code.isComplete lengthLengths then throw .corrupt
  let (found, i) ←
    lengths b (.ofLengths lengthLengths) (literalCount + 257 + (distanceCount + 1)) i #[]
  let literals := found.toList.take (literalCount + 257)
  let distances := found.toList.drop (literalCount + 257)
  if !Code.isUsable literals || !Code.isUsable distances then throw .corrupt
  return (.ofLengths literals, .ofLengths distances, i)

inductive Stage where
  | header
  | stored (isLast : Bool) (left : Nat)
  | symbols (isLast : Bool) (literals distances : Code)
  | done

namespace Stage

def behind (isLast : Bool) : Stage := if isLast then done else header

def ofStored (isLast : Bool) (left : Nat) : Stage :=
  if left = 0 then behind isLast else stored isLast left

end Stage

/-- The length of a block of data as it is, which comes twice behind padding to a whole byte. -/
def takeStoredLength (b : ByteArray) (i : Nat) : Except Fault (Nat × Nat) :=
  let first := (i + 7) / 8
  if b.size < first + 4 then .error .incomplete
  else
    let length := (u16At b first).toNat
    if length + (u16At b (first + 2)).toNat = 0xFFFF then .ok (length, 8 * (first + 4))
    else .error .corrupt

def takeHeader (b : ByteArray) (i : Nat) : Except Fault (Stage × Nat) := do
  let (last, i) ← takeBits b i 1
  let (kind, i) ← takeBits b i 2
  let isLast := last = 1
  match kind with
  | 0 =>
    let (length, i) ← takeStoredLength b i
    return (.ofStored isLast length, i)
  | 1 => return (.symbols isLast fixedLiterals fixedDistances, i)
  | 2 =>
    let (literals, distances, i) ← takeCodes b i
    return (.symbols isLast literals distances, i)
  | _ => throw .corrupt

end JarReader.Deflate
