import JarReader.Bytes

/-!
Bits of a byte sequence, lowest first within each byte, and prefix codes over them. A code is a tree
that is walked bit by bit; code words of one length are numbered upwards in the order of their
symbols, shorter words before longer ones.
-/

namespace JarReader.Deflate

open Bytes

inductive Fault where
  | incomplete
  | corrupt
  deriving DecidableEq, Repr

def bitCount (b : ByteArray) : Nat := 8 * b.size

def bitAt (b : ByteArray) (i : Nat) : Bool := (byteAt b (i / 8)).toNat.testBit (i % 8)

def bitsAt (b : ByteArray) (i : Nat) : (width : Nat) → Nat
  | 0 => 0
  | width + 1 => (bitAt b i).toNat + 2 * bitsAt b (i + 1) width

def takeBits (b : ByteArray) (i width : Nat) : Except Fault (Nat × Nat) :=
  if i + width ≤ bitCount b then .ok (bitsAt b i width, i + width) else .error .incomplete

inductive Code where
  | unused
  | symbol (value : Nat)
  | branch (zero one : Code)
  deriving Repr

namespace Code

def step : Code → (bit : Bool) → Code
  | branch zero one, bit => if bit then one else zero
  | _, _ => unused

def walk (b : ByteArray) : Code → (i : Nat) → Except Fault (Nat × Nat)
  | unused, _ => .error .corrupt
  | symbol value, i => .ok (value, i)
  | branch zero one, i =>
    if i < bitCount b then
      if bitAt b i then walk b one (i + 1) else walk b zero (i + 1)
    else .error .incomplete

def read (b : ByteArray) (c : Code) (i : Nat) : Except Fault (Nat × Nat) :=
  if i < bitCount b then (c.step (bitAt b i)).walk b (i + 1) else .error .incomplete

def insert (value : Nat) : Code → (word : List Bool) → Code
  | _, [] => symbol value
  | branch zero one, true :: word => branch zero (insert value one word)
  | branch zero one, false :: word => branch (insert value zero word) one
  | _, true :: word => branch unused (insert value unused word)
  | _, false :: word => branch (insert value unused word) unused

def wordOf (width n : Nat) : List Bool :=
  (List.range width).reverse.map n.testBit

def addLength (lengths : List Nat) (width : Nat) (next : Nat) (c : Code) : Nat × Code :=
  lengths.zipIdx.foldl (fun (next, c) (length, value) =>
    if length = width then (next + 1, c.insert value (wordOf width next)) else (next, c)) (next, c)

def maxLength : Nat := 15

/-- The code in which symbol `i` has a word of the `i`-th length, and none if that is zero. -/
def ofLengths (lengths : List Nat) : Code :=
  ((List.range maxLength).foldl
    (fun (next, c) i => addLength lengths (i + 1) (2 * next) c) (0, unused)).2

def share (lengths : List Nat) : Nat :=
  lengths.foldl (fun taken length =>
    if length = 0 then taken else taken + (1 <<< (maxLength - length))) 0

def isComplete (lengths : List Nat) : Bool := share lengths = 1 <<< maxLength

/-- A code leaves words unused only if it has no symbol, or one symbol with a word of one bit. -/
def isUsable (lengths : List Nat) : Bool :=
  isComplete lengths || lengths.filter (· ≠ 0) = [] || lengths.filter (· ≠ 0) = [1]

end Code
end JarReader.Deflate
