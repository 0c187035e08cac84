import JarReader.Bytes

/-!
Text from bytes that may not be UTF-8: every maximal ill-formed prefix of a character becomes one
replacement character, and valid text is taken as it is.
-/

namespace JarReader.Text

open Bytes

def isContinuation (x : UInt8) : Bool := x &&& 0xC0 == 0x80

def admitsSecond (first second : UInt8) : Bool :=
  if first == 0xE0 then 0xA0 ≤ second && second ≤ 0xBF
  else if first == 0xED then 0x80 ≤ second && second ≤ 0x9F
  else if first == 0xF0 then 0x90 ≤ second && second ≤ 0xBF
  else if first == 0xF4 then 0x80 ≤ second && second ≤ 0x8F
  else isContinuation second

/-- Length of the part at `i` that is replaced as a whole, where no character starts. -/
def illFormedLength (b : ByteArray) (i : Nat) : Nat :=
  let first := byteAt b i
  if first < 0xE0 || 0xF4 < first || !admitsSecond first (byteAt b (i + 1)) then 1
  else if 0xF0 ≤ first && isContinuation (byteAt b (i + 2)) then 3
  else 2

theorem illFormedLength_pos (b : ByteArray) (i : Nat) : 0 < illFormedLength b i := by
  grind [illFormedLength]

def decodeFrom (b : ByteArray) (i : Nat) (done : String) : String :=
  if i < b.size then
    match b.utf8DecodeChar? i with
    | some c => decodeFrom b (i + c.utf8Size) (done.push c)
    | none => decodeFrom b (i + illFormedLength b i) (done.push '\uFFFD')
  else done
termination_by b.size - i
decreasing_by
  · have := c.utf8Size_pos
    omega
  · have := illFormedLength_pos b i
    omega

def ofBytes (b : ByteArray) : String :=
  match String.fromUTF8? b with
  | some text => text
  | none => decodeFrom b 0 ""

end JarReader.Text
