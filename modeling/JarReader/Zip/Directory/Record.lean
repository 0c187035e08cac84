import JarReader.Zip.Fixed
import JarReader.Zip.Moment

/-!
One record of a central directory, decoded field by field when asked. Sizes and the position of the
local header that do not fit 32 bits are taken from the ZIP64 field of the extra data.
-/

namespace JarReader.Zip

open Bytes

structure DirectoryRecord where
  offset : Nat
  bytes : ByteArray

structure Extents where
  size : Nat
  compressedSize : Nat
  headerOffset : Nat
  deriving DecidableEq, Repr

namespace DirectoryRecord

def signature : UInt32 := 0x02014B50
def fixedSize : Nat := 46

/-- A 32-bit slot with this value leaves its value to the extra data. -/
def escape : UInt32 := 0xFFFFFFFF

def nameLengthAt (b : ByteArray) (i : Nat) : Nat := (u16At b (i + 28)).toNat
def extraLengthAt (b : ByteArray) (i : Nat) : Nat := (u16At b (i + 30)).toNat
def commentLengthAt (b : ByteArray) (i : Nat) : Nat := (u16At b (i + 32)).toNat

def sizeAt (b : ByteArray) (i : Nat) : Nat :=
  fixedSize + nameLengthAt b i + extraLengthAt b i + commentLengthAt b i

variable (r : DirectoryRecord)

def nameLength : Nat := nameLengthAt r.bytes 0
def extraLength : Nat := extraLengthAt r.bytes 0

def name : ByteArray := r.bytes.extract fixedSize (fixedSize + r.nameLength)

def extra : ByteArray :=
  r.bytes.extract (fixedSize + r.nameLength) (fixedSize + r.nameLength + r.extraLength)

def comment : ByteArray :=
  r.bytes.extract (fixedSize + r.nameLength + r.extraLength) r.bytes.size

def method : Method := .ofCode (u16At r.bytes 10)

def crc32 : UInt32 := u32At r.bytes 16

def packedTime : UInt32 := (u16At r.bytes 14).toUInt32 * 65536 + (u16At r.bytes 12).toUInt32

/-- The data of the first field with identifier 1 at or after `i`, cut off at the end. -/
def zip64DataFrom (extra : ByteArray) (i : Nat) : ByteArray :=
  if i + 4 ≤ extra.size then
    let next := i + 4 + (u16At extra (i + 2)).toNat
    if u16At extra i = 1 then extra.extract (i + 4) next else zip64DataFrom extra next
  else .empty
termination_by extra.size - i
decreasing_by omega

/-- The value of a slot, and how far `wide` is used up: only an escaped slot takes eight bytes. -/
def widen (wide : ByteArray) (used : Nat) (slot : UInt32) : Nat × Nat :=
  if slot = escape && used + 8 ≤ wide.size then ((u64At wide used).toNat, used + 8)
  else (slot.toNat, used)

def extents : Extents :=
  let wide := zip64DataFrom r.extra 0
  let size := widen wide 0 (u32At r.bytes 24)
  let compressedSize := widen wide size.2 (u32At r.bytes 20)
  let headerOffset := widen wide compressedSize.2 (u32At r.bytes 42)
  ⟨size.1, compressedSize.1, headerOffset.1⟩

end DirectoryRecord
end JarReader.Zip
