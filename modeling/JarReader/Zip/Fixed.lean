import JarReader.Bytes
import JarReader.Failure

namespace JarReader.Zip

open Bytes

inductive Method where
  | stored
  | deflated
  | unknown (code : UInt16)
  deriving DecidableEq, Repr

namespace Method

def ofCode (code : UInt16) : Method :=
  if code = 0 then stored else if code = 8 then deflated else unknown code

def code : Method → UInt16
  | stored => 0
  | deflated => 8
  | unknown code => code

end Method

structure EndFields where
  disk : UInt16
  directoryDisk : UInt16
  diskEntries : UInt16
  entries : UInt16
  directorySize : UInt32
  directoryOffset : UInt32
  commentLength : UInt16
  deriving DecidableEq, Repr

namespace EndFields

def signature : UInt32 := 0x06054B50
def size : Nat := 22

def readAt (b : ByteArray) (i : Nat) : EndFields where
  disk := u16At b (i + 4)
  directoryDisk := u16At b (i + 6)
  diskEntries := u16At b (i + 8)
  entries := u16At b (i + 10)
  directorySize := u32At b (i + 12)
  directoryOffset := u32At b (i + 16)
  commentLength := u16At b (i + 20)

def decode (b : ByteArray) : Except FormatFault EndFields :=
  if b.size < size || u32At b 0 ≠ signature then .error .missingEndRecord
  else .ok (EndFields.readAt b 0)

/-- Whether a field is at its maximum, which says that the value is in the ZIP64 record. -/
def escaped (e : EndFields) : Bool :=
  e.entries = 0xFFFF || e.directorySize = 0xFFFFFFFF || e.directoryOffset = 0xFFFFFFFF

end EndFields

structure Zip64Locator where
  disk : UInt32
  recordOffset : UInt64
  disks : UInt32
  deriving DecidableEq, Repr

namespace Zip64Locator

def signature : UInt32 := 0x07064B50
def size : Nat := 20

def decode (b : ByteArray) : Except FormatFault Zip64Locator :=
  if b.size < size || u32At b 0 ≠ signature then .error (.zip64 .locatorSignature)
  else .ok ⟨u32At b 4, u64At b 8, u32At b 16⟩

end Zip64Locator

structure Zip64Record where
  recordSize : UInt64
  madeBy : UInt16
  needed : UInt16
  disk : UInt32
  directoryDisk : UInt32
  diskEntries : UInt64
  entries : UInt64
  directorySize : UInt64
  directoryOffset : UInt64
  deriving DecidableEq, Repr

namespace Zip64Record

def signature : UInt32 := 0x06064B50
def size : Nat := 56

def decode (b : ByteArray) : Except FormatFault Zip64Record :=
  if b.size < size || u32At b 0 ≠ signature then .error (.zip64 .recordSignature)
  else .ok {
    recordSize := u64At b 4
    madeBy := u16At b 12
    needed := u16At b 14
    disk := u32At b 16
    directoryDisk := u32At b 20
    diskEntries := u64At b 24
    entries := u64At b 32
    directorySize := u64At b 40
    directoryOffset := u64At b 48 }

end Zip64Record

structure LocalHeader where
  nameLength : UInt16
  extraLength : UInt16
  deriving DecidableEq, Repr

namespace LocalHeader

def signature : UInt32 := 0x04034B50
def fixedSize : Nat := 30

def decode (b : ByteArray) (offset : Nat) : Except FormatFault LocalHeader :=
  if b.size < fixedSize || u32At b 0 ≠ signature then .error (.localHeader offset)
  else .ok ⟨u16At b 26, u16At b 28⟩

def size (h : LocalHeader) : Nat := fixedSize + h.nameLength.toNat + h.extraLength.toNat

end LocalHeader
end JarReader.Zip
