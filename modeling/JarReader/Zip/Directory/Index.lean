import JarReader.Zip.Directory.Record

/-!
A central directory indexed by name. The bytes stay as they were read; a slot holds the position of
a record, the hash of its name, and the number of an older slot in the same bucket. `find` looks a
name up through these chains, newest first, and once more as a directory.
-/

namespace JarReader.Zip

open Bytes

structure Slot where
  hash : UInt32
  /-- The next older slot of the bucket, or `endMark`. -/
  next : UInt32
  offset : Nat

/-- Ends a chain; no slot has this number. -/
def endMark : UInt32 := 0xFFFFFFFF

structure Chains where
  /-- The newest slot of each bucket, or `endMark`. -/
  heads : Array UInt32
  slots : Array Slot

structure Directory where
  bytes : ByteArray
  chains : Chains

def hashBytes (hash : UInt32) (name : ByteArray) : UInt32 :=
  name.data.foldl (fun hash x => hash * 31 + x.toUInt32) hash

def nameHash (parts : List ByteArray) : UInt32 := parts.foldl hashBytes 0

def matchesFrom (name : ByteArray) (i : Nat) : (parts : List ByteArray) → Bool
  | [] => i = name.size
  | part :: parts => occursAt part name i && matchesFrom name (i + part.size) parts

namespace Chains

def empty (buckets : Nat) : Chains := ⟨.replicate buckets endMark, #[]⟩

def bucket (c : Chains) (hash : UInt32) : Nat := hash.toNat % c.heads.size

def head (c : Chains) (hash : UInt32) : UInt32 := c.heads.getD (c.bucket hash) endMark

def push (c : Chains) (hash : UInt32) (offset : Nat) : Chains :=
  let bucket := c.bucket hash
  let next := c.head hash
  match c with
  | ⟨heads, slots⟩ =>
    ⟨heads.setIfInBounds bucket (.ofNat slots.size), slots.push ⟨hash, next, offset⟩⟩

def findFrom (c : Chains) (p : Slot → Bool) : (limit : Nat) → (index : UInt32) → Option Slot
  | 0, _ => none
  | limit + 1, index =>
    if index = endMark then none
    else
      match c.slots[index.toNat]? with
      | none => none
      | some slot => if p slot then some slot else findFrom c p limit slot.next

end Chains

namespace Directory

def checkRecord (b : ByteArray) (offset : Nat) : Except FormatFault Nat :=
  if b.size - offset < DirectoryRecord.fixedSize then
    .error (.directory offset .truncatedHeader)
  else if u32At b offset ≠ DirectoryRecord.signature then .error (.directory offset .badSignature)
  else if b.size - offset < DirectoryRecord.sizeAt b offset then
    .error (.directory offset .recordOverrun)
  else .ok (DirectoryRecord.sizeAt b offset)

theorem fixedSize_le_of_checkRecord {b : ByteArray} {offset size : Nat}
    (h : checkRecord b offset = .ok size) : DirectoryRecord.fixedSize ≤ size := by
  unfold checkRecord at h
  split at h <;> try contradiction
  split at h <;> try contradiction
  split at h <;> try contradiction
  injection h with h
  subst h
  simp only [DirectoryRecord.sizeAt]
  omega

def offsetsFrom (b : ByteArray) (declared offset : Nat) (found : Array Nat) :
    Except FormatFault (Array Nat) :=
  if offset < b.size then
    if found.size = declared then .error (.entryCount declared (found.size + 1))
    else
      match _checked : checkRecord b offset with
      | .error fault => .error fault
      | .ok size => offsetsFrom b declared (offset + size) (found.push offset)
  else if found.size = declared then .ok found
  else .error (.entryCount declared found.size)
termination_by b.size - offset
decreasing_by
  have := fixedSize_le_of_checkRecord ‹_›
  simp only [DirectoryRecord.fixedSize] at this
  omega

def recordAt (b : ByteArray) (offset : Nat) : DirectoryRecord :=
  ⟨offset, b.extract offset (offset + DirectoryRecord.sizeAt b offset)⟩

def bucketCount (b : ByteArray) (declared : Nat) : Nat :=
  max (min declared (b.size / DirectoryRecord.fixedSize) / 2) 1

def indexRecord (b : ByteArray) (c : Chains) (offset : Nat) : Chains :=
  let first := offset + DirectoryRecord.fixedSize
  c.push (hashBytes 0 (b.extract first (first + DirectoryRecord.nameLengthAt b offset))) offset

def parse (b : ByteArray) (declared : Nat) : Except FormatFault Directory :=
  if endMark.toNat ≤ declared then .error (.directory 0 .tooManyEntries)
  else
    match offsetsFrom b declared 0 #[] with
    | .error fault => .error fault
    | .ok offsets => .ok ⟨b, offsets.foldl (indexRecord b) (.empty (bucketCount b declared))⟩

variable (d : Directory)

def size : Nat := d.chains.slots.size

def isEmpty : Bool := d.size = 0

def record? (i : Nat) : Option DirectoryRecord :=
  d.chains.slots[i]?.map fun slot => recordAt d.bytes slot.offset

def records : List DirectoryRecord :=
  d.chains.slots.toList.map fun slot => recordAt d.bytes slot.offset

def findExact (parts : List ByteArray) : Option DirectoryRecord :=
  let hash := nameHash parts
  let wanted := fun (slot : Slot) =>
    slot.hash = hash && matchesFrom (recordAt d.bytes slot.offset).name 0 parts
  (d.chains.findFrom wanted d.size (d.chains.head hash)).map fun slot =>
    recordAt d.bytes slot.offset

def slash : ByteArray := [0x2F].toByteArray

def endsWithSlash (parts : List ByteArray) : Bool :=
  match parts.reverse.find? fun part => part.size ≠ 0 with
  | some part => byteAt part (part.size - 1) = 0x2F
  | none => false

/-- The record of a name in parts, or else of that name as a directory. -/
def find (parts : List ByteArray) : Option DirectoryRecord :=
  match d.findExact parts with
  | some record => some record
  | none => if endsWithSlash parts then none else d.findExact (parts ++ [slash])

end Directory
end JarReader.Zip
