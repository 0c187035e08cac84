import JarReader.View.Basic
import JarReader.Zip.Fixed

/-!
The end record of an archive. It is looked for from the end of the data, and its comment must run
exactly to that end. Where the archive starts follows from where the directory ends, so bytes put in
front of an archive are skipped.
-/

namespace JarReader.Zip

open Bytes

structure EndRecord where
  entries : Nat
  directorySize : Nat
  /-- Position of the directory, from the start of the archive. -/
  directoryOffset : Nat
  /-- Position of the archive in the data. -/
  archiveStart : Nat
  zip64 : Bool
  comment : ByteArray

namespace EndRecord

def fitsAt (b : ByteArray) (i : Nat) : Bool :=
  i + EndFields.size ≤ b.size && u32At b i = EndFields.signature
    && i + EndFields.size + (u16At b (i + 20)).toNat = b.size

def lastBelow (b : ByteArray) : (limit : Nat) → Option Nat
  | 0 => none
  | i + 1 => if fitsAt b i then some i else lastBelow b i

def search (b : ByteArray) : Option Nat := lastBelow b (b.size + 1 - EndFields.size)

/-- Sizes of the two windows at the end of the data that are searched in turn: most archives have a
short comment, and none a longer one than 65535 bytes. -/
def shortWindow : Nat := 256
def longWindow : Nat := EndFields.size + 0xFFFF

def zip64RecordAt (d : Disk) (data : View) (limit offset : Nat) :
    Except Failure (Option (Zip64Record × Nat)) := do
  if limit < offset + Zip64Record.size then return none
  let bytes ← data.readExact d offset Zip64Record.size
  if u32At bytes 0 ≠ Zip64Record.signature then return none
  match Zip64Record.decode bytes with
  | .ok record => return some (record, offset)
  | .error fault => throw (.format fault)

/-- The ZIP64 record and its position, if a locator stands before the end record. Normally the
record is right before the locator; the stored position counts only if nothing precedes the
archive. -/
def zip64Record? (d : Disk) (data : View) (endOffset : Nat) :
    Except Failure (Option (Zip64Record × Nat)) := do
  if endOffset < Zip64Locator.size then return none
  let locatorOffset := endOffset - Zip64Locator.size
  let bytes ← data.readExact d locatorOffset Zip64Locator.size
  if u32At bytes 0 ≠ Zip64Locator.signature then return none
  match Zip64Locator.decode bytes with
  | .error fault => throw (.format fault)
  | .ok locator =>
    if Zip64Record.size ≤ locatorOffset then
      if let some found ←
          zip64RecordAt d data locatorOffset (locatorOffset - Zip64Record.size) then
        return some found
    if let some found ← zip64RecordAt d data locatorOffset locator.recordOffset.toNat then
      return some found
    throw (.format (.zip64 .recordNotFound))

/-- The record whose directory of `size` bytes, `offset` bytes into the archive, ends at
`directoryEnd`. -/
def place (entries size offset directoryEnd : Nat) (zip64 : Bool) (comment : ByteArray) :
    Except Failure EndRecord :=
  if directoryEnd < size + offset then .error (.format .startUnderflow)
  else .ok ⟨entries, size, offset, directoryEnd - size - offset, zip64, comment⟩

def decode (d : Disk) (data : View) (endOffset : Nat) (record : ByteArray) :
    Except Failure EndRecord := do
  match EndFields.decode record with
  | .error fault => throw (.format fault)
  | .ok fields =>
    let comment := record.extract EndFields.size record.size
    match ← if fields.escaped then zip64Record? d data endOffset else pure none with
    | some (wide, offset) =>
      place wide.entries.toNat wide.directorySize.toNat wide.directoryOffset.toNat offset true
        comment
    | none =>
      place fields.entries.toNat fields.directorySize.toNat fields.directoryOffset.toNat endOffset
        false comment

def locateIn (d : Disk) (data : View) (window : Nat) : Except Failure (Option EndRecord) := do
  let first := data.length - window
  let block ← data.readExact d first window
  match search block with
  | some i => some <$> decode d data (first + i) (block.extract i block.size)
  | none => return none

def locate (d : Disk) (data : View) : Except Failure EndRecord := do
  let long := min longWindow data.length
  let short := min shortWindow long
  if let some found ← locateIn d data short then return found
  if short ≠ long then
    if let some found ← locateIn d data long then return found
  throw (.format .missingEndRecord)

/-- The archive proper, without what precedes it. A record that is held from an earlier reading may
start behind the end of `data`, and its length is not checked before it is subtracted. -/
def archive (r : EndRecord) (data : View) : Except Failure View :=
  if r.archiveStart ≤ data.length then
    data.part r.archiveStart (data.length - r.archiveStart)
  else .error .overflow

def readDirectory (d : Disk) (r : EndRecord) (archive : View) : Except Failure ByteArray := do
  let view ← archive.part r.directoryOffset r.directorySize
  view.readExact d 0 r.directorySize

end EndRecord
end JarReader.Zip
