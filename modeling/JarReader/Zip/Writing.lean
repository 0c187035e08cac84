import JarReader.Zip.Checksum
import JarReader.Zip.Directory.Record

/-!
Archives of stored entries as bytes: the local part with headers and contents, the directory, and
the records at the end. `Archive.bytes` writes what `EndRecord.locate` and `Directory.parse` read.
-/

namespace JarReader.Zip

open Bytes

def EndFields.encode (e : EndFields) : List UInt8 :=
  ofNumber 4 EndFields.signature.toNat ++ ofNumber 2 e.disk.toNat
    ++ ofNumber 2 e.directoryDisk.toNat ++ ofNumber 2 e.diskEntries.toNat
    ++ ofNumber 2 e.entries.toNat
    ++ ofNumber 4 e.directorySize.toNat ++ ofNumber 4 e.directoryOffset.toNat
    ++ ofNumber 2 e.commentLength.toNat

def Zip64Locator.encode (l : Zip64Locator) : List UInt8 :=
  ofNumber 4 Zip64Locator.signature.toNat ++ ofNumber 4 l.disk.toNat
    ++ ofNumber 8 l.recordOffset.toNat ++ ofNumber 4 l.disks.toNat

def Zip64Record.encode (r : Zip64Record) : List UInt8 :=
  ofNumber 4 Zip64Record.signature.toNat ++ ofNumber 8 r.recordSize.toNat
    ++ ofNumber 2 r.madeBy.toNat ++ ofNumber 2 r.needed.toNat ++ ofNumber 4 r.disk.toNat
    ++ ofNumber 4 r.directoryDisk.toNat
    ++ ofNumber 8 r.diskEntries.toNat ++ ofNumber 8 r.entries.toNat
    ++ ofNumber 8 r.directorySize.toNat ++ ofNumber 8 r.directoryOffset.toNat

structure StoredEntry where
  name : ByteArray
  content : ByteArray
  /-- Extra data of the local header only. -/
  localExtra : ByteArray
  packedTime : UInt32

namespace StoredEntry

def commonFields (e : StoredEntry) : List UInt8 :=
  ofNumber 2 20 ++ ofNumber 2 0 ++ ofNumber 2 Method.stored.code.toNat
    ++ ofNumber 4 e.packedTime.toNat ++ ofNumber 4 (Checksum.crc32 e.content).toNat
    ++ ofNumber 4 e.content.size ++ ofNumber 4 e.content.size ++ ofNumber 2 e.name.size

def localPart (e : StoredEntry) : List UInt8 :=
  ofNumber 4 LocalHeader.signature.toNat ++ e.commonFields ++ ofNumber 2 e.localExtra.size
    ++ e.name.data.toList ++ e.localExtra.data.toList ++ e.content.data.toList

def record (e : StoredEntry) (offset : Nat) : List UInt8 :=
  ofNumber 4 DirectoryRecord.signature.toNat ++ ofNumber 2 20 ++ e.commonFields ++ ofNumber 2 0
    ++ ofNumber 2 0 ++ ofNumber 2 0 ++ ofNumber 2 0 ++ ofNumber 4 0 ++ ofNumber 4 offset
    ++ e.name.data.toList

end StoredEntry

structure Archive where
  entries : List StoredEntry
  comment : ByteArray
  /-- Whether ZIP64 records are asked for; many entries need them anyway. -/
  wide : Bool

namespace Archive

def localPart (entries : List StoredEntry) : List UInt8 := entries.flatMap StoredEntry.localPart

def directory : (offset : Nat) → List StoredEntry → List UInt8
  | _, [] => []
  | offset, e :: entries => e.record offset ++ directory (offset + e.localPart.length) entries

def needsWide (a : Archive) : Bool := a.wide || 0xFFFF ≤ a.entries.length

def wideEnd (count size offset : Nat) : List UInt8 :=
  let record : Zip64Record := {
    recordSize := 44
    madeBy := 45
    needed := 45
    disk := 0
    directoryDisk := 0
    diskEntries := .ofNat count
    entries := .ofNat count
    directorySize := .ofNat size
    directoryOffset := .ofNat offset }
  record.encode ++ Zip64Locator.encode ⟨0, .ofNat (offset + size), 1⟩

/-- The end record. Where ZIP64 records precede it, its own fields are at their maximum. -/
def endFields (a : Archive) (size offset : Nat) : EndFields :=
  let count : UInt16 := if a.needsWide then 0xFFFF else .ofNat a.entries.length
  { disk := 0
    directoryDisk := 0
    diskEntries := count
    entries := count
    directorySize := if a.needsWide then 0xFFFFFFFF else .ofNat size
    directoryOffset := if a.needsWide then 0xFFFFFFFF else .ofNat offset
    commentLength := .ofNat a.comment.size }

def bytes (a : Archive) : ByteArray :=
  let contents := localPart a.entries
  let directory := directory 0 a.entries
  let wide :=
    if a.needsWide then wideEnd a.entries.length directory.length contents.length else []
  (contents ++ directory ++ wide ++ (a.endFields directory.length contents.length).encode
    ++ a.comment.data.toList).toByteArray

end Archive
end JarReader.Zip
