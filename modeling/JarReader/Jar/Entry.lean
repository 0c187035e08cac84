import JarReader.Text.Utf8
import JarReader.Zip.Directory.Record

namespace JarReader

open Zip

structure Entry where
  name : String
  method : Method
  crc32 : UInt32
  compressedSize : Nat
  size : Nat
  packedTime : UInt32
  extra : ByteArray
  comment : ByteArray
  headerOffset : Nat
  directoryOffset : Nat

namespace Entry

def stripBytes (start name : ByteArray) : ByteArray :=
  if Bytes.occursAt start name 0 then name.extract start.size name.size else name

def ofRecord (record : DirectoryRecord) (start : ByteArray) : Entry :=
  let extents := record.extents
  { name := Text.ofBytes (stripBytes start record.name)
    method := record.method
    crc32 := record.crc32
    compressedSize := extents.compressedSize
    size := extents.size
    packedTime := record.packedTime
    extra := record.extra
    comment := record.comment
    headerOffset := extents.headerOffset
    directoryOffset := record.offset }

def isDirectory (e : Entry) : Bool := e.name.toList.getLast? == some '/'

def modified? (e : Entry) : Option Moment := Moment.ofPacked? e.packedTime

end Entry
end JarReader
