namespace JarReader.Zip.Checksum

def polynomial : UInt32 := 0xEDB88320

def shift (remainder : UInt32) : UInt32 :=
  if remainder &&& 1 = 1 then (remainder >>> 1) ^^^ polynomial else remainder >>> 1

def addByte (remainder : UInt32) (x : UInt8) : UInt32 :=
  Nat.repeat shift 8 (remainder ^^^ x.toUInt32)

def crc32 (b : ByteArray) : UInt32 := b.data.foldl addByte 0xFFFFFFFF ^^^ 0xFFFFFFFF

end JarReader.Zip.Checksum
