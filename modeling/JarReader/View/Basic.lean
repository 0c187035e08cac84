import JarReader.Disk.Basic

/-!
Views: ranges of bytes held in memory or in an open file. A view knows its length from when it was
made; what a file holds is looked up at each reading, and a file that has shrunk gives fewer bytes.
-/

namespace JarReader

inductive Source where
  | memory (bytes : ByteArray)
  | file (id : FileId) (path : String)

def Source.bytes (d : Disk) : Source → ByteArray
  | memory bytes => bytes
  | file id _ => d.content id

structure View where
  source : Source
  start : Nat
  length : Nat

namespace View

def ofBytes (bytes : ByteArray) : View := ⟨.memory bytes, 0, bytes.size⟩

def openFile (d : Disk) (path : String) : Except Failure View :=
  match d.openFile path with
  | .ok id => .ok ⟨.file id path, 0, (d.content id).size⟩
  | .error fault => .error (.io (.system fault))

/-- At most `n` bytes from `position`; fewer at the end of the view or of its source. -/
def read (d : Disk) (v : View) (position n : Nat) : ByteArray :=
  if position < v.length then
    let first := v.start + position
    (v.source.bytes d).extract first (first + min n (v.length - position))
  else .empty

/-- Reads as many bytes as `buffer` has room for; the room that is left keeps its bytes. -/
def readInto (d : Disk) (v : View) (position : Nat) (buffer : ByteArray) : Nat × ByteArray :=
  let bytes := v.read d position buffer.size
  (bytes.size, bytes ++ buffer.extract bytes.size buffer.size)

def readByte? (d : Disk) (v : View) (position : Nat) : Option UInt8 :=
  (v.read d position 1)[0]?

def readExact (d : Disk) (v : View) (position n : Nat) : Except Failure ByteArray :=
  let bytes := v.read d position n
  if bytes.size = n then .ok bytes else .error (.io (.endOfData n position v.length))

def bytes (d : Disk) (v : View) : ByteArray := v.read d 0 v.length

def part (v : View) (offset length : Nat) : Except Failure View :=
  if offset + length ≤ v.length then .ok { v with start := v.start + offset, length := length }
  else .error (.outOfBounds offset length v.length)

end View
end JarReader
