import JarReader.Deflate.Stream
import JarReader.Jar.Basic
import JarReader.View.Cursor

/-!
The data of entries. The local header says where the data starts, as its name and extra field may
be longer or shorter than those in the directory. Stored data is read as it is and deflated data is
inflated; other methods are refused.
-/

namespace JarReader

open Zip

inductive ContentReader where
  | stored (cursor : Cursor)
  | deflated (inflater : Deflate.Inflater)

namespace ContentReader

def read (d : Disk) (r : ContentReader) (n : Nat) : Except IoFault ByteArray × ContentReader :=
  match r with
  | stored cursor =>
    let (bytes, cursor) := cursor.read d n
    (.ok bytes, stored cursor)
  | deflated inflater =>
    let (result, inflater) := inflater.read d n .empty
    (result.mapError Deflate.Fault.toIo, deflated inflater)

def copySize : Nat := 8192

def drain (d : Disk) : ContentReader → (ByteArray × Option IoFault) × ContentReader
  | stored cursor =>
    let (bytes, cursor) := cursor.read d cursor.remaining
    ((bytes, none), stored cursor)
  | deflated inflater =>
    let ((bytes, fault?), inflater) := inflater.drain d copySize
    ((bytes, fault?.map Deflate.Fault.toIo), deflated inflater)

def readToEnd (d : Disk) (r : ContentReader) : Except IoFault ByteArray × ContentReader :=
  match r.drain d with
  | ((bytes, none), r) => (.ok bytes, r)
  | ((_, some fault), r) => (.error fault, r)

end ContentReader

namespace Jar

variable (d : Disk) (j : Jar)

def entryData (entry : Entry) : Except Failure View := do
  let bytes ← j.archive.readExact d entry.headerOffset LocalHeader.fixedSize
  match LocalHeader.decode bytes entry.headerOffset with
  | .ok header => j.archive.part (entry.headerOffset + header.size) entry.compressedSize
  | .error fault => throw (.format fault)

def openEntry (entry : Entry) : Except Failure ContentReader := do
  let data ← j.entryData d entry
  match entry.method with
  | .stored => return .stored (.atStart data)
  | .deflated => return .deflated (.ofView data)
  | .unknown code => throw (.unsupportedMethod entry.name code)

def entryContent (entry : Entry) : Except Failure ByteArray := do
  let reader ← j.openEntry d entry
  (reader.readToEnd d).1.mapError .io

def content? (name : String) : Except Failure (Option ByteArray) :=
  match j.entry? name with
  | some entry => some <$> j.entryContent d entry
  | none => .ok none

/-- The entry that holds the manifest. A nested directory without one falls back on that of the
archive around it. -/
def manifestEntry? : Option Entry :=
  match j.entry? Manifest.entryName with
  | some entry => some entry
  | none =>
    if j.kind = .nestedDirectory then
      (j.directory.find [Manifest.entryName.toUTF8]).map fun record => .ofRecord record .empty
    else none

def readManifest : Except Failure (Option Manifest) :=
  match j.manifestEntry? with
  | some entry => (fun bytes => some (Manifest.parse bytes)) <$> j.entryContent d entry
  | none => .ok none

end Jar
end JarReader
