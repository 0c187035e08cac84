import JarReader.Jar.Entry
import JarReader.Manifest
import JarReader.Text.Quoted
import JarReader.Url.Basic
import JarReader.Zip.Metadata

/-!
Jars: archives whose entries are found by name. A jar is a file, or lies in an entry of another jar:
as a stored archive, which is read from its own range of bytes, or as a directory, which shares the
archive around it and shows the names below its own.
-/

namespace JarReader

open Zip

inductive JarKind where
  | direct
  | nestedDirectory
  | nestedJar
  deriving DecidableEq, Repr

structure Jar where
  root : String
  /-- The way from that file, each step behind a separator; empty for the file itself. -/
  pathFromRoot : String
  kind : JarKind
  archive : View
  endRecord : EndRecord
  directory : Directory
  /-- What names of a nested directory begin with. -/
  start : ByteArray
  /-- The number of the opening from which the jar comes; jars with one number share what has been
  read of the manifest. -/
  opening : Nat

namespace Jar

def ofMetadata (metadata : Metadata) (data : View) (root pathFromRoot : String) (kind : JarKind) :
    Except Failure Jar := do
  let archive ← metadata.endRecord.archive data
  return {
    root := root
    pathFromRoot := pathFromRoot
    kind := kind
    archive := archive
    endRecord := metadata.endRecord
    directory := metadata.directory
    start := .empty
    opening := 0 }

def ofView (d : Disk) (data : View) (root : String) (pathFromRoot : String) (kind : JarKind) :
    Except Failure Jar := do
  let metadata ← Metadata.read d data
  ofMetadata metadata data root pathFromRoot kind

def ofData (d : Disk) (data : View) (root : String) : Except Failure Jar :=
  ofView d data root "" .direct

variable (j : Jar)

/-- The directory record of `name`. A nested directory has no entry with the empty name. -/
def record? (name : String) : Option DirectoryRecord :=
  if name = "" && j.start.size ≠ 0 then none
  else j.directory.find [j.start, name.toUTF8]

def entry? (name : String) : Option Entry :=
  (j.record? name).map fun record => .ofRecord record j.start

def contains (name : String) : Bool := (j.entry? name).isSome

def shows (record : DirectoryRecord) : Bool :=
  j.start.size = 0 ||
    (Bytes.occursAt j.start record.name 0 && j.start.size < record.name.size)

def records : List DirectoryRecord := j.directory.records.filter j.shows

def entries : List Entry := j.records.map fun record => .ofRecord record j.start

def size : Nat := if j.start.size = 0 then j.directory.size else j.records.length

def isEmpty : Bool := j.size = 0

def url (home : String) : String :=
  "jar:" ++ Url.ofFile home j.root ++ Text.Percent.encode j.pathFromRoot ++ Url.separator

def entryUrl (home : String) (entry : Entry) : String :=
  j.url home ++ Text.Percent.encode entry.name

def kindText : JarKind → String
  | .direct => "Direct"
  | .nestedDirectory => "NestedDirectory"
  | .nestedJar => "NestedJar"

def description : String :=
  "JarFile \x7b root: " ++ Text.Quoted.encode j.root
    ++ ", path_from_root: " ++ Text.Quoted.encode j.pathFromRoot
    ++ ", kind: " ++ kindText j.kind
    ++ ", entries: " ++ toString j.directory.size ++ " \x7d"

end Jar
end JarReader
