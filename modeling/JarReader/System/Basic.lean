import JarReader.Cache
import JarReader.Jar.Nested
import JarReader.System.Identity

/-!
What a running process knows: the disk, the metadata of archives that it has parsed, and the
manifests that it has read. Metadata is kept by the identity of the file, a manifest by the opening
from which its jar comes.
-/

namespace JarReader

open Zip

abbrev MetadataCache := Cache FileIdentity Metadata

structure System where
  disk : Disk
  metadata : MetadataCache
  manifests : List (Nat × Option Manifest)
  openings : Nat

namespace System

def start (d : Disk) : System := ⟨d, .empty, [], 0⟩

def register (s : System) (j : Jar) : Jar × System :=
  ({ j with opening := s.openings }, { s with openings := s.openings + 1 })

/-- The metadata of the file at `path`, whose data is `data`. With `useCache` set it is parsed only
if it is not held for the identity that the file has now. -/
def metadataOf (s : System) (useCache : Bool) (path : String) (data : View) :
    Except Failure Metadata × System :=
  if useCache then
    match FileIdentity.ofPath s.disk path with
    | .error failure => (.error failure, s)
    | .ok identity =>
      let (result, cache) :=
        s.metadata.getOrParse identity fun cache => (Metadata.read s.disk data, cache)
      (result, { s with metadata := cache })
  else (Metadata.read s.disk data, s)

def openJar (s : System) (useCache : Bool) (path : String) : Except Failure Jar × System :=
  match View.openFile s.disk path with
  | .error failure => (.error failure, s)
  | .ok data =>
    match s.metadataOf useCache path data with
    | (.error failure, s) => (.error failure, s)
    | (.ok metadata, s) =>
      match Jar.ofMetadata metadata data path "" .direct with
      | .error failure => (.error failure, s)
      | .ok jar =>
        let (jar, s) := s.register jar
        (.ok jar, s)

def nested? (s : System) (j : Jar) (name : String) : Except Failure (Option Jar) × System :=
  match j.nested? s.disk name with
  | .error failure => (.error failure, s)
  | .ok none => (.ok none, s)
  | .ok (some jar) =>
    let (jar, s) := s.register jar
    (.ok (some jar), s)

/-- The manifest of a jar as it was first read. -/
def manifest? (s : System) (j : Jar) : Except Failure (Option Manifest) × System :=
  match s.manifests.lookup j.opening with
  | some manifest => (.ok manifest, s)
  | none =>
    match j.readManifest s.disk with
    | .error failure => (.error failure, s)
    | .ok manifest => (.ok manifest, { s with manifests := (j.opening, manifest) :: s.manifests })

end System
end JarReader
