import JarReader.Disk.Basic

/-!
When two sightings of a file count as the same file, unchanged: same place with all links followed,
same time of modification, same file.
-/

namespace JarReader

structure FileIdentity where
  location : Location
  modified? : Option Int
  file? : Option FileId
  deriving DecidableEq, Repr

namespace FileIdentity

def ofPath (d : Disk) (path : String) : Except Failure FileIdentity :=
  match d.find path with
  | .ok (location, .file id) => .ok ⟨location, (d.file? id).map (·.modified), some id⟩
  | .ok (location, _) => .ok ⟨location, none, none⟩
  | .error fault => .error (.io (.system fault))

end FileIdentity
end JarReader
