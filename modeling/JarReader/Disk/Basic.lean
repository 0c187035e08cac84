import JarReader.Disk.Path
import JarReader.Failure

/-!
Files on disk. A file's bytes belong to the file and not to its name: whoever holds the file keeps
it when its name is taken over by another. Names form a tree of directories and symbolic links, and
`walk` finds what a path names, link by link.
-/

namespace JarReader

/-- A file, whatever its name. -/
structure FileId where
  index : Nat
  deriving DecidableEq, Repr

structure FileData where
  bytes : ByteArray
  /-- Modification time in seconds. -/
  modified : Int

inductive Node where
  | directory
  | file (id : FileId)
  | link (target : String)
  deriving DecidableEq, Repr

/-- The names from the root down, none of them empty, `.` or `..`. -/
abbrev Location := List String

structure Disk where
  files : Array FileData
  nodes : List (Location × Node)
  home : Location

inductive Place where
  | node (location : Location) (node : Node)
  | vacant (parent : Location) (name : String)
  deriving DecidableEq, Repr

namespace Location

def text (location : Location) : String := "/" ++ "/".intercalate location

end Location

namespace Disk

def empty (home : Location) : Disk where
  files := #[]
  nodes := (List.range home.length).map fun n => (home.take (n + 1), .directory)
  home := home

def file? (d : Disk) (id : FileId) : Option FileData := d.files[id.index]?

def content (d : Disk) (id : FileId) : ByteArray :=
  match d.file? id with
  | some file => file.bytes
  | none => .empty

def node? (d : Disk) (location : Location) : Option Node :=
  if location = [] then some .directory else d.nodes.lookup location

def homeText (d : Disk) : String := d.home.text

def maxName : Nat := 255
def maxPath : Nat := 4095

def isTooLong (name : String) : Bool := maxName < name.utf8ByteSize

def maxLinks : Nat := 40

def steps (path : String) : List String :=
  Path.pieces path ++ if Path.endsWithSlash path then [""] else []

/-- What a path is walked for: to find what it leads to, to make a file there, or to change its last
name, which is then not followed if it is a link. -/
inductive Purpose where
  | find
  | make
  | change
  deriving DecidableEq

def placeIn (d : Disk) (location : Location) (name : String) : Place :=
  match d.node? (location ++ [name]) with
  | some node => .node (location ++ [name]) node
  | none => .vacant location name

/-- Follows names from a directory. At a link, `enter` goes on from the link's directory with the
names that are left. A slash behind the last name asks for a directory: a file cannot be made
there. -/
def walkNames (d : Disk) (purpose : Purpose)
    (enter : Location → String → List String → Except SystemFault Place) :
    Location → List String → Except SystemFault Place
  | location, [] =>
    match d.node? location with
    | some node => .ok (.node location node)
    | none => .error .notFound
  | location, name :: rest =>
    match d.node? location with
    | some .directory =>
      if name = "" || name = "." then walkNames d purpose enter location rest
      else if name = ".." then walkNames d purpose enter location.dropLast rest
      else if purpose = .change && (rest = [] || rest = [""]) then .ok (d.placeIn location name)
      else if purpose = .make && rest = [""] then .error .isADirectory
      else if isTooLong name then .error .nameTooLong
      else
        match d.node? (location ++ [name]) with
        | none => if rest = [] then .ok (.vacant location name) else .error .notFound
        | some (.link target) => enter location target rest
        | some _ => walkNames d purpose enter (location ++ [name]) rest
    | some _ => .error .notADirectory
    | none => .error .notFound

def walk (d : Disk) (purpose : Purpose) :
    (links : Nat) → Location → List String → Except SystemFault Place
  | 0 => walkNames d purpose fun _ _ _ => .error .tooManyLinks
  | links + 1 => walkNames d purpose fun location target rest =>
      walk d purpose links (if Path.isAbsolute target then [] else location) (steps target ++ rest)

def startOf (d : Disk) (path : String) : Location :=
  if Path.isAbsolute path then [] else d.home

def hasNul (path : String) : Bool := path.toList.contains '\x00'

def pathFault? (path : String) : Option SystemFault :=
  if hasNul path then some .nulInName
  else if path = "" then some .notFound
  else if maxPath < path.utf8ByteSize then some .nameTooLong
  else none

def locate (d : Disk) (purpose : Purpose) (path : String) : Except SystemFault Place :=
  match pathFault? path with
  | some fault => .error fault
  | none => d.walk purpose maxLinks (d.startOf path) (steps path)

/-- The node that `path` names, all links followed. -/
def find (d : Disk) (path : String) : Except SystemFault (Location × Node) :=
  match d.locate .find path with
  | .ok (.node location node) => .ok (location, node)
  | .ok (.vacant ..) => .error .notFound
  | .error fault => .error fault

def pathExists (d : Disk) (path : String) : Bool :=
  match d.find path with
  | .ok _ => true
  | .error _ => false

def isDirectory (d : Disk) (path : String) : Bool :=
  match d.find path with
  | .ok (_, .directory) => true
  | _ => false

def openFile (d : Disk) (path : String) : Except SystemFault FileId :=
  match d.find path with
  | .ok (_, .file id) => .ok id
  | .ok _ => .error .isADirectory
  | .error fault => .error fault

/-- The file at a location, links not followed. -/
def fileAt? (d : Disk) (location : Location) : Option ByteArray :=
  match d.node? location with
  | some (.file id) => some (d.content id)
  | _ => none

end Disk
end JarReader
