import JarReader.Disk.Basic

namespace JarReader

def Place.hasLongName : Place → Bool
  | node .. => false
  | vacant _ name => Disk.isTooLong name

namespace Disk

def setNode (d : Disk) (location : Location) (node : Node) : Disk :=
  { d with nodes := d.nodes.filter (fun entry => entry.1 ≠ location) ++ [(location, node)] }

def setBytes (d : Disk) (id : FileId) (bytes : ByteArray) : Disk :=
  { d with files := d.files.modify id.index fun file => { file with bytes := bytes } }

def setModified (d : Disk) (id : FileId) (time : Int) : Disk :=
  { d with files := d.files.modify id.index fun file => { file with modified := time } }

def append (d : Disk) (id : FileId) (bytes : ByteArray) : Disk :=
  { d with files := d.files.modify id.index fun file => { file with bytes := file.bytes ++ bytes } }

def create (d : Disk) (path : String) : Except SystemFault (FileId × Disk) :=
  match d.locate .make path with
  | .error fault => .error fault
  | .ok (.node _ (.file id)) => .ok (id, d.setBytes id .empty)
  | .ok (.node ..) => .error .isADirectory
  | .ok (.vacant parent name) =>
    let id : FileId := ⟨d.files.size⟩
    .ok (id, { d with files := d.files.push ⟨.empty, 0⟩ }.setNode (parent ++ [name]) (.file id))

def writeFile (d : Disk) (path : String) (bytes : ByteArray) (time : Int) :
    Except SystemFault Disk :=
  match d.create path with
  | .error fault => .error fault
  | .ok (id, d) => .ok ((d.setBytes id bytes).setModified id time)

def vacancy (d : Disk) (path : String) : Except SystemFault (Location × String) :=
  match d.locate .change path with
  | .error fault => .error fault
  | .ok (.node ..) => .error .alreadyExists
  | .ok (.vacant parent name) =>
    if isTooLong name then .error .nameTooLong else .ok (parent, name)

def makeDirectory (d : Disk) (path : String) : Except SystemFault Disk :=
  match d.vacancy path with
  | .error fault => .error fault
  | .ok (parent, name) => .ok (d.setNode (parent ++ [name]) .directory)

def makeFirst (d : Disk) : List String → Except SystemFault Unit × Disk
  | [] => (.ok (), d)
  | path :: above =>
    if path = "" then (.ok (), d)
    else
      match d.makeDirectory path with
      | .ok d => (.ok (), d)
      | .error .notFound =>
        match d.makeFirst above with
        | (.error fault, d) => (.error fault, d)
        | (.ok (), d) =>
          match d.makeDirectory path with
          | .ok d => (.ok (), d)
          | .error fault => (if d.isDirectory path then .ok () else .error fault, d)
      | .error fault => (if d.isDirectory path then .ok () else .error fault, d)

/-- Makes the directory `path` and those above it that are missing. What was made before a failure
stays. -/
def makeDirectories (d : Disk) (path : String) : Except SystemFault Unit × Disk :=
  d.makeFirst (Path.ancestors path)

/-- Makes a link to `target`. A slash behind its name asks for a directory that is not there. -/
def makeLink (d : Disk) (path target : String) : Except SystemFault Disk :=
  if hasNul path then .error .nulInName
  else
    match pathFault? target with
    | some fault => .error fault
    | none =>
      match d.vacancy path with
      | .error fault => .error fault
      | .ok (parent, name) =>
        if Path.endsWithSlash path then .error .notFound
        else .ok (d.setNode (parent ++ [name]) (.link target))

def namesEntry (path : String) : Bool :=
  match (Path.pieces path).getLast? with
  | none => false
  | some name => name ≠ "." && name ≠ ".."

def hasChildren (d : Disk) (location : Location) : Bool :=
  d.nodes.any fun entry => location.isPrefixOf entry.1 && entry.1 ≠ location

def moveNode (d : Disk) (source target : Location) : Disk :=
  { d with nodes := (d.nodes.filter fun entry => entry.1 ≠ target).map fun entry =>
      if source.isPrefixOf entry.1 then (target ++ entry.1.drop source.length, entry.2) else entry }

def moveFault? (d : Disk) (source : Location) (node : Node) (target : Place) :
    Option SystemFault :=
  match target with
  | .vacant parent _ => if source.isPrefixOf parent then some .invalidArgument else none
  | .node location old =>
    if node = .directory && source.isPrefixOf location && source ≠ location then
      some .invalidArgument
    else if location.isPrefixOf source && location ≠ source then some .directoryNotEmpty
    else if node = .directory && old ≠ .directory then some .notADirectory
    else if node ≠ .directory && old = .directory then some .isADirectory
    else if d.hasChildren location && location ≠ source then some .directoryNotEmpty
    else none

/-- Gives what `path` names the name `target`, which may be taken over. Links are renamed
themselves. -/
def rename (d : Disk) (path target : String) : Except SystemFault Disk := do
  if hasNul path || hasNul target then throw .nulInName
  let source ← d.locate .change path
  let place ← d.locate .change target
  if !namesEntry path || !namesEntry target then throw .busy
  match source with
  | .vacant _ name => throw (if isTooLong name then .nameTooLong else .notFound)
  | .node location node =>
    if place.hasLongName then throw .nameTooLong
    if node ≠ .directory && (Path.endsWithSlash path || Path.endsWithSlash target) then
      throw .notADirectory
    match d.moveFault? location node place with
    | some fault => throw fault
    | none =>
      match place with
      | .vacant parent name => return d.moveNode location (parent ++ [name])
      | .node old _ => return if old = location then d else d.moveNode location old

def changes (before after : Disk) : List (Location × Option ByteArray) :=
  after.nodes.filterMap fun (location, node) =>
    match node with
    | .directory =>
      if before.node? location = some .directory then none else some (location, none)
    | .file id =>
      if before.fileAt? location == some (after.content id) then none
      else some (location, some (after.content id))
    | .link _ => none

end Disk
end JarReader
