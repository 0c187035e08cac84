/-!
File paths as text, with `/` between names. Repeated slashes and inner `.` components carry no
meaning; `..` is kept, since what it names depends on links.
-/

namespace JarReader.Path

inductive Component where
  | root
  | here
  | up
  | name (text : String)
  deriving DecidableEq, Repr

def pieces (path : String) : List String :=
  ((path.toList.splitOn '/').filter (· ≠ [])).map .ofList

def isAbsolute (path : String) : Bool := path.toList.head? == some '/'

def endsWithSlash (path : String) : Bool := path.toList.getLast? == some '/'

def ofPiece (piece : String) : Component := if piece = ".." then .up else .name piece

/-- A `.` counts only at the start of a relative path. -/
def components (path : String) : List Component :=
  let rest := fun (ps : List String) => (ps.filter (· ≠ ".")).map ofPiece
  if isAbsolute path then .root :: rest (pieces path)
  else if (pieces path).head? = some "." then .here :: rest (pieces path)
  else rest (pieces path)

def Component.text : Component → String
  | root => "/"
  | here => "."
  | up => ".."
  | name text => text

/-- `name` below `directory`; an absolute `name` stands for itself. -/
def join (directory name : String) : String :=
  if isAbsolute name then name
  else if directory = "" || endsWithSlash directory then directory ++ name
  else directory ++ "/" ++ name

def ofComponents (cs : List Component) : String :=
  cs.foldl (fun path c => join path c.text) ""

def same (a b : String) : Bool := components a == components b

def fileName? (path : String) : Option String :=
  match (components path).getLast? with
  | some (.name text) => some text
  | _ => none

def parent? (path : String) : Option String :=
  match (components path).getLast? with
  | none | some .root => none
  | some _ => some (ofComponents (components path).dropLast)

def ancestors (path : String) : List String :=
  path :: (List.range (components path).length).reverse.map fun n =>
    ofComponents ((components path).take n)

def beginsWith (start path : String) : Bool := start.toList.isPrefixOf path.toList

/-- The path seen from `home`, without `.` components and repeated slashes. Links and `..` are left
alone, a trailing slash is kept, and so are exactly two leading ones. The empty path stays empty. -/
def absolute (home path : String) : String :=
  if path = "" then "" else
  let start :=
    if beginsWith "//" path && !beginsWith "///" path then "//"
    else if isAbsolute path then "/"
    else home
  let names := (components path).filter fun c => c ≠ .root && c ≠ .here
  let whole := names.foldl (fun path c => join path c.text) start
  if endsWithSlash path then join whole "" else whole

end JarReader.Path
