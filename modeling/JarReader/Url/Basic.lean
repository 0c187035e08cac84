import JarReader.Disk.Path
import JarReader.Failure
import JarReader.Text.Percent
import JarReader.Text.Segment

/-!
URLs of files, and `jar:` URLs: a file, the archives nested in it from the outermost inwards, and an
entry, with a separator behind each archive.
-/

namespace JarReader.Url

def separator : String := "!/"

/-- Takes two slashes away from the first `file:////`. -/
def shorten : List Char → List Char
  | [] => []
  | c :: rest =>
    if "file:////".toList.isPrefixOf (c :: rest) then
      "file://".toList ++ (c :: rest).drop "file:////".length
    else c :: shorten rest

/-- The URL of a file, seen from the working directory `home`. A host is written behind two slashes,
and not behind four. -/
def ofFile (home path : String) : String :=
  let path := (Path.absolute home path).map fun c => if c = '\\' then '/' else c
  let path := if Path.isAbsolute path then path else "/" ++ path
  .ofList (shorten ("file:" ++ Text.Percent.encode path).toList)

end JarReader.Url

namespace JarReader

structure JarUrl where
  file : String
  nested : List String
  /-- The entry in the innermost archive, empty for the archive itself. -/
  entry : String
  deriving DecidableEq, Repr

namespace JarUrl

def plainFile (file : String) : String :=
  match Text.strip? "///" file with
  | some rest => "/" ++ rest
  | none => file

def ofSegments? (segments : List String) : Option JarUrl :=
  match segments with
  | file :: inner :: more =>
    let inside := inner :: more
    if file = "" || inside.dropLast.contains "" then none
    else some ⟨plainFile file, inside.dropLast, inside.getLastD ""⟩
  | _ => none

def parse (url : String) : Except Failure JarUrl :=
  let parsed := do
    let rest ← Text.strip? "jar:" url
    let rest ← Text.strip? "file:" rest
    ofSegments? ((Text.cut Url.separator rest).map Text.Percent.decode)
  match parsed with
  | some parts => .ok parts
  | none => .error (.invalidUrl url)

def text (home : String) (u : JarUrl) : String :=
  "jar:" ++ Url.ofFile home u.file
    ++ String.join (u.nested.map fun segment => Url.separator ++ Text.Percent.encode segment)
    ++ Url.separator ++ Text.Percent.encode u.entry

def same (a b : JarUrl) : Bool :=
  Path.same a.file b.file && a.nested = b.nested && a.entry = b.entry

end JarUrl
end JarReader
