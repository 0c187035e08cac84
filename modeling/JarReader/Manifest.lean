import JarReader.Text.Blank
import JarReader.Text.Utf8

/-!
Manifests: attributes in sections, one `name: value` a line. A line that begins with a space goes on
with the value before it, a blank line ends a section, and all sections but the first go by the
value of their attribute `Name`.
-/

namespace JarReader

/-- Names and values in the order in which the names were first seen. Names are equal up to the case
of ASCII letters, and keep the spelling in which they came first. -/
structure Attributes where
  pairs : List (String × String)
  deriving DecidableEq, Repr

namespace Attributes

def empty : Attributes := ⟨[]⟩

def sameName (a b : String) : Bool := a.toLower == b.toLower

def get? (a : Attributes) (name : String) : Option String :=
  (a.pairs.find? fun pair => sameName pair.1 name).map (·.2)

def insertPair (name value : String) : List (String × String) → List (String × String)
  | [] => [(name, value)]
  | pair :: rest =>
    if sameName pair.1 name then (pair.1, value) :: rest else pair :: insertPair name value rest

def insert (a : Attributes) (name value : String) : Attributes := ⟨insertPair name value a.pairs⟩

def size (a : Attributes) : Nat := a.pairs.length

end Attributes

structure Manifest where
  main : Attributes
  sections : List (String × Attributes)
  deriving DecidableEq, Repr

namespace Manifest

def entryName : String := "META-INF/MANIFEST.MF"

def section? (m : Manifest) (name : String) : Option Attributes := m.sections.lookup name

/-- What is known after some lines: the main attributes once their section has ended, the sections
after it, newest first, the section being read, and the attribute whose value may go on. -/
structure Draft where
  main? : Option Attributes
  sections : List (String × Attributes)
  current : Attributes
  pending? : Option (String × String)

namespace Draft

def start : Draft := ⟨none, [], .empty, none⟩

/-- Goes on with the value of the pending attribute; without one, the text is lost. -/
def extend (s : Draft) (more : String) : Draft :=
  match s with
  | ⟨main?, sections, current, some (name, value)⟩ =>
    ⟨main?, sections, current, some (name, value ++ more)⟩
  | s => s

def settle (s : Draft) : Draft :=
  match s.pending? with
  | some (name, value) => { s with current := s.current.insert name value, pending? := none }
  | none => s

/-- Ends the current section. One without a name is dropped, unless it is the main one. -/
def close (s : Draft) : Draft :=
  match s.main? with
  | none => { s with main? := some s.current, current := .empty }
  | some _ =>
    match s.current.get? "Name" with
    | some name => { s with sections := (name, s.current) :: s.sections, current := .empty }
    | none => { s with current := .empty }

def attribute? (line : List Char) : Option (String × String) :=
  match line.dropWhile (· ≠ ':') with
  | [] => none
  | _ :: value =>
    let value := if value.head? = some ' ' then value.tail else value
    some (Text.trim (.ofList (line.takeWhile (· ≠ ':'))), .ofList value)

def addLine (s : Draft) : (line : List Char) → Draft
  | ' ' :: more => s.extend (.ofList more)
  | [] => s.settle.close
  | line => { s.settle with pending? := attribute? line }

def finish (s : Draft) : Manifest := ⟨s.main?.getD .empty, s.sections.reverse⟩

end Draft

def linesOf (text : String) : List (List Char) :=
  (text.toList.splitOn '\n').map (Text.dropEnd (· = '\r')) ++ [[]]

def parse (bytes : ByteArray) : Manifest :=
  ((linesOf (Text.ofBytes bytes)).foldl Draft.addLine .start).finish

end Manifest
end JarReader
