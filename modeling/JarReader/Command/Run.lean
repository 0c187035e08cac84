import JarReader.Command.Extraction
import JarReader.Command.Listing
import JarReader.Url.Handler

namespace JarReader.Command

structure Outcome where
  exitCode : UInt8
  out : ByteArray
  errors : String
  disk : Disk

/-- The file and the segments inside it that a path with separators names; empty segments count
for nothing. -/
def splitPath (file : String) : String × List String :=
  match Text.cut Url.separator file with
  | [] => ("", [])
  | root :: segments => (root, segments.filter (· ≠ ""))

def isJarUrl (file : String) : Bool := (Text.strip? "jar:" file).isSome

def descend (s : System) (j : Jar) : (segments : List String) → Except Report Jar × System
  | [] => (.ok j, s)
  | segment :: segments =>
    match s.nested? j segment with
    | (.error failure, s) => (.error (.ofFailure failure), s)
    | (.ok none, s) =>
      (.error ⟨s!"{segment}: no such entry in {j.url s.disk.homeText}", []⟩, s)
    | (.ok (some jar), s) => descend s jar segments

def openUrl (a : Arguments) (s : System) : Except Report Jar × System :=
  match (Handler.new !a.noCache).connect s a.file with
  | (.error failure, _, s) =>
    (.error ((Report.ofFailure failure).within s!"cannot open {a.file}"), s)
  | (.ok connection, _, s) => (.ok connection.jar, s)

def openPath (a : Arguments) (s : System) : Except Report Jar × System :=
  let (root, segments) := splitPath a.file
  match s.openJar (!a.noCache) root with
  | (.error failure, s) => (.error ((Report.ofFailure failure).within s!"cannot open {root}"), s)
  | (.ok jar, s) => descend s jar segments

def openJar (a : Arguments) (s : System) : Except Report Jar × System :=
  if isJarUrl a.file then openUrl a s else openPath a s

def showManifest (j : Jar) (p : Progress) : Progress × Option Report :=
  match j.readManifest p.disk with
  | .error failure => (p, some (.ofFailure failure))
  | .ok none => (p, some ⟨s!"{j.url p.disk.homeText} has no manifest", []⟩)
  | .ok (some manifest) => (p.say (Listing.manifest manifest), none)

def perform (a : Arguments) (j : Jar) (p : Progress) : Progress × Option Report :=
  if a.manifest then showManifest j p
  else if a.verbose then (p.say (Listing.table j.entries), none)
  else if a.list then (p.say (Listing.names j.entries), none)
  else Extraction.run a j p

def execute (a : Arguments) (d : Disk) : Outcome :=
  let start : Progress := ⟨d, .empty, ""⟩
  let (p, report?) :=
    match openJar a (.start d) with
    | (.error report, _) => (start, some report)
    | (.ok jar, _) => perform a jar start
  match report? with
  | none => ⟨0, p.out, p.errors, p.disk⟩
  | some report => ⟨1, p.out, p.errors ++ report.text, p.disk⟩

def name : String := "nestjar"
def version : String := "0.1.0"

def usage : String :=
  s!"Usage: {name} [-lvpmnojq] [-d DIR] [-x FILE...] [--no-cache] FILE [FILES...]\n"

def run (words : List String) (d : Disk) : Outcome :=
  match Request.ofWords words with
  | .run arguments => execute arguments d
  | .version => ⟨0, s!"{name} {version}\n".toUTF8, "", d⟩
  | .help => ⟨0, usage.toUTF8, "", d⟩
  | .misuse => ⟨2, .empty, usage, d⟩

end JarReader.Command
