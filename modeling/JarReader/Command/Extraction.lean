import JarReader.Command.Arguments
import JarReader.Command.Glob
import JarReader.Command.Report
import JarReader.Disk.Change
import JarReader.Jar.Content

namespace JarReader.Command

structure Progress where
  disk : Disk
  out : ByteArray
  errors : String

namespace Progress

def say (p : Progress) (text : String) : Progress := { p with out := p.out ++ text.toUTF8 }

def warn (p : Progress) (text : String) : Progress := { p with errors := p.errors ++ text }

end Progress

namespace Extraction

/-- The last component of a name, or all of it if that is no name of its own. -/
def baseName (name : String) : String := (Path.fileName? name).getD name

def picks (file name : String) : Bool :=
  if Glob.isPattern file then Glob.matchesText file name
  else name = file || baseName name = file

def isExcluded (exclude : List String) (name : String) : Bool :=
  exclude.any fun x => Text.occurs x.toList name.toList || Glob.matchesText x name

def isSelected (a : Arguments) (e : Entry) : Bool :=
  !e.isDirectory && (a.files.isEmpty || a.files.any fun file => picks file e.name)
    && !isExcluded a.exclude e.name

def selected (a : Arguments) (j : Jar) : List Entry := j.entries.filter (isSelected a)

def isMatched (entries : List Entry) (file : String) : Bool :=
  entries.any fun e => Glob.matchesText file e.name || e.name = file || baseName e.name = file

def warnUnmatched (a : Arguments) (entries : List Entry) (p : Progress) : Progress :=
  if a.isVeryQuiet then p
  else
    (a.files.filter fun file => !isMatched entries file).foldl
      (fun p file => p.warn s!"caution: filename not matched:  {file}\n") p

def outputPath (a : Arguments) (name : String) : String :=
  let name := if a.junkPaths then baseName name else name
  match a.directory? with
  | some directory => Path.join directory name
  | none => name

def skipReason? (a : Arguments) : Option String :=
  if a.neverOverwrite then some "file exists"
  else if !a.overwrite then some "use -o to overwrite"
  else none

def pipe (a : Arguments) (showName : Bool) (e : Entry) (reader : ContentReader) (p : Progress) :
    Progress × Option Report :=
  let p := if a.pipe && showName then p.say s!"--- {e.name} ---\n" else p
  let (bytes, fault?) := (reader.drain p.disk).1
  ({ p with out := p.out ++ bytes }, fault?.map .ofIo)

def writeOut (path : String) (reader : ContentReader) (p : Progress) : Progress × Option Report :=
  let (made, disk) :=
    match Path.parent? path with
    | some parent => p.disk.makeDirectories parent
    | none => (.ok (), p.disk)
  let p := { p with disk := disk }
  match made with
  | .error fault => (p, some (.ofIo (.system fault)))
  | .ok () =>
    match p.disk.create path with
    | .error fault =>
      (p, some ((Report.ofIo (.system fault)).within s!"cannot create {path}"))
    | .ok (id, disk) =>
      let (bytes, fault?) := (reader.drain disk).1
      ({ p with disk := disk.append id bytes }, fault?.map .ofIo)

def extractEntry (a : Arguments) (j : Jar) (showName : Bool) (e : Entry) (p : Progress) :
    Progress × Option Report :=
  match j.openEntry p.disk e with
  | .error failure => (p, some ((Report.ofFailure failure).within s!"cannot read {e.name}"))
  | .ok reader =>
    if a.pipe then pipe a showName e reader p
    else
      let path := outputPath a e.name
      let reason? := if p.disk.pathExists path then skipReason? a else none
      match reason? with
      | some reason =>
        (if a.isQuiet then p else p.warn s!"Skipping: {e.name} ({reason})\n", none)
      | none => writeOut path reader (if a.isQuiet then p else p.say s!"  extracting: {e.name}\n")

def extractAll (a : Arguments) (j : Jar) (showName : Bool) :
    List Entry → Progress → Progress × Option Report
  | [], p => (p, none)
  | e :: entries, p =>
    match extractEntry a j showName e p with
    | (p, none) => extractAll a j showName entries p
    | (p, some report) => (p, some report)

def run (a : Arguments) (j : Jar) (p : Progress) : Progress × Option Report :=
  let entries := selected a j
  extractAll a j (1 < entries.length) entries (warnUnmatched a entries p)

end Extraction
end JarReader.Command
