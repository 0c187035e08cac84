import JarReader.Command.Paths

/-!
The program. What a run looks at is copied from the file system to a disk, and what the run makes or
changes there is copied back.
-/

namespace JarReader.Program

def loadNode (d : Disk) (path : String) : IO Disk := do
  if (Disk.pathFault? path).isSome then return d
  match ← (IO.FS.readBinFile path).toBaseIO with
  | .ok bytes => return (d.writeFile path bytes 0).toOption.getD d
  | .error (.inappropriateType ..) => return (d.makeDirectory path).toOption.getD d
  | .error (.noFileOrDirectory ..) => return d
  | .error fault => throw fault

def load (d : Disk) (path : String) : IO Disk := (Path.ancestors path).reverse.foldlM loadNode d

def storeNode (location : Location) : Option ByteArray → IO Unit
  | none => IO.FS.createDirAll location.text
  | some bytes => IO.FS.writeBinFile location.text bytes

def prepare (words : List String) (d : Disk) : IO Disk := do
  match Command.Request.ofWords words with
  | .run a =>
    let d ← (Command.rootPath? a).toList.foldlM load d
    (Command.outputPaths a d).foldlM load d
  | _ => return d

def run (words : List String) : IO UInt32 := do
  let home := Path.pieces (toString (← IO.currentDir))
  let d ← prepare words (.empty home)
  let outcome := Command.run words d
  (Disk.changes d outcome.disk).forM fun (location, bytes?) => storeNode location bytes?
  (← IO.getStdout).write outcome.out
  (← IO.getStderr).putStr outcome.errors
  return outcome.exitCode.toUInt32

end JarReader.Program

def main (words : List String) : IO UInt32 := JarReader.Program.run words
