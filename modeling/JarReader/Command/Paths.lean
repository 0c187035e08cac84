import JarReader.Command.Run

namespace JarReader.Command

def rootPath? (a : Arguments) : Option String :=
  if isJarUrl a.file then (JarUrl.parse a.file).toOption.map (·.file)
  else some (splitPath a.file).1

def outputPaths (a : Arguments) (d : Disk) : List String :=
  if a.manifest || a.verbose || a.list || a.pipe then []
  else
    match openJar a (.start d) with
    | (.ok jar, _) => (Extraction.selected a jar).map fun e => Extraction.outputPath a e.name
    | (.error _, _) => []

end JarReader.Command
