import JarReader.Jar.Content

/-!
Jars inside jars. An entry that is a directory opens as the part of the same archive below its name;
any other must be stored without compression, and its data is read as an archive of its own.
-/

namespace JarReader.Jar

variable (d : Disk) (j : Jar)

def nestedDirectory (entry : Entry) : Jar :=
  { j with
    pathFromRoot := j.pathFromRoot ++ Url.separator ++ Text.trimEnd (· = '/') entry.name
    kind := .nestedDirectory
    start := j.start ++ entry.name.toUTF8 }

def nested (entry : Entry) : Except Failure Jar :=
  if entry.isDirectory then .ok (j.nestedDirectory entry)
  else if entry.method ≠ .stored then .error (.compressedNestedJar entry.name)
  else do
    let data ← j.entryData d entry
    ofView d data j.root (j.pathFromRoot ++ Url.separator ++ entry.name) .nestedJar

def nested? (name : String) : Except Failure (Option Jar) :=
  match j.entry? name with
  | some entry => some <$> j.nested d entry
  | none => .ok none

end JarReader.Jar
