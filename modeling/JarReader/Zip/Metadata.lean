import JarReader.Zip.Directory.Index
import JarReader.Zip.EndRecord

namespace JarReader.Zip

structure Metadata where
  endRecord : EndRecord
  directory : Directory

namespace Metadata

def read (d : Disk) (data : View) : Except Failure Metadata := do
  let endRecord ← EndRecord.locate d data
  let archive ← endRecord.archive data
  let bytes ← endRecord.readDirectory d archive
  match Directory.parse bytes endRecord.entries with
  | .ok directory => return ⟨endRecord, directory⟩
  | .error fault => throw (.format fault)

end Metadata
end JarReader.Zip
