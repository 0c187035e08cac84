import JarReader.Failure
import JarReader.Text.Unshown

namespace JarReader.Text.Quoted

def encodeChar (c : Char) : String :=
  match c with
  | '"' => "\\\""
  | '\\' => "\\\\"
  | '\t' => "\\t"
  | '\n' => "\\n"
  | '\r' => "\\r"
  | '\x00' => "\\0"
  | c => if isUnshown c then "\\u\x7b" ++ hexText c.toNat ++ "\x7d" else c.toString

def encode (text : String) : String :=
  "\"" ++ text.foldl (fun done c => done ++ encodeChar c) "" ++ "\""

end JarReader.Text.Quoted
