import JarReader.Failure

namespace JarReader.Text

def alignRight (width : Nat) (text : String) (fill : Char) : String :=
  "".pushn fill (width - text.length) ++ text

def column (width : Nat) (text : String) : String := alignRight width text ' '

end JarReader.Text
