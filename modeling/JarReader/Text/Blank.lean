namespace JarReader.Text

def isBlank (c : Char) : Bool :=
  let n := c.toNat
  (9 ≤ n && n ≤ 13) || n == 0x20 || n == 0x85 || n == 0xA0 || n == 0x1680
    || (0x2000 ≤ n && n ≤ 0x200A) || n == 0x2028 || n == 0x2029 || n == 0x202F
    || n == 0x205F || n == 0x3000

def dropEnd (p : Char → Bool) (text : List Char) : List Char :=
  (text.reverse.dropWhile p).reverse

def trimEnd (p : Char → Bool) (text : String) : String := .ofList (dropEnd p text.toList)

def trim (text : String) : String :=
  .ofList (dropEnd isBlank (text.toList.dropWhile isBlank))

end JarReader.Text
