namespace JarReader.Command.Glob

def someEnd (accepts : List Char → Bool) : List Char → Bool
  | [] => accepts []
  | c :: text => accepts (c :: text) || someEnd accepts text

def accepts : (pattern : List Char) → (text : List Char) → Bool
  | [], text => text.isEmpty
  | '*' :: pattern, text => someEnd (accepts pattern) text
  | _ :: _, [] => false
  | p :: pattern, c :: text => (p = '?' || p = c) && accepts pattern text

def isPattern (text : String) : Bool := text.toList.any fun c => c = '*' || c = '?'

def matchesText (pattern text : String) : Bool := accepts pattern.toList text.toList

end JarReader.Command.Glob
