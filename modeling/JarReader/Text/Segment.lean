namespace JarReader.Text

/-- The pieces between the places where `separator` occurs, found from the left. -/
def cutChars (separator : List Char) : (text piece : List Char) → List (List Char)
  | [], piece => [piece.reverse]
  | c :: rest, piece =>
    if !separator.isEmpty && separator.isPrefixOf (c :: rest) then
      piece.reverse :: cutChars separator (rest.drop (separator.length - 1)) []
    else cutChars separator rest (c :: piece)
termination_by text => text.length
decreasing_by
  · exact Nat.lt_succ_of_le (List.drop_sublist _ _).length_le
  · exact Nat.lt_succ_self _

def cut (separator text : String) : List String :=
  (cutChars separator.toList text.toList []).map .ofList

def stripChars? : (start text : List Char) → Option (List Char)
  | [], text => some text
  | _ :: _, [] => none
  | s :: start, c :: text => if s = c then stripChars? start text else none

def strip? (start text : String) : Option String :=
  (stripChars? start.toList text.toList).map .ofList

def occurs (part : List Char) : (text : List Char) → Bool
  | [] => part.isEmpty
  | c :: rest => part.isPrefixOf (c :: rest) || occurs part rest

end JarReader.Text
