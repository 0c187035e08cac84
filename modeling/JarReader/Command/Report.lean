import JarReader.Failure

namespace JarReader.Command

structure Report where
  message : String
  causes : List String
  deriving DecidableEq, Repr

namespace Report

def ofFailure (failure : Failure) : Report := ⟨failure.message, failure.cause?.toList⟩

def ofIo (fault : IoFault) : Report := ⟨fault.message, []⟩

def within (context : String) (r : Report) : Report := ⟨context, r.message :: r.causes⟩

def causeText (label : String) (cause : String) : String :=
  let indent := "\n" ++ "".pushn ' ' label.length
  label ++ indent.intercalate ((cause.toList.splitOn '\n').map .ofList)

def causesText : List String → String
  | [] => ""
  | [cause] => "\n\nCaused by:\n" ++ causeText "    " cause
  | causes =>
    "\n\nCaused by:" ++ String.join (causes.zipIdx.map fun (cause, n) =>
      "\n" ++ causeText (String.ofList (List.replicate (5 - (toString n).length) ' ')
        ++ toString n ++ ": ") cause)

def text (r : Report) : String := "Error: " ++ r.message ++ causesText r.causes ++ "\n"

end Report
end JarReader.Command
