namespace JarReader.Command

structure Arguments where
  /-- The jar: a path, with jars inside it behind separators, or a `jar:` URL. -/
  file : String
  /-- The entries to extract; none stands for all. -/
  files : List String
  list : Bool
  verbose : Bool
  pipe : Bool
  manifest : Bool
  directory? : Option String
  exclude : List String
  neverOverwrite : Bool
  overwrite : Bool
  junkPaths : Bool
  quiet : Nat
  noCache : Bool
  deriving DecidableEq, Repr

namespace Arguments

def isQuiet (a : Arguments) : Bool := 0 < a.quiet || a.pipe

def isVeryQuiet (a : Arguments) : Bool := 1 < a.quiet

end Arguments

inductive Request where
  | run (arguments : Arguments)
  | version
  | help
  | misuse
  deriving DecidableEq, Repr

inductive Switch where
  | list
  | verbose
  | pipe
  | manifest
  | neverOverwrite
  | overwrite
  | junkPaths
  | noCache
  deriving DecidableEq, Repr

/-- Which option takes the next word, if it is not an option itself. -/
inductive Awaiting where
  | nothing
  | directory
  | firstExclude
  | moreExcludes
  deriving DecidableEq, Repr

structure Draft where
  switches : List Switch
  directory? : Option String
  exclude : List String
  quiet : Nat
  positional : List String
  awaiting : Awaiting
  /-- Whether `--` has been seen. -/
  literal : Bool

namespace Draft

def start : Draft := ⟨[], none, [], 0, [], .nothing, false⟩

/-- An option may not follow one that still lacks its value. -/
def settle (s : Draft) : Except Request Draft :=
  match s.awaiting with
  | .directory | .firstExclude => .error .misuse
  | _ => .ok { s with awaiting := .nothing }

def addSwitch (s : Draft) (switch : Switch) : Except Request Draft :=
  if s.switches.contains switch then .error .misuse
  else .ok { s with switches := switch :: s.switches }

def addDirectory (s : Draft) (value : String) : Except Request Draft :=
  match s.directory? with
  | some _ => .error .misuse
  | none => .ok { s with directory? := some value, awaiting := .nothing }

def addExclude (s : Draft) (value : String) (awaiting : Awaiting) : Draft :=
  { s with exclude := s.exclude ++ [value], awaiting := awaiting }

def attached? : List Char → Option String
  | [] => none
  | '=' :: value => some (.ofList value)
  | value => some (.ofList value)

def addLetters (s : Draft) : List Char → Except Request Draft
  | [] => .ok s
  | letter :: rest => do
    let s ← if "lvpmnojqVhdx".toList.contains letter then s.settle else .error .misuse
    match letter with
    | 'l' => (← s.addSwitch .list).addLetters rest
    | 'v' => (← s.addSwitch .verbose).addLetters rest
    | 'p' => (← s.addSwitch .pipe).addLetters rest
    | 'm' => (← s.addSwitch .manifest).addLetters rest
    | 'n' => (← s.addSwitch .neverOverwrite).addLetters rest
    | 'o' => (← s.addSwitch .overwrite).addLetters rest
    | 'j' => (← s.addSwitch .junkPaths).addLetters rest
    | 'q' => addLetters { s with quiet := s.quiet + 1 } rest
    | 'V' => .error .version
    | 'h' => .error .help
    | 'd' =>
      match attached? rest with
      | some value => s.addDirectory value
      | none =>
        if s.directory?.isSome then .error .misuse else .ok { s with awaiting := .directory }
    | _ =>
      match attached? rest with
      | some value => .ok (s.addExclude value .nothing)
      | none => .ok { s with awaiting := .firstExclude }

def addLong (s : Draft) (name : String) : Except Request Draft := do
  match name with
  | "manifest" => (← s.settle).addSwitch .manifest
  | "no-cache" => (← s.settle).addSwitch .noCache
  | "version" =>
    let _ ← s.settle
    .error .version
  | "help" =>
    let _ ← s.settle
    .error .help
  | _ => .error .misuse

def addValue (s : Draft) (word : String) : Except Request Draft :=
  match s.literal, s.awaiting with
  | false, .directory => s.addDirectory word
  | false, .firstExclude | false, .moreExcludes => .ok (s.addExclude word .moreExcludes)
  | _, _ => do
    let s ← s.settle
    return { s with positional := s.positional ++ [word] }

def addWord (s : Draft) (word : String) : Except Request Draft :=
  if s.literal then s.addValue word
  else
    match word.toList with
    | ['-', '-'] => .ok { s with literal := true }
    | '-' :: '-' :: name => s.addLong (.ofList name)
    | '-' :: letter :: letters => s.addLetters (letter :: letters)
    | _ => s.addValue word

def finish (s : Draft) : Request :=
  match s.settle, s.positional with
  | .ok s, file :: files =>
    .run {
      file := file
      files := files
      list := s.switches.contains .list
      verbose := s.switches.contains .verbose
      pipe := s.switches.contains .pipe
      manifest := s.switches.contains .manifest
      directory? := s.directory?
      exclude := s.exclude
      neverOverwrite := s.switches.contains .neverOverwrite
      overwrite := s.switches.contains .overwrite
      junkPaths := s.switches.contains .junkPaths
      quiet := s.quiet
      noCache := s.switches.contains .noCache }
  | _, _ => .misuse

end Draft

def Request.ofWords (words : List String) : Request :=
  match words.foldlM Draft.addWord .start with
  | .ok draft => draft.finish
  | .error request => request

end JarReader.Command
