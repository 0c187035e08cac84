import JarReader.Disk.Change
import JarReader.Url.Handler
import Mathlib.Logic.Function.Basic

namespace JarReader

inductive Change where
  | write (path : String) (bytes : ByteArray) (time : Int)
  | rename (path target : String)
  | link (path target : String)
  | directories (path : String)

/-- A change that fails leaves the disk, but for the directories that it made before. -/
def Change.apply (d : Disk) : Change → Disk
  | write path bytes time => (d.writeFile path bytes time).toOption.getD d
  | rename path target => (d.rename path target).toOption.getD d
  | link path target => (d.makeLink path target).toOption.getD d
  | directories path => (d.makeDirectories path).2

inductive Act where
  | change (change : Change)
  | openJar (useCache : Bool) (path : String)
  | connect (handler : Nat) (url : String)
  | closeRoots (handler : Nat)
  | clearCache

structure Process where
  system : System
  handlers : Nat → Handler

namespace Process

def start (d : Disk) (useCache : Nat → Bool) : Process := ⟨.start d, fun i => .new (useCache i)⟩

def step (p : Process) : Act → Process
  | .change change => { p with system := { p.system with disk := change.apply p.system.disk } }
  | .openJar useCache path => { p with system := (p.system.openJar useCache path).2 }
  | .connect i url =>
    let after := ((p.handlers i).connect p.system url).2
    ⟨after.2, Function.update p.handlers i after.1⟩
  | .closeRoots i => { p with handlers := Function.update p.handlers i (p.handlers i).clear }
  | .clearCache => { p with system := { p.system with metadata := .empty } }

def run (p : Process) (acts : List Act) : Process := acts.foldl step p

end Process

def Disk.sighting? (d : Disk) (path : String) : Option (FileIdentity × ByteArray) :=
  match FileIdentity.ofPath d path with
  | .ok identity => identity.file?.map fun id => (identity, d.content id)
  | .error _ => none

def Act.path? : Act → Option String
  | openJar _ path => some path
  | connect _ url => (JarUrl.parse url).toOption.map (·.file)
  | change _ | closeRoots _ | clearCache => none

namespace Process

/-- What is seen of files in a history: one file for each jar opened and each connection. -/
def sightings (p : Process) : List Act → List (FileIdentity × ByteArray)
  | [] => []
  | act :: acts => (act.path?.bind p.system.disk.sighting?).toList ++ (p.step act).sightings acts

end Process

/-- No identity is seen with two contents. -/
def Honest (seen : List (FileIdentity × ByteArray)) : Prop :=
  ∀ x ∈ seen, ∀ y ∈ seen, x.1 = y.1 → x.2 = y.2

end JarReader
