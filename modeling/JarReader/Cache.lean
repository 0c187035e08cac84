/-!
A cache of parsed values. A value that is held is kept: a parse that finishes after another one for
the same key is dropped, and the call gives the value that was there first. A parse may use the
cache itself.
-/

namespace JarReader

structure Cache (κ ν : Type) where
  held : List (κ × ν)

namespace Cache

variable {κ ν ε : Type} [DecidableEq κ]

def empty : Cache κ ν := ⟨[]⟩

def get? (c : Cache κ ν) (key : κ) : Option ν := c.held.lookup key

def size (c : Cache κ ν) : Nat := c.held.length

def insert (c : Cache κ ν) (key : κ) (value : ν) : Cache κ ν := ⟨(key, value) :: c.held⟩

def getOrParse (c : Cache κ ν) (key : κ) (parse : Cache κ ν → Except ε ν × Cache κ ν) :
    Except ε ν × Cache κ ν :=
  match c.get? key with
  | some value => (.ok value, c)
  | none =>
    match parse c with
    | (.error fault, c) => (.error fault, c)
    | (.ok value, c) =>
      match c.get? key with
      | some first => (.ok first, c)
      | none => (.ok value, c.insert key value)

end Cache
end JarReader
