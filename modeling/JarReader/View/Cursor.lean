import JarReader.View.Basic

/-!
Reading a view in sequence: a position that reading moves on and that can be set anywhere below
2^64, past the end too.
-/

namespace JarReader

structure Cursor where
  view : View
  position : Nat

inductive Seek where
  | start (target : Nat)
  | fromEnd (distance : Int)
  | fromCurrent (distance : Int)

namespace Cursor

def atStart (view : View) : Cursor := ⟨view, 0⟩

def remaining (c : Cursor) : Nat := c.view.length - c.position

def read (d : Disk) (c : Cursor) (n : Nat) : ByteArray × Cursor :=
  let bytes := c.view.read d c.position n
  (bytes, { c with position := c.position + bytes.size })

theorem remaining_read_lt (d : Disk) (c : Cursor) (n : Nat) (h : (c.read d n).1.size ≠ 0) :
    (c.read d n).2.remaining < c.remaining := by
  have hp : c.position < c.view.length := Decidable.byContradiction fun hp => by
    simp [read, View.read, hp] at h
  simp only [read, remaining] at *
  omega

def inRange (target : Int) : Option Nat :=
  if 0 ≤ target ∧ target < UInt64.size then some target.toNat else none

def target? (c : Cursor) : Seek → Option Nat
  | .start target => inRange target
  | .fromEnd distance => inRange (c.view.length + distance)
  | .fromCurrent distance => inRange (c.position + distance)

def seek (c : Cursor) (s : Seek) : Except IoFault Cursor :=
  match c.target? s with
  | some position => .ok { c with position := position }
  | none => .error .invalidSeek

end Cursor
end JarReader
