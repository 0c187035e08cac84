import JarReader.Proofs.Directory.Inside
import JarReader.Proofs.View

/-! Computations that stop where a reading would leave the data and where a sum or a difference of
64-bit words would wrap, and what it means that an unguarded one agrees with them. -/

namespace JarReader

open Bytes

/-- Without a result where something is out of range; otherwise a value or a fault of the format. -/
abbrev Guarded := ExceptT FormatFault Option

inductive FormatFault.OfOpening : FormatFault → Prop
  | missingEndRecord : OfOpening .missingEndRecord
  | zip64 (fault : Zip64Fault) : OfOpening (.zip64 fault)
  | startUnderflow : OfOpening .startUnderflow
  | directory (offset : Nat) (fault : DirectoryFault) : OfOpening (.directory offset fault)
  | entryCount (declared found : Nat) : OfOpening (.entryCount declared found)

namespace Bytes

def u64At? (b : ByteArray) (i : Nat) : Option UInt64 :=
  if i + 8 ≤ b.size then some (u64At b i) else none

variable {b : ByteArray} {i first last : Nat}

lemma u16At?_eq (h : i + 2 ≤ b.size) : u16At? b i = some (u16At b i) := if_pos h

lemma u32At?_eq (h : i + 4 ≤ b.size) : u32At? b i = some (u32At b i) := if_pos h

lemma u64At?_eq (h : i + 8 ≤ b.size) : u64At? b i = some (u64At b i) := if_pos h

lemma part?_eq (h : first ≤ last) (hl : last ≤ b.size) :
    part? b first last = some (b.extract first last) := if_pos ⟨h, hl⟩

end Bytes

namespace Guarded

def sum (a b : Nat) : Option Nat := if a + b < UInt64.size then some (a + b) else none

def difference (a b : Nat) : Option Nat := if b ≤ a then some (a - b) else none

lemma sum_eq {a b : Nat} (h : a + b < UInt64.size) : sum a b = some (a + b) := if_pos h

lemma difference_eq {a b : Nat} (h : b ≤ a) : difference a b = some (a - b) := if_pos h

@[simp] lemma liftM_some {α : Type} (a : α) : (liftM (some a) : Guarded α) = pure a := rfl

lemma eq_pure {α : Type} {g : Guarded α} {a : α} (h : g.run = some (.ok a)) : g = pure a := h

lemma eq_throw {α : Type} {g : Guarded α} {fault : FormatFault}
    (h : g.run = some (.error fault)) : g = throw fault := h

/-- The guarded computation has a result, which is that of `x`. -/
def Meets {α : Type} (g : Guarded α) (x : Except Failure α) : Prop :=
  ∃ result : Except FormatFault α, g.run = some result ∧ x = result.mapError .format ∧
    ∀ fault, result = .error fault → fault.OfOpening

namespace Meets

variable {α β : Type} {g : Guarded α} {x : Except Failure α}

lemma pure (a : α) : Meets (Pure.pure a) (Except.ok a) :=
  ⟨.ok a, rfl, rfl, fun _ h => by cases h⟩

lemma throw {fault : FormatFault} (h : fault.OfOpening) :
    Meets (α := α) (MonadExcept.throw fault) (.error (.format fault)) := by
  refine ⟨.error fault, rfl, rfl, ?_⟩
  rintro _ ⟨⟩
  exact h

lemma bind {k : α → Guarded β} {f : α → Except Failure β} (h : Meets g x)
    (hf : ∀ a, x = .ok a → Meets (k a) (f a)) : Meets (g >>= k) (x >>= f) := by
  obtain ⟨result, hrun, rfl, hfault⟩ := h
  cases result with
  | error fault =>
    refine ⟨.error fault, ?_, rfl, ?_⟩
    · simp [ExceptT.run_bind, hrun]
    · rintro _ ⟨⟩
      exact hfault fault rfl
  | ok a =>
    obtain ⟨result, hk, hfa, hfault⟩ := hf a rfl
    refine ⟨result, ?_, hfa, hfault⟩
    simp [ExceptT.run_bind, hrun, hk]

lemma lift {o : Option α} {a : α} (ho : o = some a) {k : α → Guarded β} {y : Except Failure β}
    (h : Meets (k a) y) : Meets (liftM o >>= k) y := by
  subst ho
  exact h

lemma ite {p : Prop} [Decidable p] {g' : Guarded α} {x' : Except Failure α}
    (h : p → Meets g x) (h' : ¬ p → Meets g' x') :
    Meets (if p then g else g') (if p then x else x') := by
  by_cases hp : p
  · rw [if_pos hp, if_pos hp]
    exact h hp
  · rw [if_neg hp, if_neg hp]
    exact h' hp

end Meets

section View

open JarReader.View

def readExact (d : Disk) (v : View) (position n : Nat) : Option ByteArray := do
  let last ← sum position n
  let first ← sum v.start position
  let past ← sum v.start last
  if v.length < last then none else part? (v.source.bytes d) first past

def part (v : View) (offset length : Nat) : Option View := do
  let last ← sum offset length
  let start ← sum v.start offset
  if v.length < last then none else return { v with start := start, length := length }

/-- All bytes of the view are there, and positions in its source are 64-bit words. -/
structure Sound (d : Disk) (v : View) : Prop where
  whole : v.Whole d
  size : (v.source.bytes d).size < UInt64.size

variable {d : Disk} {v w : View}

lemma Sound.length_lt (hv : Sound d v) : v.start + v.length < UInt64.size :=
  Nat.lt_of_le_of_lt hv.whole hv.size

lemma Sound.part (hv : Sound d v) {offset length : Nat} (h : v.part offset length = .ok w) :
    Sound d w where
  whole := hv.whole.part h
  size := by
    rw [View.part, if_pos (le_length_of_part h)] at h
    cases h
    exact hv.size

lemma readExact_eq (hv : Sound d v) {i n : Nat} (h : i + n ≤ v.length) :
    readExact d v i n = some ((v.bytes d).extract i (i + n)) := by
  have hl := hv.length_lt
  have hw := hv.whole
  simp only [Whole] at hw
  have hlast : sum i n = some (i + n) := sum_eq (by omega)
  have hfirst : sum v.start i = some (v.start + i) := sum_eq (by omega)
  have hpast : sum v.start (i + n) = some (v.start + (i + n)) := sum_eq (by omega)
  simp only [readExact, hlast, hfirst, hpast, bind, Option.bind, if_neg (Nat.not_lt.mpr h)]
  rw [part?_eq (by omega) (by omega), bytes_eq, ByteArray.extract_extract]
  congr 2
  omega

lemma part_eq (hv : Sound d v) {offset length : Nat} (h : v.part offset length = .ok w) :
    Guarded.part v offset length = some w := by
  have hl := le_length_of_part h
  have hs := hv.length_lt
  rw [Guarded.part, sum_eq (by omega), sum_eq (by omega)]
  rw [View.part, if_pos hl] at h
  cases h
  simp [Nat.not_lt.mpr hl]

end View

lemma Meets.read {α : Type} {d : Disk} {v : View} (hv : Sound d v) {i n : Nat}
    (h : i + n ≤ v.length) {k : ByteArray → Guarded α} {f : ByteArray → Except Failure α}
    (hk : Meets (k ((v.bytes d).extract i (i + n))) (f ((v.bytes d).extract i (i + n)))) :
    Meets (liftM (readExact d v i n) >>= k) (v.readExact d i n >>= f) := by
  rw [hv.whole.readExact_eq h]
  exact .lift (readExact_eq hv h) hk

end Guarded
end JarReader
