import JarReader.Proofs.Bytes
import JarReader.View.Basic

namespace JarReader

/-- Both fail for the same reason, or both succeed with results in relation. -/
inductive Matched {α β ε : Type} (R : α → β → Prop) : Except ε α → Except ε β → Prop
  | ok {a : α} {b : β} : R a b → Matched R (.ok a) (.ok b)
  | error (e : ε) : Matched R (.error e) (.error e)

namespace Matched

variable {α β γ δ ε : Type} {R : α → β → Prop} {S : γ → δ → Prop}

lemma bind {x : Except ε α} {y : Except ε β} {f : α → Except ε γ} {g : β → Except ε δ}
    (h : Matched R x y) (hf : ∀ a b, R a b → Matched S (f a) (g b)) :
    Matched S (x >>= f) (y >>= g) := by
  cases h with
  | ok hr => exact hf _ _ hr
  | error e => exact .error e

lemma mono {x : Except ε α} {y : Except ε β} {T : α → β → Prop} (h : Matched R x y)
    (hr : ∀ a b, R a b → T a b) : Matched T x y := by
  cases h with
  | ok h => exact .ok (hr _ _ h)
  | error e => exact .error e

lemma attach {x : Except ε α} {y : Except ε β} (h : Matched R x y) :
    Matched (fun a b => R a b ∧ x = .ok a ∧ y = .ok b) x y := by
  cases h with
  | ok hr => exact .ok ⟨hr, rfl, rfl⟩
  | error e => exact .error e

lemma map {x : Except ε α} {y : Except ε β} {f : α → γ} {g : β → δ}
    (h : Matched R x y) (hf : ∀ a b, R a b → S (f a) (g b)) : Matched S (f <$> x) (g <$> y) := by
  cases h with
  | ok hr => exact .ok (hf _ _ hr)
  | error e => exact .error e

lemma map_eq {x : Except ε α} {y : Except ε β} {f : α → γ} {g : β → γ}
    (h : Matched R x y) (hf : ∀ a b, R a b → f a = g b) : x.map f = y.map g := by
  cases h with
  | ok hr => exact congrArg Except.ok (hf _ _ hr)
  | error e => rfl

lemma bind_eq {x : Except ε α} {y : Except ε β} {f : α → Except ε γ} {g : β → Except ε γ}
    (h : Matched R x y) (hf : ∀ a b, R a b → f a = g b) : x >>= f = y >>= g := by
  cases h with
  | ok hr => exact hf _ _ hr
  | error e => rfl

lemma symm {x : Except ε α} {y : Except ε β} {T : β → α → Prop} (h : Matched R x y)
    (hr : ∀ a b, R a b → T b a) : Matched T y x := by
  cases h with
  | ok h => exact .ok (hr _ _ h)
  | error e => exact .error e

lemma trans {x : Except ε α} {y : Except ε β} {z : Except ε γ} {U : β → γ → Prop}
    {T : α → γ → Prop} (h : Matched R x y) (h' : Matched U y z)
    (hr : ∀ a b c, R a b → U b c → T a c) : Matched T x z := by
  cases h with
  | ok h =>
    cases h' with
    | ok h' => exact .ok (hr _ _ _ h h')
  | error e =>
    cases h' with
    | error _ => exact .error e

end Matched

namespace View

structure Alike (d : Disk) (v w : View) : Prop where
  length : v.length = w.length
  read : ∀ i n, v.read d i n = w.read d i n

namespace Alike

variable {d : Disk} {v w : View}

lemma readExact (h : Alike d v w) (i n : Nat) : v.readExact d i n = w.readExact d i n := by
  simp only [View.readExact, h.read, h.length]

lemma bytes (h : Alike d v w) : v.bytes d = w.bytes d := by
  simp only [View.bytes, h.read, h.length]

end Alike

lemma length_part {v w : View} {offset length : Nat} (h : v.part offset length = .ok w) :
    w.length = length := by
  unfold part at h
  split at h
  · cases h; rfl
  · cases h

lemma source_of_part {v w : View} {offset length : Nat} (h : v.part offset length = .ok w) :
    w.source = v.source := by
  unfold part at h
  split at h
  · cases h; rfl
  · cases h

lemma le_length_of_part {v w : View} {offset length : Nat} (h : v.part offset length = .ok w) :
    offset + length ≤ v.length := by
  unfold part at h
  split at h
  · assumption
  · cases h

lemma read_part (d : Disk) {v w : View} {offset length : Nat}
    (h : v.part offset length = .ok w) (i n : Nat) :
    w.read d i n =
      if i < length then v.read d (offset + i) (min n (length - i)) else .empty := by
  unfold part at h
  split at h
  · rename_i hl
    cases h
    by_cases hi : i < length
    · have hv : offset + i < v.length := by omega
      have hn : min (min n (length - i)) (v.length - (offset + i)) = min n (length - i) := by omega
      simp only [read, hi, hv, hn, if_true, Nat.add_assoc]
    · simp only [read, hi, if_false]
  · cases h

lemma Alike.part {d : Disk} {v w : View} (h : Alike d v w) (offset length : Nat) :
    Matched (Alike d) (v.part offset length) (w.part offset length) := by
  by_cases hl : offset + length ≤ v.length
  · have hv : v.part offset length = .ok { v with start := v.start + offset, length := length } :=
      if_pos hl
    have hw : w.part offset length = .ok { w with start := w.start + offset, length := length } :=
      if_pos (h.length ▸ hl)
    rw [hv, hw]
    refine .ok ⟨rfl, fun i n => ?_⟩
    rw [read_part d hv, read_part d hw, h.read]
  · have hv : v.part offset length = .error (.outOfBounds offset length v.length) := if_neg hl
    have hw : w.part offset length = .error (.outOfBounds offset length w.length) :=
      if_neg (h.length ▸ hl)
    rw [hv, hw, h.length]
    exact .error _

def Whole (d : Disk) (v : View) : Prop := v.start + v.length ≤ (v.source.bytes d).size

lemma whole_ofBytes (d : Disk) (b : ByteArray) : (ofBytes b).Whole d := by
  simp [Whole, ofBytes, Source.bytes]

@[simp] lemma length_ofBytes (b : ByteArray) : (ofBytes b).length = b.size := rfl

lemma whole_openFile {d : Disk} {path : String} {v : View} (h : openFile d path = .ok v) :
    v.Whole d := by
  unfold openFile at h
  split at h
  · cases h; simp [Whole, Source.bytes]
  · cases h

lemma Whole.part {d : Disk} {v w : View} {offset length : Nat} (hv : v.Whole d)
    (h : v.part offset length = .ok w) : w.Whole d := by
  have hl := le_length_of_part h
  unfold View.part at h
  rw [if_pos hl] at h
  cases h
  simp only [Whole] at *
  omega

lemma bytes_eq (d : Disk) (v : View) :
    v.bytes d = (v.source.bytes d).extract v.start (v.start + v.length) := by
  unfold View.bytes View.read
  by_cases hl : 0 < v.length
  · simp [hl]
  · rw [if_neg hl, Nat.eq_zero_of_not_pos hl, Nat.add_zero, ByteArray.extract_same]

@[simp] lemma Whole.size_bytes {d : Disk} {v : View} (hv : v.Whole d) :
    (v.bytes d).size = v.length := by
  rw [bytes_eq, ByteArray.size_extract]
  simp only [Whole] at hv
  omega

@[simp] lemma bytes_ofBytes (d : Disk) (b : ByteArray) : (ofBytes b).bytes d = b := by
  rw [bytes_eq]
  simp [ofBytes, Source.bytes]

lemma read_eq (d : Disk) (v : View) (i n : Nat) :
    v.read d i n = (v.bytes d).extract i (i + n) := by
  rw [bytes_eq, ByteArray.extract_extract]
  simp only [read]
  split
  · congr 1
    omega
  · symm
    rw [ByteArray.extract_eq_empty_iff]
    omega

lemma Whole.readExact_eq {d : Disk} {v : View} (hv : v.Whole d) {i n : Nat}
    (h : i + n ≤ v.length) : v.readExact d i n = .ok ((v.bytes d).extract i (i + n)) := by
  unfold readExact
  rw [read_eq, if_pos]
  rw [ByteArray.size_extract, hv.size_bytes]
  omega

lemma Whole.readExact_eq_ite {d : Disk} {v : View} (hv : v.Whole d) (i : Nat) {n : Nat}
    (hn : 0 < n) :
    v.readExact d i n =
      if i + n ≤ v.length then .ok ((v.bytes d).extract i (i + n))
      else .error (.io (.endOfData n i v.length)) := by
  by_cases h : i + n ≤ v.length
  · rw [if_pos h, hv.readExact_eq h]
  · rw [if_neg h, readExact, if_neg]
    rw [read_eq, ByteArray.size_extract, hv.size_bytes]
    omega

lemma bytes_part {d : Disk} {v w : View} {offset length : Nat}
    (h : v.part offset length = .ok w) :
    w.bytes d = (v.bytes d).extract offset (offset + length) := by
  have hl := le_length_of_part h
  rw [bytes_eq, bytes_eq, ByteArray.extract_extract]
  unfold View.part at h
  rw [if_pos hl] at h
  cases h
  dsimp only
  congr 1
  omega

lemma Whole.alike_ofBytes {d : Disk} {v : View} (hv : v.Whole d) :
    Alike d v (ofBytes (v.bytes d)) where
  length := hv.size_bytes.symm
  read i n := by rw [read_eq, read_eq, bytes_ofBytes]

lemma Whole.alike {d : Disk} {v w : View} (hv : v.Whole d) (hw : w.Whole d)
    (h : v.bytes d = w.bytes d) : Alike d v w where
  length := by rw [← hv.size_bytes, h, hw.size_bytes]
  read i n := by rw [read_eq, read_eq, h]

end View
end JarReader
