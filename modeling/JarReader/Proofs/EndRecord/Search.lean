import JarReader.Proofs.View
import JarReader.Zip.EndRecord

namespace JarReader.Zip.EndRecord

open Bytes

def LastFit (b : ByteArray) (i : Nat) : Prop :=
  fitsAt b i = true ∧ ∀ j, i < j → fitsAt b j = false

lemma size_of_fitsAt {b : ByteArray} {i : Nat} (h : fitsAt b i = true) :
    i + EndFields.size ≤ b.size ∧ b.size ≤ i + longWindow := by
  simp only [fitsAt, Bool.and_eq_true, decide_eq_true_eq] at h
  obtain ⟨⟨hs, _⟩, hc⟩ := h
  have hl := (u16At b (i + 20)).toNat_lt
  have hw : longWindow = 65557 := rfl
  simp only [EndFields.size] at hs hc ⊢
  omega

lemma fitsAt_extract {b : ByteArray} {first : Nat} (h : first ≤ b.size) (i : Nat) :
    fitsAt (b.extract first b.size) i = fitsAt b (first + i) := by
  have hs : (b.extract first b.size).size = b.size - first := by
    rw [ByteArray.size_extract, Nat.min_self]
  by_cases hi : first + i + EndFields.size ≤ b.size
  · simp only [EndFields.size] at hi
    have h32 : u32At (b.extract first b.size) i = u32At b (first + i) :=
      u32At_extract (by omega)
    have h16 : u16At (b.extract first b.size) (i + 20) = u16At b (first + i + 20) := by
      rw [u16At_extract (by omega), Nat.add_assoc]
    have hb : i + EndFields.size ≤ b.size - first ↔ first + i + EndFields.size ≤ b.size := by
      omega
    have hc (n : Nat) :
        i + EndFields.size + n = b.size - first ↔ first + i + EndFields.size + n = b.size := by
      omega
    simp only [fitsAt, h32, h16, hs, hb, hc]
  · have hl : ¬ i + EndFields.size ≤ b.size - first := by omega
    simp only [fitsAt, hs, hi, hl, decide_false, Bool.false_and]

lemma fitsAt_append (p a : ByteArray) (i : Nat) : fitsAt (p ++ a) (p.size + i) = fitsAt a i := by
  have hs : (p ++ a).extract p.size (p ++ a).size = a := by
    rw [ByteArray.extract_append_eq_right rfl ByteArray.size_append]
  rw [← fitsAt_extract (by simp), hs]

lemma lastBelow_eq_some {b : ByteArray} {limit i : Nat} (h : lastBelow b limit = some i) :
    i < limit ∧ fitsAt b i = true ∧ ∀ j, i < j → j < limit → fitsAt b j = false := by
  induction limit with
  | zero => cases h
  | succ limit ih =>
    simp only [lastBelow] at h
    split at h
    · cases h
      exact ⟨by omega, ‹_›, fun j h₁ h₂ => by omega⟩
    · obtain ⟨hi, hf, hj⟩ := ih h
      refine ⟨by omega, hf, fun j h₁ h₂ => ?_⟩
      by_cases hl : j = limit
      · subst hl
        simpa using ‹¬ fitsAt b j = true›
      · exact hj j h₁ (by omega)

lemma lastBelow_eq_none {b : ByteArray} {limit : Nat} (h : lastBelow b limit = none) :
    ∀ j, j < limit → fitsAt b j = false := by
  induction limit with
  | zero =>
    intro j hj
    omega
  | succ limit ih =>
    simp only [lastBelow] at h
    split at h
    · cases h
    · intro j hj
      by_cases hl : j = limit
      · subst hl
        simpa using ‹¬ fitsAt b j = true›
      · exact ih h j (by omega)

lemma fitsAt_eq_false {b : ByteArray} {i : Nat} (h : b.size + 1 - EndFields.size ≤ i) :
    fitsAt b i = false := by
  by_contra hf
  have := (size_of_fitsAt (by simpa using hf)).1
  simp only [EndFields.size] at *
  omega

lemma search_eq_some_iff {b : ByteArray} {i : Nat} : search b = some i ↔ LastFit b i := by
  constructor
  · intro h
    obtain ⟨_, hf, hj⟩ := lastBelow_eq_some h
    refine ⟨hf, fun j hij => ?_⟩
    by_cases hl : j < b.size + 1 - EndFields.size
    · exact hj j hij hl
    · exact fitsAt_eq_false (by omega)
  · rintro ⟨hf, hlater⟩
    cases hs : search b with
    | none =>
      by_cases hl : i < b.size + 1 - EndFields.size
      · rw [lastBelow_eq_none hs i hl] at hf
        cases hf
      · rw [fitsAt_eq_false (by omega)] at hf
        cases hf
    | some k =>
      obtain ⟨hk, hfk, hj⟩ := lastBelow_eq_some hs
      rcases Nat.lt_trichotomy i k with hik | rfl | hki
      · rw [hlater k hik] at hfk
        cases hfk
      · rfl
      · by_cases hl : i < b.size + 1 - EndFields.size
        · rw [hj i hki hl] at hf
          cases hf
        · rw [fitsAt_eq_false (by omega)] at hf
          cases hf

lemma search_eq_none_iff {b : ByteArray} : search b = none ↔ ∀ i, fitsAt b i = false := by
  constructor
  · intro h i
    by_cases hl : i < b.size + 1 - EndFields.size
    · exact lastBelow_eq_none h i hl
    · exact fitsAt_eq_false (by omega)
  · intro h
    cases hs : search b with
    | none => rfl
    | some k => simpa [h k] using (search_eq_some_iff.mp hs).1

end JarReader.Zip.EndRecord
