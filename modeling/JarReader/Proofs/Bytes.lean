import JarReader.Bytes
import Mathlib.Algebra.Group.Nat.Defs
import Mathlib.Tactic.Common

namespace JarReader.Bytes

lemma byteAt_extract {b : ByteArray} {first last i : Nat} (h : first + i < last) :
    byteAt (b.extract first last) i = byteAt b (first + i) := by
  unfold byteAt
  by_cases hi : first + i < b.size
  · rw [dif_pos hi, dif_pos (by rw [ByteArray.size_extract]; omega), ByteArray.getElem_extract]
  · rw [dif_neg hi, dif_neg (by rw [ByteArray.size_extract]; omega)]

lemma byteAt_append_left {a b : ByteArray} {i : Nat} (h : i < a.size) :
    byteAt (a ++ b) i = byteAt a i := by
  unfold byteAt
  rw [dif_pos h, dif_pos (by rw [ByteArray.size_append]; omega), ByteArray.getElem_append_left h]

lemma byteAt_append_right (a b : ByteArray) (i : Nat) :
    byteAt (a ++ b) (a.size + i) = byteAt b i := by
  unfold byteAt
  by_cases hi : i < b.size
  · rw [dif_pos hi, dif_pos (by rw [ByteArray.size_append]; omega),
      ByteArray.getElem_append_right (by omega)]
    simp
  · rw [dif_neg hi, dif_neg (by rw [ByteArray.size_append]; omega)]

@[simp] lemma toByteArray_toList (b : ByteArray) : b.data.toList.toByteArray = b :=
  ByteArray.ext (by rw [List.data_toByteArray, Array.toArray_toList])

lemma extract_middle (a b c : ByteArray) :
    (a ++ (b ++ c)).extract a.size (a.size + b.size) = b := by
  have hs := ByteArray.extract_append_size_add (a := a) (b := b ++ c) (i := 0) (j := b.size)
  rw [Nat.add_zero] at hs
  rw [hs, ByteArray.extract_append_eq_left rfl]

lemma eq_extract_append {b : ByteArray} {n : Nat} (h : n ≤ b.size) :
    b = b.extract 0 n ++ b.extract n b.size := by
  rw [← ByteArray.extract_eq_extract_append_extract n (Nat.zero_le n) h,
    ByteArray.extract_zero_size]

lemma extract_min (b : ByteArray) (first last : Nat) :
    b.extract first (min last b.size) = b.extract first last := by
  have he : (b.extract 0 b.size).extract first last =
      b.extract (0 + first) (min (0 + last) b.size) := ByteArray.extract_extract
  rw [ByteArray.extract_zero_size, Nat.zero_add, Nat.zero_add] at he
  exact he.symm

lemma number_extract {b : ByteArray} {first last i width : Nat}
    (h : first + i + width ≤ last) :
    number (b.extract first last) i width = number b (first + i) width := by
  induction width generalizing i with
  | zero => rfl
  | succ width ih =>
    simp only [number]
    rw [byteAt_extract (by omega), ih (by omega), Nat.add_assoc]

lemma number_append_right (a b : ByteArray) (i width : Nat) :
    number (a ++ b) (a.size + i) width = number b i width := by
  induction width generalizing i with
  | zero => rfl
  | succ width ih =>
    simp only [number]
    rw [byteAt_append_right, Nat.add_assoc, ih]

lemma number_lt (b : ByteArray) (i width : Nat) : number b i width < 256 ^ width := by
  induction width generalizing i with
  | zero => simp [number]
  | succ width ih =>
    have hb := (byteAt b i).toNat_lt
    have hn := ih (i + 1)
    simp only [number, Nat.pow_succ]
    omega

lemma number_add (b : ByteArray) (i m n : Nat) :
    number b i (m + n) = number b i m + 256 ^ m * number b (i + m) n := by
  induction m generalizing i with
  | zero => simp [number]
  | succ m ih =>
    have hi : i + (m + 1) = i + 1 + m := by omega
    rw [Nat.succ_add, number, ih, number, Nat.pow_succ', hi]
    grind

section Numbers

variable (n : Nat) (rest : ByteArray)

@[simp] lemma size_ofNumber (width : Nat) : (ofNumber width n).toByteArray.size = width := by
  rw [List.size_toByteArray, length_ofNumber]

lemma number_ofNumber (width : Nat) :
    number ((ofNumber width n).toByteArray ++ rest) 0 width = n % 256 ^ width := by
  induction width generalizing n with
  | zero => simp [number, Nat.mod_one]
  | succ width ih =>
    have hc : (ofNumber (width + 1) n).toByteArray ++ rest =
        [UInt8.ofNat n].toByteArray ++ ((ofNumber width (n / 256)).toByteArray ++ rest) := by
      rw [← ByteArray.append_assoc, ← List.toByteArray_append]
      rfl
    have hr := number_append_right [UInt8.ofNat n].toByteArray
      ((ofNumber width (n / 256)).toByteArray ++ rest) 0 width
    have hb : byteAt ((ofNumber (width + 1) n).toByteArray ++ rest) 0 = UInt8.ofNat n := by
      rw [hc, byteAt_append_left (by simp)]
      rfl
    simp only [List.size_toByteArray, List.length_cons, List.length_nil] at hr
    rw [number, hb, hc, hr, ih, Nat.pow_succ', Nat.mod_mul]
    simp

lemma number_skip {width i : Nat} (h : width ≤ i) (width' : Nat) :
    number ((ofNumber width n).toByteArray ++ rest) i width' = number rest (i - width) width' := by
  obtain ⟨k, rfl⟩ := Nat.exists_eq_add_of_le h
  have hs := number_append_right (ofNumber width n).toByteArray rest k width'
  rw [size_ofNumber] at hs
  rw [hs, Nat.add_sub_cancel_left]

end Numbers

lemma extract_one {b : ByteArray} {i : Nat} (h : i < b.size) :
    b.extract i (i + 1) = [byteAt b i].toByteArray := by
  apply ByteArray.ext_getElem
  · rw [ByteArray.size_extract, List.size_toByteArray, List.length_singleton]
    omega
  · intro k hk _
    rw [ByteArray.size_extract] at hk
    obtain rfl : k = 0 := by omega
    rw [ByteArray.getElem_extract, List.getElem_toByteArray]
    simp [byteAt, h]

lemma ofNumber_number {b : ByteArray} {i width : Nat} (h : i + width ≤ b.size) :
    (ofNumber width (number b i width)).toByteArray = b.extract i (i + width) := by
  induction width generalizing i with
  | zero => simp [ofNumber]
  | succ width ih =>
    have hb := (byteAt b i).toNat_lt
    have hlow : UInt8.ofNat (number b i (width + 1)) = byteAt b i := by
      apply UInt8.toNat_inj.mp
      simp only [number, UInt8.toNat_ofNat']
      omega
    have hhigh : number b i (width + 1) / 256 = number b (i + 1) width := by
      simp only [number]
      omega
    have hl : i + (width + 1) = i + 1 + width := by omega
    rw [ofNumber, hlow, hhigh, ← List.singleton_append, List.toByteArray_append, ih (by omega),
      ← extract_one (by omega), hl, ← ByteArray.extract_eq_extract_append_extract]
    · omega
    · omega

section Words

variable {a b : ByteArray} {first last i : Nat}

lemma u16At_extract (h : first + i + 2 ≤ last) :
    u16At (b.extract first last) i = u16At b (first + i) :=
  congrArg UInt16.ofNat (number_extract h)

lemma u32At_extract (h : first + i + 4 ≤ last) :
    u32At (b.extract first last) i = u32At b (first + i) :=
  congrArg UInt32.ofNat (number_extract h)

lemma u64At_extract (h : first + i + 8 ≤ last) :
    u64At (b.extract first last) i = u64At b (first + i) :=
  congrArg UInt64.ofNat (number_extract h)

lemma u16At_append_right (a b : ByteArray) (i : Nat) :
    u16At (a ++ b) (a.size + i) = u16At b i :=
  congrArg UInt16.ofNat (number_append_right a b i 2)

lemma u32At_append_right (a b : ByteArray) (i : Nat) :
    u32At (a ++ b) (a.size + i) = u32At b i :=
  congrArg UInt32.ofNat (number_append_right a b i 4)

lemma u64At_append_right (a b : ByteArray) (i : Nat) :
    u64At (a ++ b) (a.size + i) = u64At b i :=
  congrArg UInt64.ofNat (number_append_right a b i 8)

lemma u32At_eq (b : ByteArray) (i : Nat) :
    u32At b i = (u16At b (i + 2)).toUInt32 * 65536 + (u16At b i).toUInt32 := by
  have ha := number_add b i 2 2
  have hl := number_lt b i 2
  have hh := number_lt b (i + 2) 2
  apply UInt32.toNat_inj.mp
  simp [u32At, u16At, ha]
  omega

variable (n : Nat) (rest : ByteArray) {width : Nat}

@[simp] lemma u16At_ofNumber : u16At ((ofNumber 2 n).toByteArray ++ rest) 0 = .ofNat n := by
  rw [u16At, number_ofNumber]
  apply UInt16.toNat_inj.mp
  simp

@[simp] lemma u32At_ofNumber : u32At ((ofNumber 4 n).toByteArray ++ rest) 0 = .ofNat n := by
  rw [u32At, number_ofNumber]
  apply UInt32.toNat_inj.mp
  simp

@[simp] lemma u64At_ofNumber : u64At ((ofNumber 8 n).toByteArray ++ rest) 0 = .ofNat n := by
  rw [u64At, number_ofNumber]
  apply UInt64.toNat_inj.mp
  simp

@[simp] lemma u16At_skip (h : width ≤ i) :
    u16At ((ofNumber width n).toByteArray ++ rest) i = u16At rest (i - width) :=
  congrArg UInt16.ofNat (number_skip n rest h 2)

@[simp] lemma u32At_skip (h : width ≤ i) :
    u32At ((ofNumber width n).toByteArray ++ rest) i = u32At rest (i - width) :=
  congrArg UInt32.ofNat (number_skip n rest h 4)

@[simp] lemma u64At_skip (h : width ≤ i) :
    u64At ((ofNumber width n).toByteArray ++ rest) i = u64At rest (i - width) :=
  congrArg UInt64.ofNat (number_skip n rest h 8)

lemma u32At_eq_iff (h : i + 4 ≤ b.size) (w : UInt32) :
    u32At b i = w ↔ b.extract i (i + 4) = (ofNumber 4 w.toNat).toByteArray := by
  constructor
  · rintro rfl
    have hm : number b i 4 % 2 ^ 32 = number b i 4 := Nat.mod_eq_of_lt (number_lt b i 4)
    rw [← ofNumber_number h, u32At, UInt32.toNat_ofNat', hm]
  · intro he
    have hx := u32At_ofNumber w.toNat .empty
    rw [ByteArray.append_empty, ← he, u32At_extract (by omega), Nat.add_zero] at hx
    simpa using hx

end Words

instance lawfulBEq_byteArray : LawfulBEq ByteArray where
  rfl {a} := beq_self_eq_true a.data
  eq_of_beq h := ByteArray.ext (eq_of_beq h)

lemma occursAt_iff {part b : ByteArray} {i : Nat} :
    occursAt part b i = true ↔ b.extract i (i + part.size) = part :=
  beq_iff_eq

end JarReader.Bytes
