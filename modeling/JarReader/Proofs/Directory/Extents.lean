import JarReader.Proofs.Directory.Concatenation

namespace JarReader.Zip

open Bytes DirectoryRecord

/-- The quantities of an entry, in the order in which a ZIP64 field holds them. -/
inductive Quantity where
  | size
  | compressedSize
  | headerOffset

namespace Quantity

def position : Quantity → Nat
  | size => 24
  | compressedSize => 20
  | headerOffset => 42

def before : Quantity → List Quantity
  | size => []
  | compressedSize => [size]
  | headerOffset => [size, compressedSize]

def all : List Quantity := [size, compressedSize, headerOffset]

end Quantity

def Extents.get (x : Extents) : Quantity → Nat
  | .size => x.size
  | .compressedSize => x.compressedSize
  | .headerOffset => x.headerOffset

namespace DirectoryRecord

def slot (r : DirectoryRecord) (q : Quantity) : UInt32 := u32At r.bytes q.position

def wideSize (r : DirectoryRecord) (q : Quantity) : Nat := if r.slot q = escape then 8 else 0

def wideOffset (r : DirectoryRecord) (q : Quantity) : Nat :=
  q.before.foldr (fun p offset => r.wideSize p + offset) 0

/-- Of the `wanted` bytes that the values before a quantity need, `used` are taken up: all of them,
or fewer as a value did not fit, and then no value behind it fits either. -/
def UpTo (wide : ByteArray) (used wanted : Nat) : Prop :=
  used = wanted ∨ wide.size < used + 8 ∧ wide.size < wanted + 8

section Widen

variable {wide : ByteArray} {used wanted : Nat} (h : UpTo wide used wanted) (slot : UInt32)
include h

lemma UpTo.widen :
    UpTo wide (DirectoryRecord.widen wide used slot).2
      (wanted + if slot = escape then 8 else 0) := by
  simp only [UpTo, DirectoryRecord.widen] at *
  by_cases hs : slot = escape
  · by_cases hu : used + 8 ≤ wide.size
    · simp only [hs, hu, decide_true, Bool.and_self, if_true]
      omega
    · simp [hs, hu]
      omega
  · simpa [hs] using h

lemma UpTo.fst_widen :
    (DirectoryRecord.widen wide used slot).1 =
      if slot = escape ∧ wanted + 8 ≤ wide.size then number wide wanted 8 else slot.toNat := by
  have h64 : (u64At wide used).toNat = number wide used 8 := Nat.mod_eq_of_lt (number_lt wide used 8)
  simp only [UpTo, DirectoryRecord.widen] at *
  rcases h with rfl | ⟨hu, hw⟩
  · simp [h64, apply_ite Prod.fst]
  · simp [Nat.not_le_of_lt hu, Nat.not_le_of_lt hw]

end Widen

lemma get_extents (r : DirectoryRecord) (q : Quantity) :
    r.extents.get q =
      if r.slot q = escape ∧ r.wideOffset q + 8 ≤ (zip64DataFrom r.extra 0).size then
        number (zip64DataFrom r.extra 0) (r.wideOffset q) 8
      else (r.slot q).toNat := by
  have h0 : UpTo (zip64DataFrom r.extra 0) 0 0 := .inl rfl
  have h1 := h0.widen (r.slot .size)
  have h2 := h1.widen (r.slot .compressedSize)
  cases q with
  | size => exact h0.fst_widen _
  | compressedSize =>
    rw [Nat.zero_add] at h1
    exact h1.fst_widen _
  | headerOffset =>
    rw [Nat.zero_add] at h2
    exact h2.fst_widen _

end DirectoryRecord

structure ExtraField where
  id : UInt16
  data : ByteArray

namespace ExtraField

def head (id size : UInt16) : List UInt8 := ofNumber 2 id.toNat ++ ofNumber 2 size.toNat

def encode (f : ExtraField) : List UInt8 := head f.id (.ofNat f.data.size) ++ f.data.data.toList

structure Foreign (f : ExtraField) : Prop where
  id : f.id ≠ 1
  size : f.data.size ≤ 0xFFFF

lemma size_head (id size : UInt16) : (head id size).toByteArray.size = 4 := by
  simp [head, length_ofNumber]

lemma toByteArray_encode (f : ExtraField) :
    f.encode.toByteArray = (head f.id (.ofNat f.data.size)).toByteArray ++ f.data := by
  rw [encode, List.toByteArray_append, toByteArray_toList]

end ExtraField

/-- Fields that are not the ZIP64 field come first in `extra`, then that field, with `data`, which is
cut off where `extra` ends. -/
def FirstWide (extra data : ByteArray) : Prop :=
  ∃ (fields : List ExtraField) (size : UInt16) (rest : ByteArray), (∀ f ∈ fields, f.Foreign) ∧
    extra = (fields.flatMap ExtraField.encode).toByteArray ++
      ((ExtraField.head 1 size).toByteArray ++ rest) ∧
    data = rest.extract 0 size.toNat

namespace DirectoryRecord

open ExtraField

lemma zip64DataFrom_append (b extra : ByteArray) (i : Nat) :
    zip64DataFrom (b ++ extra) (b.size + i) = zip64DataFrom extra i := by
  have hsize (i : Nat) : u16At (b ++ extra) (b.size + i + 2) = u16At extra (i + 2) := by
    rw [Nat.add_assoc, u16At_append_right]
  fun_induction zip64DataFrom extra i with
  | case1 i hi next hid =>
    rw [zip64DataFrom, if_pos (by rw [ByteArray.size_append]; omega), u16At_append_right,
      if_pos hid, hsize, Nat.add_assoc, Nat.add_assoc, ByteArray.extract_append_size_add]
  | case2 i hi next hid ih =>
    rw [zip64DataFrom, if_pos (by rw [ByteArray.size_append]; omega), u16At_append_right,
      if_neg hid, hsize, Nat.add_assoc, Nat.add_assoc, ← Nat.add_assoc i]
    exact ih
  | case3 i hi =>
    rw [zip64DataFrom, if_neg (by rw [ByteArray.size_append]; omega)]

lemma zip64DataFrom_head (id size : UInt16) (rest : ByteArray) :
    zip64DataFrom ((head id size).toByteArray ++ rest) 0 =
      if id = 1 then rest.extract 0 size.toNat else zip64DataFrom rest size.toNat := by
  have hs := size_head id size
  have hid : u16At ((head id size).toByteArray ++ rest) 0 = id := by
    simp [head, ByteArray.append_assoc]
  have hsize : u16At ((head id size).toByteArray ++ rest) (0 + 2) = size := by
    simp [head, ByteArray.append_assoc]
  have hextract := ByteArray.extract_append_size_add (a := (head id size).toByteArray) (b := rest)
    (i := 0) (j := size.toNat)
  have hskip := zip64DataFrom_append (head id size).toByteArray rest size.toNat
  rw [hs] at hextract hskip
  rw [zip64DataFrom, if_pos (by rw [ByteArray.size_append]; omega), hid, hsize, Nat.zero_add]
  exact ite_congr rfl (fun _ => hextract) fun _ => hskip

lemma zip64DataFrom_foreign {f : ExtraField} (hf : f.Foreign) (rest : ByteArray) :
    zip64DataFrom (f.encode.toByteArray ++ rest) 0 = zip64DataFrom rest 0 := by
  have hsize : (UInt16.ofNat f.data.size).toNat = f.data.size := by
    have := hf.size
    rw [UInt16.toNat_ofNat']
    omega
  rw [toByteArray_encode, ByteArray.append_assoc, zip64DataFrom_head, if_neg hf.id, hsize]
  exact zip64DataFrom_append f.data rest 0

lemma zip64DataFrom_of_firstWide {extra data : ByteArray} (h : FirstWide extra data) :
    zip64DataFrom extra 0 = data := by
  obtain ⟨fields, size, rest, hf, rfl, rfl⟩ := h
  induction fields with
  | nil =>
    rw [List.flatMap_nil, List.toByteArray_nil, ByteArray.empty_append, zip64DataFrom_head,
      if_pos rfl]
  | cons f fields ih =>
    rw [List.flatMap_cons, List.toByteArray_append, ByteArray.append_assoc,
      zip64DataFrom_foreign (hf f List.mem_cons_self)]
    exact ih fun g hg => hf g (List.mem_cons_of_mem f hg)

lemma head_eq_extract {b : ByteArray} {i : Nat} (h : i + 4 ≤ b.size) :
    (head (u16At b i) (u16At b (i + 2))).toByteArray = b.extract i (i + 4) := by
  have hword (i : Nat) (hi : i + 2 ≤ b.size) :
      (ofNumber 2 (u16At b i).toNat).toByteArray = b.extract i (i + 2) := by
    have hn : (u16At b i).toNat = number b i 2 := Nat.mod_eq_of_lt (number_lt b i 2)
    rw [hn, ofNumber_number hi]
  rw [head, List.toByteArray_append, hword i (by omega), hword (i + 2) (by omega),
    ← ByteArray.extract_eq_extract_append_extract]
  · omega
  · omega

lemma firstWide_or_empty (extra : ByteArray) (i : Nat) :
    FirstWide (extra.extract i extra.size) (zip64DataFrom extra i) ∨
      zip64DataFrom extra i = .empty := by
  fun_induction zip64DataFrom extra i with
  | case1 i hi next hid =>
    have hhead := head_eq_extract hi
    rw [hid] at hhead
    refine .inl ⟨[], u16At extra (i + 2), extra.extract (i + 4) extra.size, by simp, ?_, ?_⟩
    · rw [hhead, List.flatMap_nil, List.toByteArray_nil, ByteArray.empty_append,
        ← ByteArray.extract_eq_extract_append_extract]
      · omega
      · omega
    · rw [ByteArray.extract_extract, extract_min, Nat.add_zero]
  | case2 i hi next hid ih =>
    rcases ih with ⟨fields, size, rest, hf, he, hd⟩ | hempty
    · have hsizes := congrArg ByteArray.size he
      simp only [ByteArray.size_append, ByteArray.size_extract, size_head] at hsizes
      have hs : (extra.extract (i + 4) next).size = (u16At extra (i + 2)).toNat := by
        rw [ByteArray.size_extract]
        omega
      refine .inl ⟨⟨u16At extra i, extra.extract (i + 4) next⟩ :: fields, size, rest, ?_, ?_, hd⟩
      · intro f hmem
        rcases List.mem_cons.mp hmem with rfl | hmem
        · refine ⟨hid, ?_⟩
          have := (u16At extra (i + 2)).toNat_lt
          rw [hs]
          omega
        · exact hf f hmem
      · rw [List.flatMap_cons, List.toByteArray_append, ByteArray.append_assoc, ← he,
          toByteArray_encode, hs, UInt16.ofNat_toNat, head_eq_extract hi,
          ← ByteArray.extract_eq_extract_append_extract, ← ByteArray.extract_eq_extract_append_extract]
        all_goals omega
    · exact .inr hempty
  | case3 i hi => exact .inr rfl

end DirectoryRecord

end JarReader.Zip
