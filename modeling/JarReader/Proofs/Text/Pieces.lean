import JarReader.Proofs.Text

/-! Bytes in pieces. Decoded one by one they give the text of the whole as long as no piece begins in
the middle of a character, and where the whole is text, only then. -/

namespace JarReader.Text

open Bytes

lemma isContinuation_ofNat {n : Nat} (h : n < 256) :
    isContinuation (.ofNat n) = decide (0x80 ≤ n ∧ n < 0xC0) := by
  revert n
  decide +kernel

lemma isContinuation_iff {x : UInt8} :
    isContinuation x = true ↔ 0x80 ≤ x.toNat ∧ x.toNat < 0xC0 := by
  have h := isContinuation_ofNat x.toNat_lt
  rw [UInt8.ofNat_toNat] at h
  rw [h, decide_eq_true_iff]

lemma utf8EncodeChar_eq_cons (c : Char) :
    ∃ first more, String.utf8EncodeChar c = first :: more ∧ isContinuation first = false ∧
      ∀ x ∈ more, isContinuation x = true := by
  have hfirst {n : Nat} (h : 0xC0 ≤ n ∧ n < 0x100) : isContinuation (.ofNat n) = false := by
    rw [isContinuation_ofNat h.2, decide_eq_false_iff_not]
    omega
  have hmore (n : Nat) : isContinuation (.ofNat (n % 0x40 + 0x80)) = true := by
    rw [isContinuation_ofNat (by omega), decide_eq_true_iff]
    omega
  simp only [String.utf8EncodeChar]
  split
  · refine ⟨_, _, rfl, ?_, by simp⟩
    rw [isContinuation_ofNat (by omega), decide_eq_false_iff_not]
    omega
  split
  · refine ⟨_, _, rfl, hfirst (by omega), ?_⟩
    simp only [List.forall_mem_cons]
    exact ⟨hmore _, nofun⟩
  split
  · refine ⟨_, _, rfl, hfirst (by omega), ?_⟩
    simp only [List.forall_mem_cons]
    exact ⟨hmore _, hmore _, nofun⟩
  · refine ⟨_, _, rfl, hfirst (by omega), ?_⟩
    simp only [List.forall_mem_cons]
    exact ⟨hmore _, hmore _, hmore _, nofun⟩

def Begins (b : ByteArray) : Prop := isContinuation (byteAt b 0) = false

/-- What the bytes from `i` on are read as first, and how many of them. -/
def unitAt (b : ByteArray) (i : Nat) : Char × Nat :=
  match b.utf8DecodeChar? i with
  | some c => (c, c.utf8Size)
  | none => ('\uFFFD', illFormedLength b i)

section Unit

variable {a b : ByteArray} {i k : Nat} {c : Char}

lemma byteAt_toByteArray {xs : List UInt8} (hk : k < xs.length) :
    byteAt xs.toByteArray k = xs[k] := by
  rw [byteAt, dif_pos (by rwa [List.size_toByteArray]), List.getElem_toByteArray]

lemma isContinuation_encode (h0 : 0 < k) (hk : k < c.utf8Size) :
    isContinuation (byteAt [c].utf8Encode k) = true := by
  obtain ⟨first, more, he, _, hmore⟩ := utf8EncodeChar_eq_cons c
  have hl : k < (first :: more).length := by rwa [← he, String.length_utf8EncodeChar]
  rw [List.utf8Encode_singleton, he, byteAt_toByteArray hl]
  cases k with
  | zero => contradiction
  | succ k => exact hmore _ (List.getElem_mem _)

lemma byteAt_of_decodes (h : b.utf8DecodeChar? i = some c) (hk : k < c.utf8Size) :
    byteAt b (i + k) = byteAt [c].utf8Encode k := by
  have hs := ByteArray.le_size_of_utf8DecodeChar?_eq_some h
  rw [← byteAt_extract (show i + k < b.size by omega), extract_of_decodes h,
    byteAt_append_left (by rwa [size_encode_singleton])]

lemma isContinuation_of_admitsSecond {first second : UInt8} (h : admitsSecond first second = true) :
    isContinuation second = true := by
  rw [isContinuation_iff]
  grind [admitsSecond, isContinuation_iff, UInt8.le_iff_toNat_le]

lemma admitsSecond_eq_false {first second : UInt8} (h : isContinuation second = false) :
    admitsSecond first second = false := by
  rw [Bool.eq_false_iff]
  intro hadmits
  rw [isContinuation_of_admitsSecond hadmits] at h
  cases h

lemma isContinuation_of_illFormed (h0 : 0 < k) (hk : k < illFormedLength b i) :
    isContinuation (byteAt b (i + k)) = true := by
  simp only [illFormedLength] at hk
  split at hk
  · omega
  rename_i h1
  simp only [Bool.or_eq_true, not_or, Bool.not_eq_true', Bool.not_eq_false] at h1
  split at hk
  · rename_i h2
    rw [Bool.and_eq_true] at h2
    obtain rfl | rfl : k = 1 ∨ k = 2 := by omega
    · exact isContinuation_of_admitsSecond h1.2
    · exact h2.2
  · obtain rfl : k = 1 := by omega
    exact isContinuation_of_admitsSecond h1.2

lemma unitAt_pos (b : ByteArray) (i : Nat) : 0 < (unitAt b i).2 := by
  rw [unitAt]
  split
  · exact Char.utf8Size_pos _
  · exact illFormedLength_pos b i

lemma isContinuation_unitAt (h0 : 0 < k) (hk : k < (unitAt b i).2) :
    isContinuation (byteAt b (i + k)) = true := by
  rw [unitAt] at hk
  split at hk
  · rename_i c hc
    rw [byteAt_of_decodes hc hk]
    exact isContinuation_encode h0 hk
  · exact isContinuation_of_illFormed h0 hk

lemma unitAt_le (h : i < b.size) : i + (unitAt b i).2 ≤ b.size := by
  by_contra hlt
  -- past the end a byte reads as zero, which continues nothing
  have hz := @isContinuation_unitAt b i (b.size - i) (by omega) (by omega)
  rw [byteAt, dif_neg (by omega)] at hz
  cases hz

lemma unitAt_append_right (a b : ByteArray) (i : Nat) :
    unitAt (a ++ b) (a.size + i) = unitAt b i := by
  have hd : (a ++ b).utf8DecodeChar? (a.size + i) = b.utf8DecodeChar? i := by
    rw [ByteArray.utf8DecodeChar?_eq_utf8DecodeChar?_extract, ByteArray.size_append,
      ByteArray.extract_append_size_add,
      ← ByteArray.utf8DecodeChar?_eq_utf8DecodeChar?_extract]
  have hl : illFormedLength (a ++ b) (a.size + i) = illFormedLength b i := by
    simp only [illFormedLength, Nat.add_assoc, byteAt_append_right]
  rw [unitAt, unitAt, hd, hl]

lemma byteAt_append_begins (h : Begins b) :
    isContinuation (byteAt (a ++ b) a.size) = false := by
  have hb := byteAt_append_right a b 0
  rw [Nat.add_zero] at hb
  rw [hb]
  exact h

lemma unitAt_append_le (h : Begins b) (hi : i < a.size) : i + (unitAt (a ++ b) i).2 ≤ a.size := by
  by_contra hlt
  have hc := @isContinuation_unitAt (a ++ b) i (a.size - i) (by omega) (by omega)
  rw [Nat.add_sub_cancel' (Nat.le_of_lt hi), byteAt_append_begins h] at hc
  cases hc

lemma isContinuation_append (h : Begins b) (hk : k ≤ a.size) :
    isContinuation (byteAt (a ++ b) k) = isContinuation (byteAt a k) := by
  by_cases hlt : k < a.size
  · rw [byteAt_append_left hlt]
  · obtain rfl : k = a.size := by omega
    rw [byteAt_append_begins h, byteAt, dif_neg hlt]
    rfl

lemma admitsSecond_append (h : Begins b) (hk : k ≤ a.size) (first : UInt8) :
    admitsSecond first (byteAt (a ++ b) k) = admitsSecond first (byteAt a k) := by
  by_cases hlt : k < a.size
  · rw [byteAt_append_left hlt]
  · obtain rfl : k = a.size := by omega
    have hab := byteAt_append_begins (a := a) h
    have ha := isContinuation_append h hk
    rw [hab] at ha
    rw [admitsSecond_eq_false hab, admitsSecond_eq_false ha.symm]

lemma illFormedLength_append (h : Begins b) (hi : i < a.size) :
    illFormedLength (a ++ b) i = illFormedLength a i := by
  simp only [illFormedLength, byteAt_append_left hi, admitsSecond_append h hi]
  by_cases hlt : i + 2 ≤ a.size
  · rw [isContinuation_append h hlt]
  · have hz : byteAt a (i + 1) = 0 := dif_neg (by omega)
    have hno : admitsSecond (byteAt a i) (byteAt a (i + 1)) = false := by
      rw [hz]
      exact admitsSecond_eq_false rfl
    simp [hno]

lemma unitAt_append (h : Begins b) (hi : i < a.size) : unitAt (a ++ b) i = unitAt a i := by
  have hle := unitAt_append_le h hi
  rw [unitAt, unitAt] at *
  cases ha : a.utf8DecodeChar? i with
  | some c => rw [ByteArray.utf8DecodeChar?_append_eq_some ha]
  | none =>
    cases hab : (a ++ b).utf8DecodeChar? i with
    | none => rw [illFormedLength_append h hi]
    | some c =>
      have he : (a ++ b).extract i (a ++ b).size = a.extract i a.size ++ b := by
        rw [ByteArray.extract_eq_extract_append_extract a.size (by omega) (by simp),
          ByteArray.extract_append_size_left, ByteArray.extract_append_eq_right rfl (by simp)]
      have hd := extract_of_decodes hab
      rw [he] at hd
      rw [hab] at hle
      rw [ByteArray.utf8DecodeChar?_eq_utf8DecodeChar?_extract] at ha
      refine absurd hd (apart_of_not_decodes ha ?_)
      rw [ByteArray.size_extract]
      exact Nat.le_sub_of_add_le' (by simpa using hle)

end Unit

theorem unit_induction {b : ByteArray} {motive : Nat → Prop}
    (past : ∀ i, b.size ≤ i → motive i)
    (unit : ∀ i, i < b.size → motive (i + (unitAt b i).2) → motive i) (i : Nat) : motive i := by
  induction hn : b.size - i using Nat.strongRecOn generalizing i with
  | ind n ih =>
    by_cases hi : i < b.size
    · have hpos := unitAt_pos b i
      exact unit i hi (ih _ (by omega) _ rfl)
    · exact past i (by omega)

section Decode

variable {a b : ByteArray}

lemma decodeFrom_past {i : Nat} (h : b.size ≤ i) (done : String) : decodeFrom b i done = done := by
  rw [decodeFrom, if_neg (by omega)]

lemma decodeFrom_unit {i : Nat} (h : i < b.size) (done : String) :
    decodeFrom b i done = decodeFrom b (i + (unitAt b i).2) (done.push (unitAt b i).1) := by
  rw [decodeFrom, if_pos h, unitAt]
  cases b.utf8DecodeChar? i with
  | none => rfl
  | some c => rfl

lemma decodeFrom_append_done (b : ByteArray) (i : Nat) (done more : String) :
    decodeFrom b i (done ++ more) = done ++ decodeFrom b i more := by
  induction i using unit_induction (b := b) generalizing more with
  | past i hi => rw [decodeFrom_past hi, decodeFrom_past hi]
  | unit i hi ih =>
    rw [decodeFrom_unit hi, decodeFrom_unit hi more, ← ih, ← String.append_singleton,
      ← String.append_singleton, String.append_assoc]

lemma decodeFrom_append_right (a b : ByteArray) (i : Nat) (done : String) :
    decodeFrom (a ++ b) (a.size + i) done = decodeFrom b i done := by
  induction i using unit_induction (b := b) generalizing done with
  | past i hi =>
    rw [decodeFrom_past hi, decodeFrom_past (by rw [ByteArray.size_append]; omega)]
  | unit i hi ih =>
    rw [decodeFrom_unit hi, decodeFrom_unit (by rw [ByteArray.size_append]; omega),
      unitAt_append_right, Nat.add_assoc, ih]

lemma decodeFrom_append (h : Begins b) {i : Nat} (hi : i ≤ a.size) (done : String) :
    decodeFrom (a ++ b) i done = decodeFrom b 0 (decodeFrom a i done) := by
  induction i using unit_induction (b := a) generalizing done with
  | past i hpast =>
    obtain rfl : i = a.size := by omega
    rw [decodeFrom_past hpast]
    exact decodeFrom_append_right a b 0 done
  | unit i hlt ih =>
    rw [decodeFrom_unit hlt, decodeFrom_unit (by rw [ByteArray.size_append]; omega),
      unitAt_append h hlt, ih (unitAt_le hlt)]

lemma decodeFrom_encode_append (cs : List Char) (b : ByteArray) (done : String) :
    decodeFrom (cs.utf8Encode ++ b) 0 done = decodeFrom b 0 (done ++ .ofList cs) := by
  induction cs generalizing done with
  | nil => simp
  | cons c cs ih =>
    have hs := size_encode_singleton c
    have hpos := c.utf8Size_pos
    have hu : unitAt ([c].utf8Encode ++ (cs.utf8Encode ++ b)) 0 = (c, c.utf8Size) := by
      rw [unitAt, List.utf8DecodeChar?_utf8Encode_singleton_append]
    rw [List.utf8Encode_cons, ByteArray.append_assoc,
      decodeFrom_unit (by rw [ByteArray.size_append]; omega), hu, Nat.zero_add, ← hs,
      ← Nat.add_zero [c].utf8Encode.size, decodeFrom_append_right, ih]
    rw [String.ofList_cons, ← String.append_singleton, String.append_assoc]

lemma ofBytes_eq (b : ByteArray) : ofBytes b = decodeFrom b 0 "" := by
  by_cases hv : b.IsValidUTF8
  · obtain ⟨text, rfl⟩ := exists_toUTF8_eq hv
    have hd := decodeFrom_encode_append text.toList .empty ""
    have hempty : decodeFrom .empty 0 text = text := decodeFrom_past (Nat.le_refl 0) text
    rw [ByteArray.append_empty, String.utf8Encode_toList, String.empty_append, String.ofList_toList,
      hempty] at hd
    rw [ofBytes_toUTF8]
    exact hd.symm
  · rw [ofBytes, String.fromUTF8?, dif_neg hv]

lemma ofBytes_append (h : Begins b) : ofBytes (a ++ b) = ofBytes a ++ ofBytes b := by
  rw [ofBytes_eq, ofBytes_eq, ofBytes_eq, decodeFrom_append h (Nat.zero_le _),
    ← decodeFrom_append_done, String.append_empty]

lemma ofBytes_toUTF8_append (text : String) (b : ByteArray) :
    ofBytes (text.toUTF8 ++ b) = text ++ ofBytes b := by
  rw [ofBytes_eq, ofBytes_eq, String.toUTF8_eq_toByteArray, ← String.utf8Encode_toList,
    decodeFrom_encode_append, String.ofList_toList, String.empty_append, ← decodeFrom_append_done,
    String.append_empty]

lemma begins_toUTF8_append {text : String} (h : text ≠ "") (b : ByteArray) :
    Begins (text.toUTF8 ++ b) := by
  obtain ⟨c, cs, hcs⟩ := List.exists_cons_of_ne_nil (show text.toList ≠ [] by simpa using h)
  obtain ⟨first, more, he, hfirst, _⟩ := utf8EncodeChar_eq_cons c
  have ht : text.toUTF8 = (first :: (more ++ cs.flatMap String.utf8EncodeChar)).toByteArray := by
    rw [← toByteArray_toList text.toUTF8, bytes_toUTF8, hcs, List.flatMap_cons, he]
    rfl
  rw [Begins, ht, byteAt_append_left (by simp), byteAt_toByteArray (by simp)]
  exact hfirst

lemma ofBytes_around {text : String} (h : text ≠ "") (a b : ByteArray) :
    ofBytes (a ++ (text.toUTF8 ++ b)) = ofBytes a ++ (text ++ ofBytes b) := by
  rw [ofBytes_append (begins_toUTF8_append h b), ofBytes_toUTF8_append]

lemma unitAt_ascii {i : Nat} (h : (unitAt b i).1.toNat < 128) :
    byteAt b i = .ofNat (unitAt b i).1.toNat := by
  rw [unitAt] at h ⊢
  cases hc : b.utf8DecodeChar? i with
  | none =>
    rw [hc] at h
    exact absurd h (show ¬ '\uFFFD'.toNat < 128 by decide)
  | some c =>
    rw [hc] at h
    have he : String.utf8EncodeChar c = [.ofNat c.toNat] := by
      rw [String.utf8EncodeChar]
      exact if_pos (Nat.le_of_lt_succ h)
    have hb := byteAt_of_decodes hc c.utf8Size_pos
    rw [Nat.add_zero, List.utf8Encode_singleton, he] at hb
    exact hb

lemma mem_decodeFrom {c : Char} (hc : c.toNat < 128) {i : Nat} {done : String}
    (h : c ∈ (decodeFrom b i done).toList) :
    c ∈ done.toList ∨ UInt8.ofNat c.toNat ∈ b.data.toList := by
  induction i using unit_induction (b := b) generalizing done with
  | past i hi =>
    rw [decodeFrom_past hi] at h
    exact .inl h
  | unit i hi ih =>
    rw [decodeFrom_unit hi] at h
    rcases ih h with hd | hb
    · rw [String.toList_push, List.mem_append, List.mem_singleton] at hd
      rcases hd with hd | rfl
      · exact .inl hd
      · right
        rw [← unitAt_ascii hc, byteAt, dif_pos hi]
        exact Array.getElem_mem_toList _
    · exact .inr hb

lemma mem_ofBytes {c : Char} (hc : c.toNat < 128) (h : c ∈ (ofBytes b).toList) :
    UInt8.ofNat c.toNat ∈ b.data.toList := by
  rw [ofBytes_eq] at h
  rcases mem_decodeFrom hc h with h | h
  · simp at h
  · exact h

end Decode

def starts (b : ByteArray) : Nat := b.data.toList.countP (!isContinuation ·)

section Starts

variable {a b : ByteArray}

lemma starts_append (a b : ByteArray) : starts (a ++ b) = starts a + starts b := by
  rw [starts, ByteArray.data_append, Array.toList_append, List.countP_append]
  rfl

lemma starts_split {n : Nat} (h : n ≤ b.size) :
    starts b = starts (b.extract 0 n) + starts (b.extract n b.size) := by
  rw [← starts_append, ← eq_extract_append h]

lemma starts_encode_singleton (c : Char) : starts [c].utf8Encode = 1 := by
  obtain ⟨first, more, he, hfirst, hmore⟩ := utf8EncodeChar_eq_cons c
  have hz : more.countP (!isContinuation ·) = 0 := by
    rw [List.countP_eq_zero]
    intro x hx
    rw [hmore x hx]
    decide
  rw [starts, List.utf8Encode_singleton, he, List.data_toByteArray, List.countP_cons, hz, hfirst]
  rfl

lemma starts_encode (cs : List Char) : starts cs.utf8Encode = cs.length := by
  induction cs with
  | nil => rfl
  | cons c cs ih =>
    rw [List.utf8Encode_cons, starts_append, starts_encode_singleton, ih, List.length_cons,
      Nat.add_comm]

lemma starts_toUTF8 (text : String) : starts text.toUTF8 = text.length := by
  rw [String.toUTF8_eq_toByteArray, ← String.utf8Encode_toList, starts_encode,
    String.length_toList]

lemma starts_eq_zero (h : ∀ k < b.size, isContinuation (byteAt b k) = true) : starts b = 0 := by
  rw [starts, List.countP_eq_zero]
  intro x hx
  obtain ⟨k, hk, rfl⟩ := List.getElem_of_mem hx
  have hs : k < b.size := by simpa using hk
  have hb := h k hs
  rw [byteAt, dif_pos hs, ByteArray.getElem_eq_getElem_data, ← Array.getElem_toList] at hb
  rw [hb]
  decide

lemma starts_le_one (h : ∀ k < b.size, 0 < k → isContinuation (byteAt b k) = true) :
    starts b ≤ 1 := by
  by_cases hs : 1 ≤ b.size
  · have hone : starts (b.extract 0 1) ≤ 1 := by
      apply Nat.le_trans List.countP_le_length
      rw [Array.length_toList]
      exact Nat.le_trans (Nat.le_of_eq ByteArray.size_extract) (by omega)
    have hrest : starts (b.extract 1 b.size) = 0 := by
      apply starts_eq_zero
      intro k hk
      rw [ByteArray.size_extract] at hk
      rw [byteAt_extract (by omega)]
      exact h (1 + k) (by omega) (by omega)
    rw [starts_split hs]
    omega
  · rw [starts_eq_zero fun k hk => absurd hk (by omega)]
    exact Nat.zero_le 1

lemma starts_unitAt (b : ByteArray) (i : Nat) :
    starts (b.extract i (i + (unitAt b i).2)) ≤ 1 := by
  apply starts_le_one
  intro k hk h0
  rw [ByteArray.size_extract] at hk
  rw [byteAt_extract (by omega)]
  exact isContinuation_unitAt h0 (by omega)

lemma starts_le_decodeFrom (b : ByteArray) {i : Nat} (hi : i ≤ b.size) (done : String) :
    done.length + starts (b.extract i b.size) ≤ (decodeFrom b i done).length := by
  induction i using unit_induction (b := b) generalizing done with
  | past i hpast =>
    obtain rfl : i = b.size := by omega
    rw [decodeFrom_past hpast, ByteArray.extract_same]
    exact Nat.le_refl _
  | unit i hlt ih =>
    have hle := unitAt_le hlt
    have hu := starts_unitAt b i
    have hrest := ih hle (done.push (unitAt b i).1)
    rw [String.length_push] at hrest
    rw [decodeFrom_unit hlt, ByteArray.extract_eq_extract_append_extract (i + (unitAt b i).2)
      (by omega) hle, starts_append]
    omega

lemma starts_le_length (b : ByteArray) : starts b ≤ (ofBytes b).length := by
  have h := starts_le_decodeFrom b (Nat.zero_le _) ""
  rw [ByteArray.extract_zero_size, ← ofBytes_eq] at h
  exact Nat.le_trans (Nat.le_add_left _ _) h

lemma starts_lt_length (h : ¬ Begins b) : starts b < (ofBytes b).length := by
  rw [Begins, Bool.not_eq_false] at h
  have hlt : 0 < b.size := by
    by_contra hz
    rw [byteAt, dif_neg hz] at h
    cases h
  have hle := unitAt_le hlt
  have hu : starts (b.extract 0 (unitAt b 0).2) = 0 := by
    apply starts_eq_zero
    intro k hk
    rw [ByteArray.size_extract] at hk
    rw [byteAt_extract (by omega), Nat.zero_add]
    cases k with
    | zero => exact h
    | succ k =>
      have hc := @isContinuation_unitAt b 0 (k + 1) (Nat.succ_pos k) (by omega)
      rwa [Nat.zero_add] at hc
  have hd := starts_le_decodeFrom b hle ("".push (unitAt b 0).1)
  rw [Nat.zero_add, String.length_push] at hd
  rw [Nat.zero_add] at hle
  rw [ofBytes_eq, decodeFrom_unit hlt, Nat.zero_add, starts_split hle, hu]
  omega

end Starts

def joined (pieces : List ByteArray) : ByteArray := pieces.foldr (· ++ ·) .empty

section Pieces

variable {pieces : List ByteArray} {text : String}

lemma joined_cons (piece : ByteArray) (pieces : List ByteArray) :
    joined (piece :: pieces) = piece ++ joined pieces := rfl

lemma mem_joined {piece : ByteArray} (hp : piece ∈ pieces) {x : UInt8} (hx : x ∈ piece.data.toList) :
    x ∈ (joined pieces).data.toList := by
  induction pieces with
  | nil => cases hp
  | cons first pieces ih =>
    rw [joined_cons, ByteArray.data_append, Array.toList_append, List.mem_append]
    rcases List.mem_cons.mp hp with rfl | hp
    · exact .inl hx
    · exact .inr (ih hp)

lemma Begins.append {a b : ByteArray} (ha : Begins a) (hb : Begins b) : Begins (a ++ b) := by
  by_cases h : 0 < a.size
  · rw [Begins, byteAt_append_left h]
    exact ha
  · obtain rfl : a = .empty := ByteArray.size_eq_zero_iff.mp (by omega)
    rwa [ByteArray.empty_append]

lemma begins_joined (h : ∀ piece ∈ pieces, Begins piece) : Begins (joined pieces) := by
  induction pieces with
  | nil => rfl
  | cons piece pieces ih =>
    exact (h piece List.mem_cons_self).append (ih fun p hp => h p (List.mem_cons_of_mem piece hp))

lemma isValidUTF8_of_append {a b : ByteArray} (h : (a ++ b).IsValidUTF8) (hb : Begins b) :
    a.IsValidUTF8 := by
  obtain ⟨text, ht⟩ := exists_toUTF8_eq h
  rw [String.toUTF8_eq_toByteArray, ← String.utf8Encode_toList] at ht
  clear h
  generalize text.toList = cs at ht
  induction cs generalizing a with
  | nil =>
    have hz := congrArg ByteArray.size ht
    rw [List.utf8Encode_nil, ByteArray.size_append] at hz
    obtain rfl : a = .empty := ByteArray.size_eq_zero_iff.mp (by
      rw [ByteArray.size_empty] at hz
      omega)
    exact ByteArray.isValidUTF8_empty
  | cons c cs ih =>
    have hs := size_encode_singleton c
    rw [List.utf8Encode_cons] at ht
    rcases Nat.eq_zero_or_pos a.size with ha | ha
    · rw [ByteArray.size_eq_zero_iff.mp ha]
      exact ByteArray.isValidUTF8_empty
    by_cases hlt : a.size < c.utf8Size
    · have hc := isContinuation_encode ha hlt
      rw [← byteAt_append_left (by omega), ht, byteAt_append_begins hb] at hc
      cases hc
    · have hsplit := eq_extract_append (Nat.le_of_not_lt hlt)
      have hc : [c].utf8Encode = a.extract 0 c.utf8Size := by
        rw [hsplit, ByteArray.append_assoc] at ht
        apply ByteArray.append_inj_left ht
        rw [hs, ByteArray.size_extract]
        omega
      rw [hsplit, ← hc] at ht ⊢
      rw [ByteArray.append_assoc, ByteArray.append_right_inj] at ht
      rw [ByteArray.isValidUTF8_utf8Encode_singleton_append_iff]
      exact ih ht

lemma starts_joined_le (pieces : List ByteArray) :
    starts (joined pieces) ≤ (String.join (pieces.map ofBytes)).length := by
  induction pieces with
  | nil => exact Nat.le_refl _
  | cons piece pieces ih =>
    have hp := starts_le_length piece
    rw [joined_cons, starts_append, List.map_cons, String.join_cons, String.length_append]
    omega

lemma starts_joined_lt {piece : ByteArray} (hp : piece ∈ pieces) (h : ¬ Begins piece) :
    starts (joined pieces) < (String.join (pieces.map ofBytes)).length := by
  induction pieces with
  | nil => cases hp
  | cons first pieces ih =>
    have hfirst := starts_le_length first
    have hrest := starts_joined_le pieces
    rw [joined_cons, starts_append, List.map_cons, String.join_cons, String.length_append]
    rcases List.mem_cons.mp hp with rfl | hp
    · have hlt := starts_lt_length h
      omega
    · have hlt := ih hp
      omega

lemma isValidUTF8_of_begins (h : joined pieces = text.toUTF8)
    (hb : ∀ piece ∈ pieces, Begins piece) : ∀ piece ∈ pieces, piece.IsValidUTF8 := by
  induction pieces generalizing text with
  | nil => exact nofun
  | cons piece pieces ih =>
    have hrest := fun p hp => hb p (List.mem_cons_of_mem piece hp)
    have hv : (piece ++ joined pieces).IsValidUTF8 := by
      rw [← joined_cons, h]
      exact text.isValidUTF8
    obtain ⟨first, rfl⟩ := exists_toUTF8_eq (isValidUTF8_of_append hv (begins_joined hrest))
    rw [isValidUTF8_append_iff] at hv
    obtain ⟨others, ho⟩ := exists_toUTF8_eq hv
    rw [List.forall_mem_cons]
    exact ⟨first.isValidUTF8, ih ho.symm hrest⟩

lemma toUTF8_join_ofBytes (h : ∀ piece ∈ pieces, piece.IsValidUTF8) :
    (String.join (pieces.map ofBytes)).toUTF8 = joined pieces := by
  induction pieces with
  | nil => rfl
  | cons piece pieces ih =>
    obtain ⟨first, rfl⟩ := exists_toUTF8_eq (h piece List.mem_cons_self)
    rw [List.map_cons, String.join_cons, toUTF8_append, ofBytes_toUTF8, joined_cons,
      ih fun p hp => h p (List.mem_cons_of_mem _ hp)]

/-- Every cut within a character shows: each of its parts is read as a character of its own. -/
theorem join_ofBytes_eq_iff (h : joined pieces = text.toUTF8) :
    String.join (pieces.map ofBytes) = text ↔ ∀ piece ∈ pieces, piece.IsValidUTF8 := by
  constructor
  · intro he
    apply isValidUTF8_of_begins h
    intro piece hp
    by_contra hb
    have hlt := starts_joined_lt hp hb
    rw [h, starts_toUTF8, he] at hlt
    exact Nat.lt_irrefl _ hlt
  · intro hv
    have hu := toUTF8_join_ofBytes hv
    rw [h] at hu
    exact String.toByteArray_inj.mp hu

end Pieces

end JarReader.Text
