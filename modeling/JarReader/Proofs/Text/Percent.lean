import JarReader.Proofs.Text
import JarReader.Proofs.Text.Segment
import JarReader.Text.Percent

namespace JarReader.Text.Percent

def escape (c : Char) : List Char := (String.utf8EncodeChar c).flatMap encodeByte

@[simp] lemma toList_encode (text : String) : (encode text).toList = text.toList.flatMap escape := by
  rw [encode, String.toList_ofList, bytes_toUTF8, List.flatMap_assoc]
  rfl

lemma encode_append (s t : String) : encode (s ++ t) = encode s ++ encode t := by
  rw [← String.toList_inj]
  simp

lemma encode_join (texts : List String) : encode (String.join texts) = String.join (texts.map encode) := by
  rw [← String.toList_inj]
  simp [List.flatMap_map, List.flatMap_assoc]

section Bytes

lemma toNat_ofNat {n : Nat} (h : n < 0xD800) : (Char.ofNat n).toNat = n := by
  rw [Char.ofNat, dif_pos (.inl h)]
  rfl

lemma utf8EncodeChar_ofNat {n : Nat} (h : n < 128) :
    String.utf8EncodeChar (.ofNat n) = [.ofNat n] := by
  have hn : (Char.ofNat n).val.toNat = n := toNat_ofNat (by omega)
  simp only [String.utf8EncodeChar, hn]
  rw [if_pos (by omega)]

def digitByte (n : Nat) : UInt8 := .ofNat (upperDigit n).toNat

lemma utf8EncodeChar_upperDigit {n : Nat} (h : n < 16) :
    String.utf8EncodeChar (upperDigit n) = [digitByte n] := by
  decide +revert

lemma escaped?_digitByte (x : UInt8) :
    escaped? (digitByte (x.toNat / 16)) (digitByte (x.toNat % 16)) = some x := by
  have hdigit {n : Nat} (h : n < 16) : digitByte n ≠ 0x2B ∧ digit? (digitByte n) = some n := by
    decide +revert
  have hx := x.toNat_lt
  have hhigh := hdigit (n := x.toNat / 16) (by omega)
  have hlow := hdigit (n := x.toNat % 16) (by omega)
  rw [escaped?, if_neg (by simpa using hhigh.1), hhigh.2, hlow.2]
  simp only [bind, Option.bind, pure, Nat.div_add_mod, UInt8.ofNat_toNat]

lemma decodeBytes_of_ne {x : UInt8} (hx : x ≠ 0x25) (rest : List UInt8) :
    decodeBytes (x :: rest) = x :: decodeBytes rest := by
  match rest with
  | [] => rfl
  | [_] => rfl
  | high :: low :: rest => simp [decodeBytes, hx]

lemma decodeBytes_encodeByte (x : UInt8) (rest : List UInt8) :
    decodeBytes ((encodeByte x).flatMap String.utf8EncodeChar ++ rest) = x :: decodeBytes rest := by
  rw [encodeByte]
  split
  · rename_i hliteral
    simp only [isLiteral, Bool.and_eq_true, decide_eq_true_eq, Bool.not_eq_true'] at hliteral
    obtain ⟨⟨_, hle⟩, hreserved⟩ := hliteral
    have hle : x.toNat ≤ 0x7E := hle
    have hx : x ≠ 0x25 := by
      rintro rfl
      revert hreserved
      decide
    rw [List.flatMap_singleton, utf8EncodeChar_ofNat (by omega), UInt8.ofNat_toNat,
      List.singleton_append, decodeBytes_of_ne hx]
  · have hx := x.toNat_lt
    have hpercent : String.utf8EncodeChar '%' = [0x25] := rfl
    rw [List.flatMap_cons, List.flatMap_cons, List.flatMap_singleton, hpercent,
      utf8EncodeChar_upperDigit (by omega), utf8EncodeChar_upperDigit (by omega)]
    simp [decodeBytes, escaped?_digitByte]

end Bytes

@[simp] lemma decode_encode (text : String) : decode (encode text) = text := by
  have hbytes (bs : List UInt8) :
      decodeBytes (bs.flatMap fun x => (encodeByte x).flatMap String.utf8EncodeChar) = bs := by
    induction bs with
    | nil => rfl
    | cons x bs ih => rw [List.flatMap_cons, decodeBytes_encodeByte, ih]
  rw [decode, bytes_toUTF8, encode, String.toList_ofList, List.flatMap_assoc, hbytes,
    Bytes.toByteArray_toList, ofBytes_toUTF8]

lemma map_decode_encode (texts : List String) : (texts.map encode).map decode = texts := by
  simp [Function.comp_def]

section Separators

lemma encodeByte_of_mem {y : UInt8} {x : Char} (hx : x ∈ encodeByte y) (h : x = '!' ∨ x = '/') :
    x.toNat = y.toNat ∧ encodeByte y = [x] := by
  rw [encodeByte] at hx ⊢
  split at hx
  · rename_i hliteral
    obtain rfl := List.mem_singleton.mp hx
    have hy := y.toNat_lt
    exact ⟨toNat_ofNat (by omega), if_pos hliteral⟩
  · have hy := y.toNat_lt
    have hdigit {n : Nat} (hn : n < 16) : upperDigit n ≠ '!' ∧ upperDigit n ≠ '/' := by
      decide +revert
    have hhigh := hdigit (n := y.toNat / 16) (by omega)
    have hlow := hdigit (n := y.toNat % 16) (by omega)
    simp only [List.mem_cons, List.not_mem_nil, or_false] at hx
    rcases h with rfl | rfl
    · simp [hhigh.1.symm, hlow.1.symm] at hx
    · simp [hhigh.2.symm, hlow.2.symm] at hx

lemma escape_of_mem {c x : Char} (hx : x ∈ escape c) (h : x = '!' ∨ x = '/') :
    c = x ∧ escape c = [x] := by
  obtain ⟨y, hy, hxy⟩ := List.mem_flatMap.mp hx
  obtain ⟨hxn, hencode⟩ := encodeByte_of_mem hxy h
  have hlt : y.toNat < 128 := by
    rw [← hxn]
    rcases h with rfl | rfl <;> decide
  obtain ⟨hc, hbytes⟩ := utf8EncodeChar_of_mem hy hlt
  refine ⟨Char.toNat_inj.mp (hc.trans hxn.symm), ?_⟩
  rw [escape, hbytes, List.flatMap_singleton, hencode]

lemma escape_ne_nil (c : Char) : escape c ≠ [] := by
  obtain ⟨x, xs, hx⟩ := List.exists_cons_of_ne_nil (String.utf8EncodeChar_ne_nil (c := c))
  have hne : encodeByte x ≠ [] := by
    rw [encodeByte]
    split <;> exact List.cons_ne_nil _ _
  rw [escape, hx, List.flatMap_cons]
  exact List.append_ne_nil_of_left_ne_nil hne _

lemma apart_encode {a b : Char} (ha : a = '!' ∨ a = '/') (hb : b = '!' ∨ b = '/') {cs : List Char}
    (h : Apart a b cs) : Apart a b (cs.flatMap escape) := by
  refine h.flatMap escape_ne_nil fun c x hx hab => escape_of_mem hx ?_
  rcases hab with rfl | rfl
  · exact ha
  · exact hb

end Separators

end JarReader.Text.Percent
