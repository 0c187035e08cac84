import JarReader.Proofs.EndRecord.Position
import JarReader.Proofs.Writing.Ending

/-! Archives that end with ZIP64 records between which there is a sector of other data. The record is
then found where the locator says, and all values are those of the ZIP64 record. -/

namespace JarReader.Zip

open Bytes View

/-- An archive, from its end backwards: the comment, the end record, the ZIP64 locator, the sector,
the ZIP64 record, and everything in front of it. -/
structure WideTrailer where
  comment : ByteArray
  fields : EndFields
  locator : Zip64Locator
  sector : ByteArray
  record : Zip64Record
  body : ByteArray

namespace WideTrailer

variable (t : WideTrailer)

def tail : ByteArray :=
  t.locator.encode.toByteArray ++ (t.fields.encode.toByteArray ++ t.comment)

def bytes : ByteArray := t.body ++ (t.record.encode.toByteArray ++ (t.sector ++ t.tail))

def locatorOffset : Nat := t.body.size + Zip64Record.size + t.sector.size

def endOffset : Nat := t.locatorOffset + Zip64Locator.size

/-- The directory fits in front of the ZIP64 record, which is where the locator says, and the end
record refers to it. Behind the end record nothing looks like another one, and neither does what is
right before the locator look like a ZIP64 record if it is not that record. -/
structure WellFormed : Prop where
  fits : t.record.directorySize.toNat + t.record.directoryOffset.toNat ≤ t.body.size
  located : t.locator.recordOffset.toNat = t.body.size
  escaped : t.fields.escaped = true
  commentSize : t.fields.commentLength.toNat = t.comment.size
  last : ∀ o, t.endOffset < o → ¬ EndRecord.Consistent t.bytes o
  apart : t.sector ≠ .empty → t.bytes.extract (t.locatorOffset - 56) (t.locatorOffset - 56 + 4) ≠
    ⟨#[0x50, 0x4B, 0x06, 0x06]⟩

def endRecord : EndRecord where
  entries := t.record.entries.toNat
  directorySize := t.record.directorySize.toNat
  directoryOffset := t.record.directoryOffset.toNat
  archiveStart := t.body.size - t.record.directorySize.toNat - t.record.directoryOffset.toNat
  zip64 := true
  comment := t.comment

lemma size_record : t.record.encode.toByteArray.size = Zip64Record.size := by
  rw [List.size_toByteArray, Zip64Record.length_encode]

def beforeLocator : ByteArray := t.body ++ (t.record.encode.toByteArray ++ t.sector)

lemma size_beforeLocator : t.beforeLocator.size = t.locatorOffset := by
  simp only [beforeLocator, ByteArray.size_append, size_record, locatorOffset, Nat.add_assoc]

lemma bytes_eq_tail : t.bytes = t.beforeLocator ++ t.tail := by
  simp only [bytes, beforeLocator, ByteArray.append_assoc]

lemma u32At_locator : u32At t.bytes t.locatorOffset = Zip64Locator.signature := by
  have hu := u32At_append_right t.beforeLocator t.tail 0
  rw [Nat.add_zero, size_beforeLocator, ← bytes_eq_tail] at hu
  rw [hu, tail, Zip64Locator.u32At_encode]

lemma u64At_locator : u64At t.bytes (t.locatorOffset + 8) = t.locator.recordOffset := by
  have hu := u64At_append_right t.beforeLocator t.tail 8
  rw [size_beforeLocator, ← bytes_eq_tail] at hu
  rw [hu, tail, Zip64Locator.u64At_encode]

def beforeEnd : ByteArray := t.beforeLocator ++ t.locator.encode.toByteArray

lemma size_beforeEnd : t.beforeEnd.size = t.endOffset := by
  rw [beforeEnd, ByteArray.size_append, size_beforeLocator, List.size_toByteArray,
    Zip64Locator.length_encode, endOffset]

lemma bytes_eq_end : t.bytes = t.beforeEnd ++ (t.fields.encode.toByteArray ++ t.comment) := by
  rw [bytes_eq_tail, tail, beforeEnd, ByteArray.append_assoc]

lemma extract_end :
    t.bytes.extract t.endOffset t.bytes.size = t.fields.encode.toByteArray ++ t.comment := by
  rw [bytes_eq_end, ← size_beforeEnd]
  exact ByteArray.extract_append_eq_right rfl ByteArray.size_append

lemma wideAt_body :
    EndRecord.wideAt t.bytes t.locatorOffset t.body.size = some (t.record, t.body.size) := by
  refine EndRecord.wideAt_eq_some_iff.mpr ⟨rfl, Nat.le_add_right _ _, ?_⟩
  have hm := extract_middle t.body t.record.encode.toByteArray (t.sector ++ t.tail)
  rw [size_record, ← bytes] at hm
  rw [hm]
  simpa using Zip64Record.decode_encode t.record .empty

variable {t}

namespace WellFormed

variable (h : t.WellFormed)
include h

lemma wideAt_adjacent :
    EndRecord.wideAt t.bytes t.locatorOffset (t.locatorOffset - Zip64Record.size) =
        some (t.record, t.body.size) ∨
      EndRecord.wideAt t.bytes t.locatorOffset (t.locatorOffset - Zip64Record.size) = none := by
  -- With no sector the record is right there; otherwise the signature is missing.
  by_cases hs : t.sector = .empty
  · have he : t.locatorOffset - Zip64Record.size = t.body.size := by
      simp [locatorOffset, hs]
    exact .inl (he ▸ t.wideAt_body)
  · refine .inr (Option.eq_none_iff_forall_ne_some.mpr ?_)
    rintro ⟨wide, o⟩ hwide
    obtain ⟨ho, _, hdecode⟩ := EndRecord.wideAt_eq_some_iff.mp hwide
    have hsignature := (EndRecord.zip64Record_decode_extract hdecode).1
    have hfour : o + 4 ≤ t.bytes.size := by
      have hsize := congrArg ByteArray.size t.bytes_eq_tail
      rw [ByteArray.size_append, size_beforeLocator] at hsize
      simp only [locatorOffset, Zip64Record.size] at hsize ho
      omega
    rw [u32At_eq_iff hfour, ← ho] at hsignature
    exact h.apart hs hsignature

lemma wideFor : EndRecord.wideFor t.bytes t.locatorOffset = some (t.record, t.body.size) := by
  have hl : Zip64Record.size ≤ t.locatorOffset := by
    simp only [locatorOffset]
    omega
  rw [EndRecord.wideFor, if_pos hl, u64At_locator, h.located, wideAt_body]
  rcases h.wideAt_adjacent with ha | ha
  · rw [ha, Option.some_or]
  · rw [ha, Option.none_or]

lemma zip64Record? {d : Disk} {v : View} (hv : v.Whole d) (hb : v.bytes d = t.bytes) :
    EndRecord.zip64Record? d v t.endOffset = .ok (some (t.record, t.body.size)) := by
  have he : t.endOffset ≤ v.length := by
    rw [← hv.size_bytes, hb, bytes_eq_end, ByteArray.size_append, size_beforeEnd]
    omega
  have hl : ¬ t.endOffset < Zip64Locator.size := by
    simp only [endOffset]
    omega
  have ho : t.endOffset - Zip64Locator.size = t.locatorOffset := Nat.add_sub_cancel _ _
  rw [EndRecord.zip64Record?_eq hv he, if_neg hl, ho, hb, u32At_locator,
    if_neg (not_not_intro rfl), h.wideFor]

lemma lastConsistent : EndRecord.LastConsistent t.bytes t.endOffset := by
  refine ⟨EndRecord.consistent_iff_fitsAt.mpr ?_, fun o ho => ?_⟩
  · rw [bytes_eq_end, ← size_beforeEnd]
    exact EndRecord.fitsAt_encode _ _ _ h.commentSize
  · by_contra hlater
    exact h.last o (by omega) ho

end WellFormed

/-- Nothing is taken from the 16- and 32-bit fields of the end record, whatever the sector holds. -/
theorem locate_wideTrailer {d : Disk} {v : View} (hv : v.Whole d) (hb : v.bytes d = t.bytes)
    (h : t.WellFormed) : EndRecord.locate d v = .ok t.endRecord := by
  refine (EndRecord.locate_eq_ok_iff hv).mpr
    ⟨t.endOffset, hb ▸ EndRecord.lastConsistent_iff.mp h.lastConsistent, ?_⟩
  rw [← hv.size_bytes, hb, extract_end]
  have hcomment : (t.fields.encode.toByteArray ++ t.comment).extract EndFields.size
      (t.fields.encode.toByteArray ++ t.comment).size = t.comment :=
    ByteArray.extract_append_eq_right (EndFields.size_encode _).symm ByteArray.size_append
  refine EndRecord.decode_eq_ok_iff.mpr ⟨t.fields, EndFields.decode_encode _ _, .inl
    ⟨t.record, t.body.size, h.escaped, h.zip64Record? hv hb, EndRecord.place_eq_ok_iff.mpr ?_⟩⟩
  rw [hcomment]
  exact ⟨h.fits, rfl⟩

def sectored : WideTrailer where
  comment := "end".toUTF8
  fields := ⟨0, 0, 7, 0xFFFF, 9, 8, 3⟩
  locator := ⟨0, 10, 1⟩
  sector := (ofNumber 4 Zip64Record.signature.toNat ++ List.replicate 12 0x41).toByteArray
  record := ⟨44, 45, 45, 0, 0, 2, 2, 6, 0⟩
  body := "#!--dddddd".toUTF8

theorem locate_wideTrailer_sectored :
    sectored.WellFormed ∧
      EndRecord.locate (.empty []) (.ofBytes sectored.bytes) =
        .ok ⟨2, 6, 0, 4, true, "end".toUTF8⟩ := by
  have hs : EndRecord.search sectored.bytes = some sectored.endOffset := by decide +kernel
  have hl := EndRecord.lastConsistent_iff.mpr (EndRecord.search_eq_some_iff.mp hs)
  have h : sectored.WellFormed :=
    { fits := by decide
      located := by decide
      escaped := by decide
      commentSize := by decide
      last := fun o ho hc => Nat.not_lt_of_le (hl.2 o hc) ho
      apart := fun _ => by decide +kernel }
  exact ⟨h, locate_wideTrailer (whole_ofBytes (.empty []) _) (bytes_ofBytes _ _) h⟩

end WideTrailer

end JarReader.Zip
