import JarReader.Proofs.EndRecord.Position
import JarReader.Proofs.Guarded.Basic

/-! Locating an end record and reading its directory, guarded. An index into bytes that are there is
below 2^64, so a sum is guarded only where it is more than the index of a reading. -/

namespace JarReader.Guarded

open Bytes View Zip FormatFault

section Search

def fitsAt (b : ByteArray) (i : Nat) : Option Bool := do
  let found ← u32At? b i
  let length ← u16At? b (i + 20)
  let total ← sum length.toNat EndFields.size
  let left ← difference b.size i
  return found = EndFields.signature && total = left

def lastBelow (b : ByteArray) : (limit : Nat) → Option (Option Nat)
  | 0 => some none
  | i + 1 => do if ← fitsAt b i then return some i else lastBelow b i

def search (b : ByteArray) : Option (Option Nat) :=
  if b.size < EndFields.size then some none
  else do
    let last ← difference b.size EndFields.size
    lastBelow b (last + 1)

variable {b : ByteArray}

lemma fitsAt_eq {i : Nat} (h : i + EndFields.size ≤ b.size) :
    fitsAt b i = some (EndRecord.fitsAt b i) := by
  have hc := (u16At b (i + 20)).toNat_lt
  have h32 : u32At? b i = some (u32At b i) := u32At?_eq (by simp only [EndFields.size] at h; omega)
  have h16 : u16At? b (i + 20) = some (u16At b (i + 20)) :=
    u16At?_eq (by simp only [EndFields.size] at h; omega)
  have hsum : sum (u16At b (i + 20)).toNat EndFields.size =
      some ((u16At b (i + 20)).toNat + EndFields.size) :=
    sum_eq (by simp only [EndFields.size, UInt64.size]; omega)
  have hleft : difference b.size i = some (b.size - i) := difference_eq (by omega)
  have hiff : (u16At b (i + 20)).toNat + EndFields.size = b.size - i ↔
      i + EndFields.size + (u16At b (i + 20)).toNat = b.size := by omega
  simp [fitsAt, h32, h16, hsum, hleft, EndRecord.fitsAt, h, hiff]

lemma lastBelow_eq {limit : Nat} (h : limit + EndFields.size ≤ b.size + 1) :
    lastBelow b limit = some (EndRecord.lastBelow b limit) := by
  induction limit with
  | zero => rfl
  | succ i ih =>
    rw [lastBelow, fitsAt_eq (by omega), EndRecord.lastBelow]
    cases EndRecord.fitsAt b i with
    | true => rfl
    | false => exact ih (by omega)

lemma search_eq (b : ByteArray) : search b = some (EndRecord.search b) := by
  rw [search, EndRecord.search]
  by_cases hl : b.size < EndFields.size
  · have hz : b.size + 1 - EndFields.size = 0 := by omega
    rw [if_pos hl, hz]
    rfl
  · have hs : b.size - EndFields.size + 1 = b.size + 1 - EndFields.size := by omega
    rw [if_neg hl, difference_eq (by omega)]
    simp only [bind, Option.bind, hs]
    exact lastBelow_eq (by omega)

end Search

section Fields

def signed {α : Type} (bytes : ByteArray) (size : Nat) (signature : UInt32) (fault : FormatFault)
    (fields : Option α) : Guarded α := do
  if bytes.size < size then throw fault
  else
    let found ← u32At? bytes 0
    if found ≠ signature then throw fault else fields

def endFields (record : ByteArray) : Guarded EndFields :=
  signed record EndFields.size EndFields.signature .missingEndRecord do
    return {
      disk := ← u16At? record 4
      directoryDisk := ← u16At? record 6
      diskEntries := ← u16At? record 8
      entries := ← u16At? record 10
      directorySize := ← u32At? record 12
      directoryOffset := ← u32At? record 16
      commentLength := ← u16At? record 20 }

def zip64Locator (bytes : ByteArray) : Guarded Zip64Locator :=
  signed bytes Zip64Locator.size Zip64Locator.signature (.zip64 .locatorSignature) do
    return {
      disk := ← u32At? bytes 4
      recordOffset := ← u64At? bytes 8
      disks := ← u32At? bytes 16 }

def zip64Record (bytes : ByteArray) : Guarded Zip64Record :=
  signed bytes Zip64Record.size Zip64Record.signature (.zip64 .recordSignature) do
    return {
      recordSize := ← u64At? bytes 4
      madeBy := ← u16At? bytes 12
      needed := ← u16At? bytes 14
      disk := ← u32At? bytes 16
      directoryDisk := ← u32At? bytes 20
      diskEntries := ← u64At? bytes 24
      entries := ← u64At? bytes 32
      directorySize := ← u64At? bytes 40
      directoryOffset := ← u64At? bytes 48 }

lemma run_signed {α : Type} {bytes : ByteArray} {size : Nat} (h4 : 4 ≤ size) (signature : UInt32)
    (fault : FormatFault) {fields : Option α} {a : α} (h : size ≤ bytes.size → fields = some a) :
    (signed bytes size signature fault fields).run =
      some (if bytes.size < size || u32At bytes 0 ≠ signature then .error fault else .ok a) := by
  rw [signed]
  by_cases hl : bytes.size < size
  · simp [hl]
  · rw [if_neg hl, u32At?_eq (by omega), h (by omega), liftM_some, pure_bind]
    by_cases hs : u32At bytes 0 = signature
    · simp [hl, hs]
    · simp [hl, hs]

lemma run_endFields (record : ByteArray) :
    (endFields record).run = some (EndFields.decode record) := by
  refine run_signed (by decide) _ _ fun h => ?_
  simp only [EndFields.size] at h
  simp (disch := omega) [u16At?_eq, u32At?_eq, EndFields.readAt]

lemma run_zip64Locator (bytes : ByteArray) :
    (zip64Locator bytes).run = some (Zip64Locator.decode bytes) := by
  refine run_signed (by decide) _ _ fun h => ?_
  simp only [Zip64Locator.size] at h
  simp (disch := omega) [u32At?_eq, u64At?_eq]

lemma run_zip64Record (bytes : ByteArray) :
    (zip64Record bytes).run = some (Zip64Record.decode bytes) := by
  refine run_signed (by decide) _ _ fun h => ?_
  simp only [Zip64Record.size] at h
  simp (disch := omega) [u16At?_eq, u32At?_eq, u64At?_eq]

end Fields

section Locate

/-- An offset whose sum with the size wraps counts as one behind the limit. -/
def zip64RecordAt (d : Disk) (data : View) (limit offset : Nat) :
    Guarded (Option (Zip64Record × Nat)) := do
  if limit < offset + Zip64Record.size then return none
  else
    let bytes ← readExact d data offset Zip64Record.size
    let found ← u32At? bytes 0
    if found ≠ Zip64Record.signature then return none
    else
      let record ← zip64Record bytes
      return some (record, offset)

def zip64Candidates (d : Disk) (data : View) (locatorOffset offset : Nat) :
    Guarded (Option (Zip64Record × Nat)) := do
  let adjacent ←
    if locatorOffset < Zip64Record.size then pure none
    else do
      let before ← difference locatorOffset Zip64Record.size
      zip64RecordAt d data locatorOffset before
  match adjacent with
  | some found => return some found
  | none => zip64RecordAt d data locatorOffset offset

def zip64Found (d : Disk) (data : View) (endOffset : Nat) :
    Guarded (Option (Zip64Record × Nat)) := do
  if endOffset < Zip64Locator.size then return none
  else
    let locatorOffset ← difference endOffset Zip64Locator.size
    let bytes ← readExact d data locatorOffset Zip64Locator.size
    let found ← u32At? bytes 0
    if found ≠ Zip64Locator.signature then return none
    else
      let locator ← zip64Locator bytes
      match ← zip64Candidates d data locatorOffset locator.recordOffset.toNat with
      | some found => return some found
      | none => throw (.zip64 .recordNotFound)

def place (entries size offset directoryEnd : Nat) (zip64 : Bool) (comment : ByteArray) :
    Guarded EndRecord := do
  if directoryEnd < size then throw .startUnderflow
  else
    let directoryStart ← difference directoryEnd size
    if directoryStart < offset then throw .startUnderflow
    else
      let start ← difference directoryStart offset
      return ⟨entries, size, offset, start, zip64, comment⟩

def decode (d : Disk) (data : View) (endOffset : Nat) (record : ByteArray) :
    Guarded EndRecord := do
  let fields ← endFields record
  let comment ← part? record EndFields.size record.size
  match ← if fields.escaped then zip64Found d data endOffset else pure none with
  | some (wide, offset) =>
    place wide.entries.toNat wide.directorySize.toNat wide.directoryOffset.toNat offset true comment
  | none =>
    place fields.entries.toNat fields.directorySize.toNat fields.directoryOffset.toNat endOffset
      false comment

def locateIn (d : Disk) (data : View) (window : Nat) : Guarded (Option EndRecord) := do
  let first ← difference data.length window
  let block ← readExact d data first window
  match ← search block with
  | some i =>
    let endOffset ← sum first i
    let record ← part? block i block.size
    some <$> decode d data endOffset record
  | none => return none

def locate (d : Disk) (data : View) : Guarded EndRecord := do
  let long := min EndRecord.longWindow data.length
  let short := min EndRecord.shortWindow long
  match ← locateIn d data short with
  | some found => return found
  | none =>
    if short = long then throw .missingEndRecord
    else
      match ← locateIn d data long with
      | some found => return found
      | none => throw .missingEndRecord

variable {d : Disk} {v : View}

lemma zip64RecordAt_eq (hv : Sound d v) {limit : Nat} (hl : limit ≤ v.length) (offset : Nat) :
    zip64RecordAt d v limit offset = pure (EndRecord.wideAt (v.bytes d) limit offset) := by
  by_cases ho : offset + Zip64Record.size ≤ limit
  · have hs : ((v.bytes d).extract offset (offset + Zip64Record.size)).size = Zip64Record.size := by
      rw [ByteArray.size_extract, hv.whole.size_bytes]
      omega
    rw [zip64RecordAt, EndRecord.wideAt, if_neg (by omega), if_pos ho, readExact_eq hv (by omega)]
    generalize (v.bytes d).extract offset (offset + Zip64Record.size) = bytes at hs
    have hr := run_zip64Record bytes
    have h4 : 0 + 4 ≤ bytes.size := by
      rw [hs]
      decide
    simp only [liftM_some, pure_bind, u32At?_eq h4]
    by_cases h32 : u32At bytes 0 = Zip64Record.signature
    · rw [if_neg (not_not_intro h32)]
      simp only [Zip64Record.decode, hs, h32] at hr ⊢
      rw [eq_pure hr, pure_bind]
      rfl
    · rw [if_pos h32]
      simp [Zip64Record.decode, h32, Except.toOption]
  · rw [zip64RecordAt, EndRecord.wideAt, if_pos (by omega), if_neg ho]

lemma zip64Candidates_eq (hv : Sound d v) {l : Nat} (hl : l ≤ v.length) :
    zip64Candidates d v l (u64At (v.bytes d) (l + 8)).toNat =
      pure (EndRecord.wideFor (v.bytes d) l) := by
  rw [zip64Candidates, EndRecord.wideFor]
  by_cases hr : l < Zip64Record.size
  · rw [if_pos hr, if_neg (by omega)]
    exact zip64RecordAt_eq hv hl _
  · rw [if_neg hr, if_pos (by omega), difference_eq (by omega), liftM_some, pure_bind,
      zip64RecordAt_eq hv hl, pure_bind]
    cases EndRecord.wideAt (v.bytes d) l (l - Zip64Record.size) with
    | some found => rfl
    | none => exact zip64RecordAt_eq hv hl _

lemma meets_zip64Found (hv : Sound d v) {e : Nat} (he : e ≤ v.length) :
    Meets (zip64Found d v e) (EndRecord.zip64Record? d v e) := by
  rw [EndRecord.zip64Record?_eq hv.whole he, zip64Found]
  refine .ite (fun _ => .pure none) fun hl => ?_
  obtain ⟨l, rfl⟩ := Nat.exists_eq_add_of_le' (Nat.le_of_not_lt hl)
  rw [difference_eq (by omega), liftM_some, pure_bind, Nat.add_sub_cancel,
    readExact_eq hv (by omega), liftM_some, pure_bind]
  have hs : ((v.bytes d).extract l (l + Zip64Locator.size)).size = Zip64Locator.size := by
    rw [ByteArray.size_extract, hv.whole.size_bytes]
    omega
  have h32 : u32At ((v.bytes d).extract l (l + Zip64Locator.size)) 0 = u32At (v.bytes d) l := by
    rw [u32At_extract (by simp only [Zip64Locator.size]; omega), Nat.add_zero]
  have h64 : u64At ((v.bytes d).extract l (l + Zip64Locator.size)) 8 = u64At (v.bytes d) (l + 8) :=
    u64At_extract (by simp only [Zip64Locator.size]; omega)
  generalize (v.bytes d).extract l (l + Zip64Locator.size) = bytes at hs h32 h64
  have h4 : 0 + 4 ≤ bytes.size := by
    rw [hs]
    decide
  rw [u32At?_eq h4, liftM_some, pure_bind, h32]
  refine .ite (fun _ => .pure none) fun hsig => ?_
  rw [ne_eq, not_not] at hsig
  have hr := run_zip64Locator bytes
  simp only [Zip64Locator.decode, hs, h32, h64, hsig] at hr
  rw [eq_pure hr, pure_bind, zip64Candidates_eq hv (by omega), pure_bind]
  cases EndRecord.wideFor (v.bytes d) l with
  | some found => exact .pure _
  | none => exact .throw (.zip64 _)

lemma meets_place (entries size offset directoryEnd : Nat) (zip64 : Bool) (comment : ByteArray) :
    Meets (place entries size offset directoryEnd zip64 comment)
      (EndRecord.place entries size offset directoryEnd zip64 comment) := by
  rw [place, EndRecord.place]
  by_cases hs : directoryEnd < size
  · rw [if_pos hs, if_pos (by omega)]
    exact .throw .startUnderflow
  · rw [if_neg hs, difference_eq (by omega), liftM_some, pure_bind]
    by_cases ho : directoryEnd - size < offset
    · rw [if_pos ho, if_pos (by omega)]
      exact .throw .startUnderflow
    · rw [if_neg ho, if_neg (by omega), difference_eq (by omega), liftM_some, pure_bind]
      exact .pure _

lemma meets_decode (hv : Sound d v) {e : Nat} (he : e ≤ v.length) (record : ByteArray) :
    Meets (decode d v e record) (EndRecord.decode d v e record) := by
  have hr := run_endFields record
  rw [decode, EndRecord.decode]
  cases hf : EndFields.decode record with
  | error fault =>
    obtain rfl : fault = .missingEndRecord := by
      rw [EndFields.decode] at hf
      split at hf <;> cases hf
      rfl
    rw [hf] at hr
    rw [eq_throw hr]
    exact .throw .missingEndRecord
  | ok fields =>
    have hs : EndFields.size ≤ record.size := by
      by_contra hs
      simp [EndFields.decode, Nat.lt_of_not_le hs] at hf
    rw [hf] at hr
    rw [eq_pure hr, pure_bind, part?_eq hs (Nat.le_refl _), liftM_some, pure_bind]
    by_cases hw : fields.escaped = true
    · simp only [hw, if_true]
      refine .bind (meets_zip64Found hv he) fun found? _ => ?_
      cases found? with
      | some found => exact meets_place _ _ _ _ _ _
      | none => exact meets_place _ _ _ _ _ _
    · simp only [hw]
      exact meets_place _ _ _ _ _ _

lemma meets_locateIn (hv : Sound d v) {window : Nat} (hw : window ≤ v.length) :
    Meets (locateIn d v window) (EndRecord.locateIn d v window) := by
  have hl := hv.length_lt
  rw [locateIn, difference_eq hw, liftM_some, pure_bind, EndRecord.locateIn]
  refine .read hv (by omega) ?_
  have hs : ((v.bytes d).extract (v.length - window) (v.length - window + window)).size = window := by
    rw [ByteArray.size_extract, hv.whole.size_bytes]
    omega
  generalize (v.bytes d).extract (v.length - window) (v.length - window + window) = block at hs
  rw [search_eq, liftM_some, pure_bind]
  cases hi : EndRecord.search block with
  | none => exact .pure none
  | some i =>
    have hfit := (EndRecord.size_of_fitsAt (EndRecord.search_eq_some_iff.mp hi).1).1
    simp only
    rw [sum_eq (by omega), liftM_some, pure_bind, part?_eq (by omega) (Nat.le_refl _), liftM_some,
      pure_bind, map_eq_pure_bind, map_eq_pure_bind]
    exact .bind (meets_decode hv (by omega) _) fun r _ => .pure (some r)

lemma meets_locate (hv : Sound d v) : Meets (locate d v) (EndRecord.locate d v) := by
  rw [locate, EndRecord.locate]
  refine .bind (meets_locateIn hv (by omega)) fun found? _ => ?_
  cases found? with
  | some found => exact .pure found
  | none =>
    simp only
    by_cases hw : min EndRecord.shortWindow (min EndRecord.longWindow v.length) =
        min EndRecord.longWindow v.length
    · rw [if_pos hw, if_neg (not_not_intro hw)]
      exact .throw .missingEndRecord
    · rw [if_neg hw, if_pos hw]
      refine .bind (meets_locateIn hv (Nat.min_le_right _ _)) fun found? _ => ?_
      cases found? with
      | some found => exact .pure found
      | none => exact .throw .missingEndRecord

end Locate

section Directory

def archive (r : EndRecord) (data : View) : Guarded View := do
  let length ← difference data.length r.archiveStart
  part data r.archiveStart length

def readDirectory (d : Disk) (r : EndRecord) (archive : View) : Guarded ByteArray := do
  let view ← part archive r.directoryOffset r.directorySize
  readExact d view 0 r.directorySize

variable {d : Disk} {v : View} {r : EndRecord}

lemma archive_eq (hv : Sound d v) (hl : r.archiveStart ≤ v.length) {a : View}
    (h : r.archive v = .ok a) : archive r v = pure a := by
  rw [archive, difference_eq hl, liftM_some, pure_bind,
    part_eq hv (EndRecord.part_of_archive h), liftM_some]

lemma readDirectory_eq {a : View} (ha : Sound d a) {bytes : ByteArray}
    (h : r.readDirectory d a = .ok bytes) : readDirectory d r a = pure bytes := by
  simp only [EndRecord.readDirectory, bind, Except.bind] at h
  cases hp : a.part r.directoryOffset r.directorySize with
  | error f =>
    rw [hp] at h
    cases h
  | ok view =>
    have hl := length_part hp
    have hview := ha.part hp
    rw [hp] at h
    simp only at h
    rw [hview.whole.readExact_eq (by omega)] at h
    cases h
    rw [readDirectory, part_eq ha hp, liftM_some, pure_bind, readExact_eq hview (by omega),
      liftM_some]

end Directory

end JarReader.Guarded
