import JarReader.Disk.Change
import JarReader.Proofs.Guarded.Views
import Mathlib.Algebra.GroupWithZero.Nat

namespace JarReader.View

def parts (v : View) (requests : List (UInt64 × UInt64)) : Except Failure View :=
  requests.foldlM (fun v r => v.part r.1.toNat r.2.toNat) v

/-- All that can be had from the view is `content`, and its parts. -/
structure Shows (d : Disk) (v : View) (content : ByteArray) : Prop where
  length : v.length = content.size
  part (offset length : UInt64) :
    if offset.toNat + length.toNat ≤ content.size then
      ∃ w, v.part offset.toNat length.toNat = .ok w
    else v.part offset.toNat length.toNat =
      .error (.outOfBounds offset.toNat length.toNat content.size)
  readInto (position : UInt64) (buffer : ByteArray) :
    ∃ n, n = min buffer.size (content.size - position.toNat) ∧
      v.readInto d position.toNat buffer =
        (n, content.extract position.toNat (position.toNat + n) ++ buffer.extract n buffer.size)
  readByte (position : UInt64) : v.readByte? d position.toNat = content[position.toNat]?
  readExact (position : UInt64) (n : Nat) :
    v.readExact d position.toNat n =
      if n = 0 ∨ position.toNat + n ≤ content.size then
        .ok (content.extract position.toNat (position.toNat + n))
      else .error (.io (.endOfData n position.toNat content.size))

/-- What is reckoned in words, and read in as many portions as the system likes, is what the view
gives. -/
structure InWords (d : Disk) (v : View) : Prop where
  part (offset length : UInt64) :
    (Guarded.partOrFault v offset.toNat length.toNat).run =
      some (v.part offset.toNat length.toNat)
  readInto (grant : Nat → Nat) (position : UInt64) (buffer : ByteArray) :
    Guarded.readInto d grant v position.toNat buffer = some (v.readInto d position.toNat buffer)
  readByte (grant : Nat → Nat) (position : UInt64) :
    Guarded.readByte d grant v position.toNat = some (v.readByte? d position.toNat)
  readExactInto (grant : Nat → Nat) (position : UInt64) (buffer : ByteArray) :
    Guarded.readExactInto d grant v position.toNat buffer =
      some (v.readExact d position.toNat buffer.size)
  readVector (grant : Nat → Nat) (position : UInt64) (n : Nat) :
    Guarded.readVector d grant v position.toNat n =
      if n < 2 ^ 63 then some (v.readExact d position.toNat n) else none

/-- The view `m` in memory and the view `f` of a file are the slice of `content` that begins at
`first`, as long as the file `id` holds `content`. -/
structure SliceOf (id : FileId) (content : ByteArray) (first : Nat) (m f : View) : Prop where
  length : f.length = m.length
  start : f.start = first
  inside : first + m.length ≤ content.size
  inMemory (d : Disk) : m.Shows d (content.extract first (first + m.length)) ∧ m.InWords d
  inFile (d : Disk) : d.content id = content →
    f.Shows d (content.extract first (first + m.length)) ∧ f.InWords d

variable {d : Disk} {v w : View}

lemma Whole.shows (hv : v.Whole d) : v.Shows d (v.bytes d) where
  length := hv.size_bytes.symm
  part offset length := by
    rw [hv.size_bytes, View.part]
    split
    · exact ⟨_, rfl⟩
    · rfl
  readInto position buffer := by
    rw [hv.size_bytes]
    exact ⟨_, rfl, hv.readInto_eq _ _⟩
  readByte position := hv.readByte?_eq _
  readExact position n := by
    rw [hv.size_bytes]
    by_cases hn : n = 0
    · rw [if_pos (.inl hn), View.readExact, View.read_eq, hn, Nat.add_zero, ByteArray.extract_same]
      rfl
    · rw [hv.readExact_eq_ite _ (Nat.pos_of_ne_zero hn)]
      simp only [hn, false_or]

lemma inWords (hv : Guarded.Sound d v) : v.InWords d where
  part _ _ := Guarded.run_partOrFault hv _ _
  readInto grant _ _ := Guarded.readInto_eq hv grant _ _
  readByte grant _ := Guarded.readByte_eq hv grant _
  readExactInto grant position _ := Guarded.readExactInto_eq hv grant position.toNat_lt _
  readVector grant position _ := Guarded.readVector_eq hv grant position.toNat_lt _

structure Within (v : View) (n : Nat) (w : View) : Prop where
  source : w.source = v.source
  start : w.start = v.start + n
  inside : n + w.length ≤ v.length

lemma within_part {offset length : Nat} (h : v.part offset length = .ok w) :
    v.Within offset w := by
  have hl := le_length_of_part h
  rw [View.part, if_pos hl] at h
  cases h
  exact ⟨rfl, rfl, hl⟩

lemma Within.trans {u : View} {m n : Nat} (h : v.Within m w) (h' : w.Within n u) :
    v.Within (m + n) u where
  source := h'.source.trans h.source
  start := by rw [h'.start, h.start, Nat.add_assoc]
  inside := by
    have := h.inside
    have := h'.inside
    omega

lemma within_parts {requests : List (UInt64 × UInt64)} (h : v.parts requests = .ok w) :
    v.Within (requests.map (·.1.toNat)).sum w := by
  induction requests generalizing v with
  | nil =>
    cases h
    exact ⟨rfl, rfl, Nat.le_of_eq (Nat.zero_add _)⟩
  | cons r requests ih =>
    simp only [parts, List.foldlM_cons] at h
    cases hp : v.part r.1.toNat r.2.toNat with
    | error failure =>
      rw [hp] at h
      cases h
    | ok u =>
      rw [hp] at h
      exact (within_part hp).trans (ih h)

lemma parts_matched (h : v.length = w.length) (requests : List (UInt64 × UInt64)) :
    Matched (fun m f => m.length = f.length) (v.parts requests) (w.parts requests) := by
  induction requests generalizing v w with
  | nil => exact .ok h
  | cons r requests ih =>
    simp only [parts, List.foldlM_cons]
    refine Matched.bind (R := fun m f => m.length = f.length) ?_ fun m f hmf => ih hmf
    rw [View.part, View.part, h]
    split
    · exact .ok rfl
    · exact .error _

lemma Within.slice {content : ByteArray} {n : Nat} (h : v.Within n w) (hv : v.start = 0)
    (hb : v.source.bytes d = content) (hl : v.length = content.size)
    (hsize : content.size < UInt64.size) :
    w.Shows d (content.extract n (n + w.length)) ∧ w.InWords d := by
  have hstart := h.start
  have hinside := h.inside
  have hsource : w.source.bytes d = content := by rw [h.source, hb]
  have hwhole : w.Whole d := by
    rw [Whole, hsource]
    omega
  have hbytes : w.bytes d = content.extract n (n + w.length) := by
    rw [bytes_eq, hsource, hstart, hv, Nat.zero_add]
  exact ⟨hbytes ▸ hwhole.shows, inWords ⟨hwhole, hsource ▸ hsize⟩⟩

/-- Whatever parts are asked for, views of bytes in memory and of a file that holds the bytes fail alike,
or are the same slice of them. -/
theorem parts_sliceOf {path : String} {id : FileId} (hfile : d.openFile path = .ok id)
    (hsize : (d.content id).size < UInt64.size) :
    ∃ file, openFile d path = .ok file ∧ ∀ requests : List (UInt64 × UInt64),
      Matched (SliceOf id (d.content id) (requests.map (·.1.toNat)).sum)
        ((ofBytes (d.content id)).parts requests) (file.parts requests) := by
  refine ⟨⟨.file id path, 0, (d.content id).size⟩, by rw [openFile, hfile], fun requests => ?_⟩
  have hmatched : Matched (fun m f : View => m.length = f.length)
      ((ofBytes (d.content id)).parts requests)
      (parts ⟨.file id path, 0, (d.content id).size⟩ requests) :=
    parts_matched (length_ofBytes _) requests
  refine hmatched.attach.mono fun m f ⟨hlength, hm, hf⟩ => ?_
  have hmemory := within_parts hm
  have hwithin := within_parts hf
  exact
    { length := hlength.symm
      start := hwithin.start.trans (Nat.zero_add _)
      inside := hmemory.inside
      inMemory := fun d' => hmemory.slice rfl rfl rfl hsize
      inFile := fun d' hd => hlength ▸ hwithin.slice rfl hd rfl hsize }

def digits : ByteArray := "0123456789".toUTF8

def digitsDisk : Disk := ((Disk.empty []).writeFile "/d" digits 1).toOption.getD (.empty [])

theorem parts_sliceOf_digitsDisk :
    ∃ id file m f, digitsDisk.openFile "/d" = .ok id ∧
      (digitsDisk.content id).size < UInt64.size ∧ openFile digitsDisk "/d" = .ok file ∧
      (ofBytes digits).parts [(2, 6), (1, 4)] = .ok m ∧ file.parts [(2, 6), (1, 4)] = .ok f ∧
      SliceOf id digits 3 m f ∧
      file.parts [(2, 6), (1, 4), (2, 0xFFFFFFFFFFFFFFFF)] =
        .error (.outOfBounds 2 (2 ^ 64 - 1) 4) := by
  have hfile : digitsDisk.openFile "/d" = .ok ⟨0⟩ := by decide +kernel
  have hcontent : digitsDisk.content ⟨0⟩ = digits := by decide +kernel
  have hsize : (digitsDisk.content ⟨0⟩).size < UInt64.size := by decide +kernel
  obtain ⟨file, hopen, hparts⟩ := parts_sliceOf hfile hsize
  rw [hcontent] at hparts
  have hslice := hparts [(2, 6), (1, 4)]
  have hfails := hparts [(2, 6), (1, 4), (2, 0xFFFFFFFFFFFFFFFF)]
  generalize hf : file.parts [(2, 6), (1, 4)] = found at hslice
  generalize hg : file.parts [(2, 6), (1, 4), (2, 0xFFFFFFFFFFFFFFFF)] = failed at hfails
  cases hslice with
  | ok h =>
    cases hfails
    exact ⟨⟨0⟩, file, _, _, hfile, hsize, hopen, rfl, hf, h, hg⟩

end JarReader.View
