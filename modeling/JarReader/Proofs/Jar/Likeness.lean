import JarReader.Jar.Nested
import JarReader.Proofs.Inflation
import JarReader.Proofs.Jar.Opening

/-! Jars that show the same. What a jar shows depends on its directory and on what can be read of its
archive, so jars over archives that read alike show the same, and so do the jars in them. -/

namespace JarReader

open Zip

namespace ContentReader

variable {d : Disk} {v w : View}

lemma readToEnd_stored (h : v.Alike d w) :
    ((stored (.atStart v)).readToEnd d).1 = ((stored (.atStart w)).readToEnd d).1 := by
  have hc := Cursor.alike_atStart h
  simp only [readToEnd, drain, hc.remaining, hc.read_fst]

lemma readToEnd_deflated (h : v.Alike d w) :
    ((deflated (.ofView v)).readToEnd d).1 = ((deflated (.ofView w)).readToEnd d).1 := by
  have hd := (Deflate.Inflater.alike_ofView h).drain copySize
  simp only [readToEnd, drain]
  generalize (Deflate.Inflater.ofView v).drain d copySize = x at hd ⊢
  generalize (Deflate.Inflater.ofView w).drain d copySize = y at hd ⊢
  obtain ⟨⟨bytes, fault?⟩, r⟩ := x
  obtain ⟨_, s⟩ := y
  cases hd
  cases fault? <;> rfl

end ContentReader

namespace Jar

/-- What the jars show without opening a jar in them: end records that differ by `n` bytes in front of
the archive, and otherwise the same. -/
structure ShowsSame (d : Disk) (n : Nat) (j k : Jar) : Prop where
  endRecord : k.endRecord = j.endRecord.preceded n
  entries : k.entries = j.entries
  entry? : ∀ name, k.entry? name = j.entry? name
  entryData : ∀ entry,
    (k.entryData d entry).map (View.bytes d) = (j.entryData d entry).map (View.bytes d)
  content? : ∀ name, k.content? d name = j.content? d name
  readManifest : k.readManifest d = j.readManifest d

structure SameStep (j k i l : Jar) : Prop where
  kind : l.kind = i.kind
  root : i.root = j.root ∧ l.root = k.root
  path : ∃ step, i.pathFromRoot = j.pathFromRoot ++ step ∧ l.pathFromRoot = k.pathFromRoot ++ step

/-- The jars show the same, and so do the jars in them, down to `depth`. A directory lies in the
archive of the jar around it, any other jar in one of its own. -/
def SameTo (d : Disk) : (depth n : Nat) → Jar → Jar → Prop
  | 0, n, j, k => ShowsSame d n j k
  | depth + 1, n, j, k =>
    ShowsSame d n j k ∧ ∀ name,
      Matched (Option.Rel fun i l =>
        SameStep j k i l ∧ SameTo d depth (if i.kind = .nestedDirectory then n else 0) i l)
        (j.nested? d name) (k.nested? d name)

def Same (d : Disk) (n : Nat) (j k : Jar) : Prop := ∀ depth, SameTo d depth n j k

structure Alike (d : Disk) (n : Nat) (j k : Jar) : Prop where
  archive : j.archive.Alike d k.archive
  directory : k.directory = j.directory
  start : k.start = j.start
  endRecord : k.endRecord = j.endRecord.preceded n
  inDirectory : k.kind = .nestedDirectory ↔ j.kind = .nestedDirectory

lemma entries_congr {j k : Jar} (hdirectory : k.directory = j.directory)
    (hstart : k.start = j.start) : k.entries = j.entries := by
  have hshows : k.shows = j.shows := by
    funext record
    simp only [shows, hstart]
  simp only [entries, records, hdirectory, hstart, hshows]

namespace Alike

variable {d : Disk} {n : Nat} {j k : Jar}

lemma entry? (h : Alike d n j k) (name : String) : k.entry? name = j.entry? name := by
  simp only [Jar.entry?, Jar.record?, h.start, h.directory]

lemma entries (h : Alike d n j k) : k.entries = j.entries := entries_congr h.directory h.start

lemma entryData (h : Alike d n j k) (entry : Entry) :
    Matched (View.Alike d) (j.entryData d entry) (k.entryData d entry) := by
  simp only [Jar.entryData, h.archive.readExact]
  cases k.archive.readExact d entry.headerOffset LocalHeader.fixedSize with
  | error f => exact .error f
  | ok bytes =>
    simp only [bind, Except.bind]
    cases LocalHeader.decode bytes entry.headerOffset with
    | error f => exact .error _
    | ok header => exact h.archive.part _ _

lemma entryContent (h : Alike d n j k) (entry : Entry) :
    k.entryContent d entry = j.entryContent d entry := by
  have hd := h.entryData entry
  simp only [Jar.entryContent, Jar.openEntry]
  generalize j.entryData d entry = x at hd ⊢
  generalize k.entryData d entry = y at hd ⊢
  cases hd with
  | error f => rfl
  | ok hv =>
    simp only [bind, Except.bind]
    cases entry.method with
    | stored => exact congrArg (Except.mapError Failure.io) (ContentReader.readToEnd_stored hv).symm
    | deflated => exact congrArg (Except.mapError Failure.io) (ContentReader.readToEnd_deflated hv).symm
    | unknown code => rfl

lemma content? (h : Alike d n j k) (name : String) : k.content? d name = j.content? d name := by
  simp only [Jar.content?, h.entry?, h.entryContent]

lemma manifestEntry? (h : Alike d n j k) : k.manifestEntry? = j.manifestEntry? := by
  simp only [Jar.manifestEntry?, h.entry?, h.directory, h.inDirectory]

lemma readManifest (h : Alike d n j k) : k.readManifest d = j.readManifest d := by
  simp only [Jar.readManifest, h.manifestEntry?, h.entryContent]

lemma showsSame (h : Alike d n j k) : ShowsSame d n j k where
  endRecord := h.endRecord
  entries := h.entries
  entry? := h.entry?
  entryData entry := ((h.entryData entry).map_eq fun _ _ hv => hv.bytes).symm
  content? := h.content?
  readManifest := h.readManifest

end Alike

structure Placed (j : Jar) (root path : String) (kind : JarKind) : Prop where
  root : j.root = root
  path : j.pathFromRoot = path
  kind : j.kind = kind

lemma ofView_alike {d : Disk} {v w : View} (h : v.Alike d w) (root root' path path' : String)
    {kind kind' : JarKind} (hk : kind' = .nestedDirectory ↔ kind = .nestedDirectory) :
    Matched (fun i l => Alike d 0 i l ∧ i.Placed root path kind ∧ l.Placed root' path' kind')
      (ofView d v root path kind) (ofView d w root' path' kind') := by
  simp only [ofView, Metadata.read_alike h]
  cases Metadata.read d w with
  | error f => exact .error f
  | ok metadata =>
    refine (EndRecord.archive_alike h metadata.endRecord).bind fun _ _ ha => ?_
    exact .ok ⟨⟨ha, rfl, rfl, rfl, hk⟩, ⟨rfl, rfl, rfl⟩, ⟨rfl, rfl, rfl⟩⟩

lemma Alike.nestedDirectory {d : Disk} {n : Nat} {j k : Jar} (h : Alike d n j k) (entry : Entry) :
    Alike d n (j.nestedDirectory entry) (k.nestedDirectory entry) where
  archive := h.archive
  directory := h.directory
  start := congrArg (· ++ entry.name.toUTF8) h.start
  endRecord := h.endRecord
  inDirectory := Iff.rfl

lemma Alike.nested {d : Disk} {n : Nat} {j k : Jar} (h : Alike d n j k) (entry : Entry) :
    Matched (fun i l => SameStep j k i l ∧
        Alike d (if i.kind = .nestedDirectory then n else 0) i l)
      (j.nested d entry) (k.nested d entry) := by
  unfold Jar.nested
  by_cases hd : entry.isDirectory
  · rw [if_pos hd, if_pos hd]
    exact .ok ⟨⟨rfl, ⟨rfl, rfl⟩, _, String.append_assoc, String.append_assoc⟩,
      h.nestedDirectory entry⟩
  · rw [if_neg hd, if_neg hd]
    by_cases hm : entry.method ≠ .stored
    · rw [if_pos hm, if_pos hm]
      exact .error _
    · rw [if_neg hm, if_neg hm]
      refine (h.entryData entry).bind fun _ _ hv => ?_
      refine (ofView_alike hv _ _ _ _ Iff.rfl).mono ?_
      rintro i l ⟨hil, hi, hl⟩
      refine ⟨⟨hl.kind.trans hi.kind.symm, ⟨hi.root, hl.root⟩, _,
        hi.path.trans String.append_assoc, hl.path.trans String.append_assoc⟩, ?_⟩
      rw [hi.kind]
      exact hil

lemma Alike.sameTo {d : Disk} {n : Nat} {j k : Jar} (h : Alike d n j k) (depth : Nat) :
    SameTo d depth n j k := by
  -- a jar in another has no bytes in front of it, so `n` varies on the way down
  induction depth generalizing n j k with
  | zero => exact h.showsSame
  | succ depth ih =>
    refine ⟨h.showsSame, fun name => ?_⟩
    simp only [nested?, h.entry?]
    cases j.entry? name with
    | none => exact .ok .none
    | some entry =>
      refine (h.nested entry).map fun i l => ?_
      rintro ⟨hstep, hil⟩
      exact .some ⟨hstep, ih hil⟩

end Jar
end JarReader
