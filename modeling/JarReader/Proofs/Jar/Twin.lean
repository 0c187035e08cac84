import JarReader.Proofs.Jar.Likeness
import JarReader.Url.Handler

/-! Jars that show the same and lie in the same way in their files. Descending from two such jars, in
whatever system, leads to two such jars. -/

namespace JarReader

open Zip

namespace Jar

structure Twin (d : Disk) (j k : Jar) : Prop where
  alike : Alike d 0 j k
  kind : k.kind = j.kind
  path : k.pathFromRoot = j.pathFromRoot

def numbered (j : Jar) (n : Nat) : Jar := { j with opening := n }

variable {d : Disk} {j k : Jar}

lemma Twin.refl (d : Disk) (j : Jar) : Twin d j j where
  alike := ⟨⟨rfl, fun _ _ => rfl⟩, rfl, rfl, rfl, Iff.rfl⟩
  kind := rfl
  path := rfl

lemma Twin.symm (h : Twin d j k) : Twin d k j where
  alike := ⟨⟨h.alike.archive.length.symm, fun i n => (h.alike.archive.read i n).symm⟩,
    h.alike.directory.symm, h.alike.start.symm, h.alike.endRecord.symm, h.alike.inDirectory.symm⟩
  kind := h.kind.symm
  path := h.path.symm

lemma Twin.trans {l : Jar} (h : Twin d j k) (h' : Twin d k l) : Twin d j l where
  alike := ⟨⟨h.alike.archive.length.trans h'.alike.archive.length,
      fun i n => (h.alike.archive.read i n).trans (h'.alike.archive.read i n)⟩,
    h'.alike.directory.trans h.alike.directory, h'.alike.start.trans h.alike.start,
    h'.alike.endRecord.trans h.alike.endRecord, h'.alike.inDirectory.trans h.alike.inDirectory⟩
  kind := h'.kind.trans h.kind
  path := h'.path.trans h.path

lemma Twin.numbered (h : Twin d j k) (m n : Nat) : Twin d (j.numbered m) (k.numbered n) where
  alike := ⟨h.alike.archive, h.alike.directory, h.alike.start, h.alike.endRecord,
    h.alike.inDirectory⟩
  kind := h.kind
  path := h.path

lemma Twin.nested? (h : Twin d j k) (name : String) :
    Matched (Option.Rel (Twin d)) (j.nested? d name) (k.nested? d name) := by
  simp only [Jar.nested?, h.alike.entry?]
  cases j.entry? name with
  | none => exact .ok .none
  | some entry =>
    refine (h.alike.nested entry).map fun i l => ?_
    rintro ⟨⟨hkind, _, step, hi, hl⟩, hil⟩
    rw [ite_self] at hil
    refine .some ⟨hil, hkind, ?_⟩
    rw [hi, hl, h.path]

end Jar

structure Connection.Twin (d : Disk) (c e : Connection) : Prop where
  jar : Jar.Twin d c.jar e.jar
  entry? : e.entry? = c.entry?

lemma Connection.Twin.symm {d : Disk} {c e : Connection} (h : Twin d c e) : Twin d e c :=
  ⟨h.jar.symm, h.entry?.symm⟩

lemma Connection.Twin.trans {d : Disk} {c e f : Connection} (h : Twin d c e) (h' : Twin d e f) :
    Twin d c f := ⟨h.jar.trans h'.jar, h'.entry?.trans h.entry?⟩

namespace Handler

variable {s t : System} {j k : Jar}

lemma descend_snd (s : System) (j : Jar) (segments : List String) :
    ∃ n, (descend s j segments).2 = { s with openings := n } := by
  induction segments generalizing s j with
  | nil => exact ⟨s.openings, rfl⟩
  | cons segment segments ih =>
    rw [descend, System.nested?]
    cases j.nested? s.disk segment with
    | error failure => exact ⟨s.openings, rfl⟩
    | ok found? =>
      cases found? with
      | none => exact ⟨s.openings, rfl⟩
      | some found =>
        obtain ⟨n, hn⟩ := ih (s.register found).2 (s.register found).1
        exact ⟨n, hn⟩

lemma descend_twin (hd : t.disk = s.disk) (h : Jar.Twin s.disk j k) (segments : List String) :
    Matched (Jar.Twin s.disk) (descend s j segments).1 (descend t k segments).1 := by
  induction segments generalizing s t j k with
  | nil => exact .ok h
  | cons segment segments ih =>
    have hn := h.nested? segment
    simp only [descend, System.nested?, hd]
    generalize j.nested? s.disk segment = x at hn ⊢
    generalize k.nested? s.disk segment = y at hn ⊢
    cases hn with
    | error failure => exact .error failure
    | ok hr =>
      cases hr with
      | none => exact .error _
      | some hil => exact ih (s := (s.register _).2) hd (hil.numbered _ _)

lemma connection_twin {d : Disk} (h : Jar.Twin d j k) (entry : String) :
    Matched (Connection.Twin d) (connection j entry) (connection k entry) := by
  simp only [connection, h.alike.entry?]
  by_cases he : entry = ""
  · rw [if_pos he, if_pos he]
    exact .ok ⟨h, rfl⟩
  · rw [if_neg he, if_neg he]
    cases j.entry? entry with
    | none => exact .error _
    | some found => exact .ok ⟨h, rfl⟩

end Handler
end JarReader
