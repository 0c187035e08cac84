import JarReader.Jar.Entry
import JarReader.Proofs.Disk.Placement

namespace JarReader.Command

open Disk

/-- From `d` to `d'`, each of the entries was put at its target, or was left out as something was there. -/
inductive Fills (keep : Prop) (target : Entry → Location) (content : Entry → ByteArray → Prop) :
    List Entry → Disk → Disk → Prop
  | nil {d : Disk} : Fills keep target content [] d d
  | skip {e : Entry} {es : List Entry} {d d' : Disk} {node : Node} : keep →
      d.node? (target e) = some node → Fills keep target content es d d' →
      Fills keep target content (e :: es) d d'
  | put {e : Entry} {es : List Entry} {d d₁ d' : Disk} {bytes : ByteArray} :
      (keep → d.node? (target e) = none) → content e bytes → Placed (target e) bytes d d₁ →
      Fills keep target content es d₁ d' → Fills keep target content (e :: es) d d'

namespace Fills

variable {keep : Prop} {target : Entry → Location} {content : Entry → ByteArray → Prop}
  {es : List Entry} {d d' : Disk} {l : Location} (h : Fills keep target content es d d')
include h

lemma kept {node : Node} (hnode : d.node? l = some node) : d'.node? l = some node := by
  induction h with
  | nil => exact hnode
  | skip _ _ _ ih => exact ih hnode
  | put _ _ hplaced _ ih => exact ih (hplaced.kept l node hnode)

lemma exists_node {e : Entry} (he : e ∈ es) : ∃ node, d'.node? (target e) = some node := by
  induction h with
  | nil => cases he
  | skip _ hnode hrest ih =>
    rcases List.mem_cons.mp he with rfl | he
    · exact ⟨_, hrest.kept hnode⟩
    · exact ih he
  | put _ _ hplaced hrest ih =>
    rcases List.mem_cons.mp he with rfl | he
    · obtain ⟨id, hid, _⟩ := fileAt?_eq_some_iff.mp hplaced.here
      exact ⟨_, hrest.kept hid⟩
    · exact ih he

lemma elsewhere (hl : ∀ e ∈ es, target e ≠ l) : d'.fileAt? l = d.fileAt? l := by
  induction h with
  | nil => rfl
  | skip _ _ _ ih => exact ih fun e he => hl e (List.mem_cons_of_mem _ he)
  | put _ _ hplaced _ ih =>
    have hother := hplaced.elsewhere l (hl _ List.mem_cons_self).symm
    exact (ih fun e he => hl e (List.mem_cons_of_mem _ he)).trans hother

lemma taken (hkeep : keep) {node : Node} (hnode : d.node? l = some node) :
    d'.fileAt? l = d.fileAt? l := by
  induction h with
  | nil => rfl
  | skip _ _ _ ih => exact ih hnode
  | @put e _ _ _ _ _ hfree _ hplaced _ ih =>
    have hne : l ≠ target e := by
      rintro rfl
      cases hnode.symm.trans (hfree hkeep)
    exact (ih (hplaced.kept l node hnode)).trans (hplaced.elsewhere l hne)

lemma first (hkeep : keep) (hnone : d.fileAt? l = none) {bytes : ByteArray}
    (hbytes : d'.fileAt? l = some bytes) :
    ∃ e, es.find? (fun x => target x = l) = some e ∧ content e bytes := by
  induction h with
  | nil => cases hnone.symm.trans hbytes
  | @skip e _ _ _ _ _ hnode hrest ih =>
    have hne : target e ≠ l := by
      rintro rfl
      cases hbytes.symm.trans ((hrest.taken hkeep hnode).trans hnone)
    rw [List.find?_cons_of_neg (by simpa using hne)]
    exact ih hnone hbytes
  | @put e _ _ _ _ _ _ hcontent hplaced hrest ih =>
    by_cases he : target e = l
    · subst he
      obtain ⟨id, hid, _⟩ := fileAt?_eq_some_iff.mp hplaced.here
      have hsame := (hrest.taken hkeep hid).trans hplaced.here
      rw [List.find?_cons_of_pos (by simp)]
      cases hbytes.symm.trans hsame
      exact ⟨e, rfl, hcontent⟩
    · rw [List.find?_cons_of_neg (by simpa using he)]
      exact ih ((hplaced.elsewhere l (Ne.symm he)).trans hnone) hbytes

lemma last (hover : ¬ keep) (hmem : ∃ e ∈ es, target e = l) :
    ∃ e bytes, es.reverse.find? (fun x => target x = l) = some e ∧ content e bytes ∧
      d'.fileAt? l = some bytes := by
  induction h with
  | nil =>
    obtain ⟨e, he, _⟩ := hmem
    cases he
  | skip hkeep => exact absurd hkeep hover
  | @put e es _ _ _ bytes _ hcontent hplaced hrest ih =>
    rw [List.reverse_cons, List.find?_append]
    by_cases hlater : ∃ x ∈ es, target x = l
    · obtain ⟨x, b, hx, hb, hfile⟩ := ih hlater
      exact ⟨x, b, by rw [hx, Option.some_or], hb, hfile⟩
    · obtain ⟨x, hx, hxl⟩ := hmem
      have he : target e = l := by
        rcases List.mem_cons.mp hx with rfl | hx
        · exact hxl
        · exact absurd ⟨x, hx, hxl⟩ hlater
      have hothers : ∀ x ∈ es, target x ≠ l := fun x hx hxl => hlater ⟨x, hx, hxl⟩
      have hnone : es.reverse.find? (fun x => target x = l) = none := by
        refine List.find?_eq_none.mpr fun x hx => ?_
        simpa using hothers x (List.mem_reverse.mp hx)
      subst he
      refine ⟨e, bytes, by simp [hnone], hcontent, (hrest.elsewhere hothers).trans hplaced.here⟩

end Fills

end JarReader.Command
