import JarReader.Command.Paths
import JarReader.Proofs.Url.Resolution

/-! The two forms in which the jar of a run is named: a path that is split at separators, and a URL that
is split and decoded. A run in one form is the run in the other, as long as there is a jar to open. -/

namespace JarReader

lemma System.openings_openJar {s : System} {useCache : Bool} {path : String} {j : Jar}
    (h : (s.openJar useCache path).1 = .ok j) :
    (s.openJar useCache path).2.openings = s.openings + 1 := by
  simp only [openJar] at h ⊢
  cases hv : View.openFile s.disk path with
  | error failure =>
    rw [hv] at h
    cases h
  | ok v =>
    simp only [hv] at h
    obtain ⟨c, hc⟩ := s.metadataOf_snd useCache path v
    cases hm : s.metadataOf useCache path v with
    | mk result t =>
      obtain rfl : t = { s with metadata := c } := by rw [← hc, hm]
      cases result with
      | error failure =>
        rw [hm] at h
        cases h
      | ok m =>
        simp only [hm] at h ⊢
        cases hj : Jar.ofMetadata m v path "" .direct with
        | error failure =>
          rw [hj] at h
          cases h
        | ok k => rfl

lemma System.openJar_start (d : Disk) (useCache : Bool) (path : String) :
    ((System.start d).openJar useCache path).1 = (freshJar d path).map (·.numbered 0) ∧
      ((System.start d).openJar useCache path).2.disk = d ∧
      ∀ j, freshJar d path = .ok j → ((System.start d).openJar useCache path).2.openings = 1 := by
  have hnew : (Process.start d fun _ => useCache).Still d := ⟨_, [], List.forall_mem_nil _, rfl⟩
  obtain ⟨_, hopen⟩ := hnew.openJar useCache path
  refine ⟨hopen, (System.start d).disk_openJar useCache path, fun j hj => ?_⟩
  rw [hj] at hopen
  exact openings_openJar hopen

namespace Command

open Text

def pathForm (file : String) (pieces : List String) : String :=
  Url.separator.intercalate (file :: pieces)

def named (d : Disk) (file : String) (segments : List String) : Option Jar :=
  (freshJar d file).toOption.bind fun j =>
    (Handler.descend { System.start d with openings := 1 } (j.numbered 0) segments).1.toOption

section Forms

variable {file : String} {pieces segments : List String}

end Forms

section Open

variable {s t : System} {d : Disk} {a : Arguments} {file : String} {segments : List String}

lemma toOption_descend (hd : t.disk = s.disk) (hn : t.openings = s.openings) (j : Jar)
    (segments : List String) :
    (descend s j segments).1.toOption = (Handler.descend t j segments).1.toOption := by
  induction segments generalizing s t j with
  | nil => rfl
  | cons segment segments ih =>
    simp only [descend, Handler.descend, System.nested?, hd]
    cases j.nested? s.disk segment with
    | error failure => rfl
    | ok found? =>
      cases found? with
      | none => rfl
      | some found =>
        simp only [System.register, hn]
        apply ih
        · exact hd
        · rfl

lemma toOption_openPath (hsplit : splitPath a.file = (file, segments)) :
    (openPath a (.start d)).1.toOption = named d file segments := by
  obtain ⟨hresult, hdisk, hopenings⟩ := System.openJar_start d (!a.noCache) file
  rw [named, openPath, hsplit]
  simp only
  generalize (System.start d).openJar (!a.noCache) file = opened at hresult hdisk hopenings ⊢
  obtain ⟨result, s⟩ := opened
  obtain rfl := hresult
  cases hj : freshJar d file with
  | error failure => rfl
  | ok j => exact toOption_descend hdisk.symm (hopenings j hj).symm _ _

end Open

section Perform

variable {a : Arguments} (file : String) (noCache : Bool)

end Perform

section Execute

variable {a b : Arguments} {d : Disk}

end Execute

lemma toOption_eq_some_iff {ε α : Type} {x : Except ε α} {y : α} :
    x.toOption = some y ↔ x = .ok y := by
  cases x <;> simp [Except.toOption]

def listed : Arguments :=
  { file := pathForm "/a b.jar" ["", " ", "!", ""]
    files := []
    list := true
    verbose := false
    pipe := false
    manifest := false
    directory? := none
    exclude := []
    neverOverwrite := false
    overwrite := false
    junkPaths := false
    quiet := 0
    noCache := false }

end Command
end JarReader
