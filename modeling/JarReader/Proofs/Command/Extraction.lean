import JarReader.Command.Paths
import JarReader.Proofs.Disk.Ancestors
import JarReader.Proofs.Disk.Growth

namespace JarReader.Command

open Relation (ReflTransGen)

/-- A write to `path`, which makes directories above it and may then fail, or makes the file. -/
inductive Writes (path : String) (d : Disk) : Disk → Prop
  | directories {d₁ : Disk} : ReflTransGen (Disk.Makes (Path.above path)) d d₁ → Writes path d d₁
  | file {d₁ d₂ : Disk} {id : FileId} (bytes : ByteArray) :
      ReflTransGen (Disk.Makes (Path.above path)) d d₁ → d₁.create path = .ok (id, d₂) →
      Writes path d (d₂.append id bytes)

def Puts (a : Arguments) (paths : List String) (d d' : Disk) : Prop :=
  ∃ path ∈ paths, (d.pathExists path = true → Extraction.skipReason? a = none) ∧ Writes path d d'

namespace Extraction

lemma writeOut_eq (path : String) (reader : ContentReader) (p : Progress) :
    writeOut path reader p =
      match p.disk.makeFirst (Path.above path) with
      | (.error fault, d) => ({ p with disk := d }, some (.ofIo (.system fault)))
      | (.ok (), d) =>
        match d.create path with
        | .error fault =>
          ({ p with disk := d },
            some ((Report.ofIo (.system fault)).within s!"cannot create {path}"))
        | .ok (id, d) =>
          ({ p with disk := d.append id (reader.drain d).1.1 }, (reader.drain d).1.2.map .ofIo) := by
  rw [writeOut, Path.above]
  cases Path.parent? path with
  | none => rfl
  | some parent =>
    simp only [Disk.makeDirectories]
    generalize p.disk.makeFirst (Path.ancestors parent) = made
    obtain ⟨result, d⟩ := made
    cases result <;> rfl

lemma writes_writeOut (path : String) (reader : ContentReader) (p : Progress) :
    Writes path p.disk (writeOut path reader p).1.disk := by
  have hreach := p.disk.makes_makeFirst (Path.above path)
  rw [writeOut_eq]
  generalize p.disk.makeFirst (Path.above path) = made at hreach
  obtain ⟨result, d⟩ := made
  cases result with
  | error fault => exact .directories hreach
  | ok _ =>
    simp only
    cases hcreate : d.create path with
    | error fault => exact .directories hreach
    | ok created => exact .file _ hreach hcreate

lemma writeOut_eq_none {path : String} {reader : ContentReader} {p : Progress}
    (h : (writeOut path reader p).2 = none) :
    ∃ d₁ d₂ id, ReflTransGen (Disk.Makes (Path.above path)) p.disk d₁ ∧
      d₁.create path = .ok (id, d₂) ∧
      (writeOut path reader p).1.disk = d₂.append id (reader.drain d₂).1.1 := by
  have hreach := p.disk.makes_makeFirst (Path.above path)
  rw [writeOut_eq] at h ⊢
  generalize p.disk.makeFirst (Path.above path) = made at hreach h ⊢
  obtain ⟨result, d₁⟩ := made
  cases result with
  | error fault => cases h
  | ok _ =>
    simp only at h ⊢
    cases hcreate : d₁.create path with
    | error fault =>
      rw [hcreate] at h
      cases h
    | ok created => exact ⟨d₁, created.2, created.1, hreach, hcreate, rfl⟩

lemma puts_extractEntry {a : Arguments} (hpipe : a.pipe = false) (j : Jar) (showName : Bool) {e : Entry}
    {paths : List String} (hpath : outputPath a e.name ∈ paths) (p : Progress) :
    ReflTransGen (Puts a paths) p.disk (extractEntry a j showName e p).1.disk := by
  rw [extractEntry]
  split
  · exact .refl
  rw [hpipe, if_neg Bool.false_ne_true]
  simp only
  split
  · split <;> exact .refl
  · rename_i reader _ _ hreason
    refine .single ⟨_, hpath, fun hexists => by rwa [if_pos hexists] at hreason, ?_⟩
    have hwrites (q : Progress) (hq : q.disk = p.disk) :
        Writes (outputPath a e.name) p.disk (writeOut (outputPath a e.name) reader q).1.disk :=
      hq ▸ writes_writeOut _ reader q
    split
    · exact hwrites _ rfl
    · exact hwrites _ rfl

lemma puts_extractAll {a : Arguments} (hpipe : a.pipe = false) (j : Jar) (showName : Bool)
    {paths : List String} {entries : List Entry}
    (hpaths : ∀ e ∈ entries, outputPath a e.name ∈ paths) (p : Progress) :
    ReflTransGen (Puts a paths) p.disk (extractAll a j showName entries p).1.disk := by
  induction entries generalizing p with
  | nil => exact .refl
  | cons e entries ih =>
    have hfirst := puts_extractEntry hpipe j showName (hpaths e List.mem_cons_self) p
    rw [extractAll]
    split
    · rename_i q hq
      rw [hq] at hfirst
      exact hfirst.trans (ih (fun e he => hpaths e (List.mem_cons_of_mem _ he)) q)
    · rename_i q _ hq
      rwa [hq] at hfirst

lemma disk_warnUnmatched (a : Arguments) (entries : List Entry) (p : Progress) :
    (warnUnmatched a entries p).disk = p.disk := by
  rw [warnUnmatched]
  split
  · rfl
  · induction a.files.filter fun file => !isMatched entries file generalizing p with
    | nil => rfl
    | cons file files ih => exact ih _

lemma disk_extractAll_of_pipe {a : Arguments} (hpipe : a.pipe = true) (j : Jar) (showName : Bool)
    (entries : List Entry) (p : Progress) : (extractAll a j showName entries p).1.disk = p.disk := by
  have hentry (e : Entry) (p : Progress) : (extractEntry a j showName e p).1.disk = p.disk := by
    rw [extractEntry]
    split
    · rfl
    · rw [hpipe, if_pos rfl, pipe]
      simp only
      split <;> rfl
  induction entries generalizing p with
  | nil => rfl
  | cons e entries ih =>
    have hfirst := hentry e p
    rw [extractAll]
    split
    · rename_i q hq
      rw [hq] at hfirst
      exact (ih q).trans hfirst
    · rename_i q _ hq
      rwa [hq] at hfirst

end Extraction

variable {words : List String} {a : Arguments} {d : Disk}

lemma mem_outputPaths {path : String} :
    path ∈ outputPaths a d ↔
      (a.manifest || a.verbose || a.list || a.pipe) = false ∧
        ∃ j, (openJar a (.start d)).1 = .ok j ∧
          ∃ e ∈ Extraction.selected a j, Extraction.outputPath a e.name = path := by
  rw [outputPaths]
  cases (a.manifest || a.verbose || a.list || a.pipe) with
  | true => simp
  | false =>
    rw [if_neg Bool.false_ne_true]
    rcases openJar a (.start d) with ⟨_ | j, s⟩
    · simp
    · simp

lemma perform_eq_run (hmode : (a.manifest || a.verbose || a.list) = false) (j : Jar) (p : Progress) :
    perform a j p = Extraction.run a j p := by
  simp only [Bool.or_eq_false_iff] at hmode
  obtain ⟨⟨hmanifest, hverbose⟩, hlist⟩ := hmode
  simp only [perform, hmanifest, hverbose, hlist, Bool.false_eq_true, if_false]

lemma puts_perform {j : Jar} (hj : (openJar a (.start d)).1 = .ok j) (p : Progress) :
    ReflTransGen (Puts a (outputPaths a d)) p.disk (perform a j p).1.disk := by
  have hpaths (hmode : (a.manifest || a.verbose || a.list || a.pipe) = false) :
      ∀ e ∈ Extraction.selected a j, Extraction.outputPath a e.name ∈ outputPaths a d :=
    fun e he => mem_outputPaths.mpr ⟨hmode, j, hj, e, he, rfl⟩
  rw [perform]
  by_cases hmanifest : a.manifest = true
  · rw [if_pos hmanifest, showManifest]
    split <;> exact .refl
  rw [if_neg hmanifest]
  by_cases hverbose : a.verbose = true
  · rw [if_pos hverbose]
    exact .refl
  rw [if_neg hverbose]
  by_cases hlist : a.list = true
  · rw [if_pos hlist]
    exact .refl
  rw [if_neg hlist, Extraction.run]
  rw [← Extraction.disk_warnUnmatched a (Extraction.selected a j) p]
  by_cases hpipe : a.pipe = true
  · rw [Extraction.disk_extractAll_of_pipe hpipe]
  · exact Extraction.puts_extractAll (by simpa using hpipe) j _
      (hpaths (by simp [hmanifest, hverbose, hlist, hpipe])) _

lemma puts_run (h : Request.ofWords words = .run a) :
    ReflTransGen (Puts a (outputPaths a d)) d (run words d).disk := by
  have hexecute : ReflTransGen (Puts a (outputPaths a d)) d (execute a d).disk := by
    have hperform (j : Jar) (hj : (openJar a (.start d)).1 = .ok j) := puts_perform hj ⟨d, .empty, ""⟩
    rw [execute]
    generalize openJar a (.start d) = opened at hperform
    rcases opened with ⟨_ | j, s⟩
    · exact .refl
    · have hreach := hperform j rfl
      simp only
      split <;> exact hreach
  rw [run, h]
  exact hexecute

end JarReader.Command
