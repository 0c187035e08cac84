import JarReader.Proofs.Command.Containment
import JarReader.Proofs.Command.Filling
import JarReader.Proofs.Command.Sources

/-! What extracting stored entries with clean names does, entry by entry: each is left out or goes to its target
with the content that it had before the first, as the file in which the jar lies stays as it is. -/

namespace JarReader

section Bytes

variable {d d' : Disk}

lemma View.bytes_of_bytes {v : View} (h : v.source.bytes d = v.source.bytes d') :
    v.bytes d = v.bytes d' := by
  simp only [View.bytes, View.read, h]

lemma Jar.entryData_of_bytes {j : Jar} (h : j.archive.source.bytes d = j.archive.source.bytes d')
    (e : Entry) : j.entryData d e = j.entryData d' e := by
  simp only [entryData, View.readExact_of_bytes h]

lemma Jar.entryContent_of_bytes {j : Jar} {e : Entry} {v : View}
    (h : j.archive.source.bytes d = j.archive.source.bytes d') (hstored : e.method = .stored)
    (hdata : j.entryData d e = .ok v) : j.entryContent d' e = .ok (v.bytes d) := by
  have hv : v.source.bytes d = v.source.bytes d' := by
    rw [source_of_entryData hdata]
    exact h
  rw [entryContent_stored hstored, ← entryData_of_bytes h, hdata, View.bytes_of_bytes hv]
  rfl

end Bytes

namespace Command

open Relation (ReflTransGen)

namespace Extraction

lemma clean_writtenName {name : String} (a : Arguments) (h : Path.Clean name) :
    Path.Clean (writtenName a name) := by
  rw [writtenName]
  split
  · obtain ⟨last, hlast, hclean⟩ := h.exists_fileName?
    rw [baseName, hlast]
    exact hclean
  · exact h

lemma extractEntry_eq_none {a : Arguments} {j : Jar} {showName : Bool} {e : Entry} {p : Progress}
    (hpipe : a.pipe = false) (hstored : e.method = .stored)
    (h : (extractEntry a j showName e p).2 = none) :
    (skipReason? a ≠ none ∧ p.disk.pathExists (outputPath a e.name) = true ∧
        (extractEntry a j showName e p).1.disk = p.disk) ∨
      (skipReason? a ≠ none → p.disk.pathExists (outputPath a e.name) = false) ∧
        ∃ data d₁ d₂ id, j.entryData p.disk e = .ok data ∧
          ReflTransGen (Disk.Makes (Path.above (outputPath a e.name))) p.disk d₁ ∧
          d₁.create (outputPath a e.name) = .ok (id, d₂) ∧
          (extractEntry a j showName e p).1.disk = d₂.append id (data.bytes d₂) := by
  rw [extractEntry, Jar.openEntry] at h ⊢
  cases hdata : j.entryData p.disk e with
  | error failure =>
    rw [hdata] at h
    cases h
  | ok data =>
    simp only [hdata, hstored, bind, Except.bind, pure, Except.pure, hpipe, Bool.false_eq_true,
      if_false] at h ⊢
    cases hreason : (if p.disk.pathExists (outputPath a e.name) = true then skipReason? a else none) with
    | some reason =>
      left
      have hexists : p.disk.pathExists (outputPath a e.name) = true := by
        by_contra hmissing
        rw [if_neg hmissing] at hreason
        cases hreason
      rw [if_pos hexists] at hreason
      refine ⟨by rw [hreason]; exact Option.some_ne_none reason, hexists, ?_⟩
      simp only
      split <;> rfl
    | none =>
      right
      rw [hreason] at h
      simp only at h ⊢
      obtain ⟨d₁, d₂, id, hmakes, hcreate, hdisk⟩ := writeOut_eq_none h
      have hstart : (if a.isQuiet = true then p else p.say s!"  extracting: {e.name}\n").disk = p.disk := by
        split <;> rfl
      rw [hstart] at hmakes
      refine ⟨fun hskip => ?_, data, d₁, d₂, id, rfl, hmakes, hcreate, hdisk⟩
      refine Bool.eq_false_iff.mpr fun hexists => ?_
      rw [if_pos hexists] at hreason
      exact hskip hreason

def target (a : Arguments) (base : Location) (e : Entry) : Location :=
  base ++ Path.pieces (writtenName a e.name)

def Extracts (a : Arguments) (j : Jar) (base : Location) (before : Disk) :
    List Entry → Disk → Disk → Prop :=
  Fills (skipReason? a ≠ none) (target a base) fun e bytes => j.entryContent before e = .ok bytes

end Extraction

/-- A disk that is reached from `d` by writing below `directory`, but not to the file `jar`. -/
structure Reached (d : Disk) (directory : String) (base : Location) (jar : FileId) (d₁ : Disk) : Prop where
  hosts : d₁.Hosts directory base
  names : Disk.NamesKept d d₁
  grown : Disk.Grown (fun _ => True) (fun id => id ≠ jar) d d₁

section Step

variable {d : Disk} {directory : String} {base : Location} {jar : FileId}

lemma Reached.content {d₁ : Disk} (h : Reached d directory base jar d₁) :
    d₁.content jar = d.content jar :=
  Disk.content_eq_of_file? ((h.grown.files jar).resolve_right (not_not.mpr rfl))

variable (hosts : d.Hosts directory base) (hjar : jar.index < d.files.size)
include hosts hjar

lemma Reached.placed {name : String} {paths : List String} {id : FileId} {d₁ d₂ d₃ : Disk}
    (h : Reached d directory base jar d₁) (hname : Path.Clean name)
    (hapart : d.openFile (Path.join directory name) ≠ .ok jar)
    (hmakes : ReflTransGen (Disk.Makes paths) d₁ d₂)
    (hcreate : d₂.create (Path.join directory name) = .ok (id, d₃)) (bytes : ByteArray)
    (hone : Disk.Fits directory name → ∀ id, d₁.node? (base ++ Path.pieces name) = some (.file id) →
      d₁.OneName id) :
    Disk.Fits directory name ∧
      Disk.Placed (base ++ Path.pieces name) bytes d₁ (d₃.append id bytes) ∧
      Reached d directory base jar (d₃.append id bytes) ∧ d₃.content jar = d.content jar := by
  obtain ⟨hfits, hold, hplaced, hosts', hgrown, hnames⟩ :=
    h.hosts.placed hname hmakes hcreate bytes hone
  -- a file that is there and is not new was there from the start
  have hne : id ≠ jar := by
    rintro rfl
    have hid := h.grown.file_of_node? (hold (Nat.lt_of_lt_of_le hjar h.grown.size))
    have hfind := hosts.find_of_fits hname hfits (hid.resolve_right (not_not.mpr rfl))
    apply hapart
    exact Disk.openFile_iff_find.mpr ⟨_, hfind⟩
  have hreached : Reached d directory base jar (d₃.append id bytes) := by
    refine ⟨hosts', h.names.trans hnames, h.grown.trans (hgrown.mono ?_)⟩
    rintro _ rfl
    exact hne
  refine ⟨hfits, hplaced, hreached, ?_⟩
  rw [← hreached.content]
  exact (Disk.content_eq_of_file? (Disk.file?_modify (Ne.symm hne))).symm

open Extraction

variable {a : Arguments} {j : Jar} (showName : Bool) {root : String}
  (hdirectory : a.directory? = some directory) (hpipe : a.pipe = false)
  (hsource : j.archive.source = .file jar root)
include hdirectory hpipe hsource

lemma Reached.extractEntry {e : Entry} {p : Progress} (h : Reached d directory base jar p.disk)
    (hstored : e.method = .stored) (hname : Path.Clean e.name)
    (hapart : d.openFile (outputPath a e.name) ≠ .ok jar)
    (hone : skipReason? a = none → ∀ id, d.openFile (outputPath a e.name) = .ok id → d.OneName id)
    (hdone : (extractEntry a j showName e p).2 = none) :
    Disk.Fits directory (writtenName a e.name) ∧
      Reached d directory base jar (extractEntry a j showName e p).1.disk ∧
      ∀ es d', Extracts a j base d es (extractEntry a j showName e p).1.disk d' →
        Extracts a j base d (e :: es) p.disk d' := by
  have hwritten := clean_writtenName a hname
  have hcases := extractEntry_eq_none hpipe hstored hdone
  rw [outputPath_eq hdirectory] at hapart hone hcases
  rcases hcases with ⟨hkeep, hexists, hdisk⟩ |
    ⟨hfree, data, d₁, d₂, id, hdata, hmakes, hcreate, hdisk⟩
  · obtain ⟨location, node, hfind⟩ := Disk.pathExists_iff.mp hexists
    obtain ⟨hfits, hlocation, hnode⟩ := h.hosts.fits_of_find hwritten hfind
    rw [hlocation] at hnode
    rw [hdisk]
    exact ⟨hfits, h, fun es d' hrest => .skip hkeep hnode hrest⟩
  · have hvacant (hfits : Disk.Fits directory (writtenName a e.name)) (hkeep : skipReason? a ≠ none) :
        p.disk.node? (target a base e) = none := by
      cases hnode : p.disk.node? (target a base e) with
      | none => rfl
      | some node =>
        have hfind := h.hosts.find_of_fits hwritten hfits hnode
        cases (hfree hkeep).symm.trans (Disk.pathExists_iff.mpr ⟨_, _, hfind⟩)
    have hsingle (hfits : Disk.Fits directory (writtenName a e.name)) (id : FileId)
        (hid : p.disk.node? (target a base e) = some (.file id)) : p.disk.OneName id := by
      by_cases hkeep : skipReason? a = none
      · refine h.names.oneName (fun hold => hone hkeep id ?_) hid
        exact Disk.openFile_iff_find.mpr ⟨_, hosts.find_of_fits hwritten hfits hold⟩
      · cases hid.symm.trans (hvacant hfits hkeep)
    obtain ⟨hfits, hplaced, hreached, hcontent⟩ :=
      h.placed hosts hjar hwritten hapart hmakes hcreate (data.bytes d₂) hsingle
    rw [← hdisk] at hplaced hreached
    refine ⟨hfits, hreached, fun es d' hrest => .put (hvacant hfits) ?_ hplaced hrest⟩
    have hbytes : j.archive.source.bytes p.disk = j.archive.source.bytes d := by
      rw [hsource]
      exact h.content
    have hsame : data.bytes p.disk = data.bytes d₂ := by
      apply View.bytes_of_bytes
      rw [Jar.source_of_entryData hdata, hsource]
      exact h.content.trans hcontent.symm
    rw [← hsame]
    exact Jar.entryContent_of_bytes hbytes hstored hdata

lemma extracts_extractAll {entries : List Entry} {p : Progress} (h : Reached d directory base jar p.disk)
    (hentries : ∀ e ∈ entries, e.method = .stored ∧ Path.Clean e.name ∧
      d.openFile (outputPath a e.name) ≠ .ok jar)
    (hone : skipReason? a = none → ∀ e ∈ entries, ∀ id,
      d.openFile (outputPath a e.name) = .ok id → d.OneName id)
    (hdone : (extractAll a j showName entries p).2 = none) :
    Extracts a j base d entries p.disk (extractAll a j showName entries p).1.disk ∧
      (extractAll a j showName entries p).1.disk.Hosts directory base ∧
      ∀ e ∈ entries, Disk.Fits directory (writtenName a e.name) := by
  induction entries generalizing p with
  | nil => exact ⟨.nil, h.hosts, List.forall_mem_nil _⟩
  | cons e entries ih =>
    obtain ⟨hstored, hname, hapart⟩ := hentries e List.mem_cons_self
    have hstep := h.extractEntry hosts hjar showName hdirectory hpipe hsource hstored hname hapart
      fun hkeep => hone hkeep e List.mem_cons_self
    rw [extractAll] at hdone ⊢
    generalize extractEntry a j showName e p = after at hstep hdone ⊢
    obtain ⟨q, report?⟩ := after
    cases report? with
    | some report => cases hdone
    | none =>
      obtain ⟨hfits, hreached, hcons⟩ := hstep rfl
      obtain ⟨hrest, hosts', hothers⟩ :=
        ih hreached (fun x hx => hentries x (List.mem_cons_of_mem e hx))
          (fun hkeep x hx => hone hkeep x (List.mem_cons_of_mem e hx)) hdone
      exact ⟨hcons _ _ hrest, hosts', List.forall_mem_cons.mpr ⟨hfits, hothers⟩⟩

end Step

end Command

end JarReader
