import JarReader.Proofs.System.Transparency

/-! Histories in which no file changes. Whatever is seen of a file is what it holds in the end, so all that
is held of files is what would be read of them. -/

namespace JarReader

def Act.changes : Act → Bool
  | change _ => true
  | openJar .. | connect .. | closeRoots _ | clearCache => false

def Process.Still (d : Disk) (p : Process) : Prop :=
  ∃ (useCache : Nat → Bool) (acts : List Act), (∀ act ∈ acts, act.changes = false) ∧
    p = (start d useCache).run acts

lemma Disk.exists_content_of_sighting? {d : Disk} {path : String} {x : FileIdentity × ByteArray}
    (h : d.sighting? path = some x) : ∃ id, x.1.file? = some id ∧ x.2 = d.content id := by
  rw [Disk.sighting?] at h
  split at h
  · obtain ⟨id, hid, rfl⟩ := Option.map_eq_some_iff.mp h
    exact ⟨id, hid, rfl⟩
  · cases h

lemma honest_of_sightings {d : Disk} {seen : List (FileIdentity × ByteArray)}
    (h : ∀ x ∈ seen, ∃ path, d.sighting? path = some x) : Honest seen := by
  intro x hx y hy he
  obtain ⟨_, hpath⟩ := h x hx
  obtain ⟨_, hpath'⟩ := h y hy
  obtain ⟨id, hid, hcontent⟩ := Disk.exists_content_of_sighting? hpath
  obtain ⟨id', hid', hcontent'⟩ := Disk.exists_content_of_sighting? hpath'
  rw [he, hid'] at hid
  cases hid
  rw [hcontent, hcontent']

lemma System.disk_openJar (s : System) (useCache : Bool) (path : String) :
    (s.openJar useCache path).2.disk = s.disk := by
  cases hv : View.openFile s.disk path with
  | error failure => simp only [openJar, hv]
  | ok v =>
    obtain ⟨c, hc⟩ := s.metadataOf_snd useCache path v
    obtain ⟨n, hn⟩ := openJar_of_metadataOf hv (Prod.ext rfl hc)
    rw [hn]

lemma Handler.root_system (h : Handler) (s : System) (path : String) :
    (h.root s path).2.2 = s ∨ (h.root s path).2.2 = (s.openJar h.useCache path).2 := by
  simp only [root]
  cases FileIdentity.ofPath s.disk path with
  | error failure => exact .inl rfl
  | ok identity =>
    simp only
    cases h.roots.lookup identity with
    | some jar => exact .inl rfl
    | none =>
      refine .inr ?_
      generalize s.openJar h.useCache path = opened
      obtain ⟨result, s'⟩ := opened
      cases result <;> rfl

lemma Handler.disk_root (h : Handler) (s : System) (path : String) :
    (h.root s path).2.2.disk = s.disk := by
  rcases h.root_system s path with hr | hr
  · rw [hr]
  · rw [hr]
    exact s.disk_openJar h.useCache path

lemma Handler.connect_system (h : Handler) (s : System) (url : String) :
    (h.connect s url).2.2 = s ∨ ∃ parts n, JarUrl.parse url = .ok parts ∧
      (h.connect s url).2.2 = { (h.root s parts.file).2.2 with openings := n } := by
  simp only [connect]
  cases hparts : JarUrl.parse url with
  | error failure => exact .inl rfl
  | ok parts =>
    refine .inr ⟨parts, ?_⟩
    simp only
    generalize h.root s parts.file = found
    obtain ⟨result, h', s'⟩ := found
    cases result with
    | error failure => exact ⟨s'.openings, trivial, rfl⟩
    | ok jar =>
      obtain ⟨n, hn⟩ := descend_snd s' jar parts.nested
      simp only
      generalize descend s' jar parts.nested = inner at hn ⊢
      obtain ⟨result, s''⟩ := inner
      cases hn
      cases result <;> exact ⟨n, trivial, rfl⟩

lemma Handler.disk_connect (h : Handler) (s : System) (url : String) :
    (h.connect s url).2.2.disk = s.disk := by
  rcases h.connect_system s url with hc | ⟨parts, n, _, hc⟩
  · rw [hc]
  · rw [hc]
    exact h.disk_root s parts.file

namespace Process

variable {p : Process}

lemma disk_step {act : Act} (h : act.changes = false) : (p.step act).system.disk = p.system.disk := by
  cases act with
  | change change => cases h
  | openJar useCache path => exact p.system.disk_openJar useCache path
  | connect i url => exact (p.handlers i).disk_connect p.system url
  | closeRoots i => rfl
  | clearCache => rfl

lemma run_of_still {acts : List Act} (h : ∀ act ∈ acts, act.changes = false) :
    (p.run acts).system.disk = p.system.disk ∧
      ∀ x ∈ p.sightings acts, ∃ path, p.system.disk.sighting? path = some x := by
  induction acts generalizing p with
  | nil => exact ⟨rfl, fun x hx => nomatch hx⟩
  | cons act acts ih =>
    have hstep := disk_step (p := p) (h act List.mem_cons_self)
    obtain ⟨hdisk, hseen⟩ := ih (p := p.step act) fun a ha => h a (List.mem_cons_of_mem act ha)
    rw [hstep] at hdisk hseen
    refine ⟨hdisk, fun x hx => ?_⟩
    rw [sightings, List.mem_append, Option.mem_toList] at hx
    rcases hx with hx | hx
    · obtain ⟨path, _, hpath⟩ := Option.bind_eq_some_iff.mp hx
      exact ⟨path, hpath⟩
    · exact hseen x hx

lemma Still.sound {d : Disk} (h : p.Still d) (path : String) :
    ∃ seen, Honest seen ∧ Sound seen p ∧ p.system.disk = d ∧
      ∀ x, d.sighting? path = some x → x ∈ seen := by
  obtain ⟨useCache, acts, hacts, rfl⟩ := h
  obtain ⟨hdisk, hseen⟩ := run_of_still (p := start d useCache) hacts
  have honest : Honest ((start d useCache).sightings acts ++ (d.sighting? path).toList) := by
    refine honest_of_sightings (d := d) fun x hx => ?_
    rcases List.mem_append.mp hx with hx | hx
    · exact hseen x hx
    · exact ⟨path, Option.mem_toList.mp hx⟩
  refine ⟨_, honest, ?_, hdisk, fun x hx => List.mem_append_right _ (Option.mem_toList.mpr hx)⟩
  exact (Sound.start d useCache).run honest fun x hx => List.mem_append_left _ hx

lemma Still.openJar {d : Disk} (hp : p.Still d) (useCache : Bool) (path : String) :
    p.system.disk = d ∧ (p.system.openJar useCache path).1 =
      (JarReader.freshJar d path).map (·.numbered p.system.openings) := by
  obtain ⟨seen, honest, ⟨hparsed, _⟩, hdisk, hseen⟩ := hp.sound path
  obtain ⟨hfresh, _⟩ := hparsed.openJar honest (hdisk ▸ hseen) useCache
  rw [hdisk] at hfresh
  exact ⟨hdisk, hfresh⟩

end Process
end JarReader
