import JarReader.Proofs.System.Transparency

namespace JarReader

namespace Handler

def Single (h : Handler) : Prop := (h.roots.map fun root => root.1.location).Nodup

/-- The connection to `url` gets past its root: the file can be found, and its jar is held or can be
opened. -/
def Reaches (h : Handler) (s : System) (url : String) (identity : FileIdentity) : Prop :=
  ∃ parts, JarUrl.parse url = .ok parts ∧ FileIdentity.ofPath s.disk parts.file = .ok identity ∧
    ((∃ jar, (identity, jar) ∈ h.roots) ∨ ∃ jar, (s.openJar h.useCache parts.file).1 = .ok jar)

structure Renews (h h' : Handler) (identity : FileIdentity) : Prop where
  held : ∃ jar, (identity, jar) ∈ h'.roots
  alone : ∀ root ∈ h'.roots, root.1.location = identity.location → root.1 = identity
  elsewhere : h'.roots.filter (fun root => root.1.location ≠ identity.location) =
    h.roots.filter fun root => root.1.location ≠ identity.location

inductive RootStep (h : Handler) (s : System) (url : String) : Handler → Prop
  | short : (∀ identity, ¬ h.Reaches s url identity) → RootStep h s url h
  | held {identity : FileIdentity} {jar : Jar} : h.Reaches s url identity →
      (identity, jar) ∈ h.roots → RootStep h s url h
  | opened {identity : FileIdentity} {jar : Jar} : h.Reaches s url identity →
      RootStep h s url (h.hold identity jar)

variable {h h' : Handler} {s : System} {url : String} {identity : FileIdentity}

lemma Reaches.unique {other : FileIdentity} (hi : h.Reaches s url identity)
    (ho : h.Reaches s url other) : other = identity := by
  obtain ⟨parts, hparts, hidentity, _⟩ := hi
  obtain ⟨parts', hparts', hother, _⟩ := ho
  obtain rfl : parts = parts' := Except.ok.inj (hparts.symm.trans hparts')
  exact Except.ok.inj (hother.symm.trans hidentity)

lemma connect_eq_root {parts : JarUrl} (hparts : JarUrl.parse url = .ok parts) :
    (h.connect s url).2.1 = (h.root s parts.file).2.1 := by
  simp only [connect, hparts]
  generalize h.root s parts.file = found
  obtain ⟨result, h', s'⟩ := found
  cases result with
  | error failure => rfl
  | ok jar =>
    simp only
    generalize descend s' jar parts.nested = inner
    obtain ⟨result, s''⟩ := inner
    cases result <;> rfl

lemma rootStep_connect (h : Handler) (s : System) (url : String) : h.RootStep s url (h.connect s url).2.1 := by
  cases hparts : JarUrl.parse url with
  | error failure =>
    simp only [connect, hparts]
    refine .short ?_
    rintro identity ⟨parts, hok, _⟩
    rw [hparts] at hok
    cases hok
  | ok parts =>
    rw [connect_eq_root hparts, root]
    cases hidentity : FileIdentity.ofPath s.disk parts.file with
    | error failure =>
      refine .short ?_
      rintro identity ⟨parts', hok, hfound, _⟩
      obtain rfl : parts = parts' := Except.ok.inj (hparts.symm.trans hok)
      rw [hidentity] at hfound
      cases hfound
    | ok identity =>
      simp only
      cases hheld : h.roots.lookup identity with
      | some jar =>
        obtain ⟨before, after, hroots, _⟩ := List.lookup_eq_some_iff.mp hheld
        have hmem : (identity, jar) ∈ h.roots := hroots ▸ List.mem_append_right _ List.mem_cons_self
        exact .held ⟨parts, hparts, hidentity, .inl ⟨jar, hmem⟩⟩ hmem
      | none =>
        cases hopen : s.openJar h.useCache parts.file with
        | mk result s' =>
          cases result with
          | error failure =>
            refine .short ?_
            rintro other ⟨parts', hok, hfound, hjar⟩
            obtain rfl : parts = parts' := Except.ok.inj (hparts.symm.trans hok)
            obtain rfl : identity = other := Except.ok.inj (hidentity.symm.trans hfound)
            rcases hjar with ⟨jar, hmem⟩ | ⟨jar, hjar⟩
            · have hnone := List.lookup_eq_none_iff.mp hheld _ hmem
              simp at hnone
            · rw [hopen] at hjar
              cases hjar
          | ok jar => exact .opened ⟨parts, hparts, hidentity, .inr ⟨jar, by rw [hopen]⟩⟩

lemma Single.hold (hs : h.Single) (identity : FileIdentity) (jar : Jar) :
    (h.hold identity jar).Single := by
  refine List.nodup_cons.mpr ⟨?_, hs.sublist (List.filter_sublist.map _)⟩
  intro hmem
  obtain ⟨root, hroot, hlocation⟩ := List.mem_map.mp hmem
  have hother := (List.mem_filter.mp hroot).2
  exact (decide_eq_true_eq.mp hother) hlocation

lemma Single.step (hs : h.Single) (hstep : h.RootStep s url h') : h'.Single := by
  cases hstep with
  | short _ => exact hs
  | held _ _ => exact hs
  | opened _ => exact hs.hold _ _

lemma Single.eq_of_location {root other : FileIdentity × Jar} (hs : h.Single) (hr : root ∈ h.roots)
    (ho : other ∈ h.roots) (hl : root.1.location = other.1.location) : root = other :=
  List.inj_on_of_nodup_map hs hr ho hl

lemma renews_hold (h : Handler) (identity : FileIdentity) (jar : Jar) :
    h.Renews (h.hold identity jar) identity where
  held := ⟨jar, List.mem_cons_self⟩
  alone _ hroot hl := by
    rcases List.mem_cons.mp hroot with rfl | hroot
    · rfl
    · exact absurd hl (decide_eq_true_eq.mp (List.mem_filter.mp hroot).2)
  elsewhere := by
    rw [hold, List.filter_cons_of_neg (by simp), List.filter_filter]
    simp only [Bool.and_self]

lemma Single.renews_self {jar : Jar} (hs : h.Single) (hmem : (identity, jar) ∈ h.roots) :
    h.Renews h identity where
  held := ⟨jar, hmem⟩
  alone _ hroot hl := congrArg Prod.fst (hs.eq_of_location hroot hmem hl)
  elsewhere := rfl

lemma RootStep.renews (hstep : h.RootStep s url h') (hs : h.Single) (hr : h.Reaches s url identity) :
    h.Renews h' identity := by
  cases hstep with
  | short hnone => exact absurd hr (hnone identity)
  | held hreach hmem =>
    rw [← hreach.unique hr] at hmem
    exact hs.renews_self hmem
  | opened hreach =>
    rw [← hreach.unique hr]
    exact renews_hold h _ _

lemma RootStep.roots_of_short (hstep : h.RootStep s url h') (hnone : ∀ identity, ¬ h.Reaches s url identity) :
    h'.roots = h.roots := by
  cases hstep with
  | short _ => rfl
  | held hreach _ => exact absurd hreach (hnone _)
  | opened hreach => exact absurd hreach (hnone _)

end Handler

namespace Process

lemma single_step {p : Process} (hp : ∀ i, (p.handlers i).Single) (act : Act) (i : Nat) :
    ((p.step act).handlers i).Single := by
  have hupdate {h : Handler} (hh : h.Single) (k : Nat) :
      (Function.update p.handlers k h i).Single := by
    by_cases hk : i = k
    · rw [hk, Function.update_self]
      exact hh
    · rw [Function.update_of_ne hk]
      exact hp i
  cases act with
  | change change => exact hp i
  | openJar useCache path => exact hp i
  | connect k url => exact hupdate ((hp k).step (Handler.rootStep_connect _ _ url)) k
  | closeRoots k => exact hupdate (show (p.handlers k).clear.Single from List.nodup_nil) k
  | clearCache => exact hp i

lemma single_run {p : Process} (hp : ∀ i, (p.handlers i).Single) (acts : List Act) (i : Nat) :
    ((p.run acts).handlers i).Single := by
  induction acts generalizing p with
  | nil => exact hp i
  | cons act acts ih => exact ih (single_step hp act)

def Reached (p : Process) : Prop := ∃ d useCache acts, p = (start d useCache).run acts

/-- Whatever has happened, a handler holds one root at most for each place. A connection that gets past its
root leaves there the file as it is now, and all other roots as they were; any other connection leaves all
roots as they were. -/
theorem connect_renews {p : Process} (hp : p.Reached) (i : Nat) :
    (p.handlers i).Single ∧ ∀ url,
      (∀ identity, (p.handlers i).Reaches p.system url identity →
        (p.handlers i).Renews ((p.handlers i).connect p.system url).2.1 identity) ∧
      ((∀ identity, ¬ (p.handlers i).Reaches p.system url identity) →
        ((p.handlers i).connect p.system url).2.1.roots = (p.handlers i).roots) := by
  obtain ⟨d, useCache, acts, rfl⟩ := hp
  have hstart : ∀ i, ((start d useCache).handlers i).Single := fun _ => List.nodup_nil
  have hsingle := single_run hstart acts i
  refine ⟨hsingle, fun url => ?_⟩
  have hstep := Handler.rootStep_connect
    (((start d useCache).run acts).handlers i) ((start d useCache).run acts).system url
  exact ⟨fun _ hr => hstep.renews hsingle hr, hstep.roots_of_short⟩

def replaced : Process := (start (.empty []) fun _ => true).run replacement

theorem connect_renews_replaced :
    ∃ identity : FileIdentity, identity.location = ["a.jar"] ∧ replaced.Reached ∧
      (replaced.handlers 0).roots.map (·.1.location) = [["b.jar"], ["a.jar"]] ∧
      (∀ jar, (identity, jar) ∉ (replaced.handlers 0).roots) ∧
      ((replaced.handlers 0).connect replaced.system "jar:file:/l.jar!/x").1.toOption.isNone = true ∧
      (replaced.handlers 0).Reaches replaced.system "jar:file:/l.jar!/x" identity ∧
      (replaced.handlers 0).Renews
        ((replaced.handlers 0).connect replaced.system "jar:file:/l.jar!/x").2.1 identity := by
  have hreached : replaced.Reached := ⟨_, _, _, rfl⟩
  have hfacts : (replaced.handlers 0).roots.map (·.1.location) = [["b.jar"], ["a.jar"]] ∧
      ⟨["a.jar"], some 1, some ⟨1⟩⟩ ∉ (replaced.handlers 0).roots.map Prod.fst ∧
      FileIdentity.ofPath replaced.system.disk "/l.jar" = .ok ⟨["a.jar"], some 1, some ⟨1⟩⟩ ∧
      (replaced.system.openJar (replaced.handlers 0).useCache "/l.jar").1.toOption.any
        (fun _ => true) = true ∧
      ((replaced.handlers 0).connect replaced.system "jar:file:/l.jar!/x").1.toOption.isNone =
        true := by
    decide +kernel
  obtain ⟨hroots, hnew, hidentity, hopen, hnone⟩ := hfacts
  obtain ⟨jar, hjar, _⟩ := Jar.exists_eq_ok_of_any hopen
  have hreaches : (replaced.handlers 0).Reaches replaced.system "jar:file:/l.jar!/x"
      ⟨["a.jar"], some 1, some ⟨1⟩⟩ :=
    ⟨⟨"/l.jar", [], "x"⟩, by decide +kernel, hidentity, .inr ⟨jar, hjar⟩⟩
  refine ⟨_, rfl, hreached, hroots, fun jar hmem => hnew (List.mem_map_of_mem hmem), hnone,
    hreaches, ?_⟩
  exact ((connect_renews hreached 0).2 _).1 _ hreaches

end Process

end JarReader
