import JarReader.Proofs.Disk.Way
import JarReader.Proofs.System.Roots
import JarReader.Proofs.Url.Resolution

/-! By which path a handler calls a file. As long as no file changes, a root keeps the path by which
its file was first named since roots were last closed, whatever path is asked for. -/

namespace JarReader

def Act.asked (i : Nat) (files : List String) : Act → List String
  | connect k url =>
    if k = i then files ++ ((JarUrl.parse url).toOption.map (·.file)).toList else files
  | closeRoots k => if k = i then [] else files
  | change _ | openJar .. | clearCache => files

def filesAsked (i : Nat) (acts : List Act) : List String := acts.foldl (Act.asked i) []

def Disk.identifies (d : Disk) (I : FileIdentity) (path : String) : Bool :=
  FileIdentity.ofPath d path = .ok I

def Disk.sameFile (d : Disk) (path other : String) : Bool :=
  FileIdentity.ofPath d other = FileIdentity.ofPath d path

section Identity

variable {d : Disk} {path path' : String} {I I' : FileIdentity}

lemma FileIdentity.exists_find (h : ofPath d path = .ok I) :
    ∃ node, d.find path = .ok (I.location, node) ∧
      ∀ other, d.find other = .ok (I.location, node) → ofPath d other = .ok I := by
  cases hf : d.find path with
  | error fault => simp [ofPath, hf] at h
  | ok found =>
    obtain ⟨location, node⟩ := found
    have hl : location = I.location := by
      cases node <;> simp only [ofPath, hf, Except.ok.injEq] at h <;> exact h ▸ rfl
    subst hl
    refine ⟨node, rfl, fun other ho => ?_⟩
    rw [← h, ofPath, ofPath, hf, ho]

lemma FileIdentity.eq_of_location (h : ofPath d path = .ok I) (h' : ofPath d path' = .ok I')
    (hl : I'.location = I.location) : I' = I := by
  obtain ⟨node, hf, hsame⟩ := exists_find h
  obtain ⟨node', hf', _⟩ := exists_find h'
  have hnode : d.node? I.location = some node := (Disk.way_of_find hf).isOn
  have hnode' : d.node? I'.location = some node' := (Disk.way_of_find hf').isOn
  obtain rfl : node' = node := by
    rw [hl, hnode] at hnode'
    exact (Option.some.inj hnode').symm
  rw [hl] at hf'
  exact Except.ok.inj (h'.symm.trans (hsame path' hf'))

lemma exists_freshJar_of_identity {j : Jar} (h : FileIdentity.ofPath d path = .ok I)
    (h' : FileIdentity.ofPath d path' = .ok I) (hj : freshJar d path = .ok j) :
    ∃ k, freshJar d path' = .ok k := by
  obtain ⟨id, hopen, hview⟩ := exists_openFile_of_freshJar hj
  have hv : View.openFile d path = .ok (fileView d id path) := by
    rw [View.openFile, hopen]
    rfl
  obtain ⟨J, id', hJ, hid, hid', _⟩ := exists_identity_of_openFile hv
  obtain rfl : I = J := Except.ok.inj (h.symm.trans hJ)
  cases hid'
  obtain ⟨hv', _⟩ := openFile_of_identity h' hid
  have htwin := twin_fileView d id path path'
  rw [hview] at htwin
  simp only [freshJar, hv', bind, Except.bind]
  generalize Jar.ofView d (fileView d id path') path' "" .direct = fresh at htwin ⊢
  cases htwin with
  | ok _ => exact ⟨_, rfl⟩

end Identity

namespace Handler

variable {d : Disk} {h : Handler} {files : List String} {s : System} {path : String}

/-- A root shows the first path by which its file was asked for, and a file that was asked for and is
not held cannot be opened. -/
structure Calls (d : Disk) (h : Handler) (files : List String) : Prop where
  held : ∀ I jar, h.roots.lookup I = some jar → files.find? (d.identifies I) = some jar.root
  missing : ∀ I, h.roots.lookup I = none → ∀ path ∈ files, FileIdentity.ofPath d path = .ok I →
    ∀ j, freshJar d path ≠ .ok j

lemma Calls.nothing (hroots : h.roots = []) : h.Calls d [] where
  held I jar hl := by
    rw [hroots] at hl
    cases hl
  missing _ _ _ hm := nomatch hm

lemma lookup_hold (h : Handler) (I J : FileIdentity) (jar : Jar) :
    (h.hold I jar).roots.lookup J =
      if J = I then some jar else if J.location = I.location then none else h.roots.lookup J := by
  have hfilter (roots : List (FileIdentity × Jar)) :
      (roots.filter fun root => root.1.location ≠ I.location).lookup J =
        if J.location = I.location then none else roots.lookup J := by
    induction roots with
    | nil => simp
    | cons root roots ih =>
      obtain ⟨K, k⟩ := root
      by_cases hK : K.location = I.location
      · rw [List.filter_cons_of_neg (by simpa using hK), ih, List.lookup_cons]
        by_cases hJ : J.location = I.location
        · rw [if_pos hJ, if_pos hJ]
        · have hne : (J == K) = false := beq_false_of_ne fun he => hJ (he ▸ hK)
          rw [if_neg hJ, if_neg hJ, hne]
      · rw [List.filter_cons_of_pos (by simpa using hK), List.lookup_cons, List.lookup_cons, ih]
        by_cases hJ : J.location = I.location
        · have hne : (J == K) = false := beq_false_of_ne fun he => hK (he ▸ hJ)
          rw [hne, if_pos hJ]
        · rw [if_neg hJ, if_neg hJ]
  rw [hold, List.lookup_cons, hfilter]
  by_cases hJ : J = I
  · rw [if_pos hJ, beq_iff_eq.mpr hJ]
  · rw [if_neg hJ, beq_false_of_ne hJ]

lemma exists_lookup_of_root {jar : Jar} (hr : (h.root s path).1 = .ok jar) :
    ∃ I, FileIdentity.ofPath s.disk path = .ok I ∧
      (h.root s path).2.1.roots.lookup I = some jar := by
  simp only [root] at hr ⊢
  cases hi : FileIdentity.ofPath s.disk path with
  | error failure =>
    rw [hi] at hr
    cases hr
  | ok I =>
    simp only [hi] at hr
    refine ⟨I, rfl, ?_⟩
    cases hl : h.roots.lookup I with
    | some held =>
      simp only [hl] at hr ⊢
      rw [Except.ok.inj hr]
    | none =>
      simp only [hl] at hr ⊢
      generalize s.openJar h.useCache path = opened at hr ⊢
      obtain ⟨result, s'⟩ := opened
      cases result with
      | error failure => cases hr
      | ok opened =>
        cases hr
        exact (h.lookup_hold I I jar).trans (if_pos rfl)

lemma Calls.append {h' : Handler} (hc : h.Calls d files)
    (hroots : h'.roots = h.roots)
    (hpath : ∀ I, FileIdentity.ofPath d path = .ok I → h.roots.lookup I = none →
      ∀ j, freshJar d path ≠ .ok j) : h'.Calls d (files ++ [path]) where
  held I jar hl := by
    rw [hroots] at hl
    rw [List.find?_append, hc.held I jar hl]
    rfl
  missing I hl other ho hi := by
    rw [hroots] at hl
    rcases List.mem_append.mp ho with ho | ho
    · exact hc.missing I hl other ho hi
    · obtain rfl := List.mem_singleton.mp ho
      exact hpath I hi hl

lemma Calls.hold {I : FileIdentity} {jar j : Jar} (hc : h.Calls d files)
    (hi : FileIdentity.ofPath d path = .ok I) (hl : h.roots.lookup I = none)
    (hj : freshJar d path = .ok j) (hroot : jar.root = path) :
    (h.hold I jar).Calls d (files ++ [path]) where
  held J k hk := by
    rw [lookup_hold] at hk
    by_cases hJ : J = I
    · subst hJ
      rw [if_pos rfl] at hk
      cases hk
      -- Nothing before can have had this identity: it would have been held, as it can be opened.
      have hnone : files.find? (d.identifies J) = none := by
        refine List.find?_eq_none.mpr fun other ho hother => ?_
        have hother : FileIdentity.ofPath d other = .ok J := by simpa [Disk.identifies] using hother
        obtain ⟨k, hk⟩ := exists_freshJar_of_identity hi hother hj
        exact hc.missing J hl other ho hother k hk
      rw [List.find?_append, hnone, hroot]
      simp [Disk.identifies, hi]
    · rw [if_neg hJ] at hk
      split at hk
      · cases hk
      · rw [List.find?_append, hc.held J k hk]
        rfl
  missing J hk other ho hother := by
    rw [lookup_hold] at hk
    by_cases hJ : J = I
    · rw [if_pos hJ] at hk
      cases hk
    · rw [if_neg hJ, if_neg fun hlocation => hJ (FileIdentity.eq_of_location hi hother hlocation)] at hk
      rcases List.mem_append.mp ho with ho | ho
      · exact hc.missing J hk other ho hother
      · obtain rfl := List.mem_singleton.mp ho
        exact absurd (Except.ok.inj (hother.symm.trans hi)) hJ

lemma root_of_freshJar {j : Jar} (hj : freshJar d path = .ok j) : j.root = path := by
  obtain ⟨_, _, hopen⟩ := exists_openFile_of_freshJar hj
  obtain ⟨_, _, _, _, rfl⟩ := Jar.ofView_eq_ok_iff.mp hopen
  rfl

lemma Calls.root {n : Nat} (hc : h.Calls d files) (hd : s.disk = d)
    (hopen : (s.openJar h.useCache path).1 = (freshJar d path).map (·.numbered n)) :
    (h.root s path).2.1.Calls d (files ++ [path]) := by
  simp only [Handler.root, hd]
  cases hi : FileIdentity.ofPath d path with
  | error failure => exact hc.append rfl fun I hI => by rw [hi] at hI; cases hI
  | ok I =>
    simp only
    cases hl : h.roots.lookup I with
    | some jar =>
      refine hc.append rfl fun J hJ hJl => ?_
      cases hi.symm.trans hJ
      rw [hl] at hJl
      cases hJl
    | none =>
      simp only
      generalize s.openJar h.useCache path = opened at hopen ⊢
      obtain ⟨result, s'⟩ := opened
      obtain rfl := hopen
      cases hj : freshJar d path with
      | error failure =>
        refine hc.append rfl fun J _ _ j hJ => ?_
        rw [hj] at hJ
        cases hJ
      | ok j =>
        have hroot : j.root = path := root_of_freshJar hj
        exact hc.hold hi hl hj hroot

lemma eq_of_descend {α : Type} (f : Jar → α)
    (hf : ∀ d j k e n, j.nested d e = .ok k → f { k with opening := n } = f j) {j k : Jar}
    {segments : List String} (hk : (descend s j segments).1 = .ok k) : f k = f j := by
  induction segments generalizing s j with
  | nil =>
    cases hk
    rfl
  | cons segment segments ih =>
    rw [descend, System.nested?, Jar.nested?] at hk
    cases he : j.entry? segment with
    | none =>
      rw [he] at hk
      cases hk
    | some e =>
      simp only [he] at hk
      cases hn : j.nested s.disk e with
      | error failure =>
        rw [hn] at hk
        cases hk
      | ok v =>
        rw [hn] at hk
        exact (ih hk).trans (hf _ _ _ _ _ hn)

lemma root_descend {j k : Jar} {segments : List String}
    (hk : (descend s j segments).1 = .ok k) : k.root = j.root :=
  eq_of_descend Jar.root (fun _ _ _ _ _ hn => (Jar.path_of_nested hn).1) hk

lemma exists_descend_of_connect {url : String} {parts : JarUrl} {c : Connection}
    (hparts : JarUrl.parse url = .ok parts) (hc : (h.connect s url).1 = .ok c) :
    ∃ jar t, (h.root s parts.file).1 = .ok jar ∧ (descend t jar parts.nested).1 = .ok c.jar := by
  simp only [connect, hparts] at hc
  generalize h.root s parts.file = found at hc ⊢
  obtain ⟨result, h', t⟩ := found
  cases result with
  | error failure => cases hc
  | ok jar =>
    refine ⟨jar, t, rfl, ?_⟩
    simp only at hc
    generalize descend t jar parts.nested = inner at hc ⊢
    obtain ⟨result, t'⟩ := inner
    cases result with
    | error failure => cases hc
    | ok k =>
      simp only [connection] at hc
      split at hc
      · cases hc
        rfl
      · split at hc
        · cases hc
          rfl
        · cases hc

end Handler

namespace Process

variable {d : Disk} {p : Process}

lemma calls_step {files : List String} {act : Act} {i : Nat} (hp : p.Still d)
    (hact : act.changes = false) (hc : (p.handlers i).Calls d files) :
    ((p.step act).handlers i).Calls d (act.asked i files) := by
  cases act with
  | change change => cases hact
  | openJar useCache path => exact hc
  | clearCache => exact hc
  | closeRoots k =>
    simp only [step, Act.asked]
    by_cases hk : k = i
    · subst hk
      rw [Function.update_self, if_pos rfl]
      exact .nothing rfl
    · rw [Function.update_of_ne (Ne.symm hk), if_neg hk]
      exact hc
  | connect k url =>
    simp only [step, Act.asked]
    by_cases hk : k = i
    · subst hk
      rw [Function.update_self, if_pos rfl]
      cases hparts : JarUrl.parse url with
      | error failure =>
        simp only [Handler.connect, hparts, Except.toOption, Option.map_none, Option.toList_none,
          List.append_nil]
        exact hc
      | ok parts =>
        rw [Handler.connect_eq_root hparts]
        obtain ⟨hd, hopen⟩ := hp.openJar (p.handlers k).useCache parts.file
        exact hc.root hd hopen
    · rw [Function.update_of_ne (Ne.symm hk), if_neg hk]
      exact hc

lemma calls_run {useCache : Nat → Bool} {acts : List Act} (i : Nat)
    (hacts : ∀ act ∈ acts, act.changes = false) :
    (((start d useCache).run acts).handlers i).Calls d (filesAsked i acts) := by
  induction acts using List.reverseRecOn with
  | nil => exact .nothing rfl
  | append_singleton acts act ih =>
    have hbefore : ∀ act ∈ acts, act.changes = false :=
      fun a ha => hacts a (List.mem_append_left _ ha)
    rw [run, filesAsked, List.foldl_concat, List.foldl_concat]
    exact calls_step ⟨_, _, hbefore, rfl⟩ (hacts act (by simp)) (ih hbefore)

lemma find?_asked {useCache : Nat → Bool} {acts : List Act} {i : Nat} {url : String}
    {parts : JarUrl} {c : Connection} (hacts : ∀ act ∈ acts, act.changes = false)
    (hparts : JarUrl.parse url = .ok parts)
    (hc : ((((start d useCache).run acts).handlers i).connect
      ((start d useCache).run acts).system url).1 = .ok c) :
    (filesAsked i acts ++ [parts.file]).find? (d.sameFile parts.file) = some c.jar.root := by
  have hstill : ((start d useCache).run acts).Still d := ⟨_, _, hacts, rfl⟩
  obtain ⟨jar, _, hjar, hinner⟩ := Handler.exists_descend_of_connect hparts hc
  have hroot := Handler.root_descend hinner
  obtain ⟨I, hi, hheld⟩ := Handler.exists_lookup_of_root hjar
  obtain ⟨hd, hopen⟩ := hstill.openJar (((start d useCache).run acts).handlers i).useCache parts.file
  have hcalls := ((calls_run i hacts).root hd hopen).held I jar hheld
  rw [hd] at hi
  have hsame : d.sameFile parts.file = d.identifies I := by
    funext other
    rw [Disk.sameFile, hi, Disk.identifies]
  rw [hsame, hcalls, hroot]

lemma Still.connect (hp : p.Still d) (i : Nat) {url : String} {parts : JarUrl}
    (hparts : JarUrl.parse url = .ok parts) :
    Matched (Connection.Twin d) ((p.handlers i).connect p.system url).1 (freshConnection d url) := by
  obtain ⟨seen, honest, ⟨hparsed, hrooted⟩, hdisk, hseen⟩ := hp.sound parts.file
  have hurl : ∀ x ∈ ((JarUrl.parse url).toOption.map (·.file)).bind p.system.disk.sighting?,
      x ∈ seen := by
    rw [hparts, hdisk]
    exact hseen
  rw [← hdisk]
  exact ((hrooted i).connect honest hparsed hurl).1

/-- As long as no file changes, a connection is to a jar that is called by the first path by which its
file was asked of the handler since its roots were closed. A new handler connects to a jar that shows the
same, called by the path in the URL: the URLs are the same exactly if the two paths have one URL. -/
theorem connect_root {useCache : Nat → Bool} {acts : List Act} {i : Nat} {url : String}
    {parts : JarUrl} {c : Connection} (hacts : ∀ act ∈ acts, act.changes = false)
    (hparts : JarUrl.parse url = .ok parts)
    (hc : ((((start d useCache).run acts).handlers i).connect
      ((start d useCache).run acts).system url).1 = .ok c) :
    (filesAsked i acts ++ [parts.file]).find? (d.sameFile parts.file) = some c.jar.root ∧
      ∀ cached, ∃ fresh : Connection,
        ((Handler.new cached).connect (.start d) url).1 = .ok fresh ∧
          fresh.jar.root = parts.file ∧ c.Interchangeable d fresh ∧
          (∀ home, c.jar.url home = fresh.jar.url home ↔
            Url.ofFile home c.jar.root = Url.ofFile home parts.file) ∧
          ∀ home entry, c.jar.entryUrl home entry = fresh.jar.entryUrl home entry ↔
            Url.ofFile home c.jar.root = Url.ofFile home parts.file := by
  refine ⟨find?_asked hacts hparts hc, fun cached => ?_⟩
  have hstill : ((start d useCache).run acts).Still d := ⟨_, _, hacts, rfl⟩
  have hnew : (start d fun _ => cached).Still d := ⟨_, [], List.forall_mem_nil _, rfl⟩
  have hmatched : Matched (Connection.Twin d)
      ((((start d useCache).run acts).handlers i).connect
        ((start d useCache).run acts).system url).1
      ((Handler.new cached).connect (.start d) url).1 :=
    (hstill.connect i hparts).trans ((hnew.connect 0 hparts).symm fun _ _ h => h.symm)
      fun _ _ _ h h' => h.trans h'
  rw [hc] at hmatched
  generalize hf : ((Handler.new cached).connect (.start d) url).1 = result at hmatched
  cases hmatched with
  | @ok _ fresh htwin =>
    have hrun : ((((start d fun _ => cached).run []).handlers 0).connect
        ((start d fun _ => cached).run []).system url).1 = .ok fresh := hf
    have hfind := find?_asked (List.forall_mem_nil _) hparts hrun
    have hroot : fresh.jar.root = parts.file := by
      simpa [filesAsked, Disk.sameFile] using hfind.symm
    have hurl (home : String) : c.jar.url home = fresh.jar.url home ↔
        Url.ofFile home c.jar.root = Url.ofFile home parts.file := by
      simp only [Jar.url, htwin.jar.path, hroot, String.append_left_inj, String.append_right_inj]
    refine ⟨fresh, rfl, hroot, htwin.interchangeable, hurl, fun home entry => ?_⟩
    simp only [Jar.entryUrl, String.append_left_inj, hurl]

def askedByLink : List Act :=
  [.connect 0 "jar:file:/a.jar!/", .connect 1 "jar:file:/a.jar!/", .closeRoots 0,
    .connect 0 "jar:file:/b.jar!/", .connect 0 "jar:file:/l.jar!/"]

def linkedDisk : Disk := replaced.system.disk

theorem connect_root_askedByLink :
    ∃ c fresh : Connection, (∀ act ∈ askedByLink, act.changes = false) ∧
      JarUrl.parse "jar:file:/a.jar!/y" = .ok ⟨"/a.jar", [], "y"⟩ ∧
      ((((start linkedDisk fun _ => true).run askedByLink).handlers 0).connect
        ((start linkedDisk fun _ => true).run askedByLink).system "jar:file:/a.jar!/y").1 = .ok c ∧
      filesAsked 0 askedByLink = ["/b.jar", "/l.jar"] ∧ c.jar.root = "/l.jar" ∧
      ((Handler.new true).connect (.start linkedDisk) "jar:file:/a.jar!/y").1 = .ok fresh ∧
      fresh.jar.root = "/a.jar" ∧ c.Interchangeable linkedDisk fresh ∧
      c.jar.url "/" ≠ fresh.jar.url "/" := by
  have hacts : ∀ act ∈ askedByLink, act.changes = false := by decide
  have hparts : JarUrl.parse "jar:file:/a.jar!/y" = .ok ⟨"/a.jar", [], "y"⟩ := by decide +kernel
  have hs : ((((start linkedDisk fun _ => true).run askedByLink).handlers 0).connect
      ((start linkedDisk fun _ => true).run askedByLink).system
        "jar:file:/a.jar!/y").1.toOption.any (fun _ => true) = true := by
    decide +kernel
  have hasked : filesAsked 0 askedByLink = ["/b.jar", "/l.jar"] := by decide +kernel
  have hfirst : (["/b.jar", "/l.jar"] ++ ["/a.jar"]).find? (linkedDisk.sameFile "/a.jar") =
      some "/l.jar" := by
    decide +kernel
  obtain ⟨c, hc, _⟩ := Jar.exists_eq_ok_of_any hs
  obtain ⟨hfind, hfresh⟩ := connect_root hacts hparts hc
  obtain ⟨fresh, hf, hroot, hinterchangeable, hurl, _⟩ := hfresh true
  rw [hasked, hfirst] at hfind
  have hlink : c.jar.root = "/l.jar" := (Option.some.inj hfind).symm
  refine ⟨c, fresh, hacts, hparts, hc, hasked, hlink, hf, hroot, hinterchangeable, ?_⟩
  rw [Ne, hurl, hlink]
  decide +kernel

/-- After its file has been asked for by a link, a URL leads to a jar that is called by the link, and
whose URLs are not those that a new handler leads to. -/
theorem connect_root_ne_file :
    ∃ c fresh : Connection, JarUrl.parse "jar:file:/a.jar!/y" = .ok ⟨"/a.jar", [], "y"⟩ ∧
      ((((start linkedDisk fun _ => true).run askedByLink).handlers 0).connect
        ((start linkedDisk fun _ => true).run askedByLink).system "jar:file:/a.jar!/y").1 = .ok c ∧
      ((Handler.new true).connect (.start linkedDisk) "jar:file:/a.jar!/y").1 = .ok fresh ∧
      c.jar.root ≠ "/a.jar" ∧ c.jar.url "/" ≠ fresh.jar.url "/" ∧
      c.entry?.map (c.jar.entryUrl "/") ≠ fresh.entry?.map (fresh.jar.entryUrl "/") := by
  have hs : ((((start linkedDisk fun _ => true).run askedByLink).handlers 0).connect
      ((start linkedDisk fun _ => true).run askedByLink).system
        "jar:file:/a.jar!/y").1.toOption.any (fun c => c.jar.root ≠ "/a.jar" &&
          c.jar.url "/" = "jar:file:/l.jar!/" &&
          c.entry?.map (c.jar.entryUrl "/") = some "jar:file:/l.jar!/y") = true := by
    decide +kernel
  have hf : ((Handler.new true).connect (.start linkedDisk) "jar:file:/a.jar!/y").1.toOption.any
      (fun c => c.jar.url "/" = "jar:file:/a.jar!/" &&
        c.entry?.map (c.jar.entryUrl "/") = some "jar:file:/a.jar!/y") = true := by
    decide +kernel
  obtain ⟨c, hc, hs⟩ := Jar.exists_eq_ok_of_any hs
  obtain ⟨fresh, hfresh, hf⟩ := Jar.exists_eq_ok_of_any hf
  simp only [Bool.and_eq_true, decide_eq_true_eq] at hs hf
  obtain ⟨⟨hroot, hurl⟩, hentry⟩ := hs
  obtain ⟨hurl', hentry'⟩ := hf
  refine ⟨c, fresh, by decide +kernel, hc, hfresh, hroot, ?_, ?_⟩
  · rw [hurl, hurl']
    decide
  · rw [hentry, hentry']
    decide

end Process
end JarReader
