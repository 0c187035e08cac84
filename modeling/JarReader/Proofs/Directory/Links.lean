import JarReader.Proofs.Directory.Inside
import JarReader.Proofs.Directory.Lookup

/-! The links of an index each time another record has been put into it: they lead to older slots, and from the
head of a bucket through all slots of the bucket. So a search along them ends and meets nothing but slots. -/

namespace JarReader.Zip

namespace Chains

structure Linked (c : Chains) : Prop where
  heads : ∀ link ∈ c.heads, link = endMark ∨ link.toNat < c.slots.size
  next : ∀ (i : Nat) (slot : Slot), c.slots[i]? = some slot →
    slot.next = endMark ∨ slot.next.toNat < i
  chain : ∀ (bucket : Nat) (h : bucket < c.heads.size), ∃ is, Leads c.slots c.heads[bucket] is ∧
    is.Pairwise (· > ·) ∧
      ∀ i, i ∈ is ↔ ∃ slot, c.slots[i]? = some slot ∧ slot.hash.toNat % c.heads.size = bucket
  sole : ∀ i, i < c.slots.size → ∃! bucket : Nat, ∃ (h : bucket < c.heads.size) (is : List Nat),
    Leads c.slots c.heads[bucket] is ∧ i ∈ is
  numbers : ∀ i, i < c.slots.size → UInt32.ofNat i ≠ endMark ∧ (UInt32.ofNat i).toNat = i

/-- What `findFrom` finds, with no result where it would meet more than `limit` slots, or none at a link. -/
def walk? (c : Chains) (p : Slot → Bool) : (limit : Nat) → (link : UInt32) → Option (Option Slot)
  | 0, link => if link = endMark then some none else none
  | limit + 1, link =>
    if link = endMark then some none
    else
      match c.slots[link.toNat]? with
      | none => none
      | some slot => if p slot then some (some slot) else c.walk? p limit slot.next

section Leads

variable {slots : Array Slot} {link : UInt32} {is : List Nat}

lemma Leads.inside (h : Leads slots link is) : link = endMark ∨ link.toNat < slots.size := by
  cases h with
  | done => exact .inl rfl
  | step hi hs _ =>
    right
    rw [toNat_number hi]
    exact (Array.getElem?_eq_some_iff.mp hs).1

lemma Leads.mem_first (h : Leads slots link is) : link = endMark ∨ link.toNat ∈ is := by
  cases h with
  | done => exact .inl rfl
  | step hi _ _ =>
    right
    rw [toNat_number hi]
    exact List.mem_cons_self

lemma Leads.unique {js : List Nat} (h : Leads slots link is) (h' : Leads slots link js) : is = js := by
  induction h generalizing js with
  | done =>
    generalize hmark : endMark = mark at h'
    cases h' with
    | done => rfl
    | step hj _ _ => exact absurd hmark.symm (number_ne_endMark hj)
  | @step i slot rest hi hs _ ih =>
    generalize hlink : UInt32.ofNat i = link at h'
    cases h' with
    | done => exact absurd hlink (number_ne_endMark hi)
    | @step j slot' rest' hj hs' hrest =>
      obtain rfl : i = j := by rw [← toNat_number hi, ← toNat_number hj, hlink]
      rw [hs] at hs'
      cases hs'
      rw [ih hrest]

lemma Leads.next {i : Nat} {slot : Slot} (h : Leads slots link is) (hp : is.Pairwise (· > ·))
    (hi : i ∈ is) (hs : slots[i]? = some slot) : slot.next = endMark ∨ slot.next.toNat < i := by
  induction h with
  | done => cases hi
  | @step k first rest hk hfirst hrest ih =>
    obtain ⟨hlater, hp⟩ := List.pairwise_cons.mp hp
    rcases List.mem_cons.mp hi with rfl | hi
    -- the link of the first slot leads to the next on the chain, which is older
    · rw [hfirst] at hs
      cases hs
      exact hrest.mem_first.imp_right (hlater _)
    · exact ih hp hi

lemma pairwise_members (slots : Array Slot) (buckets bucket : Nat) :
    (members slots buckets bucket).Pairwise (· > ·) := by
  apply List.Pairwise.filter
  rw [List.pairwise_reverse]
  exact List.pairwise_lt_range

lemma mem_members {buckets bucket i : Nat} :
    i ∈ members slots buckets bucket ↔
      ∃ slot, slots[i]? = some slot ∧ slot.hash.toNat % buckets = bucket := by
  rw [members, List.mem_filter, List.mem_reverse, List.mem_range, Option.any_eq_true]
  simp only [inBucket, decide_eq_true_eq]
  constructor
  · exact And.right
  · rintro ⟨slot, hs, hbucket⟩
    exact ⟨(Array.getElem?_eq_some_iff.mp hs).1, slot, hs, hbucket⟩

end Leads

variable {c : Chains}

lemma Threaded.leads_head (hc : c.Threaded) {bucket : Nat} (h : bucket < c.heads.size) :
    Leads c.slots c.heads[bucket] (members c.slots c.heads.size bucket) := by
  have hleads := hc.leads bucket h
  rwa [Array.getD, dif_pos h] at hleads

lemma Threaded.linked (hc : c.Threaded) : c.Linked := by
  have hnumber {i : Nat} (hi : i < c.slots.size) : i < endMark.toNat :=
    Nat.lt_of_lt_of_le hi hc.size
  constructor
  case heads =>
    intro link hlink
    obtain ⟨bucket, hbucket, rfl⟩ := Array.mem_iff_getElem.mp hlink
    exact (hc.leads_head hbucket).inside
  case next =>
    intro i slot hs
    have hbucket : slot.hash.toNat % c.heads.size < c.heads.size := Nat.mod_lt _ hc.buckets
    apply (hc.leads_head hbucket).next (pairwise_members _ _ _) ?_ hs
    exact mem_members.mpr ⟨slot, hs, rfl⟩
  case chain =>
    intro bucket hbucket
    exact ⟨_, hc.leads_head hbucket, pairwise_members _ _ _, fun i => mem_members⟩
  case sole =>
    intro i hi
    have hs : c.slots[i]? = some c.slots[i] := Array.getElem?_eq_getElem hi
    refine ⟨c.slots[i].hash.toNat % c.heads.size, ⟨Nat.mod_lt _ hc.buckets, _,
      hc.leads_head _, mem_members.mpr ⟨_, hs, rfl⟩⟩, ?_⟩
    rintro bucket ⟨hbucket, is, hleads, hmem⟩
    rw [hleads.unique (hc.leads_head hbucket), mem_members] at hmem
    obtain ⟨slot, hslot, rfl⟩ := hmem
    rw [hs] at hslot
    cases hslot
    rfl
  case numbers =>
    intro i hi
    exact ⟨number_ne_endMark (hnumber hi), toNat_number (hnumber hi)⟩

lemma walk?_eq {p : Slot → Bool} {link : UInt32} {is : List Nat} {limit : Nat}
    (h : Leads c.slots link is) (hl : is.length ≤ limit) :
    c.walk? p limit link = some (c.findFrom p limit link) := by
  induction h generalizing limit with
  | done => cases limit <;> simp [walk?, findFrom]
  | @step i slot rest hi hs _ ih =>
    cases limit with
    | zero => cases hl
    | succ limit =>
      rw [walk?, findFrom, if_neg (number_ne_endMark hi), if_neg (number_ne_endMark hi),
        toNat_number hi, hs]
      simp only
      split
      · rfl
      · exact ih (Nat.le_of_succ_le_succ hl)

lemma Threaded.walk?_head (hc : c.Threaded) (p : Slot → Bool) (hash : UInt32) :
    c.heads[c.bucket hash]? = some (c.head hash) ∧
      c.walk? p c.slots.size (c.head hash) = some (c.findFrom p c.slots.size (c.head hash)) := by
  have hbucket : c.bucket hash < c.heads.size := Nat.mod_lt _ hc.buckets
  refine ⟨?_, walk?_eq (hc.leads _ hbucket) (length_members_le _ _ _)⟩
  rw [head, Array.getD, dif_pos hbucket, Array.getElem?_eq_getElem hbucket]
  rfl

end Chains

namespace Directory

open Chains

/-- The states in which the loop that indexes the directory comes round: a position and the index so far. -/
inductive Indexing (b : ByteArray) (declared : Nat) : Nat → Chains → Prop
  | start : declared < endMark.toNat →
      Indexing b declared 0 (.empty (bucketCount b declared))
  | next {offset size : Nat} {c : Chains} : Indexing b declared offset c → offset < b.size →
      c.slots.size ≠ declared → checkRecord b offset = .ok size →
      Indexing b declared (offset + size) (indexRecord b c offset)

def findExact? (d : Directory) (parts : List ByteArray) : Option (Option DirectoryRecord) := do
  let hash := nameHash parts
  let link ← d.chains.heads[d.chains.bucket hash]?
  let slot? ← d.chains.walk? (fun slot =>
    slot.hash = hash && matchesFrom (recordAt d.bytes slot.offset).name 0 parts) d.size link
  return slot?.map fun slot => recordAt d.bytes slot.offset

section Indexing

variable {b : ByteArray} {declared offset : Nat} {c : Chains}

lemma Indexing.threaded (h : Indexing b declared offset c) :
    c.Threaded ∧ c.slots.size ≤ declared ∧ declared < endMark.toNat := by
  induction h with
  | start hd => exact ⟨threaded_empty (bucketCount_pos b declared), Nat.zero_le _, hd⟩
  | @next offset size c _ ho hne hcheck ih =>
    obtain ⟨hc, hle, hd⟩ := ih
    have hlt : c.slots.size < declared := Nat.lt_of_le_of_ne hle hne
    refine ⟨hc.push (Nat.lt_trans hlt hd) _ _, ?_, hd⟩
    rw [size_indexRecord]
    exact hlt

lemma Indexing.parse_eq (h : Indexing b declared offset c) :
    some (parse b declared) = (indexFrom? b declared offset c).map (Except.map (Directory.mk b)) := by
  induction h with
  | start hd => rw [← parse?_eq, parse?, if_neg (Nat.not_le_of_lt hd)]
  | next hindexing ho hne hcheck ih =>
    rw [ih, indexFrom?_ok ho hne hindexing.threaded.1.buckets hcheck]

lemma Indexing.foldl {offsets : List Nat} (h : Indexing b declared offset c)
    (hr : Records b offset offsets) (hs : c.slots.size + offsets.length = declared) :
    ∃ last, b.size ≤ last ∧ Indexing b declared last (offsets.foldl (indexRecord b) c) := by
  induction hr generalizing c with
  | done hlast => exact ⟨_, hlast, h⟩
  | next ho hcheck _ ih =>
    rw [List.length_cons] at hs
    apply ih (h.next ho (by omega) hcheck)
    rw [size_indexRecord]
    omega

lemma indexing_of_parse {d : Directory} (h : parse b declared = .ok d) :
    ∃ last, b.size ≤ last ∧ Indexing b declared last d.chains := by
  obtain ⟨hd, offsets, hr, hlength, rfl⟩ := parse_eq_ok_iff.mp h
  apply (Indexing.start hd).foldl hr
  simpa [Chains.empty] using hlength

lemma findExact?_eq {d : Directory} (h : d.chains.Threaded) (parts : List ByteArray) :
    d.findExact? parts = some (d.findExact parts) := by
  obtain ⟨hhead, hwalk⟩ := h.walk?_head (fun slot => slot.hash = nameHash parts &&
    matchesFrom (recordAt d.bytes slot.offset).name 0 parts) (nameHash parts)
  rw [findExact?, hhead]
  simp only [Option.bind_eq_bind, Option.bind_some]
  rw [size, hwalk]
  rfl

end Indexing

/-- Whenever the loop comes round the index is linked, whatever follows, and a search in an index that is
finished ends after at most as many slots as there are. -/
theorem indexing_linked (b : ByteArray) (declared : Nat) :
    (∀ offset c, Indexing b declared offset c → c.Linked ∧
        some (parse b declared) =
          (indexFrom? b declared offset c).map (Except.map (Directory.mk b))) ∧
      ∀ d, parse b declared = .ok d → d.chains.Linked ∧
        (∃ last, b.size ≤ last ∧ Indexing b declared last d.chains) ∧
          ∀ parts, d.findExact? parts = some (d.findExact parts) := by
  refine ⟨fun offset c h => ⟨h.threaded.1.linked, h.parse_eq⟩, fun d h => ?_⟩
  obtain ⟨last, hlast, hindexing⟩ := indexing_of_parse h
  have hthreaded := hindexing.threaded.1
  exact ⟨hthreaded.linked, ⟨last, hlast, hindexing⟩, findExact?_eq hthreaded⟩

theorem indexing_linked_collidingBytes :
    ∃ d c, parse collidingBytes 4 = .ok d ∧ d.chains.Linked ∧
      d.findExact? ["BB".toUTF8] = some (d.findExact ["BB".toUTF8]) ∧
      Indexing collidingBytes 1 48 c ∧ c.Linked ∧
      parse collidingBytes 1 = .error (.entryCount 1 2) := by
  have hp : (parse collidingBytes 4).toOption.isSome = true := by decide +kernel
  have hcheck : checkRecord collidingBytes 0 = .ok 48 :=
    checkRecord_eq_ok_iff.mpr (by decide +kernel)
  have hindexing : Indexing collidingBytes 1 48 (indexRecord collidingBytes
      (.empty (bucketCount collidingBytes 1)) 0) :=
    .next (.start (by decide)) (by decide +kernel) (by decide) hcheck
  obtain ⟨hlinked, hparse⟩ := (indexing_linked collidingBytes 1).1 48 _ hindexing
  have hone : (indexRecord collidingBytes (.empty (bucketCount collidingBytes 1)) 0).slots.size = 1 :=
    size_indexRecord _ _ _
  rw [indexFrom?, if_pos (by decide +kernel), hone, if_pos rfl] at hparse
  cases h : parse collidingBytes 4 with
  | error fault =>
    rw [h] at hp
    cases hp
  | ok d =>
    obtain ⟨hd, _, hfind⟩ := (indexing_linked collidingBytes 4).2 d h
    exact ⟨d, _, rfl, hd, hfind _, hindexing, hlinked, Option.some.inj hparse⟩

end Directory
end JarReader.Zip
