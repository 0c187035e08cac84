import JarReader.Zip.Directory.Index
import Mathlib.Tactic.Common

namespace JarReader.Zip.Chains

/-- The numbers of the slots that are met from a link on, up to the end mark. -/
inductive Leads (slots : Array Slot) : UInt32 → List Nat → Prop
  | done : Leads slots endMark []
  | step {i : Nat} {slot : Slot} {rest : List Nat} : i < endMark.toNat → slots[i]? = some slot →
      Leads slots slot.next rest → Leads slots (.ofNat i) (i :: rest)

def inBucket (buckets bucket : Nat) (slot : Slot) : Bool := slot.hash.toNat % buckets = bucket

def members (slots : Array Slot) (buckets bucket : Nat) : List Nat :=
  (List.range slots.size).reverse.filter fun i => slots[i]?.any (inBucket buckets bucket)

structure Threaded (c : Chains) : Prop where
  buckets : 0 < c.heads.size
  size : c.slots.size ≤ endMark.toNat
  leads : ∀ bucket, bucket < c.heads.size →
    Leads c.slots (c.heads.getD bucket endMark) (members c.slots c.heads.size bucket)

lemma toNat_number {i : Nat} (h : i < endMark.toNat) : (UInt32.ofNat i).toNat = i := by
  rw [UInt32.toNat_ofNat']
  exact Nat.mod_eq_of_lt (Nat.lt_trans h endMark.toNat_lt)

lemma number_ne_endMark {i : Nat} (h : i < endMark.toNat) : UInt32.ofNat i ≠ endMark := by
  intro he
  have hi := toNat_number h
  rw [he] at hi
  omega

lemma Leads.push {slots : Array Slot} {link : UInt32} {is : List Nat} (h : Leads slots link is)
    (slot : Slot) : Leads (slots.push slot) link is := by
  induction h with
  | done => exact .done
  | step hi hs _ ih =>
    obtain ⟨hl, _⟩ := Array.getElem?_eq_some_iff.mp hs
    refine .step hi ?_ ih
    rw [Array.getElem?_push_lt hl, ← hs, Array.getElem?_eq_getElem hl]

lemma members_push (slots : Array Slot) (slot : Slot) (buckets bucket : Nat) :
    members (slots.push slot) buckets bucket =
      (if inBucket buckets bucket slot then [slots.size] else []) ++
        members slots buckets bucket := by
  have hold : (List.range slots.size).reverse.filter
      (fun i => (slots.push slot)[i]?.any (inBucket buckets bucket)) =
        members slots buckets bucket := by
    apply List.filter_congr
    intro i hi
    rw [Array.getElem?_push_lt (by simpa using hi), Array.getElem?_eq_getElem (by simpa using hi)]
  rw [← hold]
  by_cases hb : inBucket buckets bucket slot <;>
    simp [members, List.range_succ, hb]

lemma length_members_le (slots : Array Slot) (buckets bucket : Nat) :
    (members slots buckets bucket).length ≤ slots.size := by
  refine Nat.le_trans (List.length_filter_le _ _) (Nat.le_of_eq ?_)
  simp

lemma threaded_empty {buckets : Nat} (h : 0 < buckets) : (empty buckets).Threaded where
  buckets := by simpa [empty] using h
  size := Nat.zero_le _
  leads bucket hb := by
    have hh : (empty buckets).heads.getD bucket endMark = endMark := by
      simp only [empty, Array.size_replicate] at hb
      simp [empty, Array.getD, hb]
    rw [hh]
    exact .done

lemma Threaded.push {c : Chains} (hc : c.Threaded) (hs : c.slots.size < endMark.toNat)
    (hash : UInt32) (offset : Nat) : (c.push hash offset).Threaded := by
  have hbucket : c.bucket hash < c.heads.size := Nat.mod_lt _ hc.buckets
  refine ⟨by simpa [Chains.push] using hc.buckets, by simpa [Chains.push] using Nat.succ_le_of_lt hs,
    ?_⟩
  intro bucket hb
  replace hb : bucket < c.heads.size := by simpa [Chains.push] using hb
  simp only [Chains.push, members_push, Array.size_setIfInBounds]
  by_cases he : c.bucket hash = bucket
  · subst he
    have hin : inBucket c.heads.size (c.bucket hash) ⟨hash, c.head hash, offset⟩ = true := by
      simp [inBucket, bucket]
    have hhead : (c.heads.setIfInBounds (c.bucket hash) (.ofNat c.slots.size)).getD (c.bucket hash)
        endMark = .ofNat c.slots.size := by
      simp [Array.getD, hb]
    rw [hhead, if_pos hin]
    exact .step hs Array.getElem?_push_size ((hc.leads _ hb).push _)
  · have hout : inBucket c.heads.size bucket ⟨hash, c.head hash, offset⟩ = false := by
      simpa [inBucket, Chains.bucket] using he
    have hhead : (c.heads.setIfInBounds (c.bucket hash) (.ofNat c.slots.size)).getD bucket endMark =
        c.heads.getD bucket endMark := by
      simp [Array.getD, hb, he]
    rw [hhead, hout]
    exact (hc.leads _ hb).push _

lemma findFrom_eq {c : Chains} {p : Slot → Bool} {link : UInt32} {is : List Nat} {limit : Nat}
    (h : Leads c.slots link is) (hl : is.length ≤ limit) :
    c.findFrom p limit link = (is.filterMap (c.slots[·]?)).find? p := by
  induction h generalizing limit with
  | done => cases limit <;> simp [findFrom]
  | @step i slot rest hi hs _ ih =>
    cases limit with
    | zero => simp at hl
    | succ limit =>
      simp only [findFrom, number_ne_endMark hi, if_false, toNat_number hi, hs, List.filterMap_cons]
      rw [ih (by simpa using hl)]
      cases hp : p slot <;> simp [hp]

lemma filterMap_getElem?_range {α : Type} (xs : List α) :
    (List.range xs.length).filterMap (xs[·]?) = xs := by
  induction xs with
  | nil => rfl
  | cons x xs ih =>
    rw [List.length_cons, List.range_succ_eq_map, List.filterMap_cons]
    simpa [List.filterMap_map, Function.comp_def] using ih

lemma filterMap_members (slots : Array Slot) (buckets bucket : Nat) :
    (members slots buckets bucket).filterMap (slots[·]?) =
      slots.toList.reverse.filter (inBucket buckets bucket) := by
  have hr : (List.range slots.size).reverse.filterMap (slots[·]?) = slots.toList.reverse := by
    rw [List.filterMap_reverse, ← Array.length_toList]
    simpa using congrArg List.reverse (filterMap_getElem?_range slots.toList)
  rw [members, List.filterMap_filter, ← hr, List.filter_filterMap]
  congr 1
  funext i
  cases hs : slots[i]? with
  | none => simp
  | some slot => cases hb : inBucket buckets bucket slot <;> simp [Option.filter, hb]

lemma Threaded.findFrom_head {c : Chains} (hc : c.Threaded) {p : Slot → Bool} {hash : UInt32}
    (hp : ∀ slot, p slot = true → slot.hash = hash) :
    c.findFrom p c.slots.size (c.head hash) = c.slots.toList.reverse.find? p := by
  have hb : c.bucket hash < c.heads.size := Nat.mod_lt _ hc.buckets
  rw [head, findFrom_eq (hc.leads _ hb) (length_members_le _ _ _), filterMap_members, List.find?_filter]
  congr 1
  funext slot
  cases hs : p slot with
  | false => simp
  | true => simp [inBucket, bucket, hp slot hs]

end JarReader.Zip.Chains
