import JarReader.Cache
import Mathlib.Data.Finset.Card

/-! A cache whose parse steps use it themselves, to any depth: the first value that is put in for a
key stays until the cache is cleared, and it is what every later call gives. -/

namespace JarReader.Cache

/-- What is done with a cache. The parse step of a call may use the cache too, and what is done next
may depend on what a call gave. -/
inductive Use (κ ν ε : Type) where
  | done (result : Except ε ν)
  | call (key : κ) (parse : Use κ ν ε) (next : Except ε ν → Use κ ν ε)
  | clear (next : Use κ ν ε)

inductive Event (κ ν ε : Type) where
  | parsing (key : κ)
  | returned (key : κ) (result : Except ε ν)
  | cleared

structure Moment (κ ν ε : Type) where
  event : Event κ ν ε
  cache : Cache κ ν

variable {κ ν ε : Type}

def latest : Cache κ ν → List (Moment κ ν ε) → Cache κ ν
  | c, [] => c
  | _, m :: log => latest m.cache log

lemma latest_append (c : Cache κ ν) (log later : List (Moment κ ν ε)) :
    latest c (log ++ later) = latest (latest c log) later := by
  induction log generalizing c with
  | nil => rfl
  | cons m log ih => exact ih m.cache

variable [DecidableEq κ]

namespace Use

def run : Use κ ν ε → Cache κ ν → Except ε ν × Cache κ ν
  | done result, c => (result, c)
  | call key parse next, c =>
    let after := c.getOrParse key parse.run
    (next after.1).run after.2
  | clear next, _ => next.run .empty

def log : Use κ ν ε → Cache κ ν → List (Moment κ ν ε)
  | done _, _ => []
  | call key parse next, c =>
    let after := c.getOrParse key parse.run
    (if c.get? key = none then ⟨.parsing key, c⟩ :: parse.log c else [])
      ++ ⟨.returned key after.1, after.2⟩ :: (next after.1).log after.2
  | clear next, _ => ⟨.cleared, .empty⟩ :: next.log .empty

end Use

inductive Step : Cache κ ν → Moment κ ν ε → Prop
  | parsing {c : Cache κ ν} {key : κ} : c.get? key = none → Step c ⟨.parsing key, c⟩
  | held {c : Cache κ ν} {key : κ} {value : ν} : c.get? key = some value →
      Step c ⟨.returned key (.ok value), c⟩
  | inserted {c : Cache κ ν} {key : κ} {value : ν} : c.get? key = none →
      Step c ⟨.returned key (.ok value), c.insert key value⟩
  | failed {c : Cache κ ν} {key : κ} {fault : ε} : Step c ⟨.returned key (.error fault), c⟩
  | cleared {c : Cache κ ν} : Step c ⟨.cleared, .empty⟩

inductive Steps : Cache κ ν → List (Moment κ ν ε) → Prop
  | done {c : Cache κ ν} : Steps c []
  | step {c : Cache κ ν} {m : Moment κ ν ε} {log : List (Moment κ ν ε)} : Step c m →
      Steps m.cache log → Steps c (m :: log)

section Run

variable {c : Cache κ ν} {log later : List (Moment κ ν ε)}

lemma steps_append_iff :
    Steps c (log ++ later) ↔ Steps c log ∧ Steps (latest c log) later := by
  induction log generalizing c with
  | nil => exact ⟨fun h => ⟨.done, h⟩, And.right⟩
  | cons m log ih =>
    constructor
    · rintro (_ | ⟨hm, h⟩)
      exact ⟨.step hm (ih.mp h).1, (ih.mp h).2⟩
    · rintro ⟨_ | ⟨hm, hlog⟩, hlater⟩
      exact .step hm (ih.mpr ⟨hlog, hlater⟩)

lemma getOrParse_of_some {key : κ} {value : ν} (h : c.get? key = some value)
    (parse : Cache κ ν → Except ε ν × Cache κ ν) : c.getOrParse key parse = (.ok value, c) := by
  simp only [getOrParse, h]

lemma step_getOrParse {key : κ} (h : c.get? key = none)
    (parse : Cache κ ν → Except ε ν × Cache κ ν) :
    Step (parse c).2 ⟨.returned key (c.getOrParse key parse).1, (c.getOrParse key parse).2⟩ := by
  simp only [getOrParse, h]
  obtain ⟨result, inner⟩ := parse c
  cases result with
  | error fault => exact .failed
  | ok value =>
    simp only
    cases hk : inner.get? key with
    | some first => exact .held hk
    | none => exact .inserted hk

lemma Use.steps_log (use : Use κ ν ε) (c : Cache κ ν) :
    Steps c (use.log c) ∧ latest c (use.log c) = (use.run c).2 := by
  induction use generalizing c with
  | done result => exact ⟨.done, rfl⟩
  | call key parse next ihparse ihnext =>
    simp only [log, run]
    cases hk : c.get? key with
    | some value =>
      obtain ⟨hsteps, hlast⟩ := ihnext (.ok value) c
      simp only [getOrParse_of_some hk, reduceCtorEq, if_false, List.nil_append]
      exact ⟨.step (.held hk) hsteps, hlast⟩
    | none =>
      obtain ⟨hparse, hinner⟩ := ihparse c
      obtain ⟨hsteps, hlast⟩ := ihnext (c.getOrParse key parse.run).1 (c.getOrParse key parse.run).2
      rw [if_pos rfl, steps_append_iff, latest_append]
      simp only [latest, hinner]
      exact ⟨⟨.step (.parsing hk) hparse, .step (step_getOrParse hk parse.run) hsteps⟩, hlast⟩
  | clear next ih =>
    obtain ⟨hsteps, hlast⟩ := ih .empty
    exact ⟨.step .cleared hsteps, hlast⟩

end Run

section Steps

variable {c : Cache κ ν} {m : Moment κ ν ε} {log : List (Moment κ ν ε)}

lemma get?_insert (c : Cache κ ν) (key k : κ) (value : ν) :
    (c.insert key value).get? k = if k = key then some value else c.get? k := by
  by_cases hk : k = key
  · simp [get?, Cache.insert, hk]
  · have hne : (k == key) = false := beq_eq_false_iff_ne.mpr hk
    simp [get?, Cache.insert, List.lookup_cons, hne, hk]

lemma Step.given (h : Step c m) {key : κ} {value : ν}
    (he : m.event = .returned key (.ok value)) : m.cache.get? key = some value := by
  cases h with
  | held hk =>
    cases he
    exact hk
  | inserted =>
    cases he
    rw [get?_insert, if_pos rfl]
  | parsing => cases he
  | failed => cases he
  | cleared => cases he

lemma Step.keeps (h : Step c m) (he : m.event ≠ .cleared) {k : κ} {value : ν}
    (hk : c.get? k = some value) : m.cache.get? k = some value := by
  cases h with
  | parsing => exact hk
  | held => exact hk
  | inserted hnone =>
    rw [get?_insert, if_neg, hk]
    rintro rfl
    rw [hnone] at hk
    cases hk
  | failed => exact hk
  | cleared => contradiction

lemma Steps.keeps (h : Steps c log) (hlog : ∀ m ∈ log, m.event ≠ .cleared) {k : κ} {value : ν}
    (hk : c.get? k = some value) : (latest c log).get? k = some value := by
  induction h with
  | done => exact hk
  | step hs _ ih =>
    rw [List.forall_mem_cons] at hlog
    exact ih hlog.2 (hs.keeps hlog.1 hk)

def keys (c : Cache κ ν) : List κ := c.held.map Prod.fst

def Distinct (c : Cache κ ν) : Prop := c.keys.Nodup

def known (ks : Finset κ) : Event κ ν ε → Finset κ
  | .parsing _ => ks
  | .returned key (.ok _) => Insert.insert key ks
  | .returned _ (.error _) => ks
  | .cleared => ∅

lemma mem_keys_iff {key : κ} : key ∈ c.keys ↔ ∃ value, c.get? key = some value := by
  rw [← Option.isSome_iff_exists, get?, List.lookup_isSome_iff, keys, List.mem_map]
  simp only [beq_iff_eq, eq_comm (a := key)]

lemma Step.distinct (h : Step c m) (hc : c.Distinct) : m.cache.Distinct := by
  cases h with
  | parsing => exact hc
  | held => exact hc
  | inserted hnone =>
    refine List.nodup_cons.mpr ⟨fun hmem => ?_, hc⟩
    obtain ⟨_, hsome⟩ := mem_keys_iff.mp hmem
    rw [hnone] at hsome
    cases hsome
  | failed => exact hc
  | cleared => exact List.nodup_nil

lemma Step.keys_toFinset (h : Step c m) : m.cache.keys.toFinset = known c.keys.toFinset m.event := by
  cases h with
  | parsing => rfl
  | held hk =>
    have hmem := List.mem_toFinset.mpr (mem_keys_iff.mpr ⟨_, hk⟩)
    exact (Finset.insert_eq_of_mem hmem).symm
  | inserted => exact List.toFinset_cons
  | failed => rfl
  | cleared => rfl

lemma Steps.distinct (h : Steps c log) (hc : c.Distinct) : (latest c log).Distinct := by
  induction h with
  | done => exact hc
  | step hs _ ih => exact ih (hs.distinct hc)

lemma Steps.keys_toFinset (h : Steps c log) :
    (latest c log).keys.toFinset = (log.map Moment.event).foldl known c.keys.toFinset := by
  induction h with
  | done => rfl
  | step hs _ ih => rw [latest, ih, hs.keys_toFinset, List.map_cons, List.foldl_cons]

lemma Steps.size (h : Steps c log) (hc : c.Distinct) :
    (latest c log).size = ((log.map Moment.event).foldl known c.keys.toFinset).card := by
  rw [← h.keys_toFinset, List.toFinset_card_of_nodup (h.distinct hc), keys, List.length_map]
  rfl

end Steps

/-- In the log of what began with the cache `c`, every successful call gives what is held for its key
when it returns; what is held stays until the cache is cleared; a call that fails leaves what the
calls in its parse step left; a call parses only if nothing was held for its key; and as many keys
are held as had a successful call since the last clearing, or were held before. -/
structure FirstHeld (c : Cache κ ν) (log : List (Moment κ ν ε)) : Prop where
  given : ∀ m ∈ log, ∀ key value, m.event = .returned key (.ok value) →
    m.cache.get? key = some value
  kept : ∀ earlier between later, log = earlier ++ between ++ later →
    (∀ m ∈ between, m.event ≠ .cleared) → ∀ key value,
      (latest c earlier).get? key = some value →
        (latest c (earlier ++ between)).get? key = some value
  failed : ∀ earlier key fault now later,
    log = earlier ++ ⟨.returned key (.error fault), now⟩ :: later → now = latest c earlier
  parsing : ∀ earlier key now later, log = earlier ++ ⟨.parsing key, now⟩ :: later →
    (latest c earlier).get? key = none
  size : c.Distinct → ∀ earlier later, log = earlier ++ later →
    (latest c earlier).size = ((earlier.map Moment.event).foldl known c.keys.toFinset).card

lemma Steps.firstHeld {c : Cache κ ν} {log : List (Moment κ ν ε)} (h : Steps c log) :
    FirstHeld c log := by
  have hstep {earlier later : List (Moment κ ν ε)} {m : Moment κ ν ε}
      (he : log = earlier ++ m :: later) : Step (latest c earlier) m := by
    rw [he, steps_append_iff] at h
    obtain ⟨_, _ | ⟨hm, _⟩⟩ := h
    exact hm
  constructor
  case given =>
    intro m hm key value he
    obtain ⟨earlier, later, hlog⟩ := List.append_of_mem hm
    exact (hstep hlog).given he
  case kept =>
    intro earlier between later he hnone key value hk
    rw [he, List.append_assoc, steps_append_iff, steps_append_iff] at h
    rw [latest_append]
    exact h.2.1.keeps hnone hk
  case failed =>
    intro earlier key fault now later he
    cases hstep he
    rfl
  case parsing =>
    intro earlier key now later he
    cases hstep he
    assumption
  case size =>
    intro hc earlier later he
    rw [he, steps_append_iff] at h
    exact h.1.size hc

theorem Use.firstHeld_log (use : Use κ ν ε) (c : Cache κ ν) :
    FirstHeld c (use.log c) ∧ latest c (use.log c) = (use.run c).2 ∧
      ∀ (now : Cache κ ν) (key : κ) (value : ν), now.get? key = some value →
        ∀ parse : Use κ ν ε, now.getOrParse key parse.run = (.ok value, now) := by
  obtain ⟨hsteps, hlast⟩ := use.steps_log c
  refine ⟨hsteps.firstHeld, hlast, ?_⟩
  intro now key value hk parse
  exact getOrParse_of_some hk parse.run

def Use.nested : Use Nat Nat String :=
  .call 0 (.call 0 (.done (.ok 1)) fun _ => .call 7 (.done (.error "none")) fun _ => .done (.ok 2))
    .done

theorem Use.firstHeld_log_nested :
    (empty : Cache Nat Nat).Distinct ∧ (Use.nested.run .empty).1.toOption = some 1 ∧
      (latest .empty (Use.nested.log .empty)).size =
        (((Use.nested.log .empty).map Moment.event).foldl known ∅).card ∧
      (Use.nested.run .empty).2.getOrParse 0 (Use.done (.error "none")).run =
        (.ok 1, (Use.nested.run .empty).2) := by
  obtain ⟨hfirst, _, hheld⟩ := Use.nested.firstHeld_log .empty
  have hc : (empty : Cache Nat Nat).Distinct := List.nodup_nil
  exact ⟨hc, by decide, hfirst.size hc _ [] (by simp), hheld _ 0 1 (by decide) _⟩

end JarReader.Cache
