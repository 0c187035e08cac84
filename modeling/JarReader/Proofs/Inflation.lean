import JarReader.Deflate.Stream
import JarReader.Proofs.View

namespace JarReader

structure Cursor.Alike (d : Disk) (c e : Cursor) : Prop where
  view : c.view.Alike d e.view
  position : c.position = e.position

lemma Cursor.Alike.remaining {d : Disk} {c e : Cursor} (h : Alike d c e) :
    c.remaining = e.remaining := by
  simp only [Cursor.remaining, h.view.length, h.position]

lemma Cursor.Alike.read_fst {d : Disk} {c e : Cursor} (h : Alike d c e) (n : Nat) :
    (c.read d n).1 = (e.read d n).1 := by
  simp only [Cursor.read, h.view.read, h.position]

lemma Cursor.Alike.read_snd {d : Disk} {c e : Cursor} (h : Alike d c e) (n : Nat) :
    Alike d (c.read d n).2 (e.read d n).2 := by
  refine ⟨h.view, ?_⟩
  simp only [Cursor.read, h.view.read, h.position]

lemma Cursor.alike_atStart {d : Disk} {v w : View} (h : v.Alike d w) :
    Alike d (atStart v) (atStart w) := ⟨h, rfl⟩

namespace Deflate.Inflater

def withSource (r : Inflater) (c : Cursor) : Inflater := { r with source := c }

structure Alike (d : Disk) (r s : Inflater) : Prop where
  source : r.source.Alike d s.source
  rest : s = r.withSource s.source

variable {d : Disk}

lemma Alike.ahead {r s : Inflater} (h : Alike d r s) : s.ahead = r.ahead := by
  rw [h.rest]
  rfl

lemma Alike.ended {r s : Inflater} (h : Alike d r s) : s.ended = r.ended := by
  rw [h.rest]
  rfl

lemma Alike.fault? {r s : Inflater} (h : Alike d r s) : s.fault? = r.fault? := by
  rw [h.rest]
  rfl

lemma Alike.take {r s : Inflater} (h : Alike d r s) (n : Nat) :
    (s.take n).1 = (r.take n).1 ∧ Alike d (r.take n).2 (s.take n).2 := by
  rw [h.rest]
  exact ⟨rfl, h.source, rfl⟩

lemma run_withSource (r : Inflater) (c : Cursor) :
    (r.withSource c).run = (r.run.1, r.run.2.withSource c) := rfl

lemma runs_of_full {n : Nat} {r r' : Inflater} (h : r.run = (.full, r')) :
    r.runs n =
      if 0 < r'.lacking n ∧ (r'.ended ∨ !r'.isUsedUp) then r'.runs n else (.full, r') := by
  rw [runs]
  split
  · rename_i s hs
    cases hs.symm.trans h
    rfl
  · rename_i stop s hne hs
    cases hs.symm.trans h
    exact (hne rfl).elim

lemma runs_of_ne_full {n : Nat} {r r' : Inflater} {stop : Stop} (h : r.run = (stop, r'))
    (hne : stop ≠ .full) : r.runs n = (stop, r') := by
  rw [runs]
  split
  · rename_i s hs
    cases hs.symm.trans h
    exact (hne rfl).elim
  · rename_i stop s _ hs
    exact hs.symm.trans h

lemma runs_withSource (n : Nat) (r : Inflater) (c : Cursor) :
    (r.withSource c).runs n = ((r.runs n).1, (r.runs n).2.withSource c) := by
  fun_induction runs n r with
  | case1 r r' h hl ih =>
    have hr : (r.withSource c).run = (.full, r'.withSource c) := by rw [run_withSource, h]
    rw [runs_of_full hr]
    exact (if_pos hl).trans ih
  | case2 r r' h hl =>
    have hr : (r.withSource c).run = (.full, r'.withSource c) := by rw [run_withSource, h]
    rw [runs_of_full hr]
    exact if_neg hl
  | case3 r stop r' hne h =>
    have hr : (r.withSource c).run = (stop, r'.withSource c) := by rw [run_withSource, h]
    exact runs_of_ne_full hr hne

lemma Alike.runs {r s r' : Inflater} {stop : Stop} {n : Nat} (h : Alike d r s)
    (hr : r.runs n = (stop, r')) : ∃ s', s.runs n = (stop, s') ∧ Alike d r' s' := by
  obtain ⟨hs, hrest⟩ := h
  have hsource : r'.source = r.source := by rw [← source_runs n r, hr]
  refine ⟨r'.withSource s.source, ?_, hsource ▸ hs, rfl⟩
  rw [hrest, runs_withSource, hr]
  rfl

lemma Alike.fetch {r s : Inflater} (h : Alike d r s) : Alike d (r.fetch d) (s.fetch d) := by
  obtain ⟨hs, hr⟩ := h
  generalize s.source = c at hs hr
  subst hr
  have hc : (r.withSource c).source = c := rfl
  have hu : (r.withSource c).isUsedUp = r.isUsedUp := rfl
  have he : (r.withSource c).ended = r.ended := rfl
  have hn := hs.read_snd chunkSize
  simp only [Inflater.fetch, hc, hu, he, ← hs.read_fst chunkSize]
  by_cases hused : r.isUsedUp
  · simp only [if_pos hused]
    split
    · exact ⟨hs, rfl⟩
    · split
      · exact ⟨hs, rfl⟩
      · exact ⟨hn, rfl⟩
  · simp only [if_neg hused]
    exact ⟨hs, rfl⟩

lemma decodeAhead_of_incomplete {n : Nat} {r r' : Inflater}
    (h : r.runs n = (.fault .incomplete, r')) :
    r.decodeAhead d n =
      if r'.ahead = 0 ∧ r'.ended = false then (r'.fetch d).decodeAhead d n
      else (.fault .incomplete, r') := by
  rw [Inflater.decodeAhead]
  split
  · rename_i s hs
    cases hs.symm.trans h
    rfl
  · rename_i stop s hne hs
    cases hs.symm.trans h
    exact (hne rfl).elim

lemma decodeAhead_of_ne_incomplete {n : Nat} {r r' : Inflater} {stop : Stop}
    (h : r.runs n = (stop, r')) (hne : stop ≠ .fault .incomplete) :
    r.decodeAhead d n = (stop, r') := by
  rw [Inflater.decodeAhead]
  split
  · rename_i s hs
    cases hs.symm.trans h
    exact (hne rfl).elim
  · rename_i stop s _ hs
    exact hs.symm.trans h

lemma Alike.decodeAhead {r s : Inflater} (h : Alike d r s) (n : Nat) :
    ∃ s', s.decodeAhead d n = ((r.decodeAhead d n).1, s') ∧
      Alike d (r.decodeAhead d n).2 s' := by
  fun_induction Inflater.decodeAhead d n r generalizing s with
  | case1 r r' hr hl ih =>
    obtain ⟨s', hs, h'⟩ := h.runs hr
    rw [decodeAhead_of_incomplete hs, h'.ahead, h'.ended, if_pos hl]
    exact ih h'.fetch
  | case2 r r' hr hl =>
    obtain ⟨s', hs, h'⟩ := h.runs hr
    rw [decodeAhead_of_incomplete hs, h'.ahead, h'.ended, if_neg hl]
    exact ⟨s', rfl, h'⟩
  | case3 r stop r' hne hr =>
    obtain ⟨s', hs, h'⟩ := h.runs hr
    exact ⟨s', decodeAhead_of_ne_incomplete hs hne, h'⟩

lemma Alike.setFault {r s : Inflater} (h : Alike d r s) (fault : Option Fault) :
    Alike d { r with fault? := fault } { s with fault? := fault } := by
  rw [h.rest]
  exact ⟨h.source, rfl⟩

lemma Alike.readSome {r s : Inflater} (h : Alike d r s) (n : Nat) :
    ∃ s', s.readSome d n = ((r.readSome d n).1, s') ∧ Alike d (r.readSome d n).2 s' := by
  have hf := h.fetch
  simp only [Inflater.readSome, hf.fault?, hf.ahead]
  cases (r.fetch d).fault? with
  | some fault => exact ⟨_, rfl, hf⟩
  | none =>
    by_cases ha : 0 < (r.fetch d).ahead
    · simp only [if_pos ha]
      rw [(hf.take n).1]
      exact ⟨_, rfl, (hf.take n).2⟩
    · simp only [if_neg ha]
      obtain ⟨s', hs, h'⟩ := hf.decodeAhead n
      rw [hs]
      generalize (r.fetch d).decodeAhead d n = result at h'
      cases result with
      | mk stop r' =>
        dsimp only at h' ⊢
        cases stop with
        | full =>
          dsimp only
          rw [(h'.take n).1]
          exact ⟨_, rfl, (h'.take n).2⟩
        | finished =>
          dsimp only
          rw [(h'.take n).1]
          exact ⟨_, rfl, (h'.take n).2⟩
        | fault fault =>
          cases fault with
          | corrupt => exact ⟨_, rfl, h'.setFault _⟩
          | incomplete =>
            have hi : Alike d (if r'.ended then { r' with fault? := some .incomplete } else r')
                (if s'.ended then { s' with fault? := some .incomplete } else s') := by
              by_cases he : r'.ended
              · rw [if_pos he, if_pos (h'.ended.trans he)]
                exact h'.setFault _
              · rw [if_neg he, if_neg (h'.ended ▸ he)]
                exact h'
            dsimp only
            generalize (if r'.ended then { r' with fault? := some .incomplete } else r') = r₁ at hi ⊢
            generalize (if s'.ended then { s' with fault? := some .incomplete } else s') = s₁ at hi ⊢
            rw [hi.ahead]
            split
            · rw [(hi.take n).1]
              exact ⟨_, rfl, (hi.take n).2⟩
            · exact ⟨_, rfl, hi⟩

lemma Alike.readings {r s : Inflater} (h : Alike d r s) (n count : Nat) (done : ByteArray) :
    (s.readings d n count done).1 = (r.readings d n count done).1 := by
  induction count generalizing r s done with
  | zero => rfl
  | succ count ih =>
    obtain ⟨s', hs, h'⟩ := h.readSome n
    rw [Inflater.readings, Inflater.readings, hs]
    generalize r.readSome d n = outcome at h'
    cases outcome with
    | mk result r' =>
      cases result with
      | error fault => rfl
      | ok part =>
        dsimp only at h' ⊢
        split
        · exact ih h' _
        · rfl

lemma Alike.drain {r s : Inflater} (h : Alike d r s) (n : Nat) :
    (s.drain d n).1 = (r.drain d n).1 := by
  have hb : s.readingBound = r.readingBound := by
    simp only [readingBound, h.source.view.length]
  rw [Inflater.drain, Inflater.drain, hb]
  exact h.readings _ _ _

lemma alike_ofView {v w : View} (h : v.Alike d w) : Alike d (ofView v) (ofView w) :=
  ⟨Cursor.alike_atStart h, rfl⟩

end Deflate.Inflater
end JarReader
