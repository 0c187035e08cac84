import JarReader.Deflate.Decoder
import JarReader.View.Cursor

/-!
Reading a compressed stream in sequence. The data are fetched chunk by chunk, each when the one
before is used up, and the output is decoded window by window, ahead of what is handed out. A fault
spoils the reading that decodes it, with all that this reading would have handed out.
-/

namespace JarReader.Deflate

def Fault.toIo : Fault → IoFault
  | incomplete => .incompleteDeflate
  | corrupt => .corruptDeflate

def chunkSize : Nat := 32768

def windowSize : Nat := 32768

def windowEnd (size : Nat) : Nat := (size / windowSize + 1) * windowSize

structure Inflater where
  source : Cursor
  fetched : ByteArray
  used : Nat
  ended : Bool
  decoder : Decoder
  handed : Nat
  fault? : Option Fault

namespace Inflater

def ofView (view : View) : Inflater := ⟨.atStart view, .empty, 0, false, .start, 0, none⟩

def isUsedUp (r : Inflater) : Bool := r.fetched.size ≤ r.used

def ahead (r : Inflater) : Nat := r.decoder.out.size - r.handed

/-- Fetches a chunk if there is none to use. Data that turn up behind the end are refused. -/
def fetch (d : Disk) (r : Inflater) : Inflater :=
  if r.isUsedUp then
    let (chunk, source) := r.source.read d chunkSize
    if chunk.size = 0 then { r with ended := true }
    else if r.ended then { r with fault? := r.fault? <|> some .corrupt }
    else { r with source := source, fetched := r.fetched ++ chunk }
  else r

def usedAt (fetched : ByteArray) (stop : Stop) (decoder : Decoder) : Nat :=
  if stop = .fault .incomplete then fetched.size else (decoder.position + 7) / 8

def run : Inflater → Stop × Inflater
  | ⟨source, fetched, _, ended, decoder, handed, fault?⟩ =>
    let limit := windowEnd decoder.out.size
    let (stop, decoder) := decoder.run fetched limit
    (stop, ⟨source, fetched, usedAt fetched stop decoder, ended, decoder, handed, fault?⟩)

def lacking (n : Nat) (r : Inflater) : Nat := r.handed + n - r.decoder.out.size

theorem lacking_run_lt {n : Nat} {r : Inflater} (h : r.run.1 = .full)
    (hn : 0 < r.run.2.lacking n) : r.run.2.lacking n < r.lacking n := by
  have hs : windowEnd r.decoder.out.size ≤ r.run.2.decoder.out.size := Decoder.le_size_of_run_full h
  have hw : r.decoder.out.size < windowEnd r.decoder.out.size := by
    simp only [windowEnd, windowSize]
    omega
  have hh : r.run.2.handed = r.handed := rfl
  simp only [lacking] at *
  omega

def runs (n : Nat) (r : Inflater) : Stop × Inflater :=
  match _ : r.run with
  | (.full, r') =>
    if 0 < r'.lacking n ∧ (r'.ended ∨ !r'.isUsedUp) then runs n r' else (.full, r')
  | (stop, r') => (stop, r')
termination_by r.lacking n
decreasing_by
  have hl := @lacking_run_lt n r
  simp_all

theorem source_runs (n : Nat) (r : Inflater) : (r.runs n).2.source = r.source := by
  fun_induction runs n r with
  | case1 r r' h _ ih =>
    rw [ih]
    exact congrArg (·.2.source) h.symm
  | case2 r r' h => exact congrArg (·.2.source) h.symm
  | case3 r stop r' _ h => exact congrArg (·.2.source) h.symm

theorem ended_runs (n : Nat) (r : Inflater) : (r.runs n).2.ended = r.ended := by
  fun_induction runs n r with
  | case1 r r' h _ ih =>
    rw [ih]
    exact congrArg (·.2.ended) h.symm
  | case2 r r' h => exact congrArg (·.2.ended) h.symm
  | case3 r stop r' _ h => exact congrArg (·.2.ended) h.symm

theorem isUsedUp_run {r : Inflater} (h : r.run.1 = .fault .incomplete) : r.run.2.isUsedUp := by
  simp only [run, isUsedUp, usedAt] at h ⊢
  simp [h]

theorem isUsedUp_runs {n : Nat} {r : Inflater} (h : (r.runs n).1 = .fault .incomplete) :
    (r.runs n).2.isUsedUp := by
  fun_induction runs n r with
  | case1 r r' _ _ ih => exact ih h
  | case2 => simp at h
  | case3 r stop r' _ hr =>
    subst h
    have hi := @isUsedUp_run r
    simp_all

def toFetch (r : Inflater) : Nat := 2 * r.source.remaining + if r.ended then 0 else 1

theorem toFetch_fetch_lt (d : Disk) {r : Inflater} (hu : r.isUsedUp) (he : r.ended = false) :
    (r.fetch d).toFetch < r.toFetch := by
  simp only [fetch, hu, he, if_true]
  split
  · simp [toFetch, he]
  · have := r.source.remaining_read_lt d chunkSize ‹_›
    simp [toFetch, he]
    omega

def decodeAhead (d : Disk) (n : Nat) (r : Inflater) : Stop × Inflater :=
  match _ : r.runs n with
  | (.fault .incomplete, r') =>
    if r'.ahead = 0 ∧ r'.ended = false then decodeAhead d n (r'.fetch d)
    else (.fault .incomplete, r')
  | (stop, r') => (stop, r')
termination_by r.toFetch
decreasing_by
  have hs := source_runs n r
  have he := ended_runs n r
  have hu := @isUsedUp_runs n r
  have hf := @toFetch_fetch_lt d r'
  simp_all [toFetch]

def take (n : Nat) (r : Inflater) : ByteArray × Inflater :=
  let part := r.decoder.out.extract r.handed (r.handed + n)
  (part, { r with handed := r.handed + part.size })

/-- One reading of at most `n` bytes; no bytes, unless `n` is zero, mean the end. What is decoded
without any more data is handed out by the reading that decodes it, or not at all. -/
def readSome (d : Disk) (n : Nat) (r : Inflater) : Except Fault ByteArray × Inflater :=
  let hand := fun (r : Inflater) =>
    let (part, r) := r.take n
    (.ok part, r)
  let r := r.fetch d
  match r.fault? with
  | some fault => (.error fault, r)
  | none =>
    if 0 < r.ahead then hand r
    else
      match r.decodeAhead d n with
      | (.fault .corrupt, r) => (.error .corrupt, { r with fault? := some .corrupt })
      | (.fault .incomplete, r) =>
        let r := if r.ended then { r with fault? := some .incomplete } else r
        if 0 < r.ahead then hand r else (.error .incomplete, r)
      | (_, r) => hand r

def read (d : Disk) (n : Nat) (r : Inflater) (done : ByteArray) :
    Except Fault ByteArray × Inflater :=
  if n = 0 then (.ok done, r)
  else
    match r.readSome d n with
    | (.error fault, r) => (.error fault, r)
    | (.ok part, r) =>
      if 0 < part.size then read d (n - part.size) r (done ++ part) else (.ok done, r)
termination_by n

def readings (d : Disk) (n : Nat) : (count : Nat) → Inflater → ByteArray →
    (ByteArray × Option Fault) × Inflater
  | 0, r, done => ((done, none), r)
  | count + 1, r, done =>
    match r.readSome d n with
    | (.error fault, r) => ((done, some fault), r)
    | (.ok part, r) =>
      if 0 < part.size then readings d n count r (done ++ part) else ((done, none), r)

/-- How many readings there can be at most: a bit of data stands for at most 258 bytes of output, and
the last reading gives none. -/
def readingBound (r : Inflater) : Nat := 258 * (8 * r.source.view.length) + 1

def drain (d : Disk) (n : Nat) (r : Inflater) : (ByteArray × Option Fault) × Inflater :=
  r.readings d n r.readingBound .empty

end Inflater
end JarReader.Deflate
