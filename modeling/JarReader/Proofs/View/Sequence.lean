import JarReader.Proofs.Guarded.Views
import JarReader.Proofs.Jar.Opening
import JarReader.Zip.Writing
import Mathlib.Algebra.Group.Int.Defs
import Mathlib.Algebra.GroupWithZero.Nat

/-! Sequences of readings and seeks. A cursor goes through them as a position does that is reckoned
in integers, and so does one reckoned in words; stored entries read the same in any portions. -/

namespace JarReader

namespace Cursor

inductive Request where
  | read (buffer : ByteArray)
  | fromStart (target : UInt64)
  | fromEnd (distance : Int64)
  | fromCurrent (distance : Int64)

inductive Reply where
  | bytes (bytes : ByteArray)
  | moved (position : Nat)
  | refused (fault : IoFault)

def seekTo (c : Cursor) (s : Seek) : Reply × Cursor :=
  match c.seek s with
  | .ok next => (.moved next.position, next)
  | .error fault => (.refused fault, c)

def step (d : Disk) (c : Cursor) : Request → Reply × Cursor
  | .read buffer => (.bytes (c.read d buffer.size).1, (c.read d buffer.size).2)
  | .fromStart target => c.seekTo (.start target.toNat)
  | .fromEnd distance => c.seekTo (.fromEnd distance.toInt)
  | .fromCurrent distance => c.seekTo (.fromCurrent distance.toInt)

def run (d : Disk) : Cursor → List Request → List Reply × Cursor
  | c, [] => ([], c)
  | c, r :: rs => ((c.step d r).1 :: (run d (c.step d r).2 rs).1, (run d (c.step d r).2 rs).2)

def moveTo (p : Nat) (target : Int) : Reply × Nat :=
  if 0 ≤ target ∧ target < 2 ^ 64 then (.moved target.toNat, target.toNat)
  else (.refused .invalidSeek, p)

def answer (content : ByteArray) (p : Nat) : Request → Reply × Nat
  | .read buffer =>
    let slice := content.extract p (min (p + buffer.size) content.size)
    (.bytes slice, p + slice.size)
  | .fromStart target => moveTo p target.toNat
  | .fromEnd distance => moveTo p (content.size + distance.toInt)
  | .fromCurrent distance => moveTo p (p + distance.toInt)

def follow (content : ByteArray) : Nat → List Request → List Reply × Nat
  | p, [] => ([], p)
  | p, r :: rs =>
    let (replies, last) := follow content (answer content p r).2 rs
    ((answer content p r).1 :: replies, last)

def Reply.isRefused : Reply → Bool
  | .refused _ => true
  | _ => false

def kept (content : ByteArray) : Nat → List Request → List Request
  | _, [] => []
  | p, r :: rs =>
    if (answer content p r).1.isRefused then kept content p rs
    else r :: kept content (answer content p r).2 rs

lemma answer_of_isRefused {content : ByteArray} {p : Nat} {r : Request}
    (h : (answer content p r).1.isRefused) : answer content p r = (.refused .invalidSeek, p) := by
  have hmove {target : Int} (h : (moveTo p target).1.isRefused) :
      moveTo p target = (.refused .invalidSeek, p) := by
    unfold moveTo at h ⊢
    split at h
    · cases h
    · exact if_neg ‹_›
  cases r with
  | read buffer => cases h
  | fromStart target => exact hmove h
  | fromEnd distance => exact hmove h
  | fromCurrent distance => exact hmove h

lemma eq_invalidSeek_of_mem {content : ByteArray} {p : Nat} {rs : List Request} {fault : IoFault}
    (h : .refused fault ∈ (follow content p rs).1) : fault = .invalidSeek := by
  induction rs generalizing p with
  | nil => cases h
  | cons r rs ih =>
    cases List.mem_cons.mp h with
    | inl hr =>
      have hanswer : answer content p r = (.refused .invalidSeek, p) :=
        answer_of_isRefused (hr ▸ rfl)
      rw [hanswer] at hr
      exact Reply.refused.inj hr
    | inr hrs => exact ih hrs

lemma follow_kept (content : ByteArray) (p : Nat) (rs : List Request) :
    follow content p (kept content p rs) =
      (follow content p rs).map (List.filter (!·.isRefused)) id := by
  induction rs generalizing p with
  | nil => rfl
  | cons r rs ih =>
    by_cases hr : (answer content p r).1.isRefused
    · rw [kept, if_pos hr, ih, follow, answer_of_isRefused hr]
      rfl
    · rw [kept, if_neg hr, follow, ih, follow]
      simp [hr]

lemma seekTo_eq {c : Cursor} {s : Seek} {target : Int} (h : c.target? s = inRange target) :
    c.seekTo s = (moveTo c.position target).map id (Cursor.mk c.view) := by
  have hsize : (UInt64.size : Int) = 2 ^ 64 := rfl
  rw [seekTo, seek, h, inRange, moveTo, hsize]
  by_cases ht : 0 ≤ target ∧ target < 2 ^ 64
  · rw [if_pos ht, if_pos ht]
    rfl
  · rw [if_neg ht, if_neg ht]
    rfl

lemma moveTo_lt {p : Nat} (hp : p < UInt64.size) (target : Int) :
    (moveTo p target).2 < UInt64.size := by
  have hsize : UInt64.size = 2 ^ 64 := rfl
  unfold moveTo
  split
  · dsimp only
    omega
  · exact hp

section Content

variable {d : Disk} {v : View} (hv : v.Whole d)
include hv

lemma step_eq (p : Nat) (r : Request) :
    step d ⟨v, p⟩ r = (answer (v.bytes d) p r).map id (Cursor.mk v) := by
  cases r with
  | read buffer =>
    rw [answer, Bytes.extract_min, ← View.read_eq]
    rfl
  | fromStart target =>
    rw [step, answer]
    exact seekTo_eq rfl
  | fromEnd distance =>
    rw [step, answer, hv.size_bytes]
    exact seekTo_eq rfl
  | fromCurrent distance => exact seekTo_eq rfl

lemma run_eq (p : Nat) (rs : List Request) :
    run d ⟨v, p⟩ rs = (follow (v.bytes d) p rs).map id (Cursor.mk v) := by
  induction rs generalizing p with
  | nil => rfl
  | cons r rs ih =>
    simp only [run, step_eq hv, Prod.map_fst, Prod.map_snd, ih]
    rfl

end Content

end Cursor

namespace Guarded

open Cursor

/-- The sum modulo 2^64; none if it is smaller than `a` for no negative `n`, or not for one. -/
def addSigned? (a : UInt64) (n : Int64) : Option UInt64 :=
  if decide (a + n.toUInt64 < a) = decide (n < 0) then some (a + n.toUInt64) else none

def saturatingSub (a b : UInt64) : UInt64 := if b ≤ a then a - b else 0

def seekTo (p : UInt64) : Option UInt64 → Reply × UInt64
  | some target => (.moved target.toNat, target)
  | none => (.refused .invalidSeek, p)

def step (d : Disk) (grant : Nat → Nat) (v : View) (p : UInt64) : Request → Option (Reply × UInt64)
  | .read buffer => do
    let (n, filled) ← readInto d grant v p.toNat buffer
    let next ← sum p.toNat n
    return (.bytes (filled.extract 0 n), .ofNat next)
  | .fromStart target => some (seekTo p (some target))
  | .fromEnd distance => some (seekTo p (addSigned? (.ofNat v.length) distance))
  | .fromCurrent distance => some (seekTo p (addSigned? p distance))

/-- The system grants what it likes at each turn; turns are counted from the last one. -/
def run (d : Disk) (grant : Nat → Nat → Nat) (v : View) :
    UInt64 → List Request → Option (List Reply × UInt64)
  | p, [] => some ([], p)
  | p, r :: rs => do
    let (reply, next) ← step d (grant rs.length) v p r
    let (replies, last) ← run d grant v next rs
    return (reply :: replies, last)

lemma toInt_eq (n : Int64) :
    n.toInt = if 2 * n.toUInt64.toNat < 2 ^ 64 then (n.toUInt64.toNat : Int)
      else n.toUInt64.toNat - 2 ^ 64 :=
  BitVec.toInt_eq_toNat_cond _

lemma seekTo_addSigned? (p a : UInt64) (n : Int64) :
    seekTo p (addSigned? a n) =
      (moveTo p.toNat (a.toNat + n.toInt)).map id UInt64.ofNat := by
  have ha := a.toNat_lt
  have hn := n.toUInt64.toNat_lt
  have hint := toInt_eq n
  have hrange : decide (a + n.toUInt64 < a) = decide (n < 0) ↔
      0 ≤ (a.toNat + n.toInt : Int) ∧ (a.toNat + n.toInt : Int) < 2 ^ 64 := by
    rw [decide_eq_decide, UInt64.lt_iff_toNat_lt, Int64.lt_iff_toInt_lt, UInt64.toNat_add, hint,
      Int64.toInt_zero]
    split <;> omega
  rw [addSigned?, moveTo]
  -- The carry contradicts the sign exactly when the sum of the integers is no word.
  by_cases h : 0 ≤ (a.toNat + n.toInt : Int) ∧ (a.toNat + n.toInt : Int) < 2 ^ 64
  · have hsum : (a + n.toUInt64).toNat = (a.toNat + n.toInt : Int).toNat := by
      rw [UInt64.toNat_add]
      split at hint <;> omega
    rw [if_pos (hrange.mpr h), if_pos h, seekTo, ← hsum, Prod.map_apply, UInt64.ofNat_toNat, id]
  · rw [if_neg (mt hrange.mp h), if_neg h, seekTo, Prod.map_apply, UInt64.ofNat_toNat, id]

lemma toNat_saturatingSub (a b : UInt64) : (saturatingSub a b).toNat = a.toNat - b.toNat := by
  unfold saturatingSub
  split
  · rename_i h
    exact UInt64.toNat_sub_of_le _ _ h
  · rename_i h
    rw [UInt64.le_iff_toNat_le] at h
    exact (Nat.sub_eq_zero_of_le (by omega)).symm

section Words

variable {d : Disk} {v : View} (hv : Sound d v)
include hv

lemma answer_lt {p : Nat} (hp : p < UInt64.size) (r : Request) :
    (answer (v.bytes d) p r).2 < UInt64.size := by
  cases r with
  | read buffer =>
    have hs := hv.length_lt
    simp only [answer, ByteArray.size_extract, hv.whole.size_bytes]
    omega
  | fromStart target => exact moveTo_lt hp _
  | fromEnd distance => exact moveTo_lt hp _
  | fromCurrent distance => exact moveTo_lt hp _

lemma follow_lt {p : Nat} (hp : p < UInt64.size) (rs : List Request) :
    (follow (v.bytes d) p rs).2 < UInt64.size := by
  induction rs generalizing p with
  | nil => exact hp
  | cons r rs ih => exact ih (answer_lt hv hp r)

lemma step_eq (grant : Nat → Nat) {p : Nat} (hp : p < UInt64.size) (r : Request) :
    step d grant v (.ofNat p) r =
      some ((answer (v.bytes d) p r).map id UInt64.ofNat) := by
  have hword : (UInt64.ofNat p).toNat = p := UInt64.toNat_ofNat_of_lt' hp
  cases r with
  | read buffer =>
    have hlt := answer_lt hv hp (.read buffer)
    have hbytes : ((v.bytes d).extract p (p + buffer.size)).size =
        min buffer.size (v.length - p) := by
      rw [ByteArray.size_extract, hv.whole.size_bytes]
      omega
    rw [answer, Bytes.extract_min, hbytes] at hlt ⊢
    simp only [step, hword, readInto_eq hv, View.readInto, View.read_eq, hbytes,
      Option.bind_eq_bind, Option.bind_some, sum_eq hlt]
    rw [ByteArray.extract_append_eq_left hbytes.symm]
    rfl
  | fromStart target =>
    have htarget : 0 ≤ (target.toNat : Int) ∧ (target.toNat : Int) < 2 ^ 64 := by
      have := target.toNat_lt
      omega
    rw [step, answer, moveTo, if_pos htarget, seekTo, Prod.map_apply, Int.toNat_natCast,
      UInt64.ofNat_toNat, id]
  | fromEnd distance =>
    have hlength : (UInt64.ofNat v.length).toNat = (v.bytes d).size := by
      have hs := hv.length_lt
      rw [hv.whole.size_bytes, UInt64.toNat_ofNat_of_lt' (by omega)]
    rw [step, answer, seekTo_addSigned?, hlength, hword]
  | fromCurrent distance =>
    rw [step, answer, seekTo_addSigned?, hword]

lemma run_eq (grant : Nat → Nat → Nat) {p : Nat} (hp : p < UInt64.size) (rs : List Request) :
    run d grant v (.ofNat p) rs = some ((follow (v.bytes d) p rs).map id UInt64.ofNat) := by
  -- Every position on the way is a word, which is what the next step needs.
  induction rs generalizing p with
  | nil => rfl
  | cons r rs ih =>
    simp only [run, step_eq hv _ hp, Option.bind_eq_bind, Option.bind_some, Prod.map_fst,
      Prod.map_snd, ih (answer_lt hv hp r)]
    rfl

end Words

end Guarded

namespace ContentReader

def portions (d : Disk) : ContentReader → List Nat → Except IoFault ByteArray
  | _, [] => .ok .empty
  | r, n :: ns => do
    let bytes ← (r.read d n).1
    return bytes ++ (← portions d (r.read d n).2 ns)

lemma extract_append_extract (b : ByteArray) (p n m : Nat) :
    b.extract p (p + n) ++
        b.extract (p + (b.extract p (p + n)).size) (p + (b.extract p (p + n)).size + m) =
      b.extract p (p + (n + m)) := by
  by_cases hn : p + n ≤ b.size
  · have hs : (b.extract p (p + n)).size = n := by
      rw [ByteArray.size_extract]
      omega
    rw [hs, Nat.add_assoc, ← ByteArray.extract_eq_extract_append_extract] <;> omega
  · have hs : (b.extract p (p + n)).size = b.size - p := by
      rw [ByteArray.size_extract]
      omega
    have hrest : b.extract (p + (b.size - p)) (p + (b.size - p) + m) = .empty := by
      rw [ByteArray.extract_eq_empty_iff]
      omega
    have hend : min (p + (n + m)) b.size = min (p + n) b.size := by omega
    rw [hs, hrest, ByteArray.append_empty, ← Bytes.extract_min b p (p + n), ← hend,
      Bytes.extract_min]

lemma portions_stored (d : Disk) (v : View) (p : Nat) (ns : List Nat) :
    (stored ⟨v, p⟩).portions d ns = .ok ((v.bytes d).extract p (p + ns.sum)) := by
  induction ns generalizing p with
  | nil => simp [portions]
  | cons n ns ih =>
    have hread : (stored ⟨v, p⟩).read d n = (.ok ((v.bytes d).extract p (p + n)),
        stored ⟨v, p + ((v.bytes d).extract p (p + n)).size⟩) := by
      rw [← View.read_eq]
      rfl
    simp only [portions, hread, ih, bind, Except.bind, pure, Except.pure]
    rw [extract_append_extract, List.sum_cons]

end ContentReader

open Cursor

structure View.Followed (d : Disk) (v : View) (rs : List Request) : Prop where
  run : (atStart v).run d rs = (follow (v.bytes d) 0 rs).map id (Cursor.mk v)
  remaining : ((atStart v).run d rs).2.remaining = (v.bytes d).size - (follow (v.bytes d) 0 rs).2
  refused : ∀ fault, .refused fault ∈ ((atStart v).run d rs).1 → fault.kind = .invalidInput
  withoutRefused : (atStart v).run d (kept (v.bytes d) 0 rs) =
    ((atStart v).run d rs).map (List.filter (!·.isRefused)) id
  position_lt : (follow (v.bytes d) 0 rs).2 < 2 ^ 64
  inWords : ∀ grant, Guarded.run d grant v 0 rs =
    some ((follow (v.bytes d) 0 rs).map id UInt64.ofNat)
  remainingInWords :
    (Guarded.saturatingSub (.ofNat v.length) (.ofNat (follow (v.bytes d) 0 rs).2)).toNat =
      (v.bytes d).size - (follow (v.bytes d) 0 rs).2

lemma View.followed {d : Disk} {v : View} (hv : Guarded.Sound d v) (rs : List Request) :
    v.Followed d rs := by
  have hrun (rs : List Request) := Cursor.run_eq hv.whole 0 rs
  have hlt : (follow (v.bytes d) 0 rs).2 < UInt64.size := Guarded.follow_lt hv (by decide) rs
  have hlength : v.length < UInt64.size := by
    have := hv.length_lt
    omega
  refine ⟨hrun rs, ?_, fun fault hf => ?_, ?_, hlt, fun grant => ?_, ?_⟩
  · rw [atStart, hrun, Cursor.remaining, hv.whole.size_bytes]
    rfl
  · rw [atStart, hrun] at hf
    rw [eq_invalidSeek_of_mem hf]
    rfl
  · rw [atStart, hrun, hrun, follow_kept]
    rfl
  · exact Guarded.run_eq hv grant (by decide) rs
  · rw [Guarded.toNat_saturatingSub, UInt64.toNat_ofNat_of_lt' hlength,
      UInt64.toNat_ofNat_of_lt' hlt, hv.whole.size_bytes]

/-- Whatever is asked of a cursor, it replies as a position in the bytes of its view, and stored
entries give the same bytes in whatever portions they are read. -/
theorem sequence_reads_slices (d : Disk) :
    (∀ v, Guarded.Sound d v → ∀ requests, v.Followed d requests) ∧
      ∀ (j : Jar) name e, j.entry? name = some e → e.method = .stored →
        Matched (fun whole r => ∃ content, whole = some content ∧ ∀ rooms,
            r.portions d rooms = .ok (content.extract 0 rooms.sum) ∧
              (content.size ≤ rooms.sum → r.portions d rooms = .ok content))
          (j.content? d name) (j.openEntry d e) := by
  refine ⟨fun v hv => v.followed hv, fun j name e he hs => ?_⟩
  rw [Jar.content?, he]
  dsimp only
  rw [Jar.entryContent_stored hs]
  simp only [Jar.openEntry, bind, Except.bind, hs]
  cases j.entryData d e with
  | error failure => exact .error failure
  | ok v =>
    have hportions (rooms : List Nat) : (ContentReader.stored (.atStart v)).portions d rooms =
        .ok ((v.bytes d).extract 0 rooms.sum) := by
      rw [atStart, ContentReader.portions_stored, Nat.zero_add]
    refine .ok ⟨v.bytes d, rfl, fun rooms => ⟨hportions rooms, fun hrooms => ?_⟩⟩
    rw [hportions, ← Bytes.extract_min, Nat.min_eq_right hrooms, ByteArray.extract_zero_size]

def payload : View := ⟨.memory "headerPAYLOADtrailer".toUTF8, 6, 7⟩

def payloadRequests : List Request :=
  [.read ⟨.replicate 9 0⟩, .fromEnd (-4), .fromCurrent (-10), .read ⟨.replicate 2 0⟩,
    .fromStart 0xFFFFFFFFFFFFFFFF, .fromCurrent 1, .read ⟨.replicate 1 0⟩, .fromEnd (-7),
    .read ⟨.replicate 3 0⟩]

def storedBytes : ByteArray :=
  (Zip.Archive.mk [⟨"a".toUTF8, "xyz".toUTF8, .empty, 0⟩] .empty false).bytes

theorem sequence_reads_slices_payload :
    Guarded.Sound (.empty []) payload ∧ payload.Followed (.empty []) payloadRequests ∧
      follow (payload.bytes (.empty [])) 0 payloadRequests =
        ([.bytes "PAYLOAD".toUTF8, .moved 3, .refused .invalidSeek, .bytes "LO".toUTF8,
          .moved (2 ^ 64 - 1), .refused .invalidSeek, .bytes .empty, .moved 0,
          .bytes "PAY".toUTF8], 3) ∧
      ∃ (j : Jar) (e : Entry) (r : ContentReader),
        j.entry? "a" = some e ∧ e.method = .stored ∧ j.openEntry (.empty []) e = .ok r ∧
        r.portions (.empty []) [2, 0, 5] = .ok "xyz".toUTF8 := by
  have hsound : Guarded.Sound (.empty []) payload := by
    constructor
    · change 13 ≤ ("headerPAYLOADtrailer".toUTF8).size
      decide +kernel
    · decide +kernel
  obtain ⟨hviews, hjars⟩ := sequence_reads_slices (.empty [])
  refine ⟨hsound, hviews _ hsound _, rfl, ?_⟩
  have hs : (Jar.ofData (.empty []) (.ofBytes storedBytes) "a.jar").toOption.any (fun j =>
      (j.entry? "a").any fun e => e.method = .stored &&
        (j.content? (.empty []) "a").toOption == some (some "xyz".toUTF8)) = true := by
    decide +kernel
  obtain ⟨j, hj, hs⟩ := Jar.exists_eq_ok_of_any hs
  simp only [Option.any_eq_true, Bool.and_eq_true, decide_eq_true_eq, beq_iff_eq] at hs
  obtain ⟨e, he, hstored, hcontent⟩ := hs
  have hmatched := hjars j "a" e he hstored
  generalize j.content? (.empty []) "a" = whole at hcontent hmatched
  generalize hr : j.openEntry (.empty []) e = opened at hmatched
  cases hmatched with
  | error failure => cases hcontent
  | ok h =>
    obtain ⟨content, rfl, hrooms⟩ := h
    obtain rfl : content = "xyz".toUTF8 := by simpa [Except.toOption] using hcontent
    exact ⟨j, e, _, he, hstored, hr, (hrooms [2, 0, 5]).2 (by decide +kernel)⟩

end JarReader
