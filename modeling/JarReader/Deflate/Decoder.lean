import JarReader.Deflate.Block

/-!
Decoding a compressed stream piece by piece. A decoder goes on from where it stands until the data
end, the output has reached a limit, or the stream is finished or at fault. It keeps the output so
far, to which later parts of the stream refer.
-/

namespace JarReader.Deflate

inductive Stop where
  | full
  | finished
  | fault (fault : Fault)
  deriving DecidableEq, Repr

structure Decoder where
  stage : Stage
  position : Nat
  /-- What has been read but found no room in the output. -/
  held? : Option Addition
  out : ByteArray

/-- Decodes until the output has `limit` bytes and more would follow. What the data end within is
left to be read again. -/
def decode (b : ByteArray) (limit : Nat) (stage : Stage) (i : Nat) (out : ByteArray) :
    Stop × Decoder :=
  match stage with
  | .done => (.finished, ⟨.done, i, none, out⟩)
  | .header =>
    match takeHeader b i with
    | .error fault => (.fault fault, ⟨.header, i, none, out⟩)
    | .ok (stage, j) =>
      if i < j ∧ j ≤ bitCount b then decode b limit stage j out
      else (.fault .corrupt, ⟨stage, j, none, out⟩)
  | .stored isLast left =>
    let first := i / 8
    let count := min left (min (limit - out.size) (b.size - first))
    if 0 < count then
      decode b limit (.ofStored isLast (left - count)) (8 * (first + count))
        (out ++ b.extract first (first + count))
    else
      (if out.size < limit then .fault .incomplete else .full, ⟨.stored isLast left, i, none, out⟩)
  | .symbols isLast literals distances =>
    match takeAddition b literals distances out.size i with
    | .error fault => (.fault fault, ⟨.symbols isLast literals distances, i, none, out⟩)
    | .ok (none, j) =>
      if i < j ∧ j ≤ bitCount b then decode b limit (.behind isLast) j out
      else (.fault .corrupt, ⟨.behind isLast, j, none, out⟩)
    | .ok (some addition, j) =>
      match addition.write limit out with
      | (some rest, out) => (.full, ⟨.symbols isLast literals distances, j, some rest, out⟩)
      | (none, out) =>
        if i < j ∧ j ≤ bitCount b then decode b limit (.symbols isLast literals distances) j out
        else (.fault .corrupt, ⟨.symbols isLast literals distances, j, none, out⟩)
termination_by bitCount b - i
decreasing_by all_goals simp only [bitCount] at *; omega

theorem le_size_of_decode_full {b : ByteArray} {limit i : Nat} {stage : Stage} {out : ByteArray}
    (h : (decode b limit stage i out).1 = .full) :
    limit ≤ (decode b limit stage i out).2.out.size := by
  fun_induction decode b limit stage i out with
  | case10 => exact Addition.le_size_of_write ‹_›
  | _ => simp_all

namespace Decoder

def start : Decoder := ⟨.header, 0, none, .empty⟩

def run (b : ByteArray) (limit : Nat) : Decoder → Stop × Decoder
  | ⟨stage, position, none, out⟩ => decode b limit stage position out
  | ⟨stage, position, some addition, out⟩ =>
    match addition.write limit out with
    | (some rest, out) => (.full, ⟨stage, position, some rest, out⟩)
    | (none, out) => decode b limit stage position out

theorem le_size_of_run_full {b : ByteArray} {limit : Nat} {s : Decoder}
    (h : (s.run b limit).1 = .full) : limit ≤ (s.run b limit).2.out.size := by
  obtain ⟨stage, position, held?, out⟩ := s
  cases held? with
  | none => exact le_size_of_decode_full h
  | some addition =>
    simp only [run] at h ⊢
    split at h
    · exact Addition.le_size_of_write ‹_›
    · exact le_size_of_decode_full h

end Decoder
end JarReader.Deflate
