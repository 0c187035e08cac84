namespace JarReader.Bytes

/-- A position past the end reads as zero. -/
@[inline] def byteAt (b : ByteArray) (i : Nat) : UInt8 :=
  if h : i < b.size then b[i] else 0

/-- The number whose `width` bytes, lowest first, begin at `i`. -/
def number (b : ByteArray) (i : Nat) : (width : Nat) → Nat
  | 0 => 0
  | width + 1 => (byteAt b i).toNat + 256 * number b (i + 1) width

def u16At (b : ByteArray) (i : Nat) : UInt16 := .ofNat (number b i 2)
def u32At (b : ByteArray) (i : Nat) : UInt32 := .ofNat (number b i 4)
def u64At (b : ByteArray) (i : Nat) : UInt64 := .ofNat (number b i 8)

def ofNumber : (width : Nat) → (n : Nat) → List UInt8
  | 0, _ => []
  | width + 1, n => .ofNat n :: ofNumber width (n / 256)

theorem length_ofNumber (width n : Nat) : (ofNumber width n).length = width := by
  induction width generalizing n with
  | zero => rfl
  | succ width ih => simp [ofNumber, ih]

def occursAt (part b : ByteArray) (i : Nat) : Bool :=
  b.extract i (i + part.size) == part

end JarReader.Bytes
