import JarReader.Text.Utf8

namespace JarReader.Text.Percent

/-- Visible ASCII that a URL path cannot hold as it is: percent, hash, question mark, quote, angle
brackets, backslash, caret, grave accent, bar and braces. -/
def reserved : List UInt8 :=
  [0x25, 0x23, 0x3F, 0x22, 0x3C, 0x3E, 0x5C, 0x5E, 0x60, 0x7B, 0x7C, 0x7D]

def isLiteral (x : UInt8) : Bool := 0x21 ≤ x && x ≤ 0x7E && !reserved.contains x

def upperDigit (n : Nat) : Char := (Nat.digitChar n).toUpper

def encodeByte (x : UInt8) : List Char :=
  if isLiteral x then [.ofNat x.toNat]
  else ['%', upperDigit (x.toNat / 16), upperDigit (x.toNat % 16)]

def encode (text : String) : String :=
  .ofList (text.toUTF8.data.toList.flatMap encodeByte)

def digit? (x : UInt8) : Option Nat :=
  if 0x30 ≤ x && x ≤ 0x39 then some (x.toNat - 0x30)
  else if 0x41 ≤ x && x ≤ 0x46 then some (x.toNat - 0x41 + 10)
  else if 0x61 ≤ x && x ≤ 0x66 then some (x.toNat - 0x61 + 10)
  else none

/-- The number that two characters write in base sixteen; a plus sign may stand for the first
digit. -/
def escaped? (high low : UInt8) : Option UInt8 := do
  let h ← if high == 0x2B then some 0 else digit? high
  let l ← digit? low
  return .ofNat (16 * h + l)

/-- A percent sign that no two digits follow stays as it is. -/
def decodeBytes : List UInt8 → List UInt8
  | x :: high :: low :: rest =>
    match if x == 0x25 then escaped? high low else none with
    | some value => value :: decodeBytes rest
    | none => x :: decodeBytes (high :: low :: rest)
  | x :: rest => x :: decodeBytes rest
  | [] => []

def decode (text : String) : String :=
  ofBytes (decodeBytes text.toUTF8.data.toList).toByteArray

end JarReader.Text.Percent
