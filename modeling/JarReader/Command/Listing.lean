import JarReader.Jar.Basic
import JarReader.Text.Column

namespace JarReader.Command.Listing

open Text

def signed (n : Nat) : Int64 := (UInt64.ofNat n).toInt64

/-- How much smaller the stored data is, in per cent, in signed 64-bit arithmetic. -/
def ratio (compressedSize size : Nat) : String :=
  if size = 0 then "  0%"
  else column 4 (toString (100 - signed compressedSize * 100 / signed size).toInt) ++ "%"

def names (entries : List Entry) : String := String.join (entries.map fun e => e.name ++ "\n")

def heading : String :=
  "    Length        Size   Cmpr        Date   Time    CRC-32  Name\n"

def rule : String := "".pushn '-' 80 ++ "\n"

def row (e : Entry) : String :=
  let (date, time) :=
    match e.modified? with
    | some moment => (moment.dateText, moment.minuteText)
    | none => ("----------", "--:--")
  column 10 (toString e.size) ++ "  " ++ column 10 (toString e.compressedSize) ++ "  "
    ++ ratio e.compressedSize e.size ++ "  " ++ date ++ "  " ++ time ++ "  "
    ++ alignRight 8 (hexText e.crc32.toNat) '0' ++ "  " ++ e.name ++ "\n"

def totals (entries : List Entry) : String :=
  let files := entries.filter fun e => !e.isDirectory
  let size := files.foldl (fun total e => total + e.size) 0
  let compressedSize := files.foldl (fun total e => total + e.compressedSize) 0
  column 10 (toString size) ++ "  " ++ column 10 (toString compressedSize) ++ "  "
    ++ ratio compressedSize size ++ "  " ++ column 31 "" ++ "  " ++ toString files.length
    ++ " files\n"

def table (entries : List Entry) : String :=
  heading ++ rule ++ String.join (entries.map row) ++ rule ++ totals entries

def attributes (a : Attributes) : String :=
  String.join (a.pairs.map fun (name, value) => name ++ ": " ++ value ++ "\n")

def manifest (m : Manifest) : String :=
  attributes m.main ++ String.join (m.sections.map fun (name, a) =>
    "\n[" ++ name ++ "]\n" ++ attributes a)

end JarReader.Command.Listing
