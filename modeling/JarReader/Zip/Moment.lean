/-!
Times of entries: a date and a time of day packed into two 16-bit halves, in steps of two seconds
from 1980 on. A packed value that is no date of the calendar or no time of the day has no moment.
-/

namespace JarReader.Zip

structure Moment where
  year : Nat
  month : Nat
  day : Nat
  hour : Nat
  minute : Nat
  second : Nat
  deriving DecidableEq, Repr

namespace Moment

def isLeapYear (year : Nat) : Bool := year % 4 = 0 && (year % 100 ≠ 0 || year % 400 = 0)

def daysInMonth (year month : Nat) : Nat :=
  if month = 2 then if isLeapYear year then 29 else 28
  else if month = 4 || month = 6 || month = 9 || month = 11 then 30
  else 31

def isValid (m : Moment) : Bool :=
  1 ≤ m.month && m.month ≤ 12 && 1 ≤ m.day && m.day ≤ daysInMonth m.year m.month
    && m.hour < 24 && m.minute < 60 && m.second < 60

def unpack (packed : UInt32) : Moment :=
  let date := packed.toNat / 65536
  let time := packed.toNat % 65536
  { year := date / 512 + 1980
    month := date / 32 % 16
    day := date % 32
    hour := time / 2048
    minute := time / 32 % 64
    second := time % 32 * 2 }

def ofPacked? (packed : UInt32) : Option Moment :=
  if (unpack packed).isValid then some (unpack packed) else none

def twoDigits (n : Nat) : String := if n < 10 then s!"0{n}" else toString n

def dateText (m : Moment) : String := s!"{m.year}-{twoDigits m.month}-{twoDigits m.day}"

def minuteText (m : Moment) : String := s!"{twoDigits m.hour}:{twoDigits m.minute}"

def text (m : Moment) : String := s!"{m.dateText} {m.minuteText}:{twoDigits m.second}"

end Moment
end JarReader.Zip
