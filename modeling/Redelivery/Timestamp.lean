import Redelivery.Text.Digits

/-!
# Points in time

A timestamp counts seconds from the beginning of 1970 in universal time, with
nanoseconds within the second.  A leap second is written as second 60 and is kept as
nanoseconds past the end of second 59.

Timestamps are written as `2024-02-29T23:59:59.500Z`, with no digits after the point,
or three, six or nine of them.  They are read in a wider form: blanks may stand before
each number, numbers may be shorter, the date and the time may be separated by a
space, and the offset from universal time may be given in hours and minutes.

Main definitions:

* `Timestamp`, `Timestamp.compare`: points in time and their order.
* `Calendar.daysFrom`, `Calendar.ofDays`: days and dates of the Gregorian calendar.
* `Timestamp.write`, `Timestamp.parse`: the written form and its reader.
-/

namespace Redelivery

/-- A point in time. -/
structure Timestamp where
  /-- Whole seconds since the beginning of 1970. -/
  seconds : Int
  /-- Nanoseconds within the second, a billion more in a leap second. -/
  nanos : Nat
  deriving DecidableEq, Repr

/-! ## The calendar -/

/-- A date of the Gregorian calendar. -/
structure Calendar where
  year : Int
  month : Nat
  day : Nat
  deriving DecidableEq, Repr

namespace Calendar

/-- Days in four hundred years. -/
def cycle : Int := 146097

/-- Days from the first of March of year zero to the beginning of 1970. -/
def epoch : Int := 719468

/-- The months of a year that begins in March: the days before the month. -/
def daysBefore (month : Nat) : Int := (153 * ((month : Int) + if 2 < month then -3 else 9) + 2) / 5

/-- Days from the beginning of 1970 to a date. -/
def daysFrom (date : Calendar) : Int :=
  let year := if date.month ≤ 2 then date.year - 1 else date.year
  let within := year % 400
  let day := daysBefore date.month + date.day - 1
  year / 400 * cycle + (within * 365 + within / 4 - within / 100 + day) - epoch

/-- The date that lies so many days after the beginning of 1970. -/
def ofDays (days : Int) : Calendar :=
  let shifted := days + epoch
  let inCycle := shifted % cycle
  let within := (inCycle - inCycle / 1460 + inCycle / 36524 - inCycle / 146096) / 365
  let inYear := inCycle - (365 * within + within / 4 - within / 100)
  let index := (5 * inYear + 2) / 153
  let day := (inYear - (153 * index + 2) / 5 + 1).toNat
  let month := (if index < 10 then index + 3 else index - 9).toNat
  let year := within + shifted / cycle * 400
  ⟨if month ≤ 2 then year + 1 else year, month, day⟩

/-- The date exists. -/
def Valid (date : Calendar) : Prop := ofDays (daysFrom date) = date

instance (date : Calendar) : Decidable date.Valid := inferInstanceAs (Decidable (_ = _))

/-- The years for which timestamps are read. -/
def YearInRange (date : Calendar) : Prop := -262143 ≤ date.year ∧ date.year ≤ 262142

instance (date : Calendar) : Decidable date.YearInRange :=
  inferInstanceAs (Decidable (_ ∧ _))

end Calendar

namespace Timestamp

/-- The beginning of 1970. -/
def epoch : Timestamp := ⟨0, 0⟩

instance : Inhabited Timestamp := ⟨epoch⟩

/-- A whole second. -/
def ofSeconds (seconds : Int) : Timestamp := ⟨seconds, 0⟩

instance : LE Timestamp :=
  ⟨fun s t => s.seconds < t.seconds ∨ (s.seconds = t.seconds ∧ s.nanos ≤ t.nanos)⟩

instance (s t : Timestamp) : Decidable (s ≤ t) :=
  inferInstanceAs (Decidable (_ ∨ _))

/-- The earlier of two points in time. -/
instance : Min Timestamp := ⟨fun s t => if s ≤ t then s else t⟩

/-- So many milliseconds later. -/
def addMillis (t : Timestamp) (ms : Nat) : Timestamp :=
  let nanos := t.nanos + ms * 1000000
  ⟨t.seconds + nanos / 1000000000, nanos % 1000000000⟩

/-! ## Writing -/

/-- Digits of a number, filled up with zeros in front. -/
def padded (width n : Nat) : String :=
  let digits := toString n
  String.ofList (List.replicate (width - digits.length) '0') ++ digits

/-- A year of four digits, or with a sign if it has more or lies before year zero. -/
def yearText (year : Int) : String :=
  if 0 ≤ year ∧ year ≤ 9999 then padded 4 year.toNat
  else (if year < 0 then "-" else "+") ++ padded 4 year.natAbs

/-- The digits after the point: none, three, six or nine. -/
def fractionText (nanos : Nat) : String :=
  if nanos = 0 then ""
  else if nanos % 1000000 = 0 then "." ++ padded 3 (nanos / 1000000)
  else if nanos % 1000 = 0 then "." ++ padded 6 (nanos / 1000)
  else "." ++ padded 9 nanos

/-- The written form, in universal time. -/
def write (t : Timestamp) : String :=
  let date := Calendar.ofDays (t.seconds / 86400)
  let inDay := (t.seconds % 86400).toNat
  let leap := 1000000000 ≤ t.nanos
  let second := inDay % 60 + if leap then 1 else 0
  let nanos := if leap then t.nanos - 1000000000 else t.nanos
  yearText date.year ++ "-" ++ padded 2 date.month ++ "-" ++ padded 2 date.day ++ "T" ++
    padded 2 (inDay / 3600) ++ ":" ++ padded 2 (inDay / 60 % 60) ++ ":" ++ padded 2 second ++
    fractionText nanos ++ "Z"

/-! ## Reading -/

/-- Why a text is no timestamp. -/
inductive Fault where
  | invalid
  | outOfRange
  | tooShort
  | tooLong
  | impossible
  deriving DecidableEq, Repr

def Fault.message : Fault → String
  | invalid => "input contains invalid characters"
  | outOfRange => "input is out of range"
  | tooShort => "premature end of input"
  | tooLong => "trailing input"
  | impossible => "no possible date and time matching input"

/-- What reads a value from the front of a text. -/
abbrev Reader (α : Type) := List Char → Except Fault (α × List Char)

/-- The blanks that may stand before a number. -/
def isBlank (c : Char) : Bool :=
  let n := c.toNat
  (9 ≤ n && n ≤ 13) || n = 0x20 || n = 0x85 || n = 0xa0 || n = 0x1680 ||
    (0x2000 ≤ n && n ≤ 0x200a) || n = 0x2028 || n = 0x2029 || n = 0x202f ||
    n = 0x205f || n = 0x3000

def skipBlanks (s : List Char) : List Char := s.dropWhile isBlank

def digitValue (c : Char) : Nat := c.toNat - '0'.toNat

/-- Reads a number of at least one digit and, if `most` is given, at most so many. -/
def readDigits (most : Option Nat) : Reader Nat := fun s =>
  let window := match most with
    | some n => s.take n
    | none => s
  let digits := window.takeWhile Digits.isDigit
  if s.isEmpty then .error .tooShort
  else if digits.isEmpty then .error .invalid
  else .ok (Digits.value digits, s.drop digits.length)

/-- Reads a number of at most two digits from `low` to `high`, after blanks. -/
def readField (low high : Nat) : Reader Nat := fun s => do
  let (n, s) ← readDigits (some 2) (skipBlanks s)
  if low ≤ n ∧ n ≤ high then return (n, s) else throw .outOfRange

/-- Reads a year: up to four digits, or a sign and any number of them. -/
def readYear : Reader Int := fun s => do
  let (year, s) ← match skipBlanks s with
    | '-' :: s => (readDigits none s).map fun (n, s) => (-(n : Int), s)
    | '+' :: s => (readDigits none s).map fun (n, s) => ((n : Int), s)
    | s => (readDigits (some 4) s).map fun (n, s) => ((n : Int), s)
  if -2 ^ 31 ≤ year ∧ year < 2 ^ 31 then return (year, s) else throw .outOfRange

/-- Reads one given character, after blanks. -/
def readMark (mark : Char) (s : List Char) : Except Fault (List Char) :=
  match skipBlanks s with
  | [] => .error .tooShort
  | c :: s => if c = mark then .ok s else .error .invalid

/-- Reads the nanoseconds after a point, if there is one; digits after the ninth do not
count. -/
def readFraction : Reader Nat := fun s =>
  match s with
  | '.' :: s => do
      let (n, rest) ← readDigits (some 9) s
      let width := s.length - rest.length
      return (n * 10 ^ (9 - width), rest.dropWhile Digits.isDigit)
  | s => .ok (0, s)

/-- The two characters in front, if there are two bytes. -/
def twoDigits (s : List Char) : Except Fault (Option (Char × Char) × List Char) :=
  match s with
  | a :: b :: rest => .ok (some (a, b), rest)
  | rest => if (String.ofList rest).utf8ByteSize < 2 then .error .tooShort else .ok (none, rest)

/-- Reads hours and minutes after the sign of an offset, in minutes.  Colons and blanks
may stand between them. -/
def readHoursMinutes : Reader Nat := fun s => do
  let (hours, s) ← twoDigits s
  match hours with
  | none => throw .invalid
  | some (a, b) =>
      if !(Digits.isDigit a && Digits.isDigit b) then throw .invalid
      let hours := digitValue a * 10 + digitValue b
      let (minutes, s) ← twoDigits (s.dropWhile fun c => c = ':' || isBlank c)
      match minutes with
      | none => throw .invalid
      | some (a, b) =>
          if !(Digits.isDigit a && Digits.isDigit b) then throw .invalid
          if '5' < a then throw .outOfRange
          return (hours * 60 + (digitValue a * 10 + digitValue b), s)

/-- Reads the offset from universal time, in minutes. -/
def readOffset : Reader Int := fun s =>
  match s with
  | [] => .error .tooShort
  | c :: rest =>
      if c = 'Z' ∨ c = 'z' then .ok (0, rest)
      else if (s.take 3).map Char.toUpper = ['U', 'T', 'C'] then .ok (0, s.drop 3)
      else if c = '+' then (readHoursMinutes rest).map fun (n, s) => ((n : Int), s)
      else if c = '-' ∨ c = '\u2212' then
        (readHoursMinutes rest).map fun (n, s) => (-(n : Int), s)
      else .error .invalid

/-- Reads a timestamp from a whole text. -/
def parse (text : String) : Except Fault Timestamp := do
  let (year, s) ← readYear text.toList
  let (month, s) ← readField 1 12 (← readMark '-' s)
  let (day, s) ← readField 1 31 (← readMark '-' s)
  let s ← match s with
    | [] => throw .tooShort
    | c :: s => if c = 'T' ∨ c = 't' ∨ c = ' ' then pure s else throw .invalid
  let (hour, s) ← readField 0 23 s
  let (minute, s) ← readField 0 59 (← readMark ':' s)
  let (second, s) ← readField 0 60 (← readMark ':' s)
  let (nanos, s) ← readFraction s
  let (offset, s) ← readOffset (skipBlanks s)
  if !(skipBlanks s).isEmpty then throw .tooLong
  let date : Calendar := ⟨year, month, day⟩
  if ¬ (date.YearInRange ∧ date.Valid) then throw .outOfRange
  if ¬ offset.natAbs < 1440 then throw .outOfRange
  let here := date.daysFrom * 86400 + (hour * 3600 + minute * 60 + min second 59 : Nat)
  let seconds := here - offset * 60
  if ¬ (Calendar.ofDays (seconds / 86400)).YearInRange then throw .impossible
  return ⟨seconds, if second = 60 then nanos + 1000000000 else nanos⟩

end Timestamp

end Redelivery
