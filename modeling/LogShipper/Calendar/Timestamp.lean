import LogShipper.Calendar.Instant
import LogShipper.Decimal.Digits
import LogShipper.Text.Blank

/-!
# Timestamps

The text form of instants: a date, a time of day and the distance of the clock from UTC, in the
manner of RFC 3339. Writing gives one form, in UTC. Reading is lenient: blanks may stand before
numbers and around separators, numbers may have fewer digits, and a year with a sign may have more.
-/

namespace LogShipper.Calendar

/-- What is wrong with a timestamp. -/
inductive TimestampFault where
  | outOfRange
  | impossible
  | invalid
  | tooShort
  | tooLong
deriving DecidableEq

/-- What a fault says. -/
def TimestampFault.message : TimestampFault → String
  | .outOfRange => "input is out of range"
  | .impossible => "no possible date and time matching input"
  | .invalid => "input contains invalid characters"
  | .tooShort => "premature end of input"
  | .tooLong => "trailing input"

/-! ## Writing -/

/-- A year has four digits; one that needs a sign or more digits has a sign. -/
def yearText (year : Int) : List Char :=
  let number := Decimal.padZeros 4 (Decimal.digits year.natAbs)
  if year < 0 then '-' :: number else if 9999 < year then '+' :: number else number

/-- The nanoseconds as a fraction of three, six or nine digits, or none at all. -/
def fractionText (nanosecond : Nat) : List Char :=
  if nanosecond = 0 then []
  else if nanosecond % 1000000 = 0 then
    '.' :: Decimal.padZeros 3 (Decimal.digits (nanosecond / 1000000))
  else if nanosecond % 1000 = 0 then
    '.' :: Decimal.padZeros 6 (Decimal.digits (nanosecond / 1000))
  else '.' :: Decimal.padZeros 9 (Decimal.digits nanosecond)

/-- The timestamp of an instant, in UTC. -/
def Instant.toText (t : Instant) : String :=
  let two (n : Nat) := Decimal.padZeros 2 (Decimal.digits n)
  String.ofList (yearText t.date.year ++ '-' :: two t.date.month ++ '-' :: two t.date.day ++
    'T' :: two t.hour ++ ':' :: two t.minute ++ ':' :: two t.second ++
    fractionText t.nanosecond ++ ['Z'])

/-! ## Reading -/

/-- A reader of parts of a timestamp. -/
abbrev TimestampReader (α : Type) := List Char → Except TimestampFault (α × List Char)

/-- The largest number that is read. -/
def maxNumber : Nat := Nat.pow 2 63 - 1

/-- At most `width` digits, behind a number that has been read already. -/
def readDigits : Nat → Nat → TimestampReader Nat
  | 0, n, s => .ok (n, s)
  | _ + 1, n, [] => .ok (n, [])
  | width + 1, n, c :: s =>
    if !c.isDigit then .ok (n, c :: s)
    else if maxNumber < 10 * n + Decimal.digitValue c then .error .outOfRange
    else readDigits width (10 * n + Decimal.digitValue c) s

/-- A number of one to `width` digits. -/
def readNumber (width : Nat) : TimestampReader Nat := fun s =>
  match s with
  | [] => .error .tooShort
  | c :: _ => if c.isDigit then readDigits width 0 s else .error .invalid

/-- A number between two bounds, of one or two digits, with blanks before it. -/
def readPart (low high : Nat) : TimestampReader Nat := fun s => do
  let (n, s) ← readNumber 2 (Text.trimStart s)
  if low ≤ n && n ≤ high then .ok (n, s) else .error .outOfRange

/-- The largest year that is read. -/
def maxReadYear : Int := 2147483647

/-- A year: up to four digits, or a sign and any number of them. -/
def readYear : TimestampReader Int := fun s => do
  let (year, s) ← (match Text.trimStart s with
    | '-' :: r => do
      let (n, r) ← readNumber r.length r
      .ok (-(n : Int), r)
    | '+' :: r => do
      let (n, r) ← readNumber r.length r
      .ok ((n : Int), r)
    | r => do
      let (n, r) ← readNumber 4 r
      .ok ((n : Int), r) : Except TimestampFault (Int × List Char))
  if -maxReadYear - 1 ≤ year && year ≤ maxReadYear then .ok (year, s) else .error .outOfRange

/-- What is left behind a separator, with blanks before it. -/
def readSeparator (sep : Char) (s : List Char) : Except TimestampFault (List Char) :=
  match Text.trimStart s with
  | [] => .error .tooShort
  | c :: r => if c = sep then .ok r else .error .invalid

/-- The nanoseconds of a fraction, of which nine digits count, or none. -/
def readFraction : TimestampReader Nat := fun s =>
  match s with
  | '.' :: r => do
    let (n, left) ← readNumber 9 r
    .ok (n * Nat.pow 10 (9 - (r.length - left.length)), left.dropWhile Char.isDigit)
  | r => .ok (0, r)

/-- The word that may stand for no distance from UTC. -/
def startsWithUtc (s : List Char) : Bool :=
  (s.take 3).map Char.toUpper == "UTC".toList

/-- Two characters that have to be digits. A single byte at the end of a text is too little. -/
def readTwoDigits : TimestampReader (Nat × Nat) := fun s =>
  match s with
  | [] => .error .tooShort
  | [c] => if c.utf8Size < 2 then .error .tooShort else .error .invalid
  | c :: d :: r =>
    if c.isDigit && d.isDigit then .ok ((Decimal.digitValue c, Decimal.digitValue d), r)
    else .error .invalid

/-- How many minutes a clock is ahead of UTC, from hours and minutes behind a sign. Colons and
blanks may stand between them. -/
def readDistance (negative : Bool) : TimestampReader Int := fun s => do
  let ((h, hh), s) ← readTwoDigits s
  let ((m, mm), s) ← readTwoDigits (s.dropWhile fun c => c == ':' || Text.isBlank c)
  if 6 ≤ m then .error .outOfRange
  else
    let minutes : Int := (10 * h + hh) * 60 + (10 * m + mm)
    .ok (if negative then -minutes else minutes, s)

/-- How many minutes a clock is ahead of UTC. The minus sign may be the typographic one. -/
def readZone : TimestampReader Int := fun s =>
  if startsWithUtc s then .ok (0, s.drop 3)
  else
    match s with
    | [] => .error .tooShort
    | 'Z' :: r | 'z' :: r => .ok (0, r)
    | '+' :: r => readDistance false r
    | '-' :: r | '\u2212' :: r => readDistance true r
    | _ => .error .invalid

/-- What is left behind the character between date and time of day. -/
def readBetween (s : List Char) : Except TimestampFault (List Char) :=
  match s with
  | [] => .error .tooShort
  | c :: r => if c = 'T' ∨ c = 't' ∨ c = ' ' then .ok r else .error .invalid

/-- The instant of a timestamp. -/
def Instant.ofChars (s : List Char) : Except TimestampFault Instant := do
  let (year, s) ← readYear s
  let (month, s) ← readPart 1 12 (← readSeparator '-' s)
  let (day, s) ← readPart 1 31 (← readSeparator '-' s)
  let (hour, s) ← readPart 0 23 (← readBetween s)
  let (minute, s) ← readPart 0 59 (← readSeparator ':' s)
  let (second, s) ← readPart 0 60 (← readSeparator ':' s)
  let (nanosecond, s) ← readFraction s
  let (ahead, s) ← readZone (Text.trimStart s)
  if Text.trimStart s ≠ [] then .error .tooLong
  else
    let date : Date := { year, month, day }
    if !date.isValid || minutesPerDay ≤ ahead.natAbs then .error .outOfRange
    else
      let t := ofClock { date, hour, minute, second, nanosecond } ahead
      if t.date.isValid then .ok t else .error .impossible

/-- The instant of a timestamp. -/
def Instant.parse (text : String) : Except TimestampFault Instant :=
  Instant.ofChars text.toList

/-- What is wrong with a timestamp, if anything. -/
def Instant.complaint? (text : String) : Option String :=
  match Instant.parse text with
  | .ok _ => none
  | .error fault => some fault.message

end LogShipper.Calendar
