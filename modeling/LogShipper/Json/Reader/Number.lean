import LogShipper.Json.Reader.Basic

/-!
# Reading numbers

The digits of a number make a significand of 64 bits and a power of ten. Digits that no longer fit
raise the power before the point and are dropped behind it. A number without point and exponent
that fits is an integer; any other is scaled in the binary format, in steps of at most 308
decimal places that are each rounded.
-/

namespace LogShipper.Json

open Decimal (Binary64)

/-- The largest significand. -/
def maxSignificand : Nat := Nat.pow 2 64 - 1

/-- The largest exponent that is still counted. -/
def maxWrittenExponent : Nat := Nat.pow 2 31 - 1

/-- Digits are put behind `n` as long as the number stays within `limit`: the number, how many
digits were taken, and what is left. -/
def takeDigits (limit n : Nat) (count : Nat) : List Char → Nat × Nat × List Char
  | [] => (n, count, [])
  | c :: s =>
    if c.isDigit && 10 * n + Decimal.digitValue c ≤ limit then
      takeDigits limit (10 * n + Decimal.digitValue c) (count + 1) s
    else (n, count, c :: s)

/-- A digit comes next. -/
def digitNext : List Char → Bool
  | [] => false
  | c :: _ => c.isDigit

/-- What is left behind a run of digits. -/
def skipDigits (s : List Char) : List Char :=
  s.dropWhile Char.isDigit

/-- The power of ten in the binary format, rounded; none when it lies beyond the upper end. -/
def tenPower? (n : Nat) : Option Binary64 :=
  Binary64.nearest? (Nat.pow 10 n) 1

/-- The number of decimal places that one step of scaling covers. -/
def stepPlaces : Nat := 308

/-- A magnitude divided by `10 ^ n`, in steps. -/
def scaleDown? (x : Binary64) (n : Nat) : Option Binary64 :=
  if _h : n ≤ stepPlaces then (tenPower? n).bind x.div?
  else if x.isZero then some x
  else ((tenPower? stepPlaces).bind x.div?).bind fun y => scaleDown? y (n - stepPlaces)
termination_by n
decreasing_by simp only [stepPlaces] at *; omega

/-- A magnitude times `10 ^ n`; none beyond the upper end of the format. -/
def scaleUp? (x : Binary64) (n : Nat) : Option Binary64 :=
  if n ≤ stepPlaces then (tenPower? n).bind x.mul?
  else if x.isZero then some x
  else none

/-- The number `significand * 10 ^ exponent`, with what is left behind it. -/
def realNumber (negative : Bool) (significand : Nat) (exponent : Int) : Reader Json := fun s =>
  let start := Binary64.nearest? significand 1
  let scaled :=
    if 0 ≤ exponent then start.bind (scaleUp? · exponent.toNat)
    else start.bind (scaleDown? · (-exponent).toNat)
  match scaled with
  | some x => .ok (.real (x.withSign negative), s)
  | none => .error (.before .numberTooLarge s)

/-- An integer of 64 bits, signed or not. What does not fit, and minus zero, is a real number. -/
def wholeNumber (negative : Bool) (significand : Nat) : Reader Json := fun s =>
  if !negative then .ok (.int significand, s)
  else if 0 < significand ∧ significand ≤ Nat.pow 2 63 then .ok (.int (-significand), s)
  else realNumber true significand 0 s

/-- A number whose exponent comes next, behind its letter. An exponent too large to be counted
leaves zero or a number out of range. -/
def readExponent (negative : Bool) (significand : Nat) (exponent : Int) : Reader Json := fun s =>
  let (down, s) := match s with
    | '+' :: r => (false, r)
    | '-' :: r => (true, r)
    | r => (false, r)
  match s with
  | [] => .error (.before .endInValue [])
  | c :: r =>
    if c.isDigit then
      let (n, _, r) := takeDigits maxWrittenExponent (Decimal.digitValue c) 0 r
      if digitNext r then
        if significand ≠ 0 && !down then .error (.within .numberTooLarge r)
        else .ok (.real (.zero negative), skipDigits r)
      else realNumber negative significand (if down then exponent - n else exponent + n) r
    else .error (.within .badNumber (c :: r))

/-- A number behind its last digit before an exponent. -/
def readScaled (negative : Bool) (significand : Nat) (exponent : Int) : Reader Json := fun s =>
  match s with
  | 'e' :: r | 'E' :: r => readExponent negative significand exponent r
  | r => realNumber negative significand exponent r

/-- A number behind its point. -/
def readFraction (negative : Bool) (significand : Nat) (exponent : Int) : Reader Json := fun s =>
  let (n, count, r) := takeDigits maxSignificand significand 0 s
  if digitNext r then readScaled negative n (exponent - count) (skipDigits r)
  else if count = 0 then
    match r with
    | [] => .error (.within .endInValue [])
    | r => .error (.within .badNumber r)
  else readScaled negative n (exponent - count) r

/-- A number behind the digits before its point. -/
def readTail (negative : Bool) (significand : Nat) : Reader Json := fun s =>
  match s with
  | '.' :: r => readFraction negative significand 0 r
  | 'e' :: r | 'E' :: r => readExponent negative significand 0 r
  | r => wholeNumber negative significand r

/-- A number behind its sign. -/
def readNumber (negative : Bool) : Reader Json := fun s =>
  match s with
  | [] => .error (.before .endInValue [])
  | '0' :: r => if digitNext r then .error (.within .badNumber r) else readTail negative 0 r
  | c :: r =>
    if c.isDigit then
      let (n, _, r) := takeDigits maxSignificand (Decimal.digitValue c) 0 r
      if digitNext r then
        let left := skipDigits r
        let dropped := r.length - left.length
        match left with
        | '.' :: left => readFraction negative n dropped left
        | left => readScaled negative n dropped left
      else readTail negative n r
    else .error (.within .badNumber (c :: r))

/-! ## Numbers that are only passed over -/

/-- What is left behind an exponent, behind its letter. -/
def skipExponent (s : List Char) : Except Fault (List Char) :=
  let s := match s with
    | '+' :: r | '-' :: r => r
    | r => r
  if digitNext s then .ok (skipDigits s) else .error (.within .badNumber s)

/-- What is left behind an exponent, if there is one. -/
def skipScale (s : List Char) : Except Fault (List Char) :=
  match s with
  | 'e' :: r | 'E' :: r => skipExponent r
  | r => .ok r

/-- What is left behind a number, behind its sign. -/
def skipNumber (s : List Char) : Except Fault (List Char) := do
  let r ← match s with
    | '0' :: r => if digitNext r then .error (.within .badNumber r) else .ok r
    | s => if digitNext s then .ok (skipDigits s) else .error (.within .badNumber s)
  match r with
  | '.' :: r =>
    if digitNext r then skipScale (skipDigits r) else .error (.within .badNumber r)
  | r => skipScale r

end LogShipper.Json
