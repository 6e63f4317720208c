import LogShipper.Json.Reader.Basic

/-!
# Reading strings

A string is read behind its opening quote. Characters outside the first plane may be written as two
escapes, which have to belong together. In a value that nobody looks at a string is only passed
over, and then escapes need not be characters.
-/

namespace LogShipper.Json

/-- The character that a short escape stands for. -/
def shortEscape? : Char → Option Char
  | '"' => some '"'
  | '\\' => some '\\'
  | '/' => some '/'
  | 'b' => some '\x08'
  | 'f' => some '\x0c'
  | 'n' => some '\n'
  | 'r' => some '\r'
  | 't' => some '\t'
  | _ => none

/-- The fault of four bytes that are not hexadecimal digits. Its place is behind them. -/
def notHex (s : List Char) : Fault :=
  ⟨.badEscape, byteCount s - 4⟩

/-- The number of four hexadecimal digits. The next four bytes are taken whatever they are. -/
def readHex (s : List Char) : Except Fault (Nat × List Char) :=
  if byteCount (s.take 4) < 4 then .error (.before .endInString [])
  else
    match s with
    | a :: b :: c :: d :: r =>
      match Decimal.hexValue? a, Decimal.hexValue? b, Decimal.hexValue? c, Decimal.hexValue? d with
      | some w, some x, some y, some z => .ok (((w * 16 + x) * 16 + y) * 16 + z, r)
      | _, _, _, _ => .error (notHex s)
    | _ => .error (notHex s)

/-- The first number of a pair of escapes. -/
def isLead (n : Nat) : Bool :=
  0xD800 ≤ n && n ≤ 0xDBFF

/-- The second number of a pair of escapes. -/
def isTrail (n : Nat) : Bool :=
  0xDC00 ≤ n && n ≤ 0xDFFF

/-- The character of a pair of escapes whose first number is `lead`. -/
def readTrail (lead : Nat) (s : List Char) : Except Fault (Char × List Char) :=
  match s with
  | [] => .error (.before .endInString [])
  | '\\' :: [] => .error (.before .endInString [])
  | '\\' :: 'u' :: r => do
    let (trail, r) ← readHex r
    if isTrail trail then .ok (Char.ofNat (0x10000 + (lead - 0xD800) * 0x400 + (trail - 0xDC00)), r)
    else .error (.before .loneSurrogate r)
  | '\\' :: c :: r => .error (.within .unfinishedSurrogate (c :: r))
  | c :: r => .error (.within .unfinishedSurrogate (c :: r))

/-- The character of an escape behind its backslash. -/
def readEscape (s : List Char) : Except Fault (Char × List Char) :=
  match s with
  | [] => .error (.before .endInString [])
  | 'u' :: r => do
    let (n, r) ← readHex r
    if isTrail n then .error (.before .loneSurrogate r)
    else if isLead n then readTrail n r
    else .ok (Char.ofNat n, r)
  | c :: r =>
    match shortEscape? c with
    | some d => .ok (d, r)
    | none => .error (.within .badEscape (c :: r))

/-- The characters of a string up to its closing quote, the last one first on top of `done`. -/
def readCharsOnto : List Char → List Char → Reader (List Char)
  | [], _, s => .error (.before .endInString s)
  | _ :: clock, done, s =>
    match s with
    | [] => .error (.before .endInString [])
    | c :: r =>
      if c = '"' then .ok (done, r)
      else if c = '\\' then do
        let (d, r) ← readEscape r
        readCharsOnto clock (d :: done) r
      else if c.toNat < 0x20 then .error (.within .controlCharacter (c :: r))
      else readCharsOnto clock (c :: done) r

/-- A string behind its opening quote. -/
def readString : Reader String := fun s =>
  match s with
  | [] => .error (.before .endInString [])
  | s => do
    let (done, r) ← readCharsOnto s [] s
    .ok (String.ofList done.reverse, r)

/-- What is left behind an escape that is only passed over, behind its backslash. -/
def skipEscape (s : List Char) : Except Fault (List Char) :=
  match s with
  | [] => .error (.before .endInString [])
  | 'u' :: r => do
    let (_, r) ← readHex r
    .ok r
  | c :: r =>
    if (shortEscape? c).isSome then .ok r else .error (.within .badEscape (c :: r))

/-- What is left behind a string that is only passed over, behind its opening quote. -/
def skipChars : List Char → List Char → Except Fault (List Char)
  | [], s => .error (.before .endInString s)
  | _ :: clock, s =>
    match s with
    | [] => .error (.before .endInString [])
    | c :: r =>
      if c = '"' then .ok r
      else if c = '\\' then do
        let r ← skipEscape r
        skipChars clock r
      else if c.toNat < 0x20 then .error (.before .controlCharacter (c :: r))
      else skipChars clock r

/-- What is left behind a string that is only passed over, behind its opening quote. -/
def skipString (s : List Char) : Except Fault (List Char) :=
  match s with
  | [] => .error (.before .endInString [])
  | s => skipChars s s

end LogShipper.Json
