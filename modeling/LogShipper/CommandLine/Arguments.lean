/-!
# Arguments

The words of a command line are read from left to right. Options that hold for every command may
stand before the command or behind it; those behind it count more. A value that stands in a word of
its own is looked at only when the next option begins or the words end.
-/

namespace LogShipper.CommandLine

/-- An option, by its long name. A flag takes no value. -/
structure Switch where
  long : String
  short? : Option Char := none
  takesValue : Bool := true
  accepts : String → Bool := fun _ => true

/-- Options that were given, with their values; a flag has the empty one. -/
abbrev Given := List (String × String)

/-- An option whose value was not looked at yet, or did not come yet. -/
abbrev Pending := Option (Switch × Option String)

/-- What reading words came to. -/
inductive Scan where
  | help
  | misuse
  /-- All words are read. -/
  | ended (given : Given) (pending : Pending)
  /-- A command came. -/
  | command (name : String) (rest : List String) (given : Given) (pending : Pending)

/-- Put a given option to the others; none if it was given before or its value is not accepted. -/
def give (o : Switch) (value : String) (given : Given) : Option Given :=
  if o.accepts value && !given.any (·.1 = o.long) then some ((o.long, value) :: given) else none

/-- Settle an option that is pending. -/
def settle (given : Given) : Pending → Option Given
  | none => some given
  | some (_, none) => none
  | some (o, some value) => give o value given

/-- What the beginning of a word says about it. -/
inductive Word where
  | plain
  /-- Two dashes alone. -/
  | separator
  /-- Two dashes, a name and perhaps a value behind an equals sign. -/
  | long (name : String) (value? : Option String)
  /-- One dash, a character and what follows it. -/
  | short (c : Char) (rest : List Char)

/-- What the beginning of a word says about it. One dash alone is a plain word. -/
def Word.of (word : String) : Word :=
  match word.toList with
  | ['-', '-'] => .separator
  | '-' :: '-' :: cs =>
    let name := cs.takeWhile (· ≠ '=')
    match cs.dropWhile (· ≠ '=') with
    | [] => .long (String.ofList name) none
    | _ :: value => .long (String.ofList name) (some (String.ofList value))
  | '-' :: c :: cs => .short c cs
  | _ => .plain

/-- An option with its value in the same word, a flag, or an option whose value may follow. -/
def beginSwitch (o : Switch) (value? : Option String) (given : Given) : Option (Given × Pending) :=
  match o.takesValue, value? with
  | true, some value => (give o value given).map (·, none)
  | true, none => some (given, some (o, none))
  | false, some _ => none
  | false, none => (give o "" given).map (·, none)

/-- The value of a short option in the same word, perhaps behind an equals sign. -/
def attached? : List Char → Option String
  | [] => none
  | '=' :: cs => some (String.ofList cs)
  | cs => some (String.ofList cs)

/-- An option that a word begins with, or the wish for help. -/
inductive Begun where
  | help
  | option (o : Switch) (value? : Option String)
  | unknown

/-- The option that a word begins. -/
def begun (options : List Switch) : Word → Begun
  | .long "help" none => .help
  | .long name value? =>
    match options.find? (·.long = name) with
    | some o => .option o value?
    | none => .unknown
  | .short 'h' _ => .help
  | .short c cs =>
    match options.find? (·.short? = some c) with
    | some o => .option o (attached? cs)
    | none => .unknown
  | _ => .unknown

/-- Read words with some options, up to a command if there are any. -/
def scan (options : List Switch) (commands : List String) (given : Given) (pending : Pending) :
    List String → Scan
  | [] => .ended given pending
  | word :: words =>
    match pending, Word.of word with
    | some (o, none), .plain => scan options commands given (some (o, some word)) words
    | some (_, none), _ => .misuse
    | pending, .plain =>
      if word ∈ commands then .command word words given pending else .misuse
    | pending, .separator => if words.isEmpty then .ended given pending else .misuse
    | pending, w =>
      match settle given pending with
      | none => .misuse
      | some given =>
        match begun options w with
        | .help => .help
        | .unknown => .misuse
        | .option o value? =>
          match beginSwitch o value? given with
          | none => .misuse
          | some (given, pending) => scan options commands given pending words

/-- The value of an option that was given. -/
def Given.value? (given : Given) (long : String) : Option String :=
  (given.find? (·.1 = long)).map (·.2)

end LogShipper.CommandLine
