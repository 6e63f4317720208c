import LogShipper.Decimal.Digits

/-!
# Faults of the operating system

Why a file could not be read or written.
-/

namespace LogShipper

/-- Why a file could not be read or written. -/
inductive OsFault where
  | notFound
  | permissionDenied
  | alreadyExists
  | notADirectory
  | isADirectory
  | nameTooLong
  | notText
  | nulInName
  | other (text : String)
deriving DecidableEq, Repr

namespace OsFault

/-- The number by which the system knows a fault. -/
def number? : OsFault → Option Nat
  | .notFound => some 2
  | .permissionDenied => some 13
  | .alreadyExists => some 17
  | .notADirectory => some 20
  | .isADirectory => some 21
  | .nameTooLong => some 36
  | .notText | .nulInName | .other _ => none

/-- What a fault is, without its number. -/
def text : OsFault → String
  | .notFound => "No such file or directory"
  | .permissionDenied => "Permission denied"
  | .alreadyExists => "File exists"
  | .notADirectory => "Not a directory"
  | .isADirectory => "Is a directory"
  | .nameTooLong => "File name too long"
  | .notText => "stream did not contain valid UTF-8"
  | .nulInName => "file name contained an unexpected NUL byte"
  | .other text => text

/-- A text with the number of a fault behind it. -/
def numbered (text : String) (number : Nat) : String :=
  text ++ " (os error " ++ String.ofList (Decimal.digits number) ++ ")"

/-- What a fault says. -/
def message (f : OsFault) : String :=
  match f.number? with
  | some n => numbered f.text n
  | none => f.text

/-- The fault that the system knows by a number and describes by a text. -/
def ofNumber (number : Nat) (text : String) : OsFault :=
  let known := [notFound, permissionDenied, alreadyExists, notADirectory, isADirectory, nameTooLong]
  (known.find? (·.number? = some number)).getD (.other (numbered text number))

end OsFault

end LogShipper
