import Reflex.Text.Blank
import Reflex.Number.Decimal

/-!
# Scanners

Small readers over a text. Each takes the rest of the text and answers what it read together
with what remains, or nothing when the text does not go on as required.
-/

namespace Reflex.Text.Scan

/-- Read one given character. -/
def char? (c : Char) : List Char → Option (List Char)
  | [] => none
  | d :: rest => if d = c then some rest else none

/-- Split off at most `most` digits. -/
def takeDigits (most : Nat) (cs : List Char) : List Char × List Char :=
  let ds := (cs.take most).takeWhile Decimal.isDigit
  (ds, cs.drop ds.length)

/-- Read a number of one to `most` digits. -/
def number? (most : Nat) (cs : List Char) : Option (Nat × List Char) :=
  let (ds, rest) := takeDigits most cs
  if ds.isEmpty then none else some (Decimal.ofDigits ds, rest)

/-- Skip blanks, then read a number of one to `most` digits. -/
def field? (most : Nat) (cs : List Char) : Option (Nat × List Char) :=
  number? most (trimStart cs)

/-- Skip blanks, then read a number that has a sign, or no sign and at most `most` digits. -/
def signedField? (most : Nat) (cs : List Char) : Option (Int × List Char) :=
  match trimStart cs with
  | '-' :: rest => (number? rest.length rest).map fun (n, rest) => (-(n : Int), rest)
  | '+' :: rest => (number? rest.length rest).map fun (n, rest) => ((n : Int), rest)
  | rest => (number? most rest).map fun (n, rest) => ((n : Int), rest)

/-- Skip blanks, then read one given character. -/
def separator? (c : Char) (cs : List Char) : Option (List Char) :=
  char? c (trimStart cs)

/-- Read an optional fraction of a second in nanoseconds. After the point at least one digit
must stand; digits after the ninth are dropped. -/
def fraction? : List Char → Option (Nat × List Char)
  | '.' :: rest =>
    let (ds, rest) := takeDigits 9 rest
    if ds.isEmpty then none
    else some (Decimal.ofDigits ds * powerOfTen (9 - ds.length), rest.dropWhile Decimal.isDigit)
  | rest => some (0, rest)

/-- Whether only blanks remain. -/
def atEnd (cs : List Char) : Bool :=
  cs.all isBlankChar

end Reflex.Text.Scan
