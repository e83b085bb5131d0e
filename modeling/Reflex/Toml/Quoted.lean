import Reflex.Number.Hexadecimal
import Reflex.Toml.Line

/-!
# Texts of Settings Files

A text stands between quotes or between apostrophes, on one line or, between three of them, on
several. Between quotes a backslash starts an escape, between apostrophes every character stands
for itself. In a text of several lines the line feed after the opening is dropped, every other
line feed loses its carriage return, a backslash at the end of a line drops the blanks and the
line feeds after it, and up to two quotes may stand before the closing three.

## Main definitions

- `Reflex.Toml.Quoted.readLine?`: a text of one line, which can also be a key.
- `Reflex.Toml.Quoted.read?`: a text of any kind.
-/

namespace Reflex.Toml.Quoted

/-- The kind of a text. -/
structure Kind where
  /-- The character that stands before and after the text. -/
  quote : Char
  /-- Whether the text may stand on several lines. -/
  multiline : Bool
  deriving DecidableEq, Repr

/-- Whether a backslash starts an escape. -/
def Kind.escapes (kind : Kind) : Bool :=
  kind.quote = '"'

/-- Read a character that is given by so many hexadecimal digits. -/
def readCodePoint? (width : Nat) (cs : List Char) : Option (Char × List Char) := do
  let ds := cs.take width
  let n ← if ds.length < width then none else Hexadecimal.ofDigits? ds
  if h : n.isValidChar then return (.ofNatAux n h, cs.drop width) else none

/-- Read what follows a backslash. -/
def readEscape? : List Char → Option (Char × List Char)
  | '"' :: rest => some ('"', rest)
  | '\\' :: rest => some ('\\', rest)
  | 'b' :: rest => some ('\x08', rest)
  | 'f' :: rest => some ('\x0c', rest)
  | 'n' :: rest => some ('\n', rest)
  | 'r' :: rest => some ('\r', rest)
  | 't' :: rest => some ('\t', rest)
  | 'u' :: rest => readCodePoint? 4 rest
  | 'U' :: rest => readCodePoint? 8 rest
  | _ => none

/-- Read the line feed that a backslash removes: blanks, the line feed, and all blanks and line
feeds after it. -/
def joinLines? (cs : List Char) : Option (List Char) :=
  (Line.lineFeed? (Line.skipBlanks cs)).map Line.skipSpace

/-- Read a run of quotes in a text of several lines. One or two of them belong to the text,
three close it, and so do the last three of four or five. The flag says whether the text is
closed; at most five quotes are taken. -/
def readQuotes (quote : Char) (cs : List Char) : Nat × Bool × List Char :=
  let run := ((cs.take 5).takeWhile (· = quote)).length
  if run < 3 then (run, false, cs.drop run) else (run - 3, true, cs.drop run)

/-- Read a text up to its end. The fuel bounds the number of steps. -/
def readRest? (kind : Kind) : Nat → List Char → Option (List Char × List Char)
  | 0, _ => none
  | _, [] => none
  | fuel + 1, c :: rest =>
    if c = kind.quote then
      if kind.multiline then
        let (count, closed, rest) := readQuotes kind.quote (c :: rest)
        let kept := List.replicate count c
        if closed then some (kept, rest)
        else (readRest? kind fuel rest).map fun (cs, rest) => (kept ++ cs, rest)
      else some ([], rest)
    -- a backslash joins lines or starts an escape
    else if c = '\\' && kind.escapes then
      match if kind.multiline then joinLines? rest else none with
      | some rest => readRest? kind fuel rest
      | none => do
        let (escaped, rest) ← readEscape? rest
        let (cs, rest) ← readRest? kind fuel rest
        return (escaped :: cs, rest)
    else if Line.isPlain c then
      (readRest? kind fuel rest).map fun (cs, rest) => (c :: cs, rest)
    else if kind.multiline then do
      let rest ← Line.lineFeed? (c :: rest)
      let (cs, rest) ← readRest? kind fuel rest
      return ('\n' :: cs, rest)
    else none

/-- Read a text after its opening. -/
def readBody? (kind : Kind) (cs : List Char) : Option (String × List Char) :=
  (readRest? kind (cs.length + 1) cs).map fun (content, rest) => (String.ofList content, rest)

/-- Read a text of one line. -/
def readLine? : List Char → Option (String × List Char)
  | '"' :: rest => readBody? ⟨'"', false⟩ rest
  | '\'' :: rest => readBody? ⟨'\'', false⟩ rest
  | _ => none

/-- Read a text of any kind. -/
def read? : List Char → Option (String × List Char)
  | '"' :: '"' :: '"' :: rest => readBody? ⟨'"', true⟩ ((Line.lineFeed? rest).getD rest)
  | '\'' :: '\'' :: '\'' :: rest => readBody? ⟨'\'', true⟩ ((Line.lineFeed? rest).getD rest)
  | cs => readLine? cs

end Reflex.Toml.Quoted
