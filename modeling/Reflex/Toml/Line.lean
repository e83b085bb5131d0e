/-!
# Lines of Settings Files

Lines end with a line feed, which a carriage return may precede, or with the text. Spaces and
tabulations separate the parts of a line, and a number sign starts a comment.

## Main definitions

- `Reflex.Toml.Line.skipBlanks`, `Reflex.Toml.Line.skipLines`: what may stand between the parts
  of a line, and between the items of a list.
- `Reflex.Toml.Line.finish?`: the end of a line after its content.
-/

namespace Reflex.Toml.Line

/-- Whether a character separates the parts of a line. -/
def isBlank (c : Char) : Bool :=
  c = ' ' || c = '\t'

/-- Whether a character may stand in a line: no control character but the tabulation. -/
def isPlain (c : Char) : Bool :=
  c = '\t' || (0x20 ≤ c.val && c.val ≠ 0x7F)

/-- Drop the blanks at the start. -/
def skipBlanks (cs : List Char) : List Char :=
  cs.dropWhile isBlank

/-- Drop a comment at the start. -/
def skipComment : List Char → List Char
  | '#' :: rest => rest.dropWhile isPlain
  | cs => cs

/-- Read a line feed, with or without a carriage return. -/
def lineFeed? : List Char → Option (List Char)
  | '\n' :: rest => some rest
  | '\r' :: '\n' :: rest => some rest
  | _ => none

/-- Read the end of a line: blanks, a comment, and a line feed or the end of the text. -/
def finish? (cs : List Char) : Option (List Char) :=
  match skipComment (skipBlanks cs) with
  | [] => some []
  | rest => lineFeed? rest

/-- Drop blanks and line feeds at the start. -/
def skipSpace : List Char → List Char
  | [] => []
  | '\r' :: '\n' :: rest => skipSpace rest
  | c :: rest => if isBlank c || c = '\n' then skipSpace rest else c :: rest

/-- Drop blanks, comments and line feeds at the start. In a comment, everything that may stand
in a line is dropped. -/
def skipLines (inComment : Bool) : List Char → List Char
  | [] => []
  | '\r' :: '\n' :: rest => skipLines false rest
  | c :: rest =>
    if c = '\n' then skipLines false rest
    else if inComment then if isPlain c then skipLines true rest else c :: rest
    else if isBlank c then skipLines false rest
    else if c = '#' then skipLines true rest
    else c :: rest

end Reflex.Toml.Line
