import Reflex.Json.Reader

/-!
# Reading Parts of Documents

A reader that needs certain fields only skips the others. Of a skipped value nothing but the
grammar is checked: a number may have any size, an escape may name half of a surrogate pair, and
lists and objects may nest to any depth. The name of a skipped field is read like every other
name.

## Main definitions

- `Reflex.Json.Skipping`: a value that is being skipped, `Reflex.Json.skip?`: skip a value.
- `Reflex.Json.Selection`: what of a document is needed.
- `Reflex.Json.Selection.read?`: read what is needed of a text.
-/

namespace Reflex.Json

/-! ## Skipping -/

/-- The characters that may follow a backslash, other than the `u` of an escape with digits. -/
def shortEscapes : List Char := ['"', '\\', '/', 'b', 'f', 'n', 'r', 't']

/-- Skip the rest of a text after its opening quote. Four digits after `\u` name no character
here, so any four will do. -/
def skipString? : List Char → Option (List Char)
  | [] => none
  | '"' :: rest => some rest
  | '\\' :: 'u' :: a :: b :: c :: d :: rest =>
    if (Hexadecimal.ofDigits? [a, b, c, d]).isSome then skipString? rest else none
  | '\\' :: c :: rest => if shortEscapes.contains c then skipString? rest else none
  | c :: rest => if c = '\\' ∨ c.val < 0x20 then none else skipString? rest

/-- Skip the name of a field and the colon behind it. -/
def skipName? (cs : List Char) : Option (List Char) :=
  match skipSpace cs with
  | '"' :: rest =>
    match (skipString? rest).map skipSpace with
    | some (':' :: rest) => some rest
    | _ => none
  | _ => none

/-- Skip a value without parts. -/
def skipScalar? : List Char → Option (List Char)
  | 'n' :: 'u' :: 'l' :: 'l' :: rest => some rest
  | 't' :: 'r' :: 'u' :: 'e' :: rest => some rest
  | 'f' :: 'a' :: 'l' :: 's' :: 'e' :: rest => some rest
  | '"' :: rest => skipString? rest
  | cs => (spanNumeral? cs).map (·.2)

/-- What can be open around a value. -/
inductive Bracket where
  -- A list.
  | list
  -- An object.
  | object
  deriving DecidableEq, Repr

/-- A value that is being skipped. What is open around the place that was reached is kept in a
list, so that values can nest to any depth. -/
structure Skipping where
  /-- Whether a value comes next; else one has just ended. -/
  atValue : Bool
  /-- The lists and objects that are open, the innermost one first. -/
  around : List Bracket
  /-- The remaining text. -/
  rest : List Char

namespace Skipping

/-- The skipping of a value, before its first character. -/
def start (cs : List Char) : Skipping :=
  { atValue := true, around := [], rest := cs }

/-- Whether the value has ended. -/
def isOver (s : Skipping) : Bool :=
  !s.atValue && s.around.isEmpty

/-- Skip a value without parts, or open a list or an object. -/
def enter? (s : Skipping) : Option Skipping :=
  match skipSpace s.rest with
  | '[' :: rest =>
    match skipSpace rest with
    | ']' :: rest => some { s with atValue := false, rest }
    | rest => some { s with around := .list :: s.around, rest }
  | '\x7b' :: rest =>
    match skipSpace rest with
    | '\x7d' :: rest => some { s with atValue := false, rest }
    | rest => (skipName? rest).map fun rest => { s with around := .object :: s.around, rest }
  | cs => (skipScalar? cs).map fun rest => { s with atValue := false, rest }

/-- Go on after a value: to the next one, or out of what is open around it. -/
def leave? (s : Skipping) : Option Skipping :=
  match s.around, skipSpace s.rest with
  | .list :: _, ',' :: rest => some { s with atValue := true, rest }
  | .list :: around, ']' :: rest => some { s with around, rest }
  | .object :: _, ',' :: rest => (skipName? rest).map fun rest => { s with atValue := true, rest }
  | .object :: around, '\x7d' :: rest => some { s with around, rest }
  | _, _ => none

/-- One step. -/
def step? (s : Skipping) : Option Skipping :=
  if s.atValue then s.enter? else s.leave?

/-- Make steps until the value has ended, at most as many as the fuel allows, and give what
follows it. -/
def run? : Nat → Skipping → Option (List Char)
  | 0, _ => none
  | fuel + 1, s =>
    if s.isOver then some s.rest
    else
      match s.step? with
      | some s => run? fuel s
      | none => none

end Skipping

/-- Skip a value. Every step takes a character or more. -/
def skip? (cs : List Char) : Option (List Char) :=
  (Skipping.start cs).run? (cs.length + 1)

/-! ## Reading -/

/-- What of a document is needed. -/
inductive Selection where
  -- All of it.
  | whole
  -- Of a record the fields with the given names. As a list the record has them in this
  -- order.
  | record (fields : List (String × Selection))
  -- Of every item of a list the same.
  | list (item : Selection)

namespace Selection

/-- What is needed of the first items of a list, and of all items after them. -/
def items : Selection → List Selection × Selection
  | .whole => ([], .whole)
  | .record fields => (fields.map (·.2), .whole)
  | .list item => ([], item)

/-- What is needed of a field of an object, if anything is. -/
def field? (name : String) : Selection → Option Selection
  | .record fields => (fields.find? fun e => e.1 == name).map (·.2)
  | .whole | .list _ => some .whole

mutual

/-- Read what is needed of a document. The depth is the number of lists and objects that may
still be opened; the fuel bounds the number of steps. -/
def readValue? : Nat → Nat → Selection → List Char → Option (Json × List Char)
  | 0, _, _, _ => none
  | _, depth, .whole, cs => Json.readValue? (2 * cs.length + 2) depth cs
  | fuel + 1, depth, selection, cs =>
    match skipSpace cs with
    | '[' :: rest =>
      if depth = 0 then none
      else
        match skipSpace rest with
        | ']' :: rest => some (.array [], rest)
        | rest => do
          let (front, others) := selection.items
          let (items, rest) ← readItems? fuel (depth - 1) front others rest
          return (.array items, rest)
    | '\x7b' :: rest =>
      if depth = 0 then none
      else
        match skipSpace rest with
        | '\x7d' :: rest => some (.object [], rest)
        | rest => do
          let (fields, rest) ← readFields? fuel (depth - 1) selection rest
          return (.object fields, rest)
    | rest => Json.readValue? (2 * rest.length + 2) depth rest

/-- Read what is needed of the items of a list, up to its end. -/
def readItems? : Nat → Nat → List Selection → Selection → List Char →
    Option (List Json × List Char)
  | 0, _, _, _, _ => none
  | fuel + 1, depth, front, others, cs => do
    let (item, rest) ← readValue? fuel depth (front.headD others) cs
    match skipSpace rest with
    | ',' :: rest =>
      let (items, rest) ← readItems? fuel depth front.tail others rest
      return (item :: items, rest)
    | ']' :: rest => return ([item], rest)
    | _ => none

/-- Read the needed fields of an object, up to its end. -/
def readFields? : Nat → Nat → Selection → List Char →
    Option (List (String × Json) × List Char)
  | 0, _, _, _ => none
  | fuel + 1, depth, selection, cs =>
    match skipSpace cs with
    | '"' :: rest => do
      let (name, rest) ← readString? (rest.length + 1) rest
      match skipSpace rest with
      | ':' :: rest =>
        let (field, rest) ← match selection.field? (String.ofList name) with
          | some inner => do
            let (value, rest) ← readValue? fuel depth inner rest
            some ([(String.ofList name, value)], rest)
          | none => (skip? rest).map fun rest => ([], rest)
        match skipSpace rest with
        | ',' :: rest =>
          let (fields, rest) ← readFields? fuel depth selection rest
          return (field ++ fields, rest)
        | '\x7d' :: rest => return (field, rest)
        | _ => none
      | _ => none
    | _ => none

end

/-- Read what is needed of the document of a text. Fields that are not needed are left out. -/
def read? (selection : Selection) (s : String) : Option Json := do
  let cs := s.toList
  let (j, rest) ← readValue? (2 * cs.length + 2) maxDepth selection cs
  if (skipSpace rest).isEmpty then some j else none

end Selection

end Reflex.Json
