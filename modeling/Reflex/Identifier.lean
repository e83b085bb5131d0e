import Reflex.Number.Hexadecimal

/-!
# Identifiers

Rules, events and instances are named by numbers of 128 bits. They are written as 32
hexadecimal digits in groups of 8, 4, 4, 4 and 12, and are read from that form, alone, in
braces or after `urn:uuid:`, and from the bare digits. They can also be given as 16 bytes.
-/

namespace Reflex

/-- An identifier of 128 bits. -/
structure Identifier where
  /-- The identifier as a number. -/
  value : Nat
  /-- It has 128 bits. -/
  value_lt : value < 0x100000000000000000000000000000000 := by omega
  deriving DecidableEq

namespace Identifier

instance : Inhabited Identifier := ⟨{ value := 0 }⟩

/-- The identifier of 32 hexadecimal digits. -/
def ofDigits? (cs : List Char) : Option Identifier := do
  let n ← Hexadecimal.ofDigits? cs
  if h : cs.length = 32 ∧ n < 0x100000000000000000000000000000000 then some ⟨n, h.2⟩ else none

/-- The identifier of sixteen bytes, the most significant one first. -/
def ofBytes? (bytes : List UInt8) : Option Identifier :=
  let n := bytes.foldl (fun n b => n * 0x100 + b.toNat) 0
  if h : bytes.length = 16 ∧ n < 0x100000000000000000000000000000000 then some ⟨n, h.2⟩ else none

/-- The places of the dashes in the grouped form. -/
def dashPlaces : List Nat := [8, 13, 18, 23]

/-- Read the grouped form. -/
def readGrouped? (cs : List Char) : Option Identifier :=
  if cs.length = 36 ∧ dashPlaces.all fun i => cs[i]? == some '-' then
    ofDigits? (cs.take 8 ++ (cs.drop 9).take 4 ++ (cs.drop 14).take 4 ++ (cs.drop 19).take 4 ++
      cs.drop 24)
  else none

/-- The text in front of a grouped form in a resource name, in lower case. -/
def resourceScheme : List Char := "urn:uuid:".toList

/-- Read an identifier in one of its four forms. Letters may have any case. -/
def read? (s : String) : Option Identifier :=
  -- the four forms differ in length
  let cs := s.toList
  if cs.length = 32 then ofDigits? cs
  else if cs.length = 38 then
    if cs.head? == some '\x7b' && cs.getLast? == some '\x7d' then
      readGrouped? ((cs.drop 1).take 36)
    else none
  else if cs.length = 45 then
    if (cs.take 9).map Char.toLower == resourceScheme then readGrouped? (cs.drop 9) else none
  else readGrouped? cs

/-- The 32 digits without dashes. -/
def digits (i : Identifier) : List Char :=
  Hexadecimal.padded 32 i.value

/-- The grouped form in lower case. -/
def text (i : Identifier) : String :=
  let ds := i.digits
  String.ofList (ds.take 8 ++ '-' :: (ds.drop 8).take 4 ++ '-' :: (ds.drop 12).take 4 ++
    '-' :: (ds.drop 16).take 4 ++ '-' :: ds.drop 20)

end Identifier

end Reflex
