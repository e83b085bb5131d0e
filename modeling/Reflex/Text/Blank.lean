/-!
# Blank Characters

The blanks of this library are the characters with the Unicode property `White_Space`, a
wider set than the ASCII blanks of `Char.isWhitespace`.

## Main definitions

- `Reflex.Text.isBlankChar`: membership in the set.
- `Reflex.Text.trimStart`, `Reflex.Text.trim`: removal at the ends of a text.
- `Reflex.Text.isBlank`: a text that holds nothing else.
-/

namespace Reflex.Text

/-- The property `White_Space`: tabulation to carriage return, space, next line, no-break
space and the spaces and separators of the later blocks. -/
def isBlankChar (c : Char) : Bool :=
  (0x09 ≤ c.val && c.val ≤ 0x0D) || c.val == 0x20 || c.val == 0x85 || c.val == 0xA0 ||
    c.val == 0x1680 || (0x2000 ≤ c.val && c.val ≤ 0x200A) || c.val == 0x2028 ||
    c.val == 0x2029 || c.val == 0x202F || c.val == 0x205F || c.val == 0x3000

/-- Drop the blanks at the start. -/
def trimStart (cs : List Char) : List Char :=
  cs.dropWhile isBlankChar

/-- Drop the blanks at both ends. -/
def trim (cs : List Char) : List Char :=
  (trimStart (trimStart cs).reverse).reverse

/-- Drop the blanks at both ends of a string. -/
def trimmed (s : String) : String :=
  String.ofList (trim s.toList)

/-- A string without any character that is not blank. -/
def isBlank (s : String) : Bool :=
  s.toList.all isBlankChar

/-- A digit is no blank. -/
theorem isBlankChar_of_isDigit {c : Char} (h : c.isDigit = true) : isBlankChar c = false := by
  simp only [Char.isDigit, Bool.and_eq_true, decide_eq_true_iff] at h
  have hlow : 48 ≤ c.toNat := UInt32.le_iff_toNat_le.1 h.1
  have hhigh : c.toNat ≤ 57 := UInt32.le_iff_toNat_le.1 h.2
  rw [Bool.eq_false_iff]
  simp only [isBlankChar, UInt32.le_iff_toNat_le, UInt32.reduceToNat, Char.toNat_val, ne_eq,
    Bool.or_eq_true, Bool.and_eq_true, decide_eq_true_eq, beq_iff_eq, ← UInt32.toNat_inj]
  omega

/-- Nothing is dropped before a character that is no blank. -/
theorem trimStart_eq_self {cs : List Char} (h : ∀ c, cs.head? = some c → isBlankChar c = false) :
    trimStart cs = cs := by
  cases cs with
  | nil => rfl
  | cons c cs => rw [trimStart, List.dropWhile_cons_of_neg (by simp [h c rfl])]

/-- Nothing is dropped from a text that begins and ends with characters that are no blanks. -/
theorem trim_eq_self {cs : List Char} (hhead : ∀ c, cs.head? = some c → isBlankChar c = false)
    (hlast : ∀ c, cs.getLast? = some c → isBlankChar c = false) : trim cs = cs := by
  rw [trim, trimStart_eq_self hhead, trimStart_eq_self fun c hc => hlast c (by simpa using hc),
    List.reverse_reverse]

end Reflex.Text
