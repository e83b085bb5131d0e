/-!
# Words

The bounds of integers of 64 bits, and powers of two and ten.
-/

namespace Reflex

/-- The number of words of 64 bits, which is the least number that does not fit into one. -/
def Word.size : Nat := 0x10000000000000000

/-- Half the number of words of 64 bits, the least number that does not fit into one with a
sign. -/
def Word.half : Nat := 0x8000000000000000

/-- A power of two. -/
def powerOfTwo (exponent : Nat) : Nat := Nat.pow 2 exponent

/-- A power of ten. -/
def powerOfTen (exponent : Nat) : Nat := Nat.pow 10 exponent

end Reflex
