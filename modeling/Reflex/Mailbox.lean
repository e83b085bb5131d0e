/-!
# Mailboxes

A mailbox keeps what a subscriber has not yet taken. When it is full, the oldest entry gives way
and is counted as missed.
-/

namespace Reflex

variable {α : Type}

/-- The entries that wait for a subscriber. -/
structure Mailbox (α : Type) where
  /-- The greatest number of entries that are kept. -/
  capacity : Nat
  /-- The entries, the oldest one first. -/
  pending : List α := []
  /-- The number of entries that gave way. -/
  missed : Nat := 0

namespace Mailbox

/-- An empty mailbox. The capacity is rounded up to a power of two; there is no mailbox without
capacity. -/
def ofCapacity? (α : Type) (capacity : Nat) : Option (Mailbox α) :=
  if capacity = 0 then none else some { capacity := capacity.nextPowerOfTwo }

/-- Put an entry in. -/
def put (box : Mailbox α) (a : α) : Mailbox α :=
  if box.pending.length < box.capacity then { box with pending := box.pending ++ [a] }
  else { box with pending := box.pending.tail ++ [a], missed := box.missed + 1 }

/-- Take the oldest entry. -/
def next? (box : Mailbox α) : Option (α × Mailbox α) :=
  match box.pending with
  | a :: rest => some (a, { box with pending := rest })
  | [] => none

/-- The mailbox after everything was taken. -/
def emptied (box : Mailbox α) : Mailbox α :=
  { box with pending := [], missed := 0 }

end Mailbox

end Reflex
