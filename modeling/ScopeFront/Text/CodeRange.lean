/-!
# Ranges of code points

A property of characters is given by a table of inclusive code point ranges in increasing order.

* `CodeRange` – one inclusive range;
* `CodeRange.covers` – whether a character lies in a table of ranges.
-/

set_option autoImplicit false

namespace ScopeFront.Text

/-- The code points from `first` to `last`, both included. -/
structure CodeRange where
  first : Nat
  last : Nat
deriving DecidableEq, Repr

namespace CodeRange

/-- A character belongs to a range when its code point lies between the two ends. -/
def contains (r : CodeRange) (c : Char) : Bool :=
  r.first ≤ c.toNat && c.toNat ≤ r.last

/-- A character belongs to a table when it belongs to one of its ranges. -/
def covers (table : List CodeRange) (c : Char) : Bool :=
  table.any fun r => r.contains c

end CodeRange

end ScopeFront.Text
