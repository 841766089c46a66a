/-!
# Ranges of code points

A class of characters that follows no simple rule is given as a table: ranges of
code points, both ends included, in ascending order and apart from each other.

The order is a property of a table, not of the type.  Membership does not depend
on it.
-/

namespace PhraseStructure

/-- Ranges of code points, both ends included. -/
abbrev Ranges := List (Nat × Nat)

namespace Ranges

/-- The character lies in one of the ranges. -/
def covers (ranges : Ranges) (c : Char) : Bool :=
  ranges.any fun range => range.1 ≤ c.toNat && c.toNat ≤ range.2

/-- No range is empty, each one ends before the next begins, and none begins below
a bound. -/
def ascendsFrom (bound : Nat) : Ranges → Bool
  | [] => true
  | range :: rest => bound ≤ range.1 && range.1 ≤ range.2 && ascendsFrom (range.2 + 1) rest

end Ranges
end PhraseStructure
