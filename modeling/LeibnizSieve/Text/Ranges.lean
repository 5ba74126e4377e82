/-!
Sets of characters given by ranges of their numbers.
-/

namespace LeibnizSieve.Text

abbrev Ranges := List (Nat × Nat)

def Ranges.contains (ranges : Ranges) (c : Char) : Bool :=
  ranges.any fun (low, high) => low ≤ c.toNat && c.toNat ≤ high

end LeibnizSieve.Text
