/-!
Rounding a quotient of natural numbers to the nearest natural number.
-/

namespace LeibnizSieve.Decimal

/-- The natural number nearest to `num / den`; of two equally near ones the even one. -/
def roundHalfEven (num den : Nat) : Nat :=
  let floor := num / den
  let rest := num % den
  if 2 * rest < den then floor
  else if den < 2 * rest then floor + 1
  else if floor % 2 = 0 then floor
  else floor + 1

end LeibnizSieve.Decimal
