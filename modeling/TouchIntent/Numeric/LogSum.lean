import TouchIntent.Numeric.Scalar

/-!
# Sums of probabilities in log space

`logSumExp` adds up probabilities that are given by their logarithms. The greatest summand is taken
out first, so the exponentials neither overflow nor all vanish.
-/

namespace TouchIntent

open Scalar

variable {R : Type} [Scalar R]

/-- The greatest of a list of scalars, `-∞` for the empty list. -/
def greatest (xs : List R) : R := xs.foldl maximum negInfinity

/-- `ln (Σ exp xᵢ)`, with `-∞` where the sum is empty or every summand vanishes. -/
def logSumExp (xs : List R) : R :=
  let top := greatest xs
  if top ≤ negInfinity then negInfinity
  else ln (sum (xs.map fun x => exp (x - top))) + top

end TouchIntent
