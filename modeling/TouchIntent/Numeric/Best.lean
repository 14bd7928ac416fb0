import TouchIntent.Numeric.Scalar

/-!
# The first best choice

Wherever the library picks the alternative of greatest score (the state of a decoded path, the most
likely behaviour), a later alternative wins only if it is strictly better. Ties therefore go to the
first.
-/

namespace TouchIntent

variable {R : Type} [Scalar R]

/-- The first of the indices `0, …, n - 1` at which `score` is greatest. -/
def firstBest {n : Nat} (inhabited : 0 < n) (score : Fin n → R) : Fin n :=
  (List.finRange n).foldl (fun best i => if score best < score i then i else best) ⟨0, inhabited⟩

/-- The first position of a list at which the score is greatest, `0` for the empty list. -/
def firstBestIndex (scores : List R) : Nat :=
  if h : 0 < scores.length then (firstBest h fun i => scores[i]).val else 0

end TouchIntent
