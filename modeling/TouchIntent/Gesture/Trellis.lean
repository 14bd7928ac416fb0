import TouchIntent.Numeric.Best
import TouchIntent.Numeric.LogSum

/-!
# Trellises

The dynamic programs behind a hidden Markov model, apart from where its numbers come from. A trellis
has `n` states with a log weight for starting in each and for stepping between any two; what a state
makes of an observation is a function `emit`. The *score* of a path is the sum of the weights along
it.

* `forward` adds up, in log space, the scores of all paths through the observations.
* `bestPath` is a path of greatest score. Of the paths that share the greatest score it is the one
  that a choice of the lowest state at every tie, from the last observation backwards, leads to.
-/

namespace TouchIntent

/-- The log weights of a chain of `n` states. -/
structure Trellis (R : Type) (n : Nat) where
  start : Vector R n
  /-- The weight of stepping from the first to the second state. -/
  step : Vector (Vector R n) n

namespace Trellis

variable {R σ : Type} [Scalar R] {n : Nat}

/-- The scores of the paths that consist of the first observation alone. -/
def enter (t : Trellis R n) (emit : σ → Fin n → R) (first : σ) : Vector R n :=
  Vector.ofFn fun j => t.start[j] + emit first j

/-- The log total of all paths that end in each state, one observation later. -/
def advance (t : Trellis R n) (emit : σ → Fin n → R) (totals : Vector R n) (next : σ) :
    Vector R n :=
  Vector.ofFn fun j =>
    logSumExp ((List.finRange n).map fun i => totals[i] + t.step[i][j]) + emit next j

/-- The log total over all paths; no path leads through an empty sequence. -/
def forward (t : Trellis R n) (emit : σ → Fin n → R) : List σ → R
  | [] => Scalar.negInfinity
  | first :: rest => logSumExp (rest.foldl (t.advance emit) (t.enter emit first)).toList

/-- The best path into one state: its score, and its states from the last to the first. -/
structure Survivor (R : Type) (n : Nat) where
  score : R
  states : List (Fin n)

def enterSurvivors (t : Trellis R n) (emit : σ → Fin n → R) (first : σ) :
    Vector (Survivor R n) n :=
  Vector.ofFn fun j => ⟨t.start[j] + emit first j, [j]⟩

/-- Each state is reached from the predecessor that gives the greatest score. -/
def advanceSurvivors (t : Trellis R n) (inhabited : 0 < n) (emit : σ → Fin n → R)
    (survivors : Vector (Survivor R n) n) (next : σ) : Vector (Survivor R n) n :=
  Vector.ofFn fun j =>
    let score := fun i : Fin n => survivors[i].score + t.step[i][j]
    let i := firstBest inhabited score
    ⟨score i + emit next j, j :: survivors[i].states⟩

/-- The best path through the observations. -/
def bestPath (t : Trellis R n) (inhabited : 0 < n) (emit : σ → Fin n → R) : List σ → List (Fin n)
  | [] => []
  | first :: rest =>
    let survivors := rest.foldl (t.advanceSurvivors inhabited emit) (t.enterSurvivors emit first)
    survivors[firstBest inhabited fun j => survivors[j].score].states.reverse

/-- The score of a path that has come to `state` with `score` and goes on as given. -/
def scoreFrom (t : Trellis R n) (emit : σ → Fin n → R) (state : Fin n) (score : R) :
    List (σ × Fin n) → R
  | [] => score
  | (next, j) :: rest => t.scoreFrom emit j (score + t.step[state][j] + emit next j) rest

/-- The score of a path, given with the observation that each of its states answers for. -/
def pathScore (t : Trellis R n) (emit : σ → Fin n → R) : List (σ × Fin n) → R
  | [] => Scalar.negInfinity
  | (first, i) :: rest => t.scoreFrom emit i (t.start[i] + emit first i) rest

end Trellis

end TouchIntent
