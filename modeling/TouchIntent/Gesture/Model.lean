import TouchIntent.Gesture.Gaussian
import TouchIntent.Gesture.Trellis

/-!
# Gesture models

A hidden Markov model with normal emissions: what a gesture looks like as a sequence of samples. It
says how likely a sequence is, which states a sequence most likely went through, and it can be moved
or fitted to recorded samples.
-/

namespace TouchIntent

open Scalar

/-- Why a model cannot be built or fitted. -/
inductive ModelError where
  | noStates
  | transitionShape (row length expected : Nat)
  | initialShape (length expected : Nat)
  | notPositiveDefinite (state : Nat)
  | stateOutOfRange (state count : Nat)
  | noSamples
  | weightCount
  | degenerateFit
  deriving DecidableEq

def ModelError.message : ModelError → String
  | noStates => "gesture model needs at least one state"
  | transitionShape row length expected =>
    s!"transition row {row} has {length} entries, expected {expected}"
  | initialShape length expected => s!"initial vector has {length} entries, expected {expected}"
  | notPositiveDefinite state =>
    s!"covariance of state {state} is not symmetric positive-definite"
  | stateOutOfRange state count => s!"state {state} out of range for a {count}-state model"
  | noSamples => "cannot fit state: empty observation set"
  | weightCount => "cannot fit state: weights do not match samples"
  | degenerateFit => "cannot fit state: fitted covariance is degenerate"

/-- A hidden Markov model over `size` states. Probabilities are plain, not logarithms. -/
structure Model (R : Type) where
  size : Nat
  inhabited : 0 < size
  states : Vector (Gaussian R) size
  /-- The probability of stepping from the first to the second state. -/
  transitions : Vector (Vector R size) size
  initial : Vector R size
  emission : Emission

/-- The list as a vector of the given length, if it has that length. -/
def vector? {α : Type} (n : Nat) (xs : List α) : Option (Vector α n) :=
  if h : xs.length = n then some ⟨xs.toArray, by simpa using h⟩ else none

/-- The first row of another length than the number of rows. -/
def unequalRow? {α : Type} {n : Nat} (rows : Vector (List α) n) : Option (Fin n) :=
  (List.finRange n).find? fun i => (rows.get i).length != n

/-- If no row has another length, each has the length `n`. -/
theorem size_of_unequalRow?_eq_none {α : Type} {n : Nat} {rows : Vector (List α) n}
    (h : unequalRow? rows = none) (i : Fin n) : (rows.get i).toArray.size = n := by
  have full := List.find?_eq_none.1 h i (List.mem_finRange i)
  simpa using full

/-- A list of `n` rows as a square matrix; otherwise the first row of another length. -/
def squareMatrix {α : Type} {n : Nat} (rows : Vector (List α) n) :
    Except (Fin n) (Vector (Vector α n) n) :=
  match h : unequalRow? rows with
  | some i => .error i
  | none => .ok (Vector.ofFn fun i => ⟨(rows.get i).toArray, size_of_unequalRow?_eq_none h i⟩)

variable {R : Type} [Scalar R]

namespace Model

/-- The model of the given states and probabilities, scoring by density. -/
def build (states : List (Gaussian R)) (transitions : List (List R)) (initial : List R) :
    Except ModelError (Model R) :=
  let n := states.length
  if inhabited : 0 < n then
    match vector? n initial with
    | none => .error (.initialShape initial.length n)
    | some initial =>
      match vector? n transitions with
      | none => .error (.transitionShape transitions.length 0 n)
      | some rows =>
        match squareMatrix rows with
        | .error row => .error (.transitionShape row rows[row].length n)
        | .ok transitions =>
          match states.findIdx? fun g => !g.hasDensity with
          | some state => .error (.notPositiveDefinite state)
          | none => .ok {
              size := n
              inhabited
              states := ⟨states.toArray, by simp [n]⟩
              transitions
              initial
              emission := .gaussian }
  else .error .noStates

def withEmission (m : Model R) (emission : Emission) : Model R := { m with emission }

def state? (m : Model R) (i : Nat) : Option (Gaussian R) := m.states[i]?

/-- How a state scores a sample. -/
def logEmission (m : Model R) (sample : Sample R) (state : Fin m.size) : R :=
  m.states[state].logEmission m.emission sample

/-- The log weights of the model. -/
def trellis (m : Model R) : Trellis R m.size where
  start := m.initial.map ln
  step := m.transitions.map fun row => row.map ln

/-- The log-likelihood of a sequence, `-∞` for the empty one. -/
def logLikelihood (m : Model R) (samples : List (Sample R)) : R :=
  m.trellis.forward m.logEmission samples

/-- The states that a sequence most likely went through. -/
def mostLikelyPath (m : Model R) (samples : List (Sample R)) : List (Fin m.size) :=
  m.trellis.bestPath m.inhabited m.logEmission samples

/-- The model with every mean moved by the same displacement. -/
def translate (m : Model R) (d : Vec2 R) : Model R :=
  { m with states := m.states.map fun g => g.translate d }

/-- The model with every mean at the given point. -/
def moveTo (m : Model R) (p : Vec2 R) : Model R :=
  { m with states := m.states.map fun g => g.moveTo p }

/-- What each sample adds to the diagonal of a fitted covariance. -/
def fitRegularization : R := ratio 1 100000

/-- The weighted sum of the positions. -/
def fittedMean (weighted : List (Sample R × R)) : Vec2 R :=
  weighted.foldl (fun mean (sample, weight) => mean.add (sample.position.scale weight))
    ⟨zero, zero⟩

/-- The weighted scatter of the positions about a mean, regularized once for each sample. -/
def fittedCovariance (mean : Vec2 R) (weighted : List (Sample R × R)) : Mat2 R :=
  weighted.foldl (fun covariance (sample, weight) =>
    let d := sample.position.sub mean
    let scatter : Mat2 R := ⟨d.scale d.x, d.scale d.y⟩
    covariance.add ((scatter.scale weight).add
      (Mat2.diagonal fitRegularization fitRegularization))) Mat2.zero

/-- Fits one state to weighted samples. The model is handed back on an error too: as far as the fit
has come by then. -/
def fit (m : Model R) (state : Nat) (samples : List (Sample R)) (weights : List R) :
    Model R × Except ModelError Unit :=
  if inRange : state < m.size then
    if samples.isEmpty then (m, .error .noSamples)
    else if samples.length ≠ weights.length then (m, .error .weightCount)
    else
      let weighted := samples.zip weights
      let mean := fittedMean weighted
      match Gaussian.of? mean (fittedCovariance mean weighted) with
      | none => (m, .error .degenerateFit)
      | some fitted => ({ m with states := m.states.set state fitted }, .ok ())
  else (m, .error (.stateOutOfRange state m.size))

/-- Fits one state to samples of equal weight. -/
def fitUniform (m : Model R) (state : Nat) (samples : List (Sample R)) :
    Model R × Except ModelError Unit :=
  let weight : R := one / ofNat (max samples.length 1)
  m.fit state samples (samples.map fun _ => weight)

end Model

end TouchIntent
