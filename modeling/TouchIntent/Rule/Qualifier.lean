import TouchIntent.Recognizer.View
import TouchIntent.Rule.Token
import TouchIntent.Text.Number

/-!
# Qualifiers

A qualifier narrows a question about a behaviour: to performances of a certain duration, number of
fingers, pressure or contact size.
-/

namespace TouchIntent

open Scalar

/-- A condition on how a behaviour was performed. A missing bound bounds nothing. -/
inductive Qualifier (R : Type) where
  /-- Longer than `above` and not longer than `upTo`, in milliseconds. -/
  | timeTaken (above upTo : Option R)
  | fingers (count : Nat)
  /-- Strictly between the bounds. -/
  | pressure (above below : Option R)
  /-- Strictly between the bounds. -/
  | size (above below : Option R)

variable {R : Type} [Scalar R]

namespace Qualifier

/-- The value lies strictly between the bounds. -/
def isBetween (value : R) (above below : Option R) : Bool :=
  above.all (fun a => decide (a < value)) && below.all (fun b => decide (value < b))

def holds (q : Qualifier R) (v : BehaviorView R) : Bool :=
  match q with
  | timeTaken above upTo =>
    let taken : R := ofNat v.timeTaken
    above.all (fun a => decide (a < taken)) && upTo.all (fun u => decide (taken ≤ u))
  | fingers count => v.observedPointerCount == count
  | pressure above below => isBetween v.meanPressure above below
  | size above below => isBetween v.meanSize above below

/-- A bound is a finite number that is not negative. -/
def bound? (s : List Char) : Option R :=
  (Text.number? s).filter fun x : R => Scalar.isFinite x && decide (zero ≤ x)

/-- A span of time: `low-high`, `>low`, `<high` or `high`, in units of `scale` milliseconds. -/
def timeSpan? (scale : R) (value : List Char) : Option (Qualifier R) :=
  match Text.cut? '-' value with
  | some (low, high) => do
    let low ← bound? low
    let high ← bound? high
    return timeTaken (some (low * scale)) (some (high * scale))
  | none =>
    match Text.dropStart? ['>'] value with
    | some low => do
      let low ← bound? low
      return timeTaken (some (low * scale)) none
    | none => do
      let high ← bound? ((Text.dropStart? ['<'] value).getD value)
      return timeTaken none (some (high * scale))

/-- The bounds of a pressure or a size: `<high`, `>low` or `low`. -/
def bounds? (value : List Char) : Option (Option R × Option R) :=
  match Text.dropStart? ['<'] value with
  | some high => do
    let high ← bound? high
    return (none, some high)
  | none => do
    let low ← bound? ((Text.dropStart? ['>'] value).getD value)
    return (some low, none)

/-- The greatest number of fingers that can be written. -/
def fingerLimit : Nat := 0xffffffffffffffff

/-- Reads the value of a qualifier in its unit. -/
def read? (word : QualifierWord) (value unit : String) : Option (Qualifier R) :=
  let value := value.toList
  match word with
  | .duration =>
    if unit = "ms" then timeSpan? one value
    else if unit = "s" then timeSpan? (ofNat 1000) value
    else none
  | .fingers => if unit = "fingers" then (Text.natural? fingerLimit value).map fingers else none
  | .contact =>
    if unit = "p" then (bounds? value).map fun (above, below) => pressure above below
    else if unit = "a" then (bounds? value).map fun (above, below) => size above below
    else none

end Qualifier

end TouchIntent
