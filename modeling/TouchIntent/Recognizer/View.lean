import TouchIntent.Pattern.Check

/-!
# What rules see of a behaviour

A rule asks how far a behaviour has come and how it was performed. A view holds the answers, for the
pointer that fits the behaviour best.
-/

namespace TouchIntent

structure BehaviorView (R : Type) where
  label : String
  logLikelihood : R
  /-- The states that the dominant pointer most likely went through. -/
  path : List Nat
  eventKinds : List EventKind
  isMostLikely : Bool
  timeTaken : Millis
  meanPressure : R
  meanSize : R
  observedPointerCount : Nat
  pattern : Pattern

/-- The completion check of what a view shows. -/
def BehaviorView.check {R : Type} (v : BehaviorView R) (previous : Option CheckResult) :
    Option CheckResult :=
  v.pattern.check v.path v.eventKinds previous

end TouchIntent
