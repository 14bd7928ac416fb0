import TouchIntent.Arbiter
import TouchIntent.Config.Error

/-!
# Settings

What can be tuned in a session.
-/

namespace TouchIntent

open Scalar

structure Settings (R : Type) where
  /-- How many samples of each pointer a recognizer keeps. -/
  maxObservations : Nat
  emission : Emission
  /-- How many pixels make one point, the unit of sizes in gesture texts. -/
  displayDensity : R
  /-- The mean evidence that an interactor needs to stay in play. -/
  ruleOutEvidence : R
  /-- The distance up to which a repeated move is dropped. -/
  jitterThreshold : R

variable {R : Type} [Scalar R]

namespace Settings

def default : Settings R where
  maxObservations := defaultMaxObservations
  emission := .gaussian
  displayDensity := one
  ruleOutEvidence := defaultRuleOutEvidence
  jitterThreshold := ratio 1 80

/-- The first thing in the settings that makes no sense. -/
def fault? (s : Settings R) : Option ConfigFault :=
  if s.maxObservations = 0 then some .maxObservations
  else if ¬ isPositive s.displayDensity then some .displayDensity
  else if ¬ Scalar.isFinite s.ruleOutEvidence then some .ruleOutEvidence
  else if ¬ (Scalar.isFinite s.jitterThreshold ∧ zero ≤ s.jitterThreshold) then
    some .jitterThreshold
  else none

/-- The settings, if they make sense. -/
def validate (s : Settings R) : Except ConfigError (Settings R) :=
  match s.fault? with
  | some fault => .error (.invalid fault)
  | none => .ok s

end Settings

end TouchIntent
