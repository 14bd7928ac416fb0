import TouchIntent.Config.Error
import TouchIntent.Layout
import TouchIntent.Text.Blank

/-!
# Scenes

What is on the screen: the surface and the interactors on it.
-/

namespace TouchIntent

open Scalar

structure SceneInteractor (R : Type) where
  id : String
  bounds : Bounds R
  /-- The gesture texts, one for each behaviour. -/
  behaviors : List String
  rules : List String
  /-- The label of the rule that claims the touches. -/
  claimOn : Option String
  prior : Option (List R)

structure Scene (R : Type) where
  surface : Surface R
  interactors : List (SceneInteractor R)

variable {R : Type} [Scalar R]

namespace SceneInteractor

/-- The id without the blanks around it, by which interactors are told apart. -/
def trimmedId (i : SceneInteractor R) : String := String.ofList (Text.trim i.id.toList)

/-- The first thing that makes no sense in the prior of an interactor. -/
def priorFault? (i : SceneInteractor R) : Option ConfigFault :=
  i.prior.bind fun prior =>
    if prior.length ≠ i.behaviors.length then
      some (.priorLength i.trimmedId prior.length i.behaviors.length)
    else if prior.any fun p => !isPositive p then some (.priorEntry i.trimmedId)
    else none

/-- The first thing that makes no sense in an interactor, after others with the given ids. -/
def fault? (earlier : List String) (i : SceneInteractor R) : Option ConfigFault :=
  let id := i.trimmedId
  if id.isEmpty then some .emptyId
  else if id ∈ earlier then some (.duplicateId id)
  else if ¬ (Scalar.isFinite i.bounds.x ∧ Scalar.isFinite i.bounds.y) then
    some (.boundsPosition id)
  else if ¬ (isPositive i.bounds.width ∧ isPositive i.bounds.height) then some (.boundsSize id)
  else if i.behaviors.isEmpty then some (.noBehaviors id)
  else match i.priorFault? with
    | some fault => some fault
    | none =>
      if i.claimOn.any fun label => (Text.trim label.toList).isEmpty then some (.emptyClaim id)
      else none

/-- The first thing that makes no sense in a list of interactors. -/
def firstFault? (earlier : List String) : List (SceneInteractor R) → Option ConfigFault
  | [] => none
  | i :: others => i.fault? earlier <|> firstFault? (i.trimmedId :: earlier) others

end SceneInteractor

namespace Scene

/-- The first thing in a scene that makes no sense. -/
def fault? (s : Scene R) : Option ConfigFault :=
  if ¬ (isPositive s.surface.width ∧ isPositive s.surface.height) then some .surfaceSize
  else SceneInteractor.firstFault? [] s.interactors

/-- The scene, if it makes sense. -/
def validate (s : Scene R) : Except ConfigError (Scene R) :=
  match s.fault? with
  | some fault => .error (.invalid fault)
  | none => .ok s

end Scene

end TouchIntent
