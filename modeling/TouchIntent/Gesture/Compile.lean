import TouchIntent.Gesture.Route.Parser

/-!
# Compiling gestures

A gesture text becomes a behaviour: a model that recognizes the gesture and a pattern that says when
it is complete. Stop `i` of the route is state `i` of both.

From each stop all allowed steps are equally likely. A gesture starts at the first stop, or at the
last one if it may go back from there. It ends at the stops that are marked as final; if none is, at
the last one, and also at the first if every arrow goes both ways. No probability is zero: a small
constant is added to each before they are normalized.
-/

namespace TouchIntent

open Scalar

/-- What a gesture text compiles to. -/
structure Behavior (R : Type) where
  label : String
  model : Model R
  pattern : Pattern
  /-- The centre of the element in surface units, for a gesture that may start anywhere. -/
  origin : Option (Vec2 R)
  pointers : List PointerId

/-- The pointers that a behaviour listens to. -/
def defaultPointers : List PointerId := [0, 1]

variable {R : Type} [Scalar R]

/-- What is added to every probability before normalizing. -/
def laplaceEpsilon : R := ratio 1 1000

/-- Weights with the Laplace constant added, brought to sum one. -/
def laplaceCorrect (weights : List R) : List R :=
  let raised := weights.map fun w => w + laplaceEpsilon
  let total := sum raised
  raised.map fun w => w / total

namespace Route

variable (r : Route R)

def size : Nat := r.stops.length

/-- The matrix of allowed steps. -/
def stepMatrix : List (List Bool) :=
  (List.range r.size).map fun i => (List.range r.size).map fun j => r.isStep i j

/-- How many steps lead away from a stop, the one that stays included. -/
def stepCount (i : Nat) : Nat := ((List.range r.size).filter fun j => r.isStep i j).length

/-- A gesture may start at the first stop, and at the last one if it can turn back there. -/
def isStart (i : Nat) : Bool := i == 0 || (i + 1 == r.size && decide (1 < r.stepCount i))

def initialWeights : List R :=
  (List.range r.size).map fun i => if r.isStart i then one else zero

/-- The weights of the steps away from a stop. -/
def stepWeights (i : Nat) : List R :=
  (List.range r.size).map fun j =>
    if r.isStep i j then one / ofNat (r.stepCount i) else zero

/-- A gesture may end at stop `i`. -/
def isEnd (i : Nat) : Bool :=
  if r.stops.any Stop.isFinal then r.stops[i]?.any Stop.isFinal
  else i + 1 == r.size || (i == 0 && r.isTwoWay)

/-- What the markers of stop `i` are attached to: the stop itself, then its events. -/
def markerTargets (i : Nat) (stop : Stop R) : List MarkerTarget :=
  (if stop.hasMarker then [.state i] else []) ++
    stop.events.zipIdx.filterMap fun (event, token) =>
      if event.hasMarker then some (.event i token) else none

def markers : List Marker :=
  let targets := (r.stops.zipIdx.map fun (stop, i) => markerTargets i stop).flatten
  targets.zipIdx.map fun (target, index) => { index, target }

def pattern : Pattern :=
  .build
    (r.stops.zipIdx.map fun (stop, i) => {
      initial := r.isStart i
      final := r.isEnd i
      tokens := stop.events.map RouteEvent.token })
    r.stepMatrix r.markers

end Route

/-- The distribution over a region: a region is four standard deviations wide and high. -/
def Region.gaussian (surface : Surface R) (region : Region R) : Gaussian R where
  mean := surface.normalize region.centre
  covariance := Mat2.diagonal (square (region.width / surface.width / ofNat 4))
    (square (region.height / surface.height / ofNat 4))

/-- What compiling depends on besides the text and the element. -/
structure Compiler (R : Type) where
  surface : Surface R
  density : R
  emission : Emission

namespace Compiler

/-- The model of a route. -/
def model (c : Compiler R) (route : Route R) : Except ModelError (Model R) := do
  let model ← Model.build
    (route.stops.map fun stop => stop.region.gaussian c.surface)
    ((List.range route.size).map fun i => laplaceCorrect (route.stepWeights i))
    (laplaceCorrect route.initialWeights)
  return model.withEmission c.emission

/-- Compiles a gesture text for an element with the given box. -/
def compile (c : Compiler R) (source : String) (element : Bounds R) :
    Except GestureError (Behavior R) :=
  let reject := fun (fault : LocatedFault) => (⟨source, fault.offset, fault.fault⟩ : GestureError)
  if ¬ (zero < c.surface.width ∧ zero < c.surface.height) then .error (reject ⟨0, .surfaceSize⟩)
  else if ¬ (zero < element.width ∧ zero < element.height) then .error (reject ⟨0, .elementSize⟩)
  else
    let text := GestureText.ofChars source.toList
    match Route.read c.density element text.offset text.body with
    | .error fault => .error (reject fault)
    | .ok route =>
      match c.model route with
      | .error error => .error (reject ⟨0, .model error⟩)
      | .ok model => .ok {
          label := text.label.getD (String.ofList (Text.squeeze text.body))
          model
          pattern := route.pattern
          origin := if route.isRelative then some (c.surface.normalize route.element.centre)
            else none
          pointers := defaultPointers }

end Compiler

end TouchIntent
