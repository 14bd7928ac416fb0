import TouchIntent.Touch

/-!
# Completion patterns

What it takes to complete a gesture, apart from where the touches are: for each state the events
that have to happen in it, whether a gesture may start and end there, and which steps between states
are valid. A pattern also names points of a gesture that are worth a notification.
-/

namespace TouchIntent

/-- How often a required event has to happen. -/
inductive Repeat where
  | once
  | oneOrMore
  | zeroOrMore
  deriving DecidableEq

/-- Whether the event has to happen at all. -/
def Repeat.isRequired : Repeat → Bool
  | once | oneOrMore => true
  | zeroOrMore => false

/-- One event that a state requires. -/
structure EventToken where
  kind : EventKind
  times : Repeat
  deriving DecidableEq

/-- What a marker is attached to: a state, or one of the events that a state requires. -/
inductive MarkerTarget where
  | state (state : Nat)
  | event (state token : Nat)
  deriving DecidableEq

/-- A point of a gesture to notify about, and whether the gesture has come to it. -/
structure Marker where
  index : Nat
  target : MarkerTarget
  reached : Bool := false
  justReached : Bool := false
  deriving DecidableEq

structure PatternState where
  /-- A gesture may start here. -/
  initial : Bool
  /-- A gesture may end here. -/
  final : Bool
  tokens : List EventToken
  deriving DecidableEq

/-- The completion pattern of a gesture. Its states are those of the gesture's model. -/
structure Pattern where
  states : List PatternState
  /-- The valid steps: a row for each state they leave, an entry for each state they reach. -/
  valid : List (List Bool)
  markers : List Marker
  deriving DecidableEq

namespace Pattern

/-- The list cut or filled up to a length. -/
def resize {α : Type} (n : Nat) (filler : α) (xs : List α) : List α :=
  xs.take n ++ List.replicate (n - xs.length) filler

/-- The pattern with a matrix of valid steps brought to the number of states; a step that the given
rows do not mention is not valid. -/
def build (states : List PatternState) (valid : List (List Bool)) (markers : List Marker) :
    Pattern :=
  let n := states.length
  ⟨states, (resize n [] valid).map (resize n false), markers⟩

variable (p : Pattern)

def size : Nat := p.states.length

def isInitial (state : Nat) : Bool := p.states[state]?.any PatternState.initial

def isFinal (state : Nat) : Bool := p.states[state]?.any PatternState.final

def tokens (state : Nat) : List EventToken := (p.states[state]?.map PatternState.tokens).getD []

def isValidStep (source target : Nat) : Bool :=
  ((p.valid[source]?.bind fun row => row[target]?)).getD false

end Pattern

/-- What a completion check finds. -/
structure CheckResult where
  /-- For each state, how often its events happened since the last invalid step. -/
  cover : List Nat
  /-- An invalid step was taken, or the path started where a gesture may not start. -/
  broken : Bool
  /-- Every state is covered. -/
  allCovered : Bool
  /-- Every state was covered at some point of the path. -/
  everAllCovered : Bool
  finalState : Nat
  justCoveredNewState : Bool
  endsInFinalState : Bool
  /-- The gesture was completed, and since then every result ended in a final state. -/
  hasBeenCompleted : Bool
  /-- The last sample was a release in a covered state. -/
  endedReleased : Bool
  isMostLikely : Bool := false
  hasJustBecomeMostLikely : Bool := false
  markers : List Marker
  deriving DecidableEq

namespace CheckResult

variable (r : CheckResult)

def hasJustCompleted : Bool := r.justCoveredNewState && r.allCovered && r.endsInFinalState

def isCovered (state : Nat) : Bool := r.cover[state]?.any (0 < ·)

def marker? (index : Nat) : Option Marker := r.markers.find? fun m => m.index == index

end CheckResult

end TouchIntent
