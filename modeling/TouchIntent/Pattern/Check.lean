import TouchIntent.Pattern.Match

/-!
# Checking completion

`Pattern.check` looks at the states that a gesture most likely went through and at the events that
happened along the way, and says how far the gesture has come. A *span* is a stretch of the path in
which the state does not change; when the path leaves a state, the events of the span are matched
against the requirements of the state, and a state whose requirements are met is *covered*. A step
that the pattern does not allow starts the gesture over.

What is covered before an invalid step is forgotten. The span that begins with the step is matched
like any other when the path leaves it, and covers its state if the requirements are met.
-/

namespace TouchIntent

/-- The events of the path from one position up to, and without, another. -/
def eventsBetween (kinds : List EventKind) (start stop : Nat) : List EventKind :=
  (kinds.take stop).drop start

/-- What is known on the way along a path. -/
structure Walk where
  current : Nat
  /-- Where the path came to the current state. -/
  spanStart : Nat
  cover : List Nat
  /-- For each state, how often the path was there since the last invalid step. -/
  visits : List Nat
  broken : Bool
  allCovered : Bool
  everAllCovered : Bool
  markers : List Marker

namespace Walk

def isCovering (w : Walk) : Bool := w.cover.all (0 < ·)

/-- Forgets what was covered. -/
def startOver (w : Walk) : Walk :=
  { w with
    broken := true
    allCovered := false
    cover := w.cover.map fun _ => 0
    visits := w.visits.map fun _ => 0 }

/-- Notes that every state is covered, if that is so. -/
def noteCovered (w : Walk) : Walk :=
  if w.isCovering then { w with allCovered := true, everAllCovered := true } else w

/-- The event markers of a state after its span was matched: a marker is reached if its event
happened. A span that nothing was matched against leaves them as they are. -/
def markEvents (state : Nat) (tallies : List Tally) (isLast : Bool) (markers : List Marker) :
    List Marker :=
  if tallies.isEmpty then markers
  else markers.map fun m =>
    match m.target with
    | .event markerState token =>
      if markerState = state then
        let happened := tallies[token]?.any fun t => 0 < t.count
        { m with reached := happened, justReached := isLast && happened }
      else m
    | .state _ => m

/-- Closes the span of the current state before position `stop`. -/
def closeSpan (w : Walk) (p : Pattern) (kinds : List EventKind) (stop : Nat) (isLast : Bool) :
    Walk :=
  let outcome := matchSpan (p.tokens w.current) (eventsBetween kinds w.spanStart stop)
  { w with
    cover := if outcome.matched then w.cover.modify w.current (· + 1) else w.cover
    markers := markEvents w.current outcome.tallies isLast w.markers }

/-- The walk at the first state of a path. -/
def enter (p : Pattern) (markers : List Marker) (first : Nat) : Walk :=
  let zeros := List.replicate p.size 0
  let w : Walk := {
    current := first
    spanStart := 0
    cover := zeros
    visits := zeros.modify first (· + 1)
    broken := false
    allCovered := false
    everAllCovered := false
    markers }
  if p.isInitial first then w else w.startOver

/-- The walk one position further. -/
def step (p : Pattern) (kinds : List EventKind) (w : Walk) (position next : Nat) : Walk :=
  let w := { w with visits := w.visits.modify next (· + 1) }
  let w' :=
    if w.current = next then w
    else { w.closeSpan p kinds position false with spanStart := position }
  let w' := if p.isValidStep w.current next then w'.noteCovered else w'.startOver
  { w' with current := next }

/-- The walk along the rest of a path, which goes on at `position`. -/
def steps (p : Pattern) (kinds : List EventKind) (w : Walk) (position : Nat) : List Nat → Walk
  | [] => w
  | next :: rest => (w.step p kinds position next).steps p kinds (position + 1) rest

end Walk

/-- The state markers at the end of a path. A marker is just reached if the path has come to its
state, and the path before it had not. -/
def markStates (visits : List Nat) (finalState : Nat) (previous : Option CheckResult)
    (markers : List Marker) : List Marker :=
  markers.map fun m =>
    match m.target with
    | .state state =>
      let reached := visits[state]?.any (0 < ·)
      { m with
        reached
        justReached := state == finalState && reached &&
          previous.all fun r => r.finalState != finalState }
    | .event _ _ => m

/-- The final state is newly covered. A state that requires no event is covered by a release in it,
any other by its events. -/
def isNewlyCovered (tokens : List EventToken) (finalState pathLength : Nat)
    (endedReleased finalCovered : Bool) (previous : Option CheckResult) : Bool :=
  if tokens.isEmpty then
    endedReleased && !previous.any fun r => r.endedReleased && r.finalState == finalState
  else
    (pathLength == 1 && finalCovered) ||
      previous.any fun r => finalCovered && (r.cover[finalState]?).getD 0 == 0

/-- How far a gesture has come that went along `path` while the events `kinds` happened, given the
result of the check before. There is no result for an empty path, nor for one that leaves the
pattern. -/
def Pattern.check (p : Pattern) (path : List Nat) (kinds : List EventKind)
    (previous : Option CheckResult) : Option CheckResult :=
  match path with
  | [] => none
  | first :: rest =>
    if path.any (p.size ≤ ·) then none
    else
      let markers := match previous with
        | some r => if r.markers.length = p.markers.length then r.markers else p.markers
        | none => p.markers
      let walk := (Walk.enter p markers first).steps p kinds 1 rest
      let walk := (walk.closeSpan p kinds path.length true).noteCovered
      let finalState := walk.current
      let finalCover := (walk.cover[finalState]?).getD 0
      let finalCovered := finalCover == 1
      let endedReleased := kinds[path.length - 1]? == some .up && decide (0 < finalCover)
      let completedBefore := previous.any fun r => r.hasJustCompleted || r.hasBeenCompleted
      let result : CheckResult := {
        cover := walk.cover
        broken := walk.broken
        allCovered := if p.size = 1 then finalCovered else walk.allCovered
        everAllCovered := if p.size = 1 then finalCovered else walk.everAllCovered
        finalState
        justCoveredNewState := isNewlyCovered (p.tokens finalState) finalState path.length
          endedReleased finalCovered previous
        endsInFinalState := p.isFinal finalState
        hasBeenCompleted := completedBefore && p.isFinal finalState
        endedReleased
        markers := markStates walk.visits finalState previous walk.markers }
      some { result with hasBeenCompleted := result.hasBeenCompleted || result.hasJustCompleted }

end TouchIntent
