import TouchIntent.Replay.Decision
import TouchIntent.Replay.Trace
import TouchIntent.Session

/-!
# Replays

A replay feeds the rows of a trace to a session and writes down what the arbiter decides. The clock
is set to the time of each row before its sample is shown, so that timers run down in between. While
two pointers are down, a move of one comes with the last sample of the other.
-/

namespace TouchIntent

structure Replay (R ν : Type) where
  session : Session R ν
  surface : Surface R
  /-- The last sample of pointer 0, if it is down. -/
  primary : Option (Sample R)
  /-- The last sample of any other pointer, if one is down. -/
  secondary : Option (Sample R)
  decisions : List Decision

variable {R ν : Type} [Scalar R]

namespace Replay

def start (session : Session R ν) (surface : Surface R) : Replay R ν :=
  ⟨session, surface, none, none, []⟩

/-- The name of an interactor, or its id if the session has none of that id. -/
def nameOf (s : Session R ν) (id : InteractorId) : String :=
  ((s.interactor? id).map Interactor.name).getD (toString id)

/-- The decisions of an outcome: first the promotions, then the exclusions, and last the winner. -/
def decisionsOf (time : Millis) (s : SessionStep R ν) : List Decision :=
  let group (kind : DecisionKind) (ids : List InteractorId) : List Decision :=
    ids.map fun id => ⟨time, kind, nameOf s.session id⟩
  match s.outcome with
  | none => []
  | some o =>
    group .promote o.promoted ++ group .exclude o.excluded ++
      group .determine o.determined.toList

/-- Goes on with the session after an operation and writes down what was decided. -/
def record (r : Replay R ν) (time : Millis) (s : SessionStep R ν) : Replay R ν :=
  { r with session := s.session, decisions := r.decisions ++ decisionsOf time s }

/-- Puts a sample down as the last one of its pointer. -/
def hold (r : Replay R ν) (sample : Sample R) : Replay R ν :=
  let held := if sample.kind = .up then none else some sample
  if sample.pointer = 0 then { r with primary := held } else { r with secondary := held }

/-- The last sample of the pointer that a sample is not of, as a move at the time of that sample. -/
def companion? (r : Replay R ν) (sample : Sample R) : Option (Sample R) :=
  (if sample.pointer = 0 then r.secondary else r.primary).map fun other =>
    { other with kind := .move, time := sample.time }

/-- Feeds a row to the session. -/
def feed (r : Replay R ν) (row : TraceRow R) : Replay R ν :=
  let r := r.record row.time (r.session.advance row.time)
  let sample := row.toSample r.surface
  let r := r.hold sample
  r.record row.time (r.session.handleEvent sample (r.companion? sample))

def feedAll (r : Replay R ν) (rows : List (TraceRow R)) : Replay R ν := rows.foldl feed r

end Replay

end TouchIntent
