/-!
# Standings

Where an interactor stands in the competition for touches. It is idle until it is promoted to
the pool of candidates. A candidate may be determined as the winner, may ask to leave, and may be
excluded at any time; it may claim the touches in any standing but as the winner.
-/

namespace TouchIntent

inductive Status where
  | idle
  | candidate
  | determined
  /-- A member of the pool that has asked to leave it. -/
  | selfExcluded
  deriving DecidableEq

structure Standing where
  status : Status
  isClaiming : Bool
  deriving DecidableEq

inductive StandingCommand where
  | promote
  | determine
  | exclude
  | selfExclude
  | grantSelfExclusion
  | claim
  /-- Withdraws the wish to leave. -/
  | withdrawSelfExclusion
  | undetermine
  deriving DecidableEq

/-- What a command has done. -/
inductive Effect where
  | applied
  | unchanged
  /-- The command means nothing in that standing. -/
  | invalid
  deriving DecidableEq

/-- The standings before and after a command. -/
structure Transition where
  before : Standing
  after : Standing
  effect : Effect
  deriving DecidableEq

namespace Standing

def idle : Standing := ⟨.idle, false⟩

/-- Candidates stay in the pool while they are determined, or ask to leave. -/
def isCandidate (s : Standing) : Bool := s.status != .idle

/-- The standing after a command, if the command means anything. -/
def next? (s : Standing) (command : StandingCommand) : Option Standing :=
  match s.status, command with
  | .idle, .promote => some { s with status := .candidate }
  | .idle, .exclude => some idle
  | .idle, .claim => some { s with isClaiming := true }
  | .idle, .withdrawSelfExclusion => some s
  | .idle, _ => none
  | .candidate, .determine => some { s with status := .determined }
  | .candidate, .exclude => some idle
  | .candidate, .selfExclude => some { s with status := .selfExcluded }
  | .candidate, .claim => some { s with isClaiming := true }
  | .candidate, .promote | .candidate, .withdrawSelfExclusion => some s
  | .candidate, .grantSelfExclusion | .candidate, .undetermine => none
  | .determined, .exclude | .determined, .undetermine => some idle
  | .determined, .selfExclude => some { s with status := .selfExcluded }
  | .determined, .grantSelfExclusion => none
  | .determined, _ => some s
  | .selfExcluded, .grantSelfExclusion | .selfExcluded, .exclude => some idle
  | .selfExcluded, .withdrawSelfExclusion => some { s with status := .candidate }
  | .selfExcluded, .claim => some ⟨.candidate, true⟩
  | .selfExcluded, .selfExclude => some s
  | .selfExcluded, _ => none

/-- What a command does to a standing. -/
def apply (s : Standing) (command : StandingCommand) : Transition :=
  match s.next? command with
  | none => ⟨s, s, .invalid⟩
  | some after => ⟨s, after, if after = s then .unchanged else .applied⟩

end Standing

namespace Transition

def isChange (t : Transition) : Bool := t.effect == .applied

def leavesPool (t : Transition) : Bool := t.before.isCandidate && !t.after.isCandidate

end Transition

end TouchIntent
