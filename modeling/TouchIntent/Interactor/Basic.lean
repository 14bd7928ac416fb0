import TouchIntent.Interactor.Standing
import TouchIntent.Interactor.TaskQueue
import TouchIntent.Recognizer.Basic
import TouchIntent.Rule.Evaluation

/-!
# Interactors

An interactor is an element of the screen that touches may be meant for. It weighs its behaviours
against each other by Bayes' rule: each behaviour's prior times the likelihood of the observations.
The sum over the behaviours is the interactor's *evidence*, and its mean over the observations is
what interactors are compared by.

An interactor may have a timer running, after which it excludes itself. It holds the token of the
timer's request, and cancels the request by it. The flags of all tokens are in the queue of the
requests, so that the operations that stop a timer are handed the queue and hand it back.
-/

namespace TouchIntent

open Scalar

/-- Why an interactor cannot be built, or has no answer. -/
inductive InteractorError where
  | noObservations
  | noBehaviors
  | invalidPrior (length expected : Nat)
  | unknownBehavior (label : String)
  | unknownMarker (behavior marker : Nat)
  | modality (error : WrongModality)
  | gesture (error : GestureError)
  | rule (error : RuleError)
  deriving DecidableEq

def InteractorError.message : InteractorError → String
  | noObservations => "no observations yet"
  | noBehaviors => "interactor needs at least one behavior"
  | invalidPrior length expected =>
    s!"prior has {length} entries for {expected} behaviors or is not positive"
  | unknownBehavior label => s!"unknown behavior `{label}`"
  | unknownMarker behavior marker => s!"behavior {behavior} has no marker {marker}"
  | modality error => error.message
  | gesture error => error.message
  | rule error => error.message

/-- An element of the screen with its behaviours. `ν` is the type of listeners. -/
structure Interactor (R ν : Type) where
  id : InteractorId
  name : String
  behaviors : List (Recognizer R)
  prior : List R
  /-- The logarithms of the posterior probabilities of the behaviours. -/
  posterior : List R
  /-- The log-likelihood of the observations under all behaviours together. -/
  evidence : R
  mostLikely : Nat
  /-- The share of this interactor in the pool of candidates. -/
  candidateProbability : R
  standing : Standing
  rulebook : Rulebook R ν
  /-- The rule that claims the touches while it holds. -/
  claimRule : Option String
  isHidden : Bool
  lastPress : Option Millis
  lastEvent : Option Millis
  /-- The token of the timer that was started last, unless it was stopped or has run down. -/
  timer : Option CancelToken

variable {R ν : Type} [Scalar R]

/-- The log posterior that stands for having observed nothing since a reset. -/
def unobservedPosterior : R := -ofNat 999999

namespace Interactor

variable (a : Interactor R ν)

/-- Tells each behaviour its posterior. -/
def shareOut (posterior : List R) (behaviors : List (Recognizer R)) : List (Recognizer R) :=
  behaviors.zipWith (fun b p => { b with logPosterior := p }) posterior

def forgetPosterior : Interactor R ν :=
  { a with
    posterior := a.behaviors.map fun _ => unobservedPosterior
    behaviors := a.behaviors.map fun b => { b with logPosterior := unobservedPosterior } }

/-- An interactor with a uniform prior. -/
def build (id : InteractorId) (behaviors : List (Recognizer R)) :
    Except InteractorError (Interactor R ν) :=
  if behaviors.isEmpty then .error .noBehaviors
  else
    let core : Interactor R ν := {
      id
      name := s!"interactor-{id}"
      behaviors
      prior := behaviors.map fun _ => one / ofNat behaviors.length
      posterior := []
      evidence := zero
      mostLikely := 0
      candidateProbability := zero
      standing := .idle
      rulebook := .empty (behaviors.map Recognizer.label)
      claimRule := none
      isHidden := false
      lastPress := none
      lastEvent := none
      timer := none }
    .ok core.forgetPosterior

/-- The interactor with another prior, which is brought to sum one. -/
def withPrior (prior : List R) : Except InteractorError (Interactor R ν) :=
  if prior.length ≠ a.behaviors.length ∨ prior.any fun p => !isPositive p then
    .error (.invalidPrior prior.length a.behaviors.length)
  else
    let total := sum prior
    .ok { a with prior := prior.map fun p => p / total }

/-! ## Standing -/

def isCandidate : Bool := a.standing.isCandidate

def isDetermined : Bool := a.standing.status == .determined

def hasSelfExcluded : Bool := a.standing.status == .selfExcluded

def isClaiming : Bool := a.standing.isClaiming

/-- A timer is running: its token has not been cancelled. -/
def hasTimer (queue : TaskQueue) : Bool := a.timer.any fun token => !queue.isCancelled token

/-- The interactor after a command, and what the command did. -/
def apply (command : StandingCommand) : Interactor R ν × Transition :=
  let t := a.standing.apply command
  ({ a with standing := t.after }, t)

/-- Forgets all observations. -/
def resetObservations : Interactor R ν :=
  { a with behaviors := a.behaviors.map Recognizer.reset, evidence := zero }

/-- Forgets all observations and what was concluded from them. -/
def resetReasoning : Interactor R ν :=
  let a : Interactor R ν := { a with
    candidateProbability := zero
    rulebook := a.rulebook.reset
    lastPress := none
    lastEvent := none }
  a.resetObservations.forgetPosterior

/-- Stops the timer, if there is one: gives up its token, and cancels it. -/
def cancelTimer (queue : TaskQueue) : Interactor R ν × TaskQueue :=
  ({ a with timer := none }, a.timer.elim queue queue.cancel)

def promote : Interactor R ν × Transition := a.apply .promote

def determine : Interactor R ν × Transition := a.apply .determine

/-- Rules the interactor out; it starts over. -/
def exclude : Interactor R ν × Transition :=
  let (a, t) := a.apply .exclude
  (a.resetReasoning, t)

/-- Asks to leave the pool. An idle interactor has nothing to leave, and starts over. -/
def selfExclude : Interactor R ν × Transition :=
  if a.standing.status = .idle then a.exclude else a.apply .selfExclude

def grantSelfExclusion : Interactor R ν × Transition :=
  let (a, t) := a.apply .grantSelfExclusion
  (if t.isChange then a.resetReasoning else a, t)

/-- Claims the touches, and stays in the pool. -/
def claim (queue : TaskQueue) : Interactor R ν × TaskQueue × Transition :=
  let (a, queue) := a.cancelTimer queue
  let (a, t) := a.apply .claim
  (a, queue, t)

def withdrawSelfExclusion (queue : TaskQueue) : Interactor R ν × TaskQueue × Transition :=
  let (a, queue) := a.cancelTimer queue
  let (a, t) := a.apply .withdrawSelfExclusion
  (a, queue, t)

def undetermine (queue : TaskQueue) : Interactor R ν × TaskQueue × Transition :=
  let (a, t) := a.apply .undetermine
  let (a, queue) := a.resetReasoning.cancelTimer queue
  (a, queue, t)

/-- Idle and without a claim, and nothing observed. -/
def reset : Interactor R ν :=
  let a := if a.isCandidate || a.isClaiming then (a.apply .exclude).1 else a
  a.resetReasoning

/-- Starts a timer, and stops the one that may be running. -/
def selfExcludeAfter (delay now : Millis) (queue : TaskQueue) : Interactor R ν × TaskQueue :=
  let (a, queue) := a.cancelTimer queue
  let (token, queue) := queue.issue
  ({ a with timer := some token },
    queue.schedule ⟨Millis.later now delay, a.id, token⟩)

/-- What happens when the timer has run down. Its request is done with, and nothing is left to be
cancelled. -/
def timeOut : Interactor R ν × Transition := { a with timer := none }.selfExclude

/-! ## Observations -/

/-- Works out posterior and evidence from what the behaviours make of the observations. -/
def updatePosterior : Interactor R ν :=
  let joint := a.prior.zipWith (fun p (b : Recognizer R) => ln p + b.logLikelihood) a.behaviors
  let evidence := logSumExp joint
  let posterior := if Scalar.isFinite evidence then joint.map fun x => x - evidence else joint
  let mostLikely := firstBestIndex posterior
  { a with
    posterior
    evidence
    mostLikely
    behaviors := (shareOut posterior a.behaviors).zipIdx.map fun (b, i) =>
      { b with isMostLikely := i == mostLikely } }

/-- Takes in a sample. -/
def observeTouch (sample : Sample R) : Interactor R ν :=
  if a.isHidden then
    if a.isCandidate then a.selfExclude.1 else a.reset
  else
    let a : Interactor R ν := { a with
      lastPress := if sample.kind = .down then some sample.time else a.lastPress
      lastEvent := some sample.time
      behaviors := a.behaviors.map fun b => b.observeTouch sample }
    a.updatePosterior

/-- Takes in an observation. An interactor that is hidden leaves the pool, or starts over, instead
of looking at it. -/
def observe : Observation R → Interactor R ν × Except InteractorError Unit
  | .touch sample => (a.observeTouch sample, .ok ())
  | .multiTouch frame =>
    if a.isHidden then (if a.isCandidate then a.selfExclude.1 else a.reset, .ok ())
    else match a.behaviors with
      | [] => (a.updatePosterior, .ok ())
      | b :: _ => (a, .error (.modality ⟨b.label, (Observation.multiTouch frame).modality⟩))

/-- The most observations that any behaviour has made. -/
def observationCount : Nat := (a.behaviors.map Recognizer.observationCount).foldl max 0

/-- The evidence for each observation, so that interactors with short and with long histories can be
compared. -/
def meanEvidence? : Option R :=
  if a.observationCount = 0 then none else some (a.evidence / ofNat a.observationCount)

def observedPointerCount : Nat := (a.behaviors.head?.map Recognizer.observedPointerCount).getD 0

/-- The time from the last press to the last sample. -/
def touchTime : Millis :=
  match a.lastPress, a.lastEvent with
  | some press, some last => last - press
  | _, _ => 0

def translate (d : Vec2 R) : Interactor R ν :=
  { a with behaviors := a.behaviors.map fun b => b.translate d }

/-! ## Behaviours -/

def behaviorIndex (label : String) : Except InteractorError Nat :=
  match a.behaviors.findIdx? fun b => b.label == label with
  | some i => .ok i
  | none => .error (.unknownBehavior label)

def behavior? (label : String) : Option (Recognizer R) :=
  a.behaviors.find? fun b => b.label == label

/-- The log posterior of the behaviour of a label. -/
def behaviorPosterior (label : String) : Except InteractorError R := do
  let i ← a.behaviorIndex label
  return (a.posterior[i]?).getD negInfinity

def behaviorProbability (label : String) : Except InteractorError R :=
  (a.behaviorPosterior label).map exp

/-- A marker of a behaviour as the last completion check left it, or as it was declared. -/
def marker (behavior index : Nat) : Except InteractorError Marker :=
  let declared := (a.behaviors[behavior]?).bind fun b =>
    b.pattern.markers.find? fun m => m.index == index
  match declared with
  | none => .error (.unknownMarker behavior index)
  | some declared =>
    .ok (((a.rulebook.behaviorResult? behavior).bind fun r => r.marker? index).getD declared)

/-! ## Rules -/

def views : List (BehaviorView R) := a.behaviors.map Recognizer.view

def addRule (statement : String) : Interactor R ν × Except RuleError String :=
  let (rulebook, result) := a.rulebook.addRule statement
  ({ a with rulebook }, result)

/-- Attaches a listener to the behaviour of a label. -/
def setBehaviorListener (label : String) (listener : ν) :
    Interactor R ν × Except InteractorError Unit :=
  match a.behaviorIndex label with
  | .error error => (a, .error error)
  | .ok i =>
    let (rulebook, result) := a.rulebook.setBehaviorListener i listener
    ({ a with rulebook }, result.mapError .rule)

/-- Names the rule that claims the touches while it holds. -/
def claimOn (label : String) : Except InteractorError (Interactor R ν) :=
  if (a.rulebook.isSatisfied? label).isSome then .ok { a with claimRule := some label }
  else .error (.rule ⟨label, .nothingToClaimOn⟩)

/-- One cycle of the rules, after which the touches are claimed if the claim rule holds. -/
def updateRules (queue : TaskQueue) : Interactor R ν × TaskQueue × List (Firing ν) :=
  let cycle := a.rulebook.update a.views
  let a := { a with rulebook := cycle.book }
  let claims := (a.claimRule.bind a.rulebook.isSatisfied?).getD false
  if claims then
    let (a, queue, _) := a.claim queue
    (a, queue, cycle.firings)
  else (a, queue, cycle.firings)

/-- Evaluates the rule of a label within the current cycle. -/
def evaluateRule (label : String) : Option (Interactor R ν × Bool × List (Firing ν)) :=
  (a.rulebook.evaluate label a.views).map fun (cycle, holds) =>
    ({ a with rulebook := cycle.book }, holds, cycle.firings)

end Interactor

end TouchIntent
