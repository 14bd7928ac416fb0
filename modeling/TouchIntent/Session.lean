import TouchIntent.Config.Scene
import TouchIntent.Config.Settings

/-!
# Sessions

A session is a screen in use. It shows every sample to every interactor and lets the arbiter mediate
after each batch, until one interactor has won. Moves that hardly differ from the ones before are
dropped, since a resting finger sends them without end. Timers of interactors run on the session's
clock, which follows the samples.
-/

namespace TouchIntent

open Scalar

structure Session (R ν : Type) where
  interactors : List (Interactor R ν)
  arbiter : Arbiter R
  queue : TaskQueue
  jitterThreshold : R
  /-- The last batch of which a sample was shown to the interactors. -/
  previousBatch : List (Sample R)
  now : Millis

/-- A session after an operation, what the arbiter decided if it was asked, and the listeners to
call. -/
structure SessionStep (R ν : Type) where
  session : Session R ν
  outcome : Option MediationOutcome := none
  firings : List (Firing ν) := []

/-- An interactor of a scene that cannot be built. -/
structure SceneError where
  interactor : String
  error : InteractorError
  deriving DecidableEq

def SceneError.message (e : SceneError) : String :=
  s!"interactor `{e.interactor}`: {e.error.message}"

variable {R ν : Type} [Scalar R]

/-- Builds an interactor of a scene. -/
def SceneInteractor.build (compiler : Compiler R) (maxObservations : Nat) (i : SceneInteractor R) :
    Except InteractorError (Interactor R ν) := do
  let behaviors ← i.behaviors.mapM fun source =>
    match compiler.compile source i.bounds with
    | .ok behavior => .ok (Recognizer.ofBehavior behavior maxObservations)
    | .error error => .error (.gesture error)
  let core ← Interactor.build 0 behaviors
  let core := { core with name := i.id }
  let core ← match i.prior with
    | some prior => core.withPrior prior
    | none => .ok core
  let core ← i.rules.foldlM (fun (core : Interactor R ν) rule =>
    match core.addRule rule with
    | (core, .ok _) => .ok core
    | (_, .error error) => .error (.rule error)) core
  match i.claimOn with
  | some label => core.claimOn label
  | none => return core

namespace Session

def empty (settings : Settings R) : Session R ν where
  interactors := []
  arbiter := .empty settings.ruleOutEvidence
  queue := {}
  jitterThreshold := settings.jitterThreshold
  previousBatch := []
  now := 0

variable (s : Session R ν)

/-- Adds an interactor. Its id becomes its position. -/
def add (a : Interactor R ν) : Session R ν :=
  { s with interactors := s.interactors ++ [{ a with id := s.interactors.length }] }

/-- The session of a scene, with the interactors in the order of the scene. -/
def ofScene (settings : Settings R) (scene : Scene R) : Except SceneError (Session R ν) :=
  let compiler : Compiler R := ⟨scene.surface, settings.displayDensity, settings.emission⟩
  scene.interactors.foldlM (fun s i =>
    match i.build compiler settings.maxObservations with
    | .ok a => .ok (s.add a)
    | .error error => .error ⟨i.id, error⟩) (empty settings)

def interactor? (id : InteractorId) : Option (Interactor R ν) := s.interactors[id]?

def interactorByName? (name : String) : Option (Interactor R ν) :=
  s.interactors.find? fun a => a.name == name

/-- The session with a change to one interactor. -/
def modify (id : InteractorId) (change : Interactor R ν → Interactor R ν) : Session R ν :=
  { s with interactors := s.interactors.modify id change }

/-- The interactor that has won. -/
def determined? : Option (Interactor R ν) := s.interactors.find? fun a => a.isDetermined

/-- Lets the arbiter mediate. -/
def mediate : SessionStep R ν :=
  let m := s.arbiter.mediate s.interactors s.queue
  ⟨{ s with arbiter := m.arbiter, interactors := m.contenders, queue := m.shared },
    some m.outcome, m.reports⟩

/-- The sample at a position of a batch hardly differs from the one there before. -/
def isJitter (batchSize position : Nat) (sample : Sample R) : Bool :=
  sample.kind == .move && batchSize == s.previousBatch.length &&
    (s.previousBatch[position]?).any fun previous =>
      decide (sample.position.distance previous.position ≤ s.jitterThreshold)

/-- The samples of a batch that are not dropped. -/
def worthwhile (batch : List (Sample R)) : List (Sample R) :=
  (batch.zipIdx.filter fun (sample, position) => !s.isJitter batch.length position sample).map
    Prod.fst

/-- Shows a sample to every interactor, and sets the clock by it. -/
def forward (sample : Sample R) : Session R ν :=
  { s with
    now := max s.now sample.time
    interactors := s.interactors.map fun a => a.observeTouch sample }

/-- Takes in a batch of samples. The arbiter mediates unless there is a winner already. -/
def handle (batch : List (Sample R)) : SessionStep R ν :=
  let samples := s.worthwhile batch
  if samples.isEmpty then ⟨s, none, []⟩
  else
    let s := { samples.foldl forward s with previousBatch := batch }
    if s.determined?.isSome then ⟨s, none, []⟩ else s.mediate

/-- Takes in an event of the host. A move comes with a sample of the other pointer if that is down
as well. -/
def handleEvent (primary : Sample R) (second : Option (Sample R)) : SessionStep R ν :=
  s.handle (primary :: if primary.kind = .move then second.toList else [])

/-- Starts a timer of an interactor, if there is one of that id. -/
def selfExcludeAfter (id : InteractorId) (delay : Millis) : Option (Session R ν) :=
  (s.interactor? id).map fun a =>
    let (a, queue) := a.selfExcludeAfter delay s.now s.queue
    { s with interactors := s.interactors.set id a, queue }

/-- Sets the clock forward. Timers that have run down take effect, and the arbiter mediates if there
are any. -/
def advance (now : Millis) : SessionStep R ν :=
  let now := max s.now now
  let (queue, due) := s.queue.runDue now
  let s := { s with now, queue }
  if due.isEmpty then ⟨s, none, []⟩
  else (due.foldl (fun s id => s.modify id fun a => a.timeOut.1) s).mediate

/-- Sets every interactor back and forgets the samples before. -/
def resetAll : Session R ν :=
  { s with
    interactors := s.interactors.map Interactor.reset
    arbiter := s.arbiter.clear
    previousBatch := [] }

end Session

end TouchIntent
