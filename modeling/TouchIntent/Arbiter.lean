import TouchIntent.Interactor.Basic

/-!
# Arbitration

The arbiter decides which of the elements on the screen the touches are meant for. It keeps a pool
of candidates, those whose mean evidence has reached a threshold, and settles the claims that
candidates make.

A round of mediation refreshes the pool, lets the candidates evaluate their rules, and refreshes the
pool again, this time granting the wishes to leave. If one candidate then claims the touches, it
wins if its evidence lies above the threshold; if several do, the candidate of greatest evidence
wins on the same condition. Where there is a claim, everyone else is excluded.

What the arbiter needs of an element is the class `Contender`. Besides the elements there is what
they share, the queue of their timers, which some of their operations change.
-/

namespace TouchIntent

open Scalar

/-- What takes part in arbitration. `σ` is the type of what the contenders share, and `ε` the type
of what evaluating rules reports. -/
class Contender (R σ ε : outParam Type) (α : Type) where
  id : α → InteractorId
  /-- The evidence for each observation, if anything has been observed. -/
  meanEvidence? : α → Option R
  isCandidate : α → Bool
  hasSelfExcluded : α → Bool
  isClaiming : α → Bool
  promote : α → α
  determine : α → α
  /-- Rules the contender out, and says whether it was in the pool. -/
  exclude : α → α × Bool
  grantSelfExclusion : α → σ → α × σ
  resetObservations : α → α
  updateRules : α → σ → α × σ × List ε
  setCandidateProbability : R → α → α

/-- What a round of mediation has decided. -/
structure MediationOutcome where
  determined : Option InteractorId := none
  excluded : List InteractorId := []
  promoted : List InteractorId := []
  deriving DecidableEq

def MediationOutcome.isEmpty (o : MediationOutcome) : Bool :=
  o.determined.isNone && o.excluded.isEmpty && o.promoted.isEmpty

structure Arbiter (R : Type) where
  /-- The mean evidence that a candidate needs. -/
  threshold : R
  /-- The pool, in the order of promotion. -/
  candidates : List InteractorId

/-- What happens to a contender when the pool is refreshed. -/
inductive Verdict where
  | granted
  | excluded
  | promoted
  /-- Not a candidate, and its observations do not make it one: it starts afresh. -/
  | starved
  | kept
  deriving DecidableEq

def Verdict.leavesPool : Verdict → Bool
  | granted | excluded => true
  | promoted | starved | kept => false

/-- A contender after a refresh, with the verdict on it and the evidence that led to it. -/
structure Appraisal (R α : Type) where
  contender : α
  verdict : Verdict
  evidence : R

/-- The arbiter and the contenders in a round of mediation, what they share, what has been decided,
and what the rules have reported. -/
structure Mediation (R σ ε α : Type) where
  arbiter : Arbiter R
  contenders : List α
  shared : σ
  outcome : MediationOutcome
  reports : List ε

/-- The threshold unless a session sets another. -/
def defaultRuleOutEvidence {R : Type} [Scalar R] : R := -ofNat 10

/-- Takes what is shared through a list: each element is replaced, and may change it for those that
come after. -/
def passThrough {σ α β : Type} (step : α → σ → β × σ) : List α → σ → List β × σ
  | [], shared => ([], shared)
  | c :: others, shared =>
    let (d, shared) := step c shared
    let (others, shared) := passThrough step others shared
    (d :: others, shared)

variable {R σ ε α : Type} [Scalar R] [Contender R σ ε α]

/-- The contender with an id; if several share it, the first. -/
def findContender? (id : InteractorId) (contenders : List α) : Option α :=
  contenders.find? fun c => Contender.id c == id

/-- The contenders with a change to the first one that has the id. -/
def modifyContender (id : InteractorId) (change : α → α) : List α → List α
  | [] => []
  | c :: others =>
    if Contender.id c = id then change c :: others else c :: modifyContender id change others

namespace Arbiter

def empty (threshold : R) : Arbiter R := ⟨threshold, []⟩

def clear (a : Arbiter R) : Arbiter R := { a with candidates := [] }

/-- The mean evidence of a contender, `-∞` if it has observed nothing. -/
def evidenceOf (c : α) : R := (Contender.meanEvidence? c).getD negInfinity

/-- Judges one contender by its evidence. -/
def appraise (a : Arbiter R) (grantsExclusion : Bool) (c : α) (shared : σ) : Appraisal R α × σ :=
  let evidence := evidenceOf c
  let isCandidate := Contender.isCandidate c
  if grantsExclusion && Contender.hasSelfExcluded c then
    let (c, shared) := Contender.grantSelfExclusion c shared
    (⟨c, .granted, evidence⟩, shared)
  else if isCandidate ∧ evidence < a.threshold then
    (⟨(Contender.exclude c).1, .excluded, evidence⟩, shared)
  else if ¬ isCandidate ∧ a.threshold ≤ evidence ∧ Contender.id c ∉ a.candidates then
    (⟨Contender.promote c, .promoted, evidence⟩, shared)
  else if ¬ isCandidate ∧ evidence < a.threshold then
    (⟨Contender.resetObservations c, .starved, evidence⟩, shared)
  else (⟨c, .kept, evidence⟩, shared)

/-- The first candidate of greatest evidence. -/
def best (appraisals : List (Appraisal R α)) : Option (InteractorId × R) :=
  appraisals.foldl (fun best x =>
    if Contender.isCandidate x.contender then
      match best with
      | none => some (Contender.id x.contender, x.evidence)
      | some (_, greatest) =>
        if greatest < x.evidence then some (Contender.id x.contender, x.evidence) else best
    else best) none

/-- The pool after some have left it and others have joined. -/
def updatePool (candidates leaving joining : List InteractorId) : List InteractorId :=
  joining.foldl (fun pool id => if id ∈ pool then pool else pool ++ [id])
    (candidates.filter fun id => id ∉ leaving)

/-- Refreshes the pool, and names the best candidate. -/
def refresh (grantsExclusion : Bool) (m : Mediation R σ ε α) :
    Mediation R σ ε α × Option (InteractorId × R) :=
  let (appraisals, shared) :=
    passThrough (m.arbiter.appraise grantsExclusion) m.contenders m.shared
  let ids (p : Verdict → Bool) :=
    (appraisals.filter fun x => p x.verdict).map fun x => Contender.id x.contender
  let leaving := ids Verdict.leavesPool
  let joining := ids (· == .promoted)
  ({ m with
      arbiter := { m.arbiter with candidates := updatePool m.arbiter.candidates leaving joining }
      contenders := appraisals.map Appraisal.contender
      shared
      outcome := { m.outcome with
        excluded := m.outcome.excluded ++ leaving
        promoted := m.outcome.promoted ++ joining } },
    best appraisals)

/-- Tells each candidate its share of the pool: the mean evidences normalized to probabilities. -/
def shareOut (a : Arbiter R) (contenders : List α) : List α :=
  let evidences : List R := a.candidates.map fun id =>
    ((findContender? id contenders).map evidenceOf).getD negInfinity
  let total := logSumExp evidences
  (a.candidates.zip evidences).foldl (fun contenders (id, evidence) =>
    let share := if Scalar.isFinite total then exp (evidence - total) else zero
    modifyContender id (Contender.setCandidateProbability share) contenders) contenders

/-- Lets the candidates evaluate their rules. -/
def updateRules (m : Mediation R σ ε α) : Mediation R σ ε α :=
  let (updated, shared) := passThrough (fun c shared =>
    if Contender.id c ∈ m.arbiter.candidates then
      let (c, shared, reports) := Contender.updateRules c shared
      ((c, reports), shared)
    else ((c, []), shared)) m.contenders m.shared
  { m with
    contenders := updated.map Prod.fst
    shared
    reports := m.reports ++ (updated.map Prod.snd).flatten }

/-- Excludes the first contender of an id. -/
def excludeById (m : Mediation R σ ε α) (id : InteractorId) : Mediation R σ ε α :=
  match findContender? id m.contenders with
  | none => m
  | some c =>
    let (excluded, wasCandidate) := Contender.exclude c
    { m with
      contenders := modifyContender id (fun _ => excluded) m.contenders
      outcome := { m.outcome with
        excluded := if wasCandidate then m.outcome.excluded ++ [id] else m.outcome.excluded } }

/-- Settles the claim of a single candidate. -/
def settleClaim (m : Mediation R σ ε α) (claimer : InteractorId) : Mediation R σ ε α :=
  let wins := ((findContender? claimer m.contenders).bind Contender.meanEvidence?).any
    fun e => decide (m.arbiter.threshold < e)
  let others := if wins then m.arbiter.candidates.filter (· != claimer) else m.arbiter.candidates
  let m := { m with arbiter := m.arbiter.clear }
  let m := if wins then { m with
      contenders := modifyContender claimer Contender.determine m.contenders
      outcome := { m.outcome with determined := some claimer } }
    else m
  others.foldl excludeById m

/-- Settles the claims of several candidates: the best of the pool wins. -/
def settleClaims (m : Mediation R σ ε α) (best : Option (InteractorId × R)) : Mediation R σ ε α :=
  let winner := (best.filter fun (_, evidence) => decide (m.arbiter.threshold < evidence)).map
    Prod.fst
  let settled := m.contenders.map fun c =>
    if winner = some (Contender.id c) then (Contender.determine c, false)
    else Contender.exclude c
  { m with
    arbiter := m.arbiter.clear
    contenders := settled.map Prod.fst
    outcome := { m.outcome with
      determined := winner
      excluded := m.outcome.excluded ++
        (settled.filter Prod.snd).map fun x => Contender.id x.1 } }

/-- The candidates that claim the touches. -/
def claimers (m : Mediation R σ ε α) : List InteractorId :=
  m.arbiter.candidates.filter fun id =>
    (findContender? id m.contenders).any fun c => Contender.isClaiming c

/-- One round of mediation. -/
def mediate (a : Arbiter R) (contenders : List α) (shared : σ) : Mediation R σ ε α :=
  let (m, _) := refresh false (⟨a, contenders, shared, {}, []⟩ : Mediation R σ ε α)
  let m := updateRules { m with contenders := m.arbiter.shareOut m.contenders }
  let (m, best) := refresh true m
  match claimers m with
  | [] => m
  | [claimer] => settleClaim m claimer
  | _ => settleClaims m best

end Arbiter

instance {R ν : Type} [Scalar R] : Contender R TaskQueue (Firing ν) (Interactor R ν) where
  id := Interactor.id
  meanEvidence? := Interactor.meanEvidence?
  isCandidate := Interactor.isCandidate
  hasSelfExcluded := Interactor.hasSelfExcluded
  isClaiming := Interactor.isClaiming
  promote a := a.promote.1
  determine a := a.determine.1
  exclude a := let (a, t) := a.exclude; (a, t.leavesPool)
  grantSelfExclusion a queue :=
    let (a, queue, _) := a.grantSelfExclusion.1.withdrawSelfExclusion queue
    (a, queue)
  resetObservations := Interactor.resetObservations
  updateRules := Interactor.updateRules
  setCandidateProbability p a := { a with candidateProbability := p }

end TouchIntent
