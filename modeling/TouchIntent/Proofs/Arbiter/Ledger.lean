import TouchIntent.Proofs.Arbiter.Contest

/-!
# What an outcome tells

The outcome of a round of mediation accounts for every change of status in it. While the pool
settles, the outcome is a *ledger*: it books each promotion and each exclusion once, and from the
pool before the round and the entries so far one can tell who is in the pool now. A contender that
was excluded has lost its observations, so it is not promoted in the same round; this is the one
place where the comparison of scalars matters.
-/

namespace TouchIntent

open Scalar

variable {R ν : Type} [Scalar R]

/-- Nothing that exceeds a number is `-∞` or less. -/
def HasFloor (R : Type) [Scalar R] : Prop := ∀ e t : R, e < t → ¬ t ≤ negInfinity

/-- What an outcome says of an interactor that was `a` before the round and is `b` after it:
determined if the outcome names it, or if it was before and is not excluded; a candidate if it was
in the pool or is promoted, and neither excluded nor named; and idle otherwise. Only the idle are
promoted, and whoever becomes idle is excluded. -/
structure Accounts (pool : List InteractorId) (o : MediationOutcome) (a b : Interactor R ν) :
    Prop where
  id_eq : b.id = a.id
  determined : b.standing.status = .determined ↔
    o.determined = some a.id ∨ (a.standing.status = .determined ∧ a.id ∉ o.excluded)
  candidate : b.standing.status = .candidate ↔
    (a.id ∈ pool ∨ a.id ∈ o.promoted) ∧ a.id ∉ o.excluded ∧ o.determined ≠ some a.id
  otherwise : b.standing.status ≠ .determined → b.standing.status ≠ .candidate →
    b.standing.status = .idle
  joins : a.id ∈ o.promoted → a.standing.status = .idle
  leaves : a.standing.status ≠ .idle → b.standing.status = .idle → a.id ∈ o.excluded

/-- An outcome accounts for a round that began with the interactors `before` and ended with `after`:
it enters no promotion and no exclusion twice, mentions none but them, and accounts for each. -/
structure AccountsFor (pool : List InteractorId) (o : MediationOutcome)
    (before after : List (Interactor R ν)) : Prop where
  promoted : o.promoted.Nodup
  excluded : o.excluded.Nodup
  known : o.promoted ++ o.excluded ++ o.determined.toList ⊆ before.map Interactor.id
  all : List.Forall₂ (Accounts pool o) before after

omit [Scalar R] in
/-- How an interactor stands after a round follows from how it stood before and from the outcome. -/
theorem Accounts.status_eq {pool : List InteractorId} {o : MediationOutcome} {a b : Interactor R ν}
    (accounts : Accounts pool o a b) (pooled : a.standing.status = .candidate ↔ a.id ∈ pool)
    (loyal : a.standing.status ≠ .selfExcluded) :
    b.standing.status =
      if o.determined = some a.id then .determined
      else if a.id ∈ o.excluded then .idle
      else if a.id ∈ o.promoted then .candidate
      else a.standing.status := by
  obtain ⟨-, determined, candidate, otherwise, -, -⟩ := accounts
  split_ifs with named excluded promoted
  · exact determined.2 (.inl named)
  · refine otherwise (fun won => ?_) fun plain => (candidate.1 plain).2.1 excluded
    rcases determined.1 won with named' | ⟨-, spared⟩
    · exact named named'
    · exact spared excluded
  · exact candidate.2 ⟨.inr promoted, excluded, named⟩
  · cases status : a.standing.status with
    | determined => exact determined.2 (.inr ⟨status, excluded⟩)
    | candidate => exact candidate.2 ⟨.inl (pooled.1 status), excluded, named⟩
    | selfExcluded => exact absurd status loyal
    | idle =>
      refine otherwise (fun won => ?_) fun plain => ?_
      · rcases determined.1 won with named' | ⟨won, -⟩
        · exact named named'
        · rw [status] at won
          cases won
      · rcases (candidate.1 plain).1 with inPool | entry
        · have plain := pooled.2 inPool
          rw [status] at plain
          cases plain
        · exact promoted entry

namespace Interactor

/-- `b` is `a` with the same evidence, and at most its wish to leave withdrawn. -/
structure Reconsiders (a b : Interactor R ν) : Prop where
  id_eq : b.id = a.id
  evidence : Arbiter.evidenceOf b = Arbiter.evidenceOf a
  status : b.standing.status = a.standing.status ∨
    a.standing.status = .selfExcluded ∧ b.standing.status = .candidate

variable {a b c : Interactor R ν}

theorem Reconsiders.trans (first : a.Reconsiders b) (second : b.Reconsiders c) :
    a.Reconsiders c where
  id_eq := second.id_eq.trans first.id_eq
  evidence := second.evidence.trans first.evidence
  status := by
    rcases second.status with same | ⟨leaves, stays⟩
    · rw [same]
      exact first.status
    · rcases first.status with same | ⟨-, plain⟩
      · exact .inr ⟨same ▸ leaves, stays⟩
      · rw [plain] at leaves
        cases leaves

variable (a)

theorem reconsiders_refl : a.Reconsiders a := ⟨rfl, rfl, .inl rfl⟩

/-- Rules do not bear on the share of an interactor. -/
theorem afterRules_candidateProbability :
    a.afterRules.candidateProbability = a.candidateProbability := by
  unfold afterRules updateRules
  simp only
  split <;> rfl

theorem reconsiders_afterRules : a.Reconsiders a.afterRules where
  id_eq := a.afterRules_id
  evidence := by
    unfold afterRules updateRules
    simp only
    split <;> rfl
  status := by
    rcases a.afterRules_standing with same | claimed
    · exact .inl (congrArg Standing.status same)
    · rw [claimed, Standing.apply_claim]
      cases status : a.standing.status <;> simp [status]

omit [Scalar R] in
theorem foldl_max_zeros {α : Type} (xs : List α) : (xs.map fun _ => 0).foldl max 0 = 0 := by
  induction xs with
  | nil => rfl
  | cons x rest ih => simpa using ih

theorem observationCount_reset (r : Recognizer R) : r.reset.observationCount = 0 := by
  simpa [Recognizer.reset, Recognizer.observationCount, Window.observationCount, Window.clear,
    Function.comp_def] using foldl_max_zeros r.window.lanes

/-- An interactor whose behaviours have observed nothing has no evidence. -/
theorem evidenceOf_of_cleared (cleared : ∀ r ∈ a.behaviors, r.observationCount = 0) :
    Arbiter.evidenceOf a = (negInfinity : R) := by
  have count : a.observationCount = 0 := by
    rw [observationCount, List.map_congr_left cleared, foldl_max_zeros]
  have none : a.meanEvidence? = none := by rw [meanEvidence?, if_pos count]
  show a.meanEvidence?.getD negInfinity = _
  rw [none]
  rfl

/-- Nothing is left of the evidence of an interactor that has forgotten all observations. -/
theorem evidenceOf_resetObservations :
    Arbiter.evidenceOf a.resetObservations = (negInfinity : R) := by
  refine evidenceOf_of_cleared _ ?_
  rw [resetObservations, List.forall_mem_map]
  exact fun r _ => observationCount_reset r

/-- Nothing is left of the evidence of an interactor that was excluded. -/
theorem evidenceOf_exclude : Arbiter.evidenceOf a.exclude.1 = (negInfinity : R) := by
  refine evidenceOf_of_cleared _ ?_
  simp only [exclude, resetReasoning, resetObservations, forgetPosterior, apply, List.map_map,
    List.forall_mem_map]
  exact fun r _ => observationCount_reset r

end Interactor

instance : IsTrans (Interactor R ν) Interactor.Reconsiders :=
  ⟨fun _ _ _ => Interactor.Reconsiders.trans⟩

namespace Arbiter

variable {pool : List InteractorId} {cs : List (Interactor R ν)} {queue : TaskQueue}
  {m m' : Round R ν} {a b b' : Interactor R ν}

/-! ## While the pool settles -/

/-- What is booked of a contender in the middle of a round; it was `a` before the round, and is `b`
now. -/
structure Booked (pool : List InteractorId) (m : Round R ν)
    (a b : Interactor R ν) : Prop where
  id_eq : b.id = a.id
  inPool : a.id ∈ m.arbiter.candidates ↔
    (a.id ∈ pool ∨ a.id ∈ m.outcome.promoted) ∧ a.id ∉ m.outcome.excluded
  determined : b.standing.status = .determined ↔
    a.standing.status = .determined ∧ a.id ∉ m.outcome.excluded
  excluded : a.id ∈ m.outcome.excluded → b.standing.status = .idle
  joins : a.id ∈ m.outcome.promoted → a.standing.status = .idle
  remains : a.standing.status ≠ .idle → a.id ∉ m.outcome.excluded → b.standing.status ≠ .idle

/-- Every contender is booked, and no entry is made twice. -/
structure Ledger (pool : List InteractorId) (cs : List (Interactor R ν))
    (m : Round R ν) : Prop where
  booked : List.Forall₂ (Booked pool m) cs m.contenders
  promoted : m.outcome.promoted.Nodup
  excluded : m.outcome.excluded.Nodup
  known : m.outcome.promoted ++ m.outcome.excluded ⊆ m.contenders.map Interactor.id

/-- Whoever has been excluded lacks the evidence to be promoted. -/
def Barred (m : Round R ν) : Prop :=
  ∀ c ∈ m.contenders, c.id ∈ m.outcome.excluded → ¬ m.arbiter.threshold ≤ evidenceOf c

omit [Scalar R] in
/-- The ledger at the start of a round has no entries. -/
theorem ledger_start (a : Arbiter R) (cs : List (Interactor R ν)) (queue : TaskQueue) :
    Ledger a.candidates cs (⟨a, cs, queue, {}, []⟩ : Round R ν) where
  booked := by
    refine List.forall₂_same.2 fun c _ => ⟨rfl, ?_, ?_, ?_, ?_, fun busy _ => busy⟩
    · simp
    · simp
    · intro entry
      cases entry
    · intro entry
      cases entry
  promoted := List.nodup_nil
  excluded := List.nodup_nil
  known := List.nil_subset _

theorem nodup_verdictIds (ids : (m.contenders.map Interactor.id).Nodup) (grants : Bool)
    (p : Verdict → Bool) : (verdictIds grants m p).Nodup := by
  unfold verdictIds
  refine List.Nodup.sublist (List.Sublist.map _ List.filter_sublist) ?_
  rw [List.map_map]
  refine (List.map_congr_left fun c _ => ?_) ▸ ids
  exact (m.arbiter.appraisal_id grants c).symm

theorem exists_of_mem_verdictIds {grants : Bool} {p : Verdict → Bool} {id : InteractorId}
    (entry : id ∈ verdictIds grants m p) :
    ∃ c ∈ m.contenders, c.id = id ∧ p (m.arbiter.appraisal grants c).verdict = true := by
  obtain ⟨x, judged, rfl⟩ := List.mem_map.1 entry
  obtain ⟨appraised, holds⟩ := List.mem_filter.1 judged
  obtain ⟨c, member, rfl⟩ := List.mem_map.1 appraised
  exact ⟨c, member, (m.arbiter.appraisal_id grants c).symm, holds⟩

/-- A contender leaves the pool and is idle, or it is promoted from being idle, or it stays where it
stands. -/
theorem appraisal_moves (a : Arbiter R) (grants : Bool) (c : Interactor R ν) :
    ((a.appraisal grants c).verdict.leavesPool = true ∧ c.standing.status ≠ .idle ∧
        (a.appraisal grants c).contender.standing = .idle) ∨
      ((a.appraisal grants c).verdict = .promoted ∧ c.standing.status = .idle ∧
        a.threshold ≤ evidenceOf c ∧ c.id ∉ a.candidates ∧
        (a.appraisal grants c).contender.standing.status = .candidate) ∨
      ((a.appraisal grants c).verdict.leavesPool = false ∧
        (a.appraisal grants c).verdict ≠ .promoted ∧
        (a.appraisal grants c).contender.standing = c.standing) := by
  obtain ⟨verdict, -, leaves, after⟩ | ⟨verdict, busy, -, after⟩ |
    ⟨verdict, idle, enough, outside, after⟩ | ⟨verdict, -, -, after⟩ | ⟨verdict, after, -⟩ :=
      a.appraisal_cases grants c
  · exact .inl ⟨by rw [verdict]; rfl, by rw [leaves]; exact Status.noConfusion, after⟩
  · have notIdle : c.standing.status ≠ .idle := by
      simpa [Interactor.isCandidate, Standing.isCandidate] using busy
    exact .inl ⟨by rw [verdict]; rfl, notIdle, after⟩
  · exact .inr (.inl ⟨verdict, idle, enough, outside, by rw [after]⟩)
  · exact .inr (.inr ⟨by rw [verdict]; rfl, by rw [verdict]; exact Verdict.noConfusion, after⟩)
  · exact .inr (.inr ⟨by rw [verdict]; rfl, by rw [verdict]; exact Verdict.noConfusion,
      congrArg Interactor.standing after⟩)

/-- A refresh books what it does to a contender. -/
theorem Booked.refresh (booked : Booked pool m a b)
    (orderly : Orderly m.arbiter.candidates m.contenders) (barred : Barred m)
    (member : b ∈ m.contenders) (grants : Bool) :
    Booked pool (refresh grants m).1 a (m.arbiter.appraisal grants b).contender := by
  have same := booked.id_eq
  have inPool : b.id ∈ (Arbiter.refresh grants m).1.arbiter.candidates ↔ _ :=
    mem_refresh_candidates orderly.ids member
  have leaves := mem_verdictIds orderly.ids grants member Verdict.leavesPool
  have joins := mem_verdictIds orderly.ids grants member (· == .promoted)
  rw [same] at inPool leaves joins
  have excluded : a.id ∈ (Arbiter.refresh grants m).1.outcome.excluded ↔
      a.id ∈ m.outcome.excluded ∨ (m.arbiter.appraisal grants b).verdict.leavesPool = true := by
    rw [← leaves, refresh_excluded]
    exact List.mem_append
  have promoted : a.id ∈ (Arbiter.refresh grants m).1.outcome.promoted ↔
      a.id ∈ m.outcome.promoted ∨ (m.arbiter.appraisal grants b).verdict = .promoted := by
    rw [← beq_iff_eq, ← joins, refresh_promoted]
    exact List.mem_append
  obtain ⟨out, -, idle⟩ | ⟨verdict, idle, enough, outside, plain⟩ | ⟨stays, unmoved, standing⟩ :=
    m.arbiter.appraisal_moves grants b
  · have notPromoted : (m.arbiter.appraisal grants b).verdict ≠ .promoted := by
      intro verdict
      rw [verdict] at out
      cases out
    refine ⟨(m.arbiter.appraisal_id grants b).trans same, ?_, ?_, fun _ => by rw [idle]; rfl, ?_,
      ?_⟩
    · simp [inPool, excluded, out, notPromoted]
    · simp [excluded, out, idle, Standing.idle]
    · intro entry
      exact booked.joins ((promoted.1 entry).resolve_right notPromoted)
    · intro _ spared
      exact absurd (excluded.2 (.inr out)) spared
  · have spared : a.id ∉ m.outcome.excluded :=
      fun entry => barred b member (same ▸ entry) enough
    refine ⟨(m.arbiter.appraisal_id grants b).trans same, ?_, ?_, ?_, ?_, ?_⟩
    · simp [inPool, excluded, promoted, verdict, spared, Verdict.leavesPool]
    · have never : ¬ (a.standing.status = .determined ∧ a.id ∉ m.outcome.excluded) := by
        rw [← booked.determined, idle]
        exact Status.noConfusion
      have lost : a.standing.status ≠ .determined := fun won => never ⟨won, spared⟩
      simp [plain, lost]
    · intro entry
      simp [excluded, spared, verdict, Verdict.leavesPool] at entry
    · intro _
      by_contra busy
      exact booked.remains busy spared idle
    · intro _ _
      rw [plain]
      exact Status.noConfusion
  · refine ⟨(m.arbiter.appraisal_id grants b).trans same, ?_, ?_, ?_, ?_, ?_⟩
    · rw [inPool, excluded, promoted, booked.inPool]
      simp [stays, unmoved]
    · rw [standing, excluded, booked.determined]
      simp [stays]
    · intro entry
      rw [standing]
      exact booked.excluded (by simpa [excluded, stays] using entry)
    · intro entry
      exact booked.joins ((promoted.1 entry).resolve_right unmoved)
    · intro busy spared
      rw [standing]
      exact booked.remains busy fun entry => spared (excluded.2 (.inl entry))

/-- A refresh keeps the ledger. -/
theorem Ledger.refresh (ledger : Ledger pool cs m)
    (orderly : Orderly m.arbiter.candidates m.contenders) (barred : Barred m) (grants : Bool) :
    Ledger pool cs (refresh grants m).1 where
  booked := by
    rw [refresh_contenders]
    refine forall₂_map_of_mem ledger.booked fun a b booked _ member => ?_
    exact booked.refresh orderly barred member grants
  promoted := by
    rw [refresh_promoted]
    refine ledger.promoted.append (nodup_verdictIds orderly.ids grants _) ?_
    intro id before now
    obtain ⟨c, member, rfl, verdict⟩ := exists_of_mem_verdictIds now
    rw [beq_iff_eq] at verdict
    obtain ⟨a, -, booked⟩ := exists_source ledger.booked c member
    obtain ⟨out, -⟩ | ⟨-, -, enough, outside, -⟩ | ⟨-, unmoved, -⟩ :=
      m.arbiter.appraisal_moves grants c
    · rw [verdict] at out
      cases out
    · have spared : c.id ∉ m.outcome.excluded := fun entry => barred c member entry enough
      rw [booked.id_eq] at before outside spared
      exact outside (booked.inPool.2 ⟨.inr before, spared⟩)
    · exact unmoved verdict
  excluded := by
    rw [refresh_excluded]
    refine ledger.excluded.append (nodup_verdictIds orderly.ids grants _) ?_
    intro id before now
    obtain ⟨c, member, rfl, out⟩ := exists_of_mem_verdictIds now
    obtain ⟨a, -, booked⟩ := exists_source ledger.booked c member
    obtain ⟨-, busy, -⟩ | ⟨verdict, -⟩ | ⟨stays, -⟩ := m.arbiter.appraisal_moves grants c
    · exact busy (booked.excluded (booked.id_eq ▸ before))
    · rw [verdict] at out
      cases out
    · rw [stays] at out
      cases out
  known := by
    rw [map_id_eq (refresh_tame grants m), refresh_promoted, refresh_excluded]
    have listed : ∀ p, verdictIds grants m p ⊆ m.contenders.map Interactor.id := by
      intro p id entry
      obtain ⟨c, member, rfl, -⟩ := exists_of_mem_verdictIds entry
      exact List.mem_map_of_mem member
    obtain ⟨promoted, excluded⟩ := List.append_subset.1 ledger.known
    exact List.append_subset.2 ⟨List.append_subset.2 ⟨promoted, listed _⟩,
      List.append_subset.2 ⟨excluded, listed _⟩⟩

/-- A contender that reconsiders stays booked as it is. -/
theorem Booked.reconsider (booked : Booked pool m a b) (reconsiders : b.Reconsiders b')
    (arbiter : m'.arbiter = m.arbiter) (outcome : m'.outcome = m.outcome) :
    Booked pool m' a b' where
  id_eq := reconsiders.id_eq.trans booked.id_eq
  inPool := by
    rw [arbiter, outcome]
    exact booked.inPool
  determined := by
    rw [outcome, ← booked.determined]
    rcases reconsiders.status with same | ⟨leaves, stays⟩
    · rw [same]
    · simp [leaves, stays]
  excluded := by
    intro entry
    have idle := booked.excluded (outcome ▸ entry)
    rcases reconsiders.status with same | ⟨leaves, -⟩
    · rw [same]
      exact idle
    · rw [idle] at leaves
      cases leaves
  joins entry := booked.joins (outcome ▸ entry)
  remains := by
    intro busy spared
    have before := booked.remains busy (outcome ▸ spared)
    rcases reconsiders.status with same | ⟨-, stays⟩
    · rw [same]
      exact before
    · rw [stays]
      exact Status.noConfusion

/-- Sharing out the evidence and evaluating rules enter nothing into the ledger. -/
theorem Ledger.reconsider (ledger : Ledger pool cs m)
    (all : List.Forall₂ Interactor.Reconsiders m.contenders m'.contenders)
    (arbiter : m'.arbiter = m.arbiter) (outcome : m'.outcome = m.outcome) :
    Ledger pool cs m' where
  booked := forall₂_comp ledger.booked all fun _ _ _ booked reconsiders =>
    booked.reconsider reconsiders arbiter outcome
  promoted := outcome ▸ ledger.promoted
  excluded := outcome ▸ ledger.excluded
  known := by
    rw [outcome, map_id_eq_of (fun _ _ reconsiders => reconsiders.id_eq) all]
    exact ledger.known

theorem reconsiders_shareOut (a : Arbiter R) (cs : List (Interactor R ν)) :
    List.Forall₂ Interactor.Reconsiders cs (a.shareOut cs) :=
  forall₂_shareOut (fun _ _ => ⟨rfl, rfl, .inl rfl⟩) a cs

theorem reconsiders_afterRules (m : Round R ν) :
    List.Forall₂ Interactor.Reconsiders m.contenders (updateRules m).contenders :=
  forall₂_updateRules Interactor.reconsiders_refl Interactor.reconsiders_afterRules m

/-- Whoever the first refresh of a round excludes is barred for the rest of it. -/
theorem barred_refresh (floor : HasFloor R) (fresh : m.outcome.excluded = [])
    (orderly : Orderly m.arbiter.candidates m.contenders) : Barred (refresh false m).1 := by
  intro c' member entry
  rw [refresh_contenders] at member
  obtain ⟨c, source, rfl⟩ := List.mem_map.1 member
  rw [appraisal_id, refresh_excluded, fresh, List.nil_append,
    mem_verdictIds orderly.ids false source] at entry
  revert entry
  show _ → ¬ m.arbiter.threshold ≤ _
  rw [appraisal_eq]
  simp only [Bool.false_and, Bool.false_eq_true, if_false]
  split_ifs with excluded
  · intro _
    rw [c.evidenceOf_exclude]
    exact floor _ _ excluded.2
  · exact fun out => by cases out
  · exact fun out => by cases out
  · exact fun out => by cases out

theorem Barred.reconsider (barred : Barred m)
    (all : List.Forall₂ Interactor.Reconsiders m.contenders m'.contenders)
    (arbiter : m'.arbiter = m.arbiter) (outcome : m'.outcome = m.outcome) : Barred m' := by
  intro c' member entry
  obtain ⟨c, source, reconsiders⟩ := exists_source all c' member
  rw [arbiter, reconsiders.evidence]
  rw [outcome, reconsiders.id_eq] at entry
  exact barred c source entry

/-- The ledger once the pool has settled. -/
theorem ledger_settling (floor : HasFloor R) {arbiter : Arbiter R}
    (orderly : Orderly arbiter.candidates cs) :
    Ledger arbiter.candidates cs (arbiter.settling cs queue).1 := by
  let start : Round R ν := ⟨arbiter, cs, queue, {}, []⟩
  let first := (refresh false start).1
  let shared := { first with contenders := first.arbiter.shareOut first.contenders }
  have unbarred : Barred start := fun _ _ entry => by cases entry
  have ledger : Ledger arbiter.candidates cs first :=
    (ledger_start arbiter cs queue).refresh orderly unbarred false
  have all : List.Forall₂ Interactor.Reconsiders first.contenders (updateRules shared).contenders :=
    forall₂_trans (reconsiders_shareOut _ _) (reconsiders_afterRules shared)
  have steady : List.Forall₂ Interactor.Steady first.contenders (updateRules shared).contenders :=
    forall₂_trans (shareOut_steady _ _) (updateRules_steady shared)
  have ordered : Orderly first.arbiter.candidates first.contenders :=
    (Orderly.refresh (m := start) orderly false).1
  refine (ledger.reconsider all rfl rfl).refresh (ordered.steady steady) ?_ true
  exact (barred_refresh floor rfl orderly).reconsider all rfl rfl

/-! ## Once the claims are settled -/

section Claims

variable {o : MediationOutcome}

omit [Scalar R] in
/-- Whoever the outcome names is determined, if its standing allows that. -/
theorem Booked.accounts_named (booked : Booked pool m a b) (id_eq : b'.id = b.id)
    (named : o.determined = some a.id) (promoted : o.promoted = m.outcome.promoted)
    (won : b'.standing.status = .determined) : Accounts pool o a b' where
  id_eq := id_eq.trans booked.id_eq
  determined := by simp [won, named]
  candidate := by simp [won, named]
  otherwise lost := absurd won lost
  joins entry := booked.joins (promoted ▸ entry)
  leaves _ idle := by
    rw [won] at idle
    cases idle

omit [Scalar R] in
/-- Whoever is neither named nor excluded stays what the ledger says. -/
theorem Booked.accounts_kept (booked : Booked pool m a b)
    (listed : b.standing.status = .candidate ↔ b.id ∈ m.arbiter.candidates)
    (loyal : b.standing.status ≠ .selfExcluded) (unnamed : o.determined ≠ some a.id)
    (promoted : o.promoted = m.outcome.promoted)
    (excluded : a.id ∈ o.excluded ↔ a.id ∈ m.outcome.excluded) : Accounts pool o a b where
  id_eq := booked.id_eq
  determined := by
    rw [booked.determined, excluded]
    simp [unnamed]
  candidate := by
    rw [listed, booked.id_eq, booked.inPool, promoted, excluded]
    simp [unnamed]
  otherwise := by
    intro lost unlisted
    cases status : b.standing.status with
    | idle => rfl
    | candidate => exact absurd status unlisted
    | determined => exact absurd status lost
    | selfExcluded => exact absurd status loyal
  joins entry := booked.joins (promoted ▸ entry)
  leaves := by
    intro busy idle
    by_contra spared
    exact booked.remains busy (fun entry => spared (excluded.2 entry)) idle

omit [Scalar R] in
/-- Whoever is excluded while claims are settled is idle afterwards, and is entered unless it was
idle before. -/
theorem Booked.accounts_excluded (booked : Booked pool m a b)
    (listed : b.standing.status = .candidate ↔ b.id ∈ m.arbiter.candidates)
    (id_eq : b'.id = b.id) (idle : b'.standing = .idle) (unnamed : o.determined ≠ some a.id)
    (promoted : o.promoted = m.outcome.promoted)
    (excluded : a.id ∈ m.outcome.excluded ∨ b.standing.status ≠ .idle → a.id ∈ o.excluded) :
    Accounts pool o a b' where
  id_eq := id_eq.trans booked.id_eq
  determined := by
    have lost : ¬ (a.standing.status = .determined ∧ a.id ∉ o.excluded) := by
      rintro ⟨won, spared⟩
      have before : a.id ∉ m.outcome.excluded := fun entry => spared (excluded (.inl entry))
      have still := booked.determined.2 ⟨won, before⟩
      exact spared (excluded (.inr (by rw [still]; exact Status.noConfusion)))
    simp only [idle, unnamed, lost, or_self, iff_false]
    exact Status.noConfusion
  candidate := by
    have out : ¬ ((a.id ∈ pool ∨ a.id ∈ o.promoted) ∧ a.id ∉ o.excluded) := by
      rintro ⟨joined, spared⟩
      rw [promoted] at joined
      have before : a.id ∉ m.outcome.excluded := fun entry => spared (excluded (.inl entry))
      have inPool := booked.inPool.2 ⟨joined, before⟩
      have plain := listed.2 (booked.id_eq ▸ inPool)
      exact spared (excluded (.inr (by rw [plain]; exact Status.noConfusion)))
    constructor
    · intro plain
      rw [idle] at plain
      cases plain
    · rintro ⟨joined, spared, -⟩
      exact absurd ⟨joined, spared⟩ out
  otherwise _ _ := by rw [idle]; rfl
  joins entry := booked.joins (promoted ▸ entry)
  leaves := by
    intro busy _
    by_contra spared
    have before : a.id ∉ m.outcome.excluded := fun entry => spared (excluded (.inl entry))
    exact spared (excluded (.inr (booked.remains busy before)))

end Claims

/-- The best of appraised contenders is a candidate among them. -/
theorem exists_of_best {xs : List (Appraisal R (Interactor R ν))} {id : InteractorId} {e : R}
    (found : best xs = some (id, e)) :
    ∃ c ∈ xs.map Appraisal.contender, c.id = id ∧ c.isCandidate = true := by
  induction xs using List.reverseRecOn generalizing id e with
  | nil => cases found
  | append_singleton xs x ih =>
    rw [List.map_append, List.map_singleton]
    have earlier : ∀ {id e}, best xs = some (id, e) →
        ∃ c ∈ xs.map Appraisal.contender ++ [x.contender], c.id = id ∧ c.isCandidate = true := by
      intro id e before
      obtain ⟨c, member, same, busy⟩ := ih before
      exact ⟨c, List.mem_append_left _ member, same, busy⟩
    by_cases candidate : x.contender.isCandidate = true
    · have now : x.contender.id = id →
          ∃ c ∈ xs.map Appraisal.contender ++ [x.contender], c.id = id ∧ c.isCandidate = true := by
        intro same
        exact ⟨x.contender, List.mem_append_right _ List.mem_cons_self, same, candidate⟩
      cases before : best xs with
      | none =>
        rw [best_concat_of_none candidate before] at found
        exact now (congrArg Prod.fst (Option.some.inj found))
      | some winner =>
        rw [best_concat_of_some candidate before] at found
        split at found
        · exact now (congrArg Prod.fst (Option.some.inj found))
        · exact earlier (before.trans found)
    · rw [best_concat_of_idle candidate] at found
      exact earlier found

/-- The champion of a settled pool is one of its candidates, or has won already. -/
theorem exists_of_champion {arbiter a' : Arbiter R} {id : InteractorId}
    (wins : a'.champion (arbiter.settling cs queue).2 = some id) :
    ∃ c ∈ (arbiter.settling cs queue).1.contenders, c.id = id ∧ c.isCandidate = true := by
  obtain ⟨m, settles⟩ : ∃ m, arbiter.settling cs queue = Arbiter.refresh true m := ⟨_, rfl⟩
  obtain ⟨⟨id', e⟩, best, rfl⟩ := Option.map_eq_some_iff.1 wins
  rw [settles] at best ⊢
  exact exists_of_best (Option.filter_eq_some_iff.1 best).1

/-- A settled pool with its ledger: its members are exactly the candidates, nobody waits to be let
go, and nobody has been named yet. -/
structure Closing (pool : List InteractorId) (cs : List (Interactor R ν))
    (m : Round R ν) : Prop where
  ledger : Ledger pool cs m
  agrees : Agrees m.arbiter.candidates m.contenders
  listed : ∀ c ∈ m.contenders, c.standing.status = .candidate ↔ c.id ∈ m.arbiter.candidates
  loyal : ∀ c ∈ m.contenders, c.standing.status ≠ .selfExcluded
  unnamed : m.outcome.determined = none

theorem closing_settling (floor : HasFloor R) {arbiter : Arbiter R}
    (agrees : Agrees arbiter.candidates cs) (queue : TaskQueue) :
    Closing arbiter.candidates cs (arbiter.settling cs queue).1 where
  ledger := ledger_settling floor agrees.toOrderly
  agrees := agrees.settling queue
  listed c member := ⟨(agrees.settling queue).listed c member,
    (settled_settling agrees.toOrderly queue).plain c member⟩
  loyal := loyal_refresh _
  unnamed := rfl

namespace Closing

variable (closing : Closing pool cs m)
include closing

omit [Scalar R] in
theorem members_busy (id : InteractorId) (inPool : id ∈ m.arbiter.candidates) :
    ∃ c ∈ m.contenders, c.id = id ∧ c.isCandidate = true := by
  obtain ⟨c, member, rfl⟩ := List.mem_map.1 (closing.agrees.known inPool)
  have plain := (closing.listed c member).2 inPool
  exact ⟨c, member, rfl, by rw [Interactor.isCandidate, Standing.isCandidate, plain]; rfl⟩

omit [Scalar R] in
/-- Entering contenders that are not idle enters nobody twice. -/
theorem nodup_append {ids : List InteractorId} (distinct : ids.Nodup)
    (busy : ∀ id ∈ ids, ∃ c ∈ m.contenders, c.id = id ∧ c.isCandidate = true) :
    (m.outcome.excluded ++ ids).Nodup := by
  refine closing.ledger.excluded.append distinct ?_
  intro id before now
  obtain ⟨c, member, rfl, waits⟩ := busy id now
  obtain ⟨a, -, booked⟩ := exists_source closing.ledger.booked c member
  have idle := booked.excluded (booked.id_eq ▸ before)
  rw [Interactor.isCandidate, Standing.isCandidate, idle] at waits
  cases waits

omit [Scalar R] in
theorem map_id_eq : m.contenders.map Interactor.id = cs.map Interactor.id :=
  map_id_eq_of (fun _ _ booked => booked.id_eq) closing.ledger.booked

omit [Scalar R] in
/-- Nobody claims: the ledger is the outcome. -/
theorem silent : AccountsFor pool m.outcome cs m.contenders where
  promoted := closing.ledger.promoted
  excluded := closing.ledger.excluded
  known := by
    rw [closing.unnamed, ← closing.map_id_eq, Option.toList_none, List.append_nil]
    exact closing.ledger.known
  all := by
    refine (mem_of_forall₂ closing.ledger.booked).imp ?_
    rintro a b ⟨booked, -, member⟩
    refine booked.accounts_kept (closing.listed b member) (closing.loyal b member) ?_ rfl Iff.rfl
    rw [closing.unnamed]
    exact (Option.some_ne_none a.id).symm

/-- One candidate claims. -/
theorem sole {claimer : InteractorId} (claims : claimer ∈ claimers m) :
    AccountsFor pool (settleClaim m claimer).outcome cs (settleClaim m claimer).contenders := by
  have ids := closing.agrees.ids
  have distinct := closing.agrees.distinct
  obtain ⟨promoted, excluded⟩ := settleClaim_outcome ids distinct closing.members_busy claimer
  have determined := settleClaim_determined m claimer
  rw [closing.unnamed] at determined
  refine ⟨promoted ▸ closing.ledger.promoted, ?_, ?_, ?_⟩
  · rw [excluded]
    split
    · refine closing.nodup_append (distinct.filter _) fun id entry => ?_
      exact closing.members_busy id (List.mem_filter.1 entry).1
    · exact closing.nodup_append distinct closing.members_busy
  · have members := closing.agrees.known
    rw [promoted, excluded, determined, ← closing.map_id_eq, ← List.append_assoc]
    refine List.append_subset.2 ⟨List.append_subset.2 ⟨closing.ledger.known, ?_⟩, ?_⟩
    · split
      · exact List.Subset.trans List.filter_sublist.subset members
      · exact members
    · split
      · exact List.cons_subset.2 ⟨members (claimers_spec claims).1, List.nil_subset _⟩
      · exact List.nil_subset _
  · rw [settleClaim_contenders ids distinct]
    refine forall₂_map_of_mem closing.ledger.booked fun a b booked _ member => ?_
    have listed := closing.listed b member
    by_cases wins : awards m claimer = true ∧ b.id = claimer
    · rw [if_pos wins]
      rw [if_pos wins.1] at determined
      have plain := listed.2 (wins.2 ▸ (claimers_spec claims).1)
      have named : (settleClaim m claimer).outcome.determined = some a.id := by
        rw [determined, ← booked.id_eq, wins.2]
      refine booked.accounts_named rfl named promoted ?_
      rw [b.determine_standing, if_pos plain]
    · rw [if_neg wins]
      have unnamed : (settleClaim m claimer).outcome.determined ≠ some a.id := by
        rw [determined, ← booked.id_eq]
        split
        · next awarded => exact fun named => wins ⟨awarded, (Option.some.inj named).symm⟩
        · exact (Option.some_ne_none b.id).symm
      have entered : a.id ∈ (settleClaim m claimer).outcome.excluded ↔
          a.id ∈ m.outcome.excluded ∨ b.id ∈ m.arbiter.candidates := by
        rw [excluded, List.mem_append, ← booked.id_eq]
        refine or_congr_right ?_
        split
        · next awarded =>
          have differs : b.id ≠ claimer := fun same => wins ⟨awarded, same⟩
          simp [differs]
        · exact Iff.rfl
      by_cases inPool : b.id ∈ m.arbiter.candidates
      · rw [if_pos inPool]
        exact booked.accounts_excluded listed b.exclude_id b.exclude_standing unnamed promoted
          fun _ => entered.2 (.inr inPool)
      · rw [if_neg inPool]
        refine booked.accounts_kept listed (closing.loyal b member) unnamed promoted ?_
        simp [entered, inPool]

/-- Several candidates claim. -/
theorem several {best : Option (InteractorId × R)}
    (champions : ∀ id, m.arbiter.champion best = some id →
      ∃ c ∈ m.contenders, c.id = id ∧ c.isCandidate = true) :
    AccountsFor pool (settleClaims m best).outcome cs (settleClaims m best).contenders := by
  have ids := closing.agrees.ids
  have excluded := settleClaims_excluded m best
  have determined := settleClaims_determined m best
  refine ⟨closing.ledger.promoted, ?_, ?_, ?_⟩
  · rw [excluded]
    refine closing.nodup_append (ids.sublist (List.filter_sublist.map _)) fun id entry => ?_
    obtain ⟨c, listed, rfl⟩ := List.mem_map.1 entry
    obtain ⟨member, entered⟩ := List.mem_filter.1 listed
    exact ⟨c, member, rfl, (Bool.and_eq_true_iff.1 entered).2⟩
  · rw [excluded, determined, ← closing.map_id_eq, ← List.append_assoc]
    refine List.append_subset.2 ⟨List.append_subset.2 ⟨closing.ledger.known, ?_⟩, ?_⟩
    · exact (List.filter_sublist.map _).subset
    · intro id named
      obtain ⟨c, member, rfl, -⟩ := champions id (Option.mem_toList.1 named)
      exact List.mem_map_of_mem member
  · rw [settleClaims_contenders]
    refine forall₂_map_of_mem closing.ledger.booked fun a b booked _ member => ?_
    by_cases wins : m.arbiter.champion best = some b.id
    · rw [if_pos wins]
      have named : (settleClaims m best).outcome.determined = some a.id := by
        rw [determined, wins, booked.id_eq]
      refine booked.accounts_named rfl named rfl ?_
      obtain ⟨c, source, same, busy⟩ := champions b.id wins
      obtain rfl := List.inj_on_of_nodup_map ids source member same
      have loyal := closing.loyal c member
      rw [c.determine_standing]
      rw [Interactor.isCandidate, Standing.isCandidate] at busy
      cases status : c.standing.status <;> simp_all
    · rw [if_neg wins]
      refine booked.accounts_excluded (closing.listed b member) b.exclude_id b.exclude_standing
        (by rw [determined, ← booked.id_eq]; exact wins) rfl ?_
      rw [excluded, List.mem_append, ← booked.id_eq]
      rintro (before | busy)
      · exact .inl before
      · refine .inr (List.mem_map_of_mem (List.mem_filter.2 ⟨member, ?_⟩))
        simp [wins, Interactor.isCandidate, Standing.isCandidate, busy]

end Closing

/-- The outcome of a round of mediation accounts for it. -/
theorem accountsFor_mediate (floor : HasFloor R) {arbiter : Arbiter R}
    (agrees : Agrees arbiter.candidates cs) :
    AccountsFor arbiter.candidates (arbiter.mediate cs queue).outcome cs
      (arbiter.mediate cs queue).contenders := by
  have closing := closing_settling floor agrees queue
  rw [mediate_eq]
  split
  · exact closing.silent
  · next claimer sole =>
    have claims : claimer ∈ claimers (arbiter.settling cs queue).1 := by simp [sole]
    exact closing.sole claims
  · exact closing.several fun _ wins => exists_of_champion wins

end Arbiter

end TouchIntent
