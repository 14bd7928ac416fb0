import Mathlib
import TouchIntent.Proofs.Arbiter.Ledger
import TouchIntent.Proofs.Session.SingleWinner

/-!
# Hosts that reach past the session

Between the operations of a session, a host can give commands to single interactors. The arbiter
does not hear of them: it goes on listing in its pool an interactor that a command has made idle.
Such an interactor is *stray*. It takes part in the rounds to come and may be awarded the touches,
but an idle interactor cannot be determined. The main statement of this module says that nothing
else separates the winner that is reported from an interactor that is determined.
-/

namespace TouchIntent

open Arbiter

variable {R ν : Type} [Scalar R]

/-- A command of the host to a single interactor. -/
inductive HostCommand where
  | reset
  | exclude
  | selfExclude
  | claim
  | undetermine
  | withdrawSelfExclusion
  | setHidden (hidden : Bool)
  | resetObservations

/-- What a host does: it uses the session, or commands one of its interactors. -/
inductive HostStep (R : Type) where
  | operate (op : SessionOp R)
  | command (id : InteractorId) (order : HostCommand)

namespace Interactor

/-- The interactor after a command of the host, and the queue with the flags of the timers. -/
def obey (a : Interactor R ν) (order : HostCommand) (queue : TaskQueue) :
    Interactor R ν × TaskQueue :=
  match order with
  | .reset => (a.reset, queue)
  | .exclude => (a.exclude.1, queue)
  | .selfExclude => (a.selfExclude.1, queue)
  | .claim => ((a.claim queue).1, (a.claim queue).2.1)
  | .undetermine => ((a.undetermine queue).1, (a.undetermine queue).2.1)
  | .withdrawSelfExclusion =>
    ((a.withdrawSelfExclusion queue).1, (a.withdrawSelfExclusion queue).2.1)
  | .setHidden hidden => ({ a with isHidden := hidden }, queue)
  | .resetObservations => (a.resetObservations, queue)

/-- The interactor after a command, apart from the queue. -/
def obeyed (a : Interactor R ν) (order : HostCommand) : Interactor R ν := (a.obey order {}).1

theorem obey_fst (a : Interactor R ν) (order : HostCommand) (queue : TaskQueue) :
    (a.obey order queue).1 = a.obeyed order := by
  cases order <;> rfl

theorem obeyed_id (a : Interactor R ν) (order : HostCommand) : (a.obeyed order).id = a.id := by
  cases order with
  | reset => exact a.reset_id
  | selfExclude => exact a.selfExclude_id
  | exclude | claim | undetermine | withdrawSelfExclusion | setHidden | resetObservations => rfl

/-- `b` is `a` some time later, and idle if and only if `a` was. -/
structure Rests (a b : Interactor R ν) : Prop where
  id_eq : b.id = a.id
  idle_iff : b.standing.status = .idle ↔ a.standing.status = .idle

variable {a b c : Interactor R ν}

omit [Scalar R] in
theorem Rests.trans (first : a.Rests b) (second : b.Rests c) : a.Rests c :=
  ⟨second.id_eq.trans first.id_eq, second.idle_iff.trans first.idle_iff⟩

theorem Reconsiders.rests (reconsiders : a.Reconsiders b) : a.Rests b := by
  refine ⟨reconsiders.id_eq, ?_⟩
  rcases reconsiders.status with same | ⟨leaves, stays⟩
  · rw [same]
  · rw [leaves, stays]
    decide

variable (a)

omit [Scalar R] in
theorem rests_refl : a.Rests a := ⟨rfl, Iff.rfl⟩

theorem rests_observeTouch (sample : Sample R) : a.Rests (a.observeTouch sample) := by
  refine ⟨a.observeTouch_id sample, ?_⟩
  rw [observeTouch_standing]
  by_cases hidden : a.isHidden = true
  · rw [if_pos hidden]
    by_cases busy : a.isCandidate = true
    · have notIdle : a.standing.status ≠ .idle := by
        simpa [isCandidate, Standing.isCandidate] using busy
      simp [busy, notIdle]
    · have idle : a.standing.status = .idle := by
        simpa [isCandidate, Standing.isCandidate] using busy
      simp [busy, idle, Standing.idle]
  · rw [if_neg hidden]

theorem rests_timeOut : a.Rests a.timeOut.1 := by
  refine ⟨a.timeOut_id, ?_⟩
  rw [timeOut_standing]
  by_cases idle : a.standing.status = .idle
  · simp [idle, Standing.idle]
  · simp [idle]

omit [Scalar R] in
/-- Only an interactor that is not idle can be determined. -/
theorem isDetermined_determine (loyal : a.standing.status ≠ .selfExcluded) :
    a.determine.1.isDetermined = true ↔ a.standing.status ≠ .idle := by
  rw [isDetermined_iff, determine_standing]
  cases status : a.standing.status with
  | selfExcluded => exact absurd status loyal
  | idle | candidate | determined => simp [status]

end Interactor

omit [Scalar R] in
instance : IsTrans (Interactor R ν) Interactor.Rests := ⟨fun _ _ _ => Interactor.Rests.trans⟩

namespace Arbiter

/-! ## Strays -/

/-- The pool lists an interactor that is idle. -/
def IsStray (pool : List InteractorId) (c : Interactor R ν) : Prop :=
  c.id ∈ pool ∧ c.standing.status = .idle

/-- `c'` is `c` some time later, and stray if and only if `c` was. -/
structure SameStray (pool pool' : List InteractorId) (c c' : Interactor R ν) : Prop where
  id_eq : c'.id = c.id
  stray_iff : IsStray pool' c' ↔ IsStray pool c

/-- Contenders of different ids, a pool that lists nobody twice, and the same strays as before. -/
structure Straying (pool : List InteractorId) (cs : List (Interactor R ν))
    (pool' : List InteractorId) (cs' : List (Interactor R ν)) : Prop where
  ids : (cs'.map Interactor.id).Nodup
  distinct : pool'.Nodup
  all : List.Forall₂ (SameStray pool pool') cs cs'

variable {pool pool' : List InteractorId} {cs cs' cs'' : List (Interactor R ν)} {queue : TaskQueue}
  {c c' c'' : Interactor R ν} {m : Round R ν}

omit [Scalar R] in
theorem SameStray.rests (same : SameStray pool pool' c c') (rests : c'.Rests c'') :
    SameStray pool pool' c c'' where
  id_eq := rests.id_eq.trans same.id_eq
  stray_iff := by
    rw [← same.stray_iff, IsStray, IsStray, rests.id_eq, rests.idle_iff]

omit [Scalar R] in
theorem Straying.rests (straying : Straying pool cs pool' cs')
    (all : List.Forall₂ Interactor.Rests cs' cs'') : Straying pool cs pool' cs'' where
  ids := by
    rw [map_id_eq_of (fun _ _ rests => rests.id_eq) all]
    exact straying.ids
  distinct := straying.distinct
  all := forall₂_comp straying.all all fun _ _ _ => SameStray.rests

/-- A refresh makes nobody stray, and does not find the strays: they are not candidates, so it does
not take them out of the pool, and they are in the pool, so it does not promote them. -/
theorem SameStray.refresh (same : SameStray pool m.arbiter.candidates c c')
    (ids : (m.contenders.map Interactor.id).Nodup) (member : c' ∈ m.contenders) (grants : Bool) :
    SameStray pool (refresh grants m).1.arbiter.candidates c
      (m.arbiter.appraisal grants c').contender := by
  have inPool : c'.id ∈ (Arbiter.refresh grants m).1.arbiter.candidates ↔ _ :=
    mem_refresh_candidates ids member
  refine ⟨(m.arbiter.appraisal_id grants c').trans same.id_eq, ?_⟩
  rw [← same.stray_iff, IsStray, IsStray, appraisal_id, inPool]
  obtain ⟨out, busy, -⟩ | ⟨verdict, -, -, outside, plain⟩ | ⟨stays, unmoved, standing⟩ :=
    m.arbiter.appraisal_moves grants c'
  · have unmoved : (m.arbiter.appraisal grants c').verdict ≠ .promoted := by
      intro verdict
      rw [verdict] at out
      cases out
    simp [out, unmoved, busy]
  · simp [plain, outside]
  · simp [stays, unmoved, standing]

theorem Straying.refresh (straying : Straying pool cs m.arbiter.candidates m.contenders)
    (grants : Bool) : Straying pool cs (refresh grants m).1.arbiter.candidates
      (refresh grants m).1.contenders where
  ids := by
    rw [map_id_eq (refresh_tame grants m)]
    exact straying.ids
  distinct := by
    rw [refresh_candidates]
    exact nodup_updatePool straying.distinct _ _
  all := by
    rw [refresh_contenders]
    refine forall₂_map_of_mem straying.all fun c c' same _ member => ?_
    exact same.refresh straying.ids member grants

/-- While the pool settles, the strays stay the same. -/
theorem straying_settling {a : Arbiter R} (ids : (cs.map Interactor.id).Nodup)
    (distinct : a.candidates.Nodup) (queue : TaskQueue) :
    Straying a.candidates cs (a.settling cs queue).1.arbiter.candidates
      (a.settling cs queue).1.contenders := by
  refine of_settling (Straying a.candidates cs) ⟨ids, distinct, ?_⟩ ?_ ?_ ?_
  · exact List.forall₂_same.2 fun c _ => ⟨rfl, Iff.rfl⟩
  · intro grants m straying
    exact straying.refresh grants
  · intro a' cs' straying
    exact straying.rests
      ((reconsiders_shareOut a' cs').imp fun _ _ reconsiders => reconsiders.rests)
  · intro m straying
    exact straying.rests ((reconsiders_afterRules m).imp fun _ _ reconsiders => reconsiders.rests)

/-- Whoever a round of mediation names is determined afterwards if and only if it was not stray. -/
theorem named_mediate {a : Arbiter R} (ids : (cs.map Interactor.id).Nodup)
    (distinct : a.candidates.Nodup) {id : InteractorId}
    (named : (a.mediate cs queue).outcome.determined = some id) :
    ∃ c ∈ cs, ∃ c' ∈ (a.mediate cs queue).contenders, c.id = id ∧ c'.id = id ∧
      (c'.isDetermined = true ↔ ¬ IsStray a.candidates c) := by
  have straying := straying_settling ids distinct queue
  have loyal : ∀ c ∈ (a.settling cs queue).1.contenders, c.standing.status ≠ .selfExcluded :=
    loyal_refresh _
  rw [mediate_eq] at named ⊢
  split at named
  · cases named
  · next claimer sole =>
    have claims : claimer ∈ claimers (a.settling cs queue).1 := by simp [sole]
    obtain ⟨inPool, d, member, rfl⟩ := claimers_spec claims
    obtain ⟨c, source, same⟩ := exists_source straying.all d member
    rw [settleClaim_determined] at named
    by_cases wins : awards (a.settling cs queue).1 d.id = true
    · rw [if_pos wins] at named
      obtain rfl := Option.some.inj named
      refine ⟨c, source, d.determine.1, ?_, same.id_eq.symm, rfl, ?_⟩
      · rw [settleClaim_contenders straying.ids straying.distinct]
        exact List.mem_map.2 ⟨d, member, if_pos ⟨wins, rfl⟩⟩
      · rw [d.isDetermined_determine (loyal d member), ← same.stray_iff, IsStray]
        simp [inPool]
    · rw [if_neg wins] at named
      cases named
  · rw [settleClaims_determined] at named
    obtain ⟨d, member, rfl, busy⟩ := exists_of_champion named
    obtain ⟨c, source, same⟩ := exists_source straying.all d member
    have notIdle : d.standing.status ≠ .idle := by
      simpa [Interactor.isCandidate, Standing.isCandidate] using busy
    refine ⟨c, source, d.determine.1, ?_, same.id_eq.symm, rfl, ?_⟩
    · rw [settleClaims_contenders]
      exact List.mem_map.2 ⟨d, member, if_pos named⟩
    · rw [d.isDetermined_determine (loyal d member), ← same.stray_iff, IsStray]
      simp [notIdle]

end Arbiter

namespace Session

/-! ## Runs with commands of the host -/

/-- The session after a command to one of its interactors, if there is one of that id. -/
def command (s : Session R ν) (id : InteractorId) (order : HostCommand) : Session R ν :=
  match s.interactor? id with
  | none => s
  | some a =>
    { s with
      interactors := s.interactors.set id (a.obey order s.queue).1
      queue := (a.obey order s.queue).2 }

/-- The session after a step of the host. -/
def follow (s : Session R ν) : HostStep R → Session R ν
  | .operate op => s.perform op
  | .command id order => s.command id order

/-- The session after steps of the host, one after the other. -/
def followAll (s : Session R ν) (steps : List (HostStep R)) : Session R ν := steps.foldl follow s

/-- No two interactors have the same id, and the pool lists nobody twice. -/
structure IsNumbered (s : Session R ν) : Prop where
  ids : (s.interactors.map Interactor.id).Nodup
  distinct : s.arbiter.candidates.Nodup

variable {s s' : Session R ν}

/-- A command changes the interactor that it is given to. -/
theorem command_interactors (s : Session R ν) (id : InteractorId) (order : HostCommand) :
    (s.command id order).interactors = s.interactors.modify id fun a => a.obeyed order := by
  unfold command
  split
  · next absent =>
    have absent : s.interactors[id]? = none := absent
    rw [List.modify_eq_set_getElem?, absent]
    rfl
  · next a found =>
    have found : s.interactors[id]? = some a := found
    rw [List.modify_eq_set_getElem?, found, a.obey_fst]
    rfl

@[simp] theorem command_arbiter (s : Session R ν) (id : InteractorId) (order : HostCommand) :
    (s.command id order).arbiter = s.arbiter := by
  unfold command
  split <;> rfl

theorem isNumbered_mediate (numbered : s.IsNumbered) : s.mediate.session.IsNumbered := by
  have straying := straying_settling numbered.ids numbered.distinct s.queue
  have cleared : ∀ m : Round R ν,
      m.contenders.map Interactor.id =
        (s.arbiter.settling s.interactors s.queue).1.contenders.map Interactor.id →
      m.arbiter = (s.arbiter.settling s.interactors s.queue).1.arbiter.clear →
      (m.contenders.map Interactor.id).Nodup ∧ m.arbiter.candidates.Nodup := by
    intro m ids emptied
    rw [ids, emptied]
    exact ⟨straying.ids, List.nodup_nil⟩
  suffices round : ((s.arbiter.mediate s.interactors s.queue).contenders.map Interactor.id).Nodup ∧
      (s.arbiter.mediate s.interactors s.queue).arbiter.candidates.Nodup by
    constructor
    · rw [mediate_interactors]
      exact round.1
    · rw [mediate_arbiter]
      exact round.2
  rw [mediate_eq]
  split
  · exact ⟨straying.ids, straying.distinct⟩
  · next claimer _ =>
    obtain ⟨ids, emptied, -⟩ := settleClaim_spec straying.ids claimer
    exact cleared _ ids emptied
  · obtain ⟨ids, emptied, -⟩ := settleClaims_spec
      (m := (s.arbiter.settling s.interactors s.queue).1)
      (s.arbiter.settling s.interactors s.queue).2
    exact cleared _ ids emptied

/-- What an operation does before the arbiter mediates makes nobody idle or busy. -/
theorem rests_mediating {op : SessionOp R} (mediates : s.mediating? op = some s') :
    List.Forall₂ Interactor.Rests s.interactors s'.interactors ∧ s'.arbiter = s.arbiter :=
  forall₂_mediating (p := fun _ => True) Interactor.rests_refl
    (fun a sample _ => ⟨a.rests_observeTouch sample, trivial⟩) Interactor.rests_timeOut
    (fun _ _ => trivial) mediates

theorem isNumbered_follow (numbered : s.IsNumbered) (step : HostStep R) :
    (s.follow step).IsNumbered := by
  cases step with
  | operate op =>
    simp only [follow]
    cases mediates : s.mediating? op with
    | some s' =>
      obtain ⟨rests, arbiter⟩ := rests_mediating mediates
      rw [← step_session, step_of_mediating mediates]
      refine isNumbered_mediate ⟨?_, arbiter ▸ numbered.distinct⟩
      rw [map_id_eq_of (fun _ _ rests => rests.id_eq) rests]
      exact numbered.ids
    | none =>
      constructor
      · obtain ⟨s', mediates', -⟩ | ⟨-, tame⟩ := s.perform_cases op
        · rw [mediates] at mediates'
          cases mediates'
        · rw [map_id_eq tame.interactors]
          exact numbered.ids
      · rcases arbiter_of_quiet mediates with same | emptied
        · rw [same]
          exact numbered.distinct
        · rw [emptied]
          exact List.nodup_nil
  | command id order =>
    have all : List.Forall₂ (fun a b : Interactor R ν => b.id = a.id) s.interactors
        (s.command id order).interactors := by
      rw [command_interactors]
      apply forall₂_modify
      · exact fun _ => rfl
      · exact fun a => a.obeyed_id order
    constructor
    · rw [follow, map_id_eq_of (fun _ _ same => same) all]
      exact numbered.ids
    · rw [follow, command_arbiter]
      exact numbered.distinct

theorem isNumbered_followAll (numbered : s.IsNumbered) (steps : List (HostStep R)) :
    (s.followAll steps).IsNumbered := by
  induction steps generalizing s with
  | nil => exact numbered
  | cons step rest ih => exact ih (isNumbered_follow numbered step)

theorem isNumbered_ofScene {settings : Settings R} {scene : Scene R}
    (built : ofScene settings scene = .ok s) : s.IsNumbered := by
  obtain ⟨pool, numbered, -⟩ := ofScene_new built
  constructor
  · rw [numbered]
    exact List.nodup_range
  · rw [pool]
    exact List.nodup_nil

end Session

/-- Whatever a host does with a session and with its interactors: an interactor that an operation
reports as the winner is determined afterwards if and only if it was not stray before, that is,
unless the pool listed it while it was idle. -/
theorem reported_winner_determined_iff {settings : Settings R} {scene : Scene R} {s : Session R ν}
    (built : Session.ofScene settings scene = .ok s) (steps : List (HostStep R))
    {op : SessionOp R} {id : InteractorId} (reported :
      ((s.followAll steps).step op).outcome.bind MediationOutcome.determined = some id) :
    ∃ a ∈ (s.followAll steps).interactors,
      ∃ b ∈ ((s.followAll steps).perform op).interactors, a.id = id ∧ b.id = id ∧
        (b.isDetermined = true ↔
          ¬ (id ∈ (s.followAll steps).arbiter.candidates ∧ a.standing.status = .idle)) := by
  have numbered := Session.isNumbered_followAll (Session.isNumbered_ofScene built) steps
  cases mediates : (s.followAll steps).mediating? op with
  | none =>
    rw [Session.outcome_of_quiet mediates] at reported
    cases reported
  | some s' =>
    obtain ⟨rests, arbiter⟩ := Session.rests_mediating mediates
    rw [Session.step_of_mediating mediates, Session.mediate_outcome, Option.bind_some] at reported
    have ids : (s'.interactors.map Interactor.id).Nodup := by
      rw [map_id_eq_of (fun _ _ rests => rests.id_eq) rests]
      exact numbered.ids
    obtain ⟨a', source', b, member, rfl, same, determined⟩ :=
      named_mediate ids (arbiter ▸ numbered.distinct) reported
    obtain ⟨a, source, rest⟩ := exists_source rests a' source'
    refine ⟨a, source, b, ?_, rest.id_eq.symm, same, ?_⟩
    · rw [← Session.step_session, Session.step_of_mediating mediates, Session.mediate_interactors]
      exact member
    · rw [determined, IsStray, arbiter, rest.idle_iff]

section Alone

variable {ν : Type} {c : Interactor EReal ν} {queue : TaskQueue} {g : Gaussian EReal}
  {s : Sample EReal} {l : ℝ}

/-- How the pool settles around a single member that the second refresh keeps. -/
theorem settling_single {t : EReal} {pool : List InteractorId} {c' : Interactor EReal ν}
    {queue queue' : TaskQueue} {outcome : MediationOutcome}
    (refreshed : (refresh false (⟨⟨t, pool⟩, [c], queue, {}, []⟩ : Round EReal ν)).1 =
      ⟨⟨t, [0]⟩, [c'], queue', outcome, []⟩)
    (first : c'.id = 0) (kept : ∀ x, Ranked c' x → ∃ e, (⟨t, [0]⟩ : Arbiter EReal).appraisal true
      x.afterRules = ⟨x.afterRules, .kept, e⟩) :
    ∃ x, Ranked c' x ∧ ((⟨t, pool⟩ : Arbiter EReal).settling [c] queue).1.arbiter = ⟨t, [0]⟩ ∧
      ((⟨t, pool⟩ : Arbiter EReal).settling [c] queue).1.contenders = [x.afterRules] := by
  obtain ⟨ranked, all, settled⟩ := settling_ranked refreshed
  obtain - | ⟨rank, - | -⟩ := all
  next x =>
  have named : x.id = 0 := by
    obtain ⟨p, rfl⟩ := rank
    exact first
  obtain ⟨m, ruled⟩ : ∃ m, m = updateRules (⟨⟨t, [0]⟩, [x], queue', outcome, []⟩ :
    Round EReal ν) := ⟨_, rfl⟩
  have arbiter : m.arbiter = ⟨t, [0]⟩ := by rw [ruled]; rfl
  have contenders : m.contenders = [x.afterRules] := by
    rw [ruled, updateRules_contenders]
    simp [named]
  obtain ⟨shared, stays⟩ : ∃ shared, (refresh true m).1 = { m with shared } := by
    refine refresh_kept fun d member => ?_
    rw [contenders] at member
    obtain rfl := List.mem_singleton.1 member
    rw [arbiter]
    exact kept x rank
  rw [settled, ← ruled, stays]
  exact ⟨x, rank, arbiter, contenders⟩

/-- An idle element that has seen a press joins the pool, and does not claim the touches. -/
theorem mediate_pressed {t : EReal} (watches : c.Watches g false [s]) (idle : c.standing = .idle)
    (first : c.id = 0) (pressed : s.kind = .down)
    (likely : (Model.single g).logLikelihood [s] = l) (enough : t < l) :
    ∃ c', ((⟨t, []⟩ : Arbiter EReal).mediate [c] queue).arbiter = ⟨t, [0]⟩ ∧
      ((⟨t, []⟩ : Arbiter EReal).mediate [c] queue).contenders = [c'] ∧ c'.Watches g true [s] ∧
      c'.id = 0 := by
  have promoted : (⟨t, []⟩ : Arbiter EReal).appraisal false c = ⟨c.promote.1, .promoted, l⟩ :=
    appraisal_promoted false idle (evidence_tap watches likely) enough.le List.not_mem_nil
  have joins : c.promote.1.id = 0 := first
  have plain : c.promote.1.standing = ⟨.candidate, false⟩ := by
    rw [Interactor.promote_standing, idle]
    rfl
  obtain ⟨queue', refreshed⟩ : ∃ queue', (refresh false
      (⟨⟨t, []⟩, [c], queue, {}, []⟩ : Round EReal ν)).1 =
      ⟨⟨t, [0]⟩, [c.promote.1], queue', { promoted := [0] }, []⟩ := by
    rw [refresh_eq]
    simp [promoted, Verdict.leavesPool, updatePool, joins]
  have ruled : ∀ x, Ranked c.promote.1 x → x.afterRules.Watches g true [s] ∧
      x.afterRules.standing = ⟨.candidate, false⟩ ∧ x.id = 0 := by
    rintro x ⟨p, rfl⟩
    obtain ⟨watches', stands⟩ :=
      (watches.withStanding c.promote.1.standing p).afterRules_pressed pressed
    exact ⟨watches', stands.trans plain, first⟩
  obtain ⟨x, rank, arbiter, contenders⟩ := settling_single refreshed joins fun x rank => by
    obtain ⟨watches', stands, -⟩ := ruled x rank
    exact ⟨l, appraisal_kept true stands (.inl rfl) (evidence_tap watches' likely) enough.le⟩
  obtain ⟨watches', stands, named⟩ := ruled x rank
  have silent : claimers ((⟨t, []⟩ : Arbiter EReal).settling [c] queue).1 = [] := by
    simp [claimers, arbiter, contenders, findContender?, List.find?_cons, named,
      Interactor.isClaiming, stands]
  rw [mediate_eq, silent]
  exact ⟨x.afterRules, arbiter, contenders, watches', x.afterRules_id.trans named⟩

/-- A stray element that has seen a tap is awarded the touches, and stays idle. -/
theorem mediate_stray {t : EReal} (watches : c.Watches g false [s]) (idle : c.standing = .idle)
    (first : c.id = 0) (released : s.kind = .up)
    (likely : (Model.single g).logLikelihood [s] = l) (enough : t < l) :
    ∃ c', ((⟨t, [0]⟩ : Arbiter EReal).mediate [c] queue).outcome.determined = some 0 ∧
      ((⟨t, [0]⟩ : Arbiter EReal).mediate [c] queue).contenders = [c'] ∧
      c'.standing.status = .idle := by
  have ignored {d : Interactor EReal ν} {asked : Bool} (grants : Bool)
      (watches : d.Watches g asked [s]) (idle : d.standing.status = .idle) (first : d.id = 0) :
      (⟨t, [0]⟩ : Arbiter EReal).appraisal grants d = ⟨d, .kept, l⟩ := by
    have noCandidate : d.isCandidate = false := by
      rw [Interactor.isCandidate, Standing.isCandidate, idle]
      rfl
    have loyal : d.hasSelfExcluded = false := by rw [Interactor.hasSelfExcluded, idle]; rfl
    simp [appraisal_eq, evidenceOf_eq (evidence_tap watches likely), noCandidate, loyal, first,
      enough.not_gt]
  obtain ⟨queue', refreshed⟩ : ∃ shared, (refresh false
      (⟨⟨t, [0]⟩, [c], queue, {}, []⟩ : Round EReal ν)).1 =
      ⟨⟨t, [0]⟩, [c], shared, {}, []⟩ := by
    refine refresh_kept fun d member => ⟨l, ?_⟩
    obtain rfl := List.mem_singleton.1 member
    exact ignored false watches (by rw [idle]; rfl) first
  have ruled : ∀ x, Ranked c x → x.afterRules.Watches g true [s] ∧
      x.afterRules.standing = ⟨.idle, true⟩ ∧ x.id = 0 := by
    rintro x ⟨p, rfl⟩
    obtain ⟨watches', stands⟩ := (watches.withStanding c.standing p).afterRules released
    refine ⟨watches', stands.trans ?_, first⟩
    rw [idle]
    rfl
  obtain ⟨x, rank, arbiter, contenders⟩ := settling_single refreshed first fun x rank => by
    obtain ⟨watches', stands, named⟩ := ruled x rank
    exact ⟨l, ignored true watches' (by rw [stands]) (x.afterRules_id.trans named)⟩
  obtain ⟨watches', stands, named⟩ := ruled x rank
  have claims : claimers ((⟨t, [0]⟩ : Arbiter EReal).settling [c] queue).1 = [0] := by
    simp [claimers, arbiter, contenders, findContender?, List.find?_cons, named,
      Interactor.isClaiming, stands]
  have evidence : Contender.meanEvidence? x.afterRules = some (l : EReal) :=
    evidence_tap watches' likely
  refine ⟨x.afterRules.determine.1, ?_, ?_, ?_⟩
  · rw [mediate_eq, claims]
    simp [settleClaim, arbiter, contenders, findContender?, named, evidence, enough]
  · rw [mediate_eq, claims]
    simp [settleClaim, arbiter, contenders, findContender?, modifyContender, named, evidence,
      enough]
  · rw [Interactor.determine_standing, stands]
    rfl

end Alone

namespace Twins

/-- The scene of a single twin. -/
noncomputable def alone : Scene EReal := ⟨scene.surface, [twin "left"]⟩

/-- A press in the corner. -/
noncomputable def press : Sample EReal := { tap with kind := .down }

/-- A scene of one element in the place of the twins. -/
theorem ofScene_single {ν : Type} (id : String) : ∃ (s : Session EReal ν) (c : Interactor EReal ν),
    Session.ofScene .default ⟨scene.surface, [twin id]⟩ = .ok s ∧
      s.arbiter = ⟨defaultRuleOutEvidence, []⟩ ∧ s.interactors = [c] ∧
      c.Watches standard false [] ∧ c.standing = .idle ∧ c.id = 0 := by
  obtain ⟨c, built, watches, idle⟩ := @build_twin ν id
  refine ⟨(Session.empty .default).add c, { c with id := 0 }, ?_, rfl, rfl, watches.withId 0, idle,
    rfl⟩
  simp only [Session.ofScene, scene, Settings.default, List.foldlM_cons, List.foldlM_nil,
    built]
  rfl

theorem ofScene_alone {ν : Type} : ∃ (s : Session EReal ν) (c : Interactor EReal ν),
    Session.ofScene .default alone = .ok s ∧ s.arbiter = ⟨defaultRuleOutEvidence, []⟩ ∧
      s.interactors = [c] ∧ c.Watches standard false [] ∧ c.standing = .idle ∧ c.id = 0 :=
  ofScene_single "left"

section Alone

variable {ν : Type} {s : Session EReal ν} {c : Interactor EReal ν} {x : Sample EReal}

/-- A touch in the corner is as likely as the tap. -/
theorem logLikelihood_corner (place : x.position = tap.position) :
    (Model.single standard).logLikelihood ([] ++ [x]) =
      ((-Real.log (2 * Real.pi) : ℝ) : EReal) := by
  have density : standard.logDensity x.position = ((-Real.log (2 * Real.pi) : ℝ) : EReal) := by
    rw [place]
    exact logDensity_tap
  simpa using Model.logLikelihood_single (e := fun _ => -Real.log (2 * Real.pi))
    (List.cons_ne_nil x []) (by simpa using density)

/-- An idle element stays idle while it watches. -/
theorem observeTouch_idle (watches : c.Watches standard false []) (idle : c.standing = .idle)
    (x : Sample EReal) : (c.observeTouch x).standing = .idle := by
  rw [c.observeTouch_standing, watches.visible, idle]
  rfl

/-- A touch of a single idle element is mediated. -/
theorem handle_alone (interactors : s.interactors = [c]) (watches : c.Watches standard false [])
    (idle : c.standing = .idle) (kept : x.kind ≠ .move) :
    s.handle [x] = ({ s.forward x with previousBatch := [x] } : Session EReal ν).mediate := by
  refine Session.handle_open kept fun b member => ?_
  rw [interactors] at member
  obtain rfl := List.mem_singleton.1 member
  rw [Interactor.isDetermined, observeTouch_idle watches idle x]
  rfl

theorem forward_alone (interactors : s.interactors = [c]) (x : Sample EReal) :
    (s.forward x).interactors = [c.observeTouch x] := by
  rw [Session.forward, interactors]
  rfl

/-- A press in the corner brings a single idle element into the pool. -/
theorem handle_press (arbiter : s.arbiter = ⟨defaultRuleOutEvidence, []⟩)
    (interactors : s.interactors = [c]) (watches : c.Watches standard false [])
    (idle : c.standing = .idle) (first : c.id = 0) (pressed : x.kind = .down)
    (pointer : x.pointer = 0) (place : x.position = tap.position) :
    ∃ c', (s.handle [x]).session.arbiter = ⟨defaultRuleOutEvidence, [0]⟩ ∧
      (s.handle [x]).session.interactors = [c'] ∧ c'.Watches standard true [x] ∧ c'.id = 0 := by
  have kept : x.kind ≠ .move := by simp [pressed]
  obtain ⟨c', pool, contenders, watches', first'⟩ := mediate_pressed
    (watches.observeTouch (by decide) pointer (logLikelihood_corner place))
    (observeTouch_idle watches idle x) ((c.observeTouch_id x).trans first) pressed
    (logLikelihood_corner place) threshold_lt
  rw [← arbiter, ← forward_alone interactors x] at pool contenders
  rw [handle_alone interactors watches idle kept, Session.mediate_arbiter,
    Session.mediate_interactors]
  exact ⟨c', pool, contenders, watches', first'⟩

/-- A single element sees a press, is excluded by the host, and sees a tap: the tap is reported to
have made it the winner, and it is idle. -/
theorem followAll_alone {ν : Type} : ∃ s : Session EReal ν,
    Session.ofScene .default alone = .ok s ∧
      let excluded := s.followAll [.operate (.handle [press]), .command 0 .exclude]
      (excluded.step (.handle [tap])).outcome.bind MediationOutcome.determined = some 0 ∧
      ∃ c, (excluded.perform (.handle [tap])).interactors = [c] ∧ c.standing.status = .idle := by
  obtain ⟨s, c, built, arbiter, interactors, watches, idle, first⟩ := @ofScene_alone ν
  obtain ⟨c', pool, contenders, watches', first'⟩ :=
    handle_press (x := press) arbiter interactors watches idle first rfl rfl rfl
  obtain ⟨u, reached⟩ : ∃ u, u = s.followAll [.operate (.handle [press]), .command 0 .exclude] :=
    ⟨_, rfl⟩
  have excluded : u = (s.handle [press]).session.command 0 .exclude := reached
  have pool' : u.arbiter = ⟨defaultRuleOutEvidence, [0]⟩ := by
    rw [excluded, Session.command_arbiter, pool]
  have interactors' : u.interactors = [c'.exclude.1] := by
    rw [excluded, Session.command_interactors, contenders]
    rfl
  obtain ⟨d, named, contenders', idle'⟩ := mediate_stray
    (watches'.exclude.observeTouch (by decide) rfl (logLikelihood_corner (x := tap) rfl))
    (observeTouch_idle watches'.exclude c'.exclude_standing tap)
    ((c'.exclude.1.observeTouch_id tap).trans first') rfl (logLikelihood_corner rfl) threshold_lt
  have tapped := handle_alone interactors' watches'.exclude c'.exclude_standing
    (show tap.kind ≠ .move by decide)
  rw [← pool', ← forward_alone interactors' tap] at named contenders'
  refine ⟨s, built, ?_⟩
  rw [← reached]
  refine ⟨?_, d, ?_, idle'⟩
  · rw [Session.step, tapped, Session.mediate_outcome, Option.bind_some]
    exact named
  · rw [Session.perform, tapped, Session.mediate_interactors]
    exact contenders'

end Alone

end Twins

/-- The touches are reported to be won by an element that the host has excluded. -/
theorem stray_reported_as_winner : ∃ s : Session EReal Unit,
    Session.ofScene .default Twins.alone = .ok s ∧
      let excluded := s.followAll [.operate (.handle [Twins.press]), .command 0 .exclude]
      (excluded.step (.handle [Twins.tap])).outcome.bind MediationOutcome.determined = some 0 ∧
      ∀ b ∈ (excluded.perform (.handle [Twins.tap])).interactors,
        b.id = 0 → b.standing.status ≠ .determined := by
  obtain ⟨s, built, named, c, interactors, idle⟩ := @Twins.followAll_alone Unit
  refine ⟨s, built, named, fun b member _ => ?_⟩
  rw [interactors] at member
  obtain rfl := List.mem_singleton.1 member
  rw [idle]
  exact Status.noConfusion

theorem reported_winner_determined_iff_alone : ∃ s : Session EReal Unit,
    Session.ofScene .default Twins.alone = .ok s ∧
      let excluded := s.followAll [.operate (.handle [Twins.press]), .command 0 .exclude]
      (excluded.step (.handle [Twins.tap])).outcome.bind MediationOutcome.determined = some 0 ∧
      ∃ a ∈ excluded.interactors, ∃ b ∈ (excluded.perform (.handle [Twins.tap])).interactors,
        a.id = 0 ∧ b.id = 0 ∧ (b.isDetermined = true ↔
          ¬ (0 ∈ excluded.arbiter.candidates ∧ a.standing.status = .idle)) := by
  obtain ⟨s, built, named, -⟩ := @Twins.followAll_alone Unit
  exact ⟨s, built, named, reported_winner_determined_iff built _ named⟩

end TouchIntent
