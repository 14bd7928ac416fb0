import TouchIntent.Arbiter

/-!
# What commands do to a standing

Every operation on an interactor changes its standing by commands only, and never its id. The
lemmas of this module say into which standing each operation leads. An operation is *tame* if it
makes no winner of an interactor that was none, and *steady* if moreover it leaves a member of the
pool in a standing that members of the pool may have.
-/

namespace TouchIntent

variable {R ν : Type}

namespace Standing

variable (s : Standing)

@[simp] theorem apply_exclude : (s.apply .exclude).after = .idle := by
  rcases s with ⟨_ | _ | _ | _, claiming⟩ <;> rfl

/-- Whoever is excluded leaves the pool, unless it was idle. -/
theorem leavesPool_exclude : (s.apply .exclude).leavesPool = s.isCandidate := by
  rcases s with ⟨_ | _ | _ | _, claiming⟩ <;> rfl

theorem apply_promote :
    (s.apply .promote).after = if s.status = .idle then { s with status := .candidate } else s := by
  rcases s with ⟨_ | _ | _ | _, claiming⟩ <;> rfl

theorem apply_determine :
    (s.apply .determine).after =
      if s.status = .candidate then { s with status := .determined } else s := by
  rcases s with ⟨_ | _ | _ | _, claiming⟩ <;> rfl

theorem apply_selfExclude :
    (s.apply .selfExclude).after =
      if s.status = .idle then s else { s with status := .selfExcluded } := by
  rcases s with ⟨_ | _ | _ | _, claiming⟩ <;> rfl

theorem apply_grantSelfExclusion :
    (s.apply .grantSelfExclusion).after = if s.status = .selfExcluded then .idle else s := by
  rcases s with ⟨_ | _ | _ | _, claiming⟩ <;> rfl

theorem apply_claim :
    (s.apply .claim).after =
      if s.status = .determined then s
      else ⟨if s.status = .selfExcluded then .candidate else s.status, true⟩ := by
  rcases s with ⟨_ | _ | _ | _, claiming⟩ <;> rfl

end Standing

/-- The standings that a member of the pool may have. -/
def Status.isPooled : Status → Bool
  | candidate | selfExcluded => true
  | idle | determined => false

namespace Interactor

variable [Scalar R] (a : Interactor R ν)

omit [Scalar R] in
theorem isDetermined_iff : a.isDetermined = true ↔ a.standing.status = .determined := by
  simp [isDetermined]

/-! ## What becomes of an interactor, apart from the queue

No operation lets what becomes of an interactor depend on the flags in the queue. -/

/-- The interactor after its rules were evaluated. -/
def afterRules : Interactor R ν := (a.updateRules {}).1

theorem updateRules_fst (queue : TaskQueue) : (a.updateRules queue).1 = a.afterRules := by
  unfold afterRules updateRules
  simp only
  split <;> rfl

theorem updateRules_firings (queue : TaskQueue) :
    (a.updateRules queue).2.2 = (a.rulebook.update a.views).firings := by
  unfold updateRules
  simp only
  split <;> rfl

/-- The interactor after it was granted its wish to leave. -/
def granted : Interactor R ν := (a.grantSelfExclusion.1.withdrawSelfExclusion {}).1

/-! ## Ids and standings -/

@[simp] theorem resetReasoning_standing : a.resetReasoning.standing = a.standing := rfl

@[simp] theorem exclude_id : a.exclude.1.id = a.id := rfl

@[simp] theorem exclude_standing : a.exclude.1.standing = .idle := a.standing.apply_exclude

omit [Scalar R] in
theorem promote_standing :
    a.promote.1.standing =
      if a.standing.status = .idle then { a.standing with status := .candidate }
      else a.standing := a.standing.apply_promote

omit [Scalar R] in
theorem determine_standing :
    a.determine.1.standing =
      if a.standing.status = .candidate then { a.standing with status := .determined }
      else a.standing := a.standing.apply_determine

@[simp] theorem grantSelfExclusion_id : a.grantSelfExclusion.1.id = a.id := by
  unfold grantSelfExclusion
  simp only
  split <;> rfl

theorem grantSelfExclusion_standing :
    a.grantSelfExclusion.1.standing =
      if a.standing.status = .selfExcluded then .idle else a.standing := by
  rw [← Standing.apply_grantSelfExclusion]
  unfold grantSelfExclusion
  simp only
  split <;> rfl

@[simp] theorem selfExclude_id : a.selfExclude.1.id = a.id := by
  unfold selfExclude
  split <;> rfl

theorem selfExclude_standing :
    a.selfExclude.1.standing =
      if a.standing.status = .idle then .idle
      else { a.standing with status := .selfExcluded } := by
  unfold selfExclude
  split
  · exact a.exclude_standing
  · next busy =>
    have standing := a.standing.apply_selfExclude
    rw [if_neg busy] at standing
    exact standing

@[simp] theorem reset_id : a.reset.id = a.id := by
  unfold reset
  split <;> rfl

@[simp] theorem reset_standing : a.reset.standing = .idle := by
  unfold reset
  split
  · exact a.standing.apply_exclude
  · next settled =>
    rw [resetReasoning_standing]
    rcases h : a.standing with ⟨_ | _ | _ | _, _ | _⟩ <;>
      simp_all [isCandidate, isClaiming, Standing.isCandidate, Standing.idle]

@[simp] theorem observeTouch_id (sample : Sample R) : (a.observeTouch sample).id = a.id := by
  unfold observeTouch
  split
  · split
    · exact a.selfExclude_id
    · exact a.reset_id
  · rfl

/-- A sample changes the standing of hidden interactors only. -/
theorem observeTouch_standing (sample : Sample R) :
    (a.observeTouch sample).standing =
      if a.isHidden then
        if a.isCandidate then { a.standing with status := .selfExcluded } else .idle
      else a.standing := by
  unfold observeTouch
  split
  · split
    · next busy =>
      have notIdle : ¬ a.standing.status = .idle := by
        simpa [isCandidate, Standing.isCandidate] using busy
      rw [selfExclude_standing, if_neg notIdle]
    · exact a.reset_standing
  · rfl

@[simp] theorem afterRules_id : a.afterRules.id = a.id := by
  unfold afterRules updateRules
  simp only
  split <;> rfl

/-- After its rules were evaluated, an interactor stands where it stood, or has claimed. -/
theorem afterRules_standing :
    a.afterRules.standing = a.standing ∨
      a.afterRules.standing = (a.standing.apply .claim).after := by
  unfold afterRules updateRules
  simp only
  split
  · exact .inr rfl
  · exact .inl rfl

@[simp] theorem timeOut_id : a.timeOut.1.id = a.id := selfExclude_id _

/-! ## Tame and steady changes -/

/-- `b` is `a` after a change that does not make a winner of it. -/
structure Tame (a b : Interactor R ν) : Prop where
  id_eq : b.id = a.id
  determined : b.standing.status = .determined → a.standing.status = .determined

/-- A tame change that leaves a member of the pool where a member of the pool may stand. -/
structure Steady (a b : Interactor R ν) : Prop extends Tame a b where
  pooled : a.standing.status.isPooled = true → b.standing.status.isPooled = true

variable {a} {b c : Interactor R ν}

omit [Scalar R] in
theorem Tame.trans (first : Tame a b) (second : Tame b c) : Tame a c :=
  ⟨second.id_eq.trans first.id_eq, fun won => first.determined (second.determined won)⟩

omit [Scalar R] in
theorem Steady.trans (first : Steady a b) (second : Steady b c) : Steady a c :=
  ⟨first.toTame.trans second.toTame, fun pooled => second.pooled (first.pooled pooled)⟩

omit [Scalar R] in
/-- A change of anything but id and standing is steady. -/
theorem Steady.of_eq (id_eq : b.id = a.id) (standing : b.standing = a.standing) : Steady a b :=
  ⟨⟨id_eq, fun won => by rwa [standing] at won⟩, fun pooled => by rwa [standing]⟩

omit [Scalar R] in
theorem Tame.of_idle (id_eq : b.id = a.id) (idle : b.standing.status = .idle) : Tame a b :=
  ⟨id_eq, fun won => by simp [idle] at won⟩

variable (a)

omit [Scalar R] in
theorem steady_refl : Steady a a := .of_eq rfl rfl

theorem steady_selfExclude : Steady a a.selfExclude.1 := by
  refine ⟨⟨a.selfExclude_id, fun won => ?_⟩, fun pooled => ?_⟩
  · rw [selfExclude_standing] at won
    split at won <;> cases won
  · rw [selfExclude_standing]
    split
    · next idle =>
      rw [idle] at pooled
      cases pooled
    · rfl

theorem steady_observeTouch (sample : Sample R) : Steady a (a.observeTouch sample) := by
  refine ⟨⟨a.observeTouch_id sample, fun won => ?_⟩, fun pooled => ?_⟩
  · rw [observeTouch_standing] at won
    split at won
    · split at won <;> cases won
    · exact won
  · rw [observeTouch_standing]
    split
    · split
      · rfl
      · next idle =>
        simp only [isCandidate, Standing.isCandidate, bne_iff_ne, ne_eq, Decidable.not_not] at idle
        rw [idle] at pooled
        cases pooled
    · exact pooled

theorem steady_afterRules : Steady a a.afterRules := by
  have claimed := a.standing.apply_claim
  rcases a.afterRules_standing with standing | standing
  · exact .of_eq a.afterRules_id standing
  · refine ⟨⟨a.afterRules_id, fun won => ?_⟩, fun pooled => ?_⟩
    · rw [standing, claimed] at won
      cases status : a.standing.status <;> simp [status] at won
      rfl
    · rw [standing, claimed]
      cases status : a.standing.status <;> simp_all [Status.isPooled]

theorem steady_timeOut : Steady a a.timeOut.1 :=
  (Steady.of_eq rfl rfl : Steady a { a with timer := none }).trans (steady_selfExclude _)

theorem tame_reset : Tame a a.reset := .of_idle a.reset_id (by rw [reset_standing]; rfl)

theorem tame_exclude : Tame a a.exclude.1 := .of_idle rfl (by rw [exclude_standing]; rfl)

end Interactor

end TouchIntent
