import TouchIntent.Proofs.Arbiter.Claims

/-!
# The pool and the standings

The arbiter keeps the pool as a list of ids, and every interactor keeps its own standing. The two
*agree* if the pool lists candidates once each, and lists all of them. While timers run down and
while the pool settles there are members that have asked to leave; a round of mediation lets them go
or keeps them as plain candidates, so that afterwards the pool is exactly the candidates.
-/

namespace TouchIntent

variable {R ν : Type} [Scalar R]

namespace Interactor

/-- An interactor that is shown, and does not claim while it is idle. -/
structure AtEase (a : Interactor R ν) : Prop where
  visible : a.isHidden = false
  idle : a.standing.status = .idle → a.standing = .idle

/-- Another interactor of the same id that stands in the same place. -/
structure Alike (a b : Interactor R ν) : Prop where
  id_eq : b.id = a.id
  standing : b.standing = a.standing
  isHidden : b.isHidden = a.isHidden

/-- A steady change that makes no candidate of an interactor that was none. -/
structure Calm (a b : Interactor R ν) : Prop extends Steady a b where
  candidate : b.standing.status = .candidate → a.standing.status = .candidate
  atEase : a.AtEase → b.AtEase

variable {a b c : Interactor R ν}

omit [Scalar R] in
theorem Alike.calm (alike : a.Alike b) : a.Calm b where
  toSteady := .of_eq alike.id_eq alike.standing
  candidate plain := by rwa [alike.standing] at plain
  atEase ease := ⟨alike.isHidden.trans ease.visible, by
    rw [alike.standing]
    exact ease.idle⟩

omit [Scalar R] in
theorem Alike.trans (first : a.Alike b) (second : b.Alike c) : a.Alike c :=
  ⟨second.id_eq.trans first.id_eq, second.standing.trans first.standing,
    second.isHidden.trans first.isHidden⟩

omit [Scalar R] in
theorem Calm.trans (first : a.Calm b) (second : b.Calm c) : a.Calm c where
  toSteady := first.toSteady.trans second.toSteady
  candidate plain := first.candidate (second.candidate plain)
  atEase ease := second.atEase (first.atEase ease)

omit [Scalar R] in
theorem AtEase.of_idle (visible : a.isHidden = false) (idle : a.standing = .idle) : a.AtEase :=
  ⟨visible, fun _ => idle⟩

omit [Scalar R] in
theorem AtEase.of_busy (visible : a.isHidden = false) (busy : a.standing.status ≠ .idle) :
    a.AtEase :=
  ⟨visible, fun idle => absurd idle busy⟩

variable (a)

omit [Scalar R] in
theorem alike_refl : a.Alike a := ⟨rfl, rfl, rfl⟩

omit [Scalar R] in
theorem calm_refl : a.Calm a := a.alike_refl.calm

@[simp] theorem granted_isHidden : a.granted.isHidden = a.isHidden := by
  unfold granted grantSelfExclusion
  simp only
  split <;> rfl

@[simp] theorem afterRules_isHidden : a.afterRules.isHidden = a.isHidden := by
  unfold afterRules updateRules
  simp only
  split <;> rfl

@[simp] theorem timeOut_isHidden : a.timeOut.1.isHidden = a.isHidden := by
  unfold timeOut selfExclude
  split <;> rfl

@[simp] theorem reset_isHidden : a.reset.isHidden = a.isHidden := by
  unfold reset
  split <;> rfl

variable {a}

/-- A sample leaves an interactor that is shown where it stands. -/
theorem AtEase.alike_observeTouch (ease : a.AtEase) (sample : Sample R) :
    a.Alike (a.observeTouch sample) where
  id_eq := a.observeTouch_id sample
  standing := by simp [observeTouch_standing, ease.visible]
  isHidden := by
    unfold observeTouch
    rw [ease.visible, if_neg Bool.false_ne_true]
    rfl

variable (a)

theorem timeOut_standing : a.timeOut.1.standing =
    if a.standing.status = .idle then .idle else { a.standing with status := .selfExcluded } :=
  selfExclude_standing _

theorem calm_timeOut : a.Calm a.timeOut.1 where
  toSteady := a.steady_timeOut
  candidate plain := by
    rw [timeOut_standing] at plain
    split at plain <;> cases plain
  atEase ease := by
    by_cases idle : a.standing.status = .idle
    · exact .of_idle (a.timeOut_isHidden.trans ease.visible) (by rw [timeOut_standing, if_pos idle])
    · refine .of_busy (a.timeOut_isHidden.trans ease.visible) ?_
      rw [timeOut_standing, if_neg idle]
      exact Status.noConfusion

end Interactor

omit [Scalar R] in
instance : IsTrans (Interactor R ν) Interactor.Alike := ⟨fun _ _ _ => Interactor.Alike.trans⟩

omit [Scalar R] in
instance : IsTrans (Interactor R ν) Interactor.Calm := ⟨fun _ _ _ => Interactor.Calm.trans⟩

namespace Arbiter

/-- The members of the pool are known, listed once, and stand where members may stand; and every
candidate is a member. -/
structure Agrees (pool : List InteractorId) (cs : List (Interactor R ν)) : Prop
    extends Orderly pool cs where
  distinct : pool.Nodup
  known : pool ⊆ cs.map Interactor.id
  listed : ∀ c ∈ cs, c.standing.status = .candidate → c.id ∈ pool

/-- The pool is exactly the candidates, nobody waits to be let go, and nobody but the winner still
claims. -/
structure Consistent (pool : List InteractorId) (cs : List (Interactor R ν)) : Prop
    extends Agrees pool cs where
  loyal : ∀ c ∈ cs, c.standing.status ≠ .selfExcluded
  claiming : ∀ c ∈ cs, c.isClaiming = true → c.isDetermined = true
  visible : ∀ c ∈ cs, c.isHidden = false

variable {pool : List InteractorId} {cs cs' : List (Interactor R ν)}

omit [Scalar R] in
theorem Agrees.calm (agrees : Agrees pool cs) (all : List.Forall₂ Interactor.Calm cs cs') :
    Agrees pool cs' where
  toOrderly := agrees.toOrderly.steady (all.imp fun _ _ calm => calm.toSteady)
  distinct := agrees.distinct
  known := by
    rw [map_id_eq (all.imp fun _ _ calm => calm.toTame)]
    exact agrees.known
  listed := by
    intro c' member plain
    obtain ⟨c, source, calm⟩ := exists_source all c' member
    rw [calm.id_eq]
    exact agrees.listed c source (calm.candidate plain)

omit [Scalar R] in
theorem atEase_of_calm (ease : ∀ c ∈ cs, c.AtEase) (all : List.Forall₂ Interactor.Calm cs cs') :
    ∀ c ∈ cs', c.AtEase := by
  intro c' member
  obtain ⟨c, source, calm⟩ := exists_source all c' member
  exact calm.atEase (ease c source)

omit [Scalar R] in
theorem Consistent.atEase (consistent : Consistent pool cs) : ∀ c ∈ cs, c.AtEase := by
  intro c member
  refine ⟨consistent.visible c member, fun idle => ?_⟩
  have silent : c.isClaiming = false := by
    rw [Bool.eq_false_iff]
    intro claims
    have won := c.isDetermined_iff.1 (consistent.claiming c member claims)
    rw [idle] at won
    cases won
  have stands : c.standing = ⟨c.standing.status, c.isClaiming⟩ := rfl
  rw [stands, idle, silent]
  rfl

omit [Scalar R] in
theorem Consistent.alike (consistent : Consistent pool cs)
    (all : List.Forall₂ Interactor.Alike cs cs') : Consistent pool cs' where
  toAgrees := consistent.toAgrees.calm (all.imp fun _ _ alike => alike.calm)
  loyal := by
    intro c' member
    obtain ⟨c, source, alike⟩ := exists_source all c' member
    rw [alike.standing]
    exact consistent.loyal c source
  claiming := by
    intro c' member claims
    obtain ⟨c, source, alike⟩ := exists_source all c' member
    rw [Interactor.isClaiming, alike.standing] at claims
    rw [Interactor.isDetermined, alike.standing]
    exact consistent.claiming c source claims
  visible := by
    intro c' member
    obtain ⟨c, source, alike⟩ := exists_source all c' member
    exact alike.isHidden.trans (consistent.visible c source)

omit [Scalar R] in
/-- Who is in the pool: the candidates. -/
theorem Consistent.mem_iff (consistent : Consistent pool cs) {id : InteractorId} :
    id ∈ pool ↔ ∃ c ∈ cs, c.id = id ∧ c.standing.status = .candidate := by
  constructor
  · intro inPool
    obtain ⟨c, member, rfl⟩ := List.mem_map.1 (consistent.known inPool)
    refine ⟨c, member, rfl, ?_⟩
    have pooled := consistent.pooled c member inPool
    have loyal := consistent.loyal c member
    cases status : c.standing.status with
    | candidate => rfl
    | selfExcluded => exact absurd status loyal
    | idle | determined =>
      rw [status] at pooled
      cases pooled
  · rintro ⟨c, member, rfl, plain⟩
    exact consistent.listed c member plain

/-- Nothing is left open about an interactor: it has won, or is idle and claims nothing. -/
structure IsResolved (c : Interactor R ν) : Prop where
  visible : c.isHidden = false
  standing : c.isDetermined = true ∨ c.standing = .idle

omit [Scalar R] in
/-- With an empty pool, it is enough that everyone is resolved. -/
theorem consistent_nil (ids : (cs.map Interactor.id).Nodup)
    (resolved : ∀ c ∈ cs, IsResolved c) : Consistent [] cs where
  ids := ids
  pooled _ _ inPool := absurd inPool List.not_mem_nil
  distinct := List.nodup_nil
  known := List.nil_subset _
  listed c member plain := by
    rcases (resolved c member).standing with won | idle
    · rw [c.isDetermined_iff.1 won] at plain
      cases plain
    · rw [idle] at plain
      cases plain
  loyal c member leaves := by
    rcases (resolved c member).standing with won | idle
    · rw [c.isDetermined_iff.1 won] at leaves
      cases leaves
    · rw [idle] at leaves
      cases leaves
  claiming c member claims := by
    rcases (resolved c member).standing with won | idle
    · exact won
    · rw [Interactor.isClaiming, idle] at claims
      cases claims
  visible c member := (resolved c member).visible

/-! ## Settling the pool -/

theorem nodup_updatePool {candidates : List InteractorId} (distinct : candidates.Nodup)
    (leaving joining : List InteractorId) : (updatePool candidates leaving joining).Nodup := by
  have joined : ∀ pool : List InteractorId, pool.Nodup →
      (joining.foldl (fun pool id => if id ∈ pool then pool else pool ++ [id]) pool).Nodup := by
    induction joining with
    | nil => exact fun pool distinct => distinct
    | cons id rest ih =>
      intro pool distinct
      rw [List.foldl_cons]
      refine ih _ ?_
      split
      · exact distinct
      · next fresh => exact List.nodup_append_comm.1 (List.nodup_cons.2 ⟨fresh, distinct⟩)
  exact joined _ (distinct.filter _)

section Refresh

variable {m : Round R ν} {grants : Bool}

@[simp] theorem appraisal_isHidden (a : Arbiter R) (grants : Bool) (c : Interactor R ν) :
    (a.appraisal grants c).contender.isHidden = c.isHidden := by
  rw [appraisal_eq]
  split_ifs
  · exact c.granted_isHidden
  · rfl
  · rfl
  · rfl
  · rfl

theorem atEase_appraisal {c : Interactor R ν} (ease : c.AtEase) (a : Arbiter R) (grants : Bool) :
    (a.appraisal grants c).contender.AtEase := by
  have visible := (a.appraisal_isHidden grants c).trans ease.visible
  obtain ⟨-, -, -, idle⟩ | ⟨-, -, -, idle⟩ | ⟨-, -, -, -, after⟩ | ⟨-, idle, -, after⟩ |
    ⟨-, after, -⟩ := a.appraisal_cases grants c
  · exact .of_idle visible idle
  · exact .of_idle visible idle
  · refine .of_busy visible ?_
    rw [after]
    exact Status.noConfusion
  · exact .of_idle visible (after.trans (ease.idle idle))
  · rw [after]
    exact ease

theorem Agrees.refresh (agrees : Agrees m.arbiter.candidates m.contenders) (grants : Bool) :
    Agrees (refresh grants m).1.arbiter.candidates (refresh grants m).1.contenders where
  toOrderly := (agrees.toOrderly.refresh grants).1
  distinct := by
    rw [refresh_candidates]
    exact nodup_updatePool agrees.distinct _ _
  known := by
    intro id inPool
    rw [map_id_eq (refresh_tame grants m)]
    rw [refresh_candidates] at inPool
    rcases mem_updatePool.1 inPool with ⟨inPool, -⟩ | joins
    · exact agrees.known inPool
    · obtain ⟨x, promoted, rfl⟩ := List.mem_map.1 joins
      obtain ⟨c, source, rfl⟩ := List.mem_map.1 (List.mem_filter.1 promoted).1
      rw [Interactor.contender_id, appraisal_id]
      exact List.mem_map_of_mem source
  listed := by
    intro c' member plain
    rw [refresh_contenders] at member
    obtain ⟨c, source, rfl⟩ := List.mem_map.1 member
    rw [appraisal_id, mem_refresh_candidates agrees.ids source]
    obtain ⟨-, -, -, after⟩ | ⟨-, -, -, after⟩ | ⟨verdict, -⟩ | ⟨-, idle, -, after⟩ |
      ⟨verdict, after, -⟩ := m.arbiter.appraisal_cases grants c
    · rw [after] at plain
      cases plain
    · rw [after] at plain
      cases plain
    · exact .inr verdict
    · rw [after, idle] at plain
      cases plain
    · rw [after] at plain
      exact .inl ⟨agrees.listed c source plain, by rw [verdict]; rfl⟩

/-- After a refresh that grants the wishes to leave, nobody has one. -/
theorem loyal_refresh (m : Round R ν) :
    ∀ c ∈ (Arbiter.refresh true m).1.contenders, c.standing.status ≠ .selfExcluded := by
  intro c' member leaves
  rw [refresh_contenders] at member
  obtain ⟨c, -, rfl⟩ := List.mem_map.1 member
  obtain ⟨-, -, -, after⟩ | ⟨-, -, -, after⟩ | ⟨-, -, -, -, after⟩ | ⟨-, idle, -, after⟩ |
    ⟨-, after, stays, -⟩ := m.arbiter.appraisal_cases true c
  · rw [after] at leaves
    cases leaves
  · rw [after] at leaves
    cases leaves
  · rw [after] at leaves
    cases leaves
  · rw [after, idle] at leaves
    cases leaves
  · rw [after] at leaves
    exact stays rfl leaves

end Refresh

/-- The pool goes on agreeing while its members evaluate their rules. -/
theorem Agrees.updateRules {m : Round R ν}
    (agrees : Agrees m.arbiter.candidates m.contenders) :
    Agrees m.arbiter.candidates (updateRules m).contenders where
  toOrderly := agrees.toOrderly.steady (updateRules_steady m)
  distinct := agrees.distinct
  known := by
    rw [map_id_eq ((updateRules_steady m).imp fun _ _ steady => steady.toTame)]
    exact agrees.known
  listed := by
    intro c' member plain
    rw [updateRules_contenders] at member
    obtain ⟨c, source, rfl⟩ := List.mem_map.1 member
    by_cases inPool : c.id ∈ m.arbiter.candidates
    · simp [inPool]
    · simp only [if_neg inPool] at plain ⊢
      exact agrees.listed c source plain

/-- Evaluating their rules does not make the members of the pool idle. -/
theorem atEase_updateRules {m : Round R ν}
    (orderly : Orderly m.arbiter.candidates m.contenders) (ease : ∀ c ∈ m.contenders, c.AtEase) :
    ∀ c ∈ (updateRules m).contenders, c.AtEase := by
  intro c' member
  rw [updateRules_contenders] at member
  obtain ⟨c, source, rfl⟩ := List.mem_map.1 member
  have atEase := ease c source
  by_cases inPool : c.id ∈ m.arbiter.candidates
  · rw [if_pos inPool]
    refine .of_busy (c.afterRules_isHidden.trans atEase.visible) fun idle => ?_
    have pooled := c.steady_afterRules.pooled (orderly.pooled c source inPool)
    rw [idle] at pooled
    cases pooled
  · rw [if_neg inPool]
    exact atEase

/-- What a refresh, the sharing out and the rules preserve holds of the settled pool. -/
theorem of_settling (inv : List InteractorId → List (Interactor R ν) → Prop) {a : Arbiter R}
    {queue : TaskQueue} (start : inv a.candidates cs)
    (refreshed : ∀ (grants : Bool) (m : Round R ν),
      inv m.arbiter.candidates m.contenders →
        inv (refresh grants m).1.arbiter.candidates (refresh grants m).1.contenders)
    (shared : ∀ (a : Arbiter R) (cs : List (Interactor R ν)),
      inv a.candidates cs → inv a.candidates (a.shareOut cs))
    (ruled : ∀ m : Round R ν,
      inv m.arbiter.candidates m.contenders → inv m.arbiter.candidates (updateRules m).contenders) :
    inv (a.settling cs queue).1.arbiter.candidates (a.settling cs queue).1.contenders := by
  let m : Round R ν := (refresh false ⟨a, cs, queue, {}, []⟩).1
  have first : inv m.arbiter.candidates m.contenders := refreshed false _ start
  have second := ruled { m with contenders := m.arbiter.shareOut m.contenders } (shared _ _ first)
  exact refreshed true _ second

theorem calm_shareOut (a : Arbiter R) (cs : List (Interactor R ν)) :
    List.Forall₂ Interactor.Calm cs (a.shareOut cs) :=
  forall₂_shareOut (fun _ _ => Interactor.Alike.calm ⟨rfl, rfl, rfl⟩) a cs

theorem Agrees.settling {a : Arbiter R} (agrees : Agrees a.candidates cs) (queue : TaskQueue) :
    Agrees (a.settling cs queue).1.arbiter.candidates (a.settling cs queue).1.contenders :=
  of_settling Agrees agrees (fun grants _ agrees => agrees.refresh grants)
    (fun a cs agrees => agrees.calm (calm_shareOut a cs)) fun _ agrees => agrees.updateRules

theorem atEase_settling {a : Arbiter R} (agrees : Agrees a.candidates cs)
    (ease : ∀ c ∈ cs, c.AtEase) (queue : TaskQueue) :
    ∀ c ∈ (a.settling cs queue).1.contenders, c.AtEase := by
  refine (of_settling (fun pool cs => Agrees pool cs ∧ ∀ c ∈ cs, c.AtEase) ⟨agrees, ease⟩
    ?_ ?_ ?_).2
  · rintro grants m ⟨agrees, ease⟩
    refine ⟨agrees.refresh grants, fun c' member => ?_⟩
    rw [refresh_contenders] at member
    obtain ⟨c, source, rfl⟩ := List.mem_map.1 member
    exact atEase_appraisal (ease c source) _ _
  · rintro a cs ⟨agrees, ease⟩
    exact ⟨agrees.calm (calm_shareOut a cs), atEase_of_calm ease (calm_shareOut a cs)⟩
  · rintro m ⟨agrees, ease⟩
    exact ⟨agrees.updateRules, atEase_updateRules agrees.toOrderly ease⟩

/-! ## Settling the claims -/

section Resolved

variable {c : Interactor R ν}

omit [Scalar R] in
/-- An interactor that is neither a candidate nor waits to be let go. -/
theorem isResolved_of_outside (ease : c.AtEase) (loyal : c.standing.status ≠ .selfExcluded)
    (outside : c.standing.status ≠ .candidate) : IsResolved c := by
  refine ⟨ease.visible, ?_⟩
  cases status : c.standing.status with
  | idle => exact .inr (ease.idle status)
  | candidate => exact absurd status outside
  | determined => exact .inl (c.isDetermined_iff.2 status)
  | selfExcluded => exact absurd status loyal

omit [Scalar R] in
theorem isResolved_determine (ease : c.AtEase) (loyal : c.standing.status ≠ .selfExcluded) :
    IsResolved c.determine.1 := by
  have after := c.determine_standing
  refine ⟨ease.visible, ?_⟩
  by_cases plain : c.standing.status = .candidate
  · rw [if_pos plain] at after
    exact .inl (c.determine.1.isDetermined_iff.2 (by rw [after]))
  · rw [if_neg plain] at after
    rw [Interactor.isDetermined, after]
    exact (isResolved_of_outside ease loyal plain).standing

theorem isResolved_exclude (ease : c.AtEase) : IsResolved c.exclude.1 :=
  ⟨ease.visible, .inr c.exclude_standing⟩

end Resolved

/-- A round of mediation makes the pool consistent. -/
theorem consistent_mediate {a : Arbiter R} (agrees : Agrees a.candidates cs)
    (ease : ∀ c ∈ cs, c.AtEase) (queue : TaskQueue) :
    Consistent (a.mediate cs queue).arbiter.candidates (a.mediate cs queue).contenders := by
  have settled := agrees.settling queue
  have ease := atEase_settling agrees ease queue
  have loyal : ∀ c ∈ (a.settling cs queue).1.contenders, c.standing.status ≠ .selfExcluded :=
    loyal_refresh _
  rw [mediate_eq]
  generalize a.settling cs queue = m at *
  split
  · next silent =>
    refine ⟨settled, loyal, fun c member claims => ?_, fun c member => (ease c member).visible⟩
    -- Nobody in the pool claims, and everyone else has won or is idle.
    have outside : c.standing.status ≠ .candidate := by
      intro plain
      have inPool := settled.listed c member plain
      have claimer := (mem_claimers settled.ids member).2 ⟨inPool, claims⟩
      rw [silent] at claimer
      cases claimer
    rcases (isResolved_of_outside (ease c member) (loyal c member) outside).standing with
      won | idle
    · exact won
    · rw [Interactor.isClaiming, idle] at claims
      cases claims
  · next claimer _ =>
    obtain ⟨ids, emptied, -⟩ := settleClaim_spec settled.ids claimer
    rw [emptied]
    refine consistent_nil (ids ▸ settled.ids) fun c' member => ?_
    rw [settleClaim_contenders settled.ids settled.distinct claimer] at member
    obtain ⟨c, source, rfl⟩ := List.mem_map.1 member
    split_ifs with wins inPool
    · exact isResolved_determine (ease c source) (loyal c source)
    · exact isResolved_exclude (ease c source)
    · exact isResolved_of_outside (ease c source) (loyal c source)
        fun plain => inPool (settled.listed c source plain)
  · obtain ⟨ids, emptied, -⟩ := settleClaims_spec (m := m.1) m.2
    rw [emptied]
    refine consistent_nil (ids ▸ settled.ids) fun c' member => ?_
    rw [settleClaims_contenders] at member
    obtain ⟨c, source, rfl⟩ := List.mem_map.1 member
    split_ifs
    · exact isResolved_determine (ease c source) (loyal c source)
    · exact isResolved_exclude (ease c source)

end Arbiter

end TouchIntent
