import Mathlib
import TouchIntent.Proofs.Arbiter.Ledger
import TouchIntent.Proofs.Arbiter.Reordering
import TouchIntent.Proofs.Numeric.Softmax

/-!
# Sharing out the evidence of the pool

The members of the pool are told their shares between the two refreshes of a round. The first
refresh decides who shares: the members of the pool and the idle, if their evidence reaches the
threshold. The second one lets go those who have asked to leave, and they take their shares with
them, since nobody is told anew. So where some share and leave, those who stay are left with what
the softmax gave them among all.
-/

namespace TouchIntent.Arbiter

open Scalar

section Sharers

variable {R ν : Type} [Scalar R]

/-- The evidence of a contender entitles it to a share in this round. -/
def Entitles (a : Arbiter R) (c : Interactor R ν) : Prop :=
  a.threshold ≤ evidenceOf c ∧ (c.id ∈ a.candidates ∨ c.standing.status = .idle)

instance (a : Arbiter R) (c : Interactor R ν) : Decidable (a.Entitles c) :=
  inferInstanceAs (Decidable (_ ∧ _))

/-- Those to whom the evidence is shared out in a round of mediation. -/
def sharers (a : Arbiter R) (cs : List (Interactor R ν)) : List (Interactor R ν) :=
  cs.filter fun c => a.Entitles c

/-- Those to whom the evidence is shared out and who do not ask to leave. -/
def remaining (a : Arbiter R) (cs : List (Interactor R ν)) : List (Interactor R ν) :=
  (a.sharers cs).filter fun c => c.standing.status ≠ .selfExcluded

/-- The round after its first refresh, when the evidence is shared out. -/
def sharing (a : Arbiter R) (cs : List (Interactor R ν)) (queue : TaskQueue) : Round R ν :=
  (refresh false ⟨a, cs, queue, {}, []⟩).1

/-- The round before its second refresh. -/
def shared (a : Arbiter R) (cs : List (Interactor R ν)) (queue : TaskQueue) : Round R ν :=
  updateRules { a.sharing cs queue with
    contenders := (a.sharing cs queue).arbiter.shareOut (a.sharing cs queue).contenders }

theorem settling_eq (a : Arbiter R) (cs : List (Interactor R ν)) (queue : TaskQueue) :
    (a.settling cs queue).1 = (refresh true (a.shared cs queue)).1 := rfl

omit [Scalar R] in
theorem Orderly.not_mem_of_idle {pool : List InteractorId} {cs : List (Interactor R ν)}
    (orderly : Orderly pool cs) {c : Interactor R ν} (member : c ∈ cs)
    (idle : c.standing.status = .idle) : c.id ∉ pool := by
  intro inPool
  have pooled := orderly.pooled c member inPool
  rw [idle] at pooled
  cases pooled

omit [Scalar R] in
/-- The pool, as the contenders that are in it. -/
theorem perm_contestants {m : Round R ν}
    (agrees : Agrees m.arbiter.candidates m.contenders) :
    m.arbiter.candidates.Perm ((contestants m).map Interactor.id) := by
  refine (List.perm_ext_iff_of_nodup agrees.distinct
    (agrees.ids.sublist (List.filter_sublist.map _))).2 fun id => ?_
  rw [List.mem_map]
  constructor
  · intro inPool
    obtain ⟨c, member, rfl⟩ := List.mem_map.1 (agrees.known inPool)
    exact ⟨c, mem_contestants.2 ⟨member, inPool⟩, rfl⟩
  · rintro ⟨c, contestant, rfl⟩
    exact (mem_contestants.1 contestant).2

/-- A claim empties the pool. -/
theorem mediate_of_occupied {a : Arbiter R} {cs : List (Interactor R ν)} {queue : TaskQueue}
    (ids : ((a.settling cs queue).1.contenders.map Interactor.id).Nodup)
    (occupied : (a.mediate cs queue).arbiter.candidates ≠ []) :
    claimers (a.settling cs queue).1 = [] ∧ a.mediate cs queue = (a.settling cs queue).1 := by
  rw [mediate_eq] at occupied ⊢
  split at occupied
  · next silent => exact ⟨silent, rfl⟩
  · next claimer _ =>
    rw [(settleClaim_spec ids claimer).2.1] at occupied
    exact absurd rfl occupied
  · rw [(settleClaims_spec _).2.1] at occupied
    exact absurd rfl occupied

end Sharers

section Exact

variable {ν : Type} {a : Arbiter EReal} {cs : List (Interactor EReal ν)} {queue : TaskQueue}
  {c d : Interactor EReal ν}

/-- After the first refresh the contender `c` is `d`: in the pool, with the same evidence, if it is
entitled to a share, and otherwise without the evidence to join the pool later on. -/
structure Enters (a : Arbiter EReal) (pool : List InteractorId) (c d : Interactor EReal ν) :
    Prop where
  id_eq : d.id = c.id
  inside : a.Entitles c → d.id ∈ pool ∧ evidenceOf d = evidenceOf c ∧
    (d.standing.status = .selfExcluded ↔ c.standing.status = .selfExcluded)
  outside : ¬ a.Entitles c → d.id ∉ pool ∧
    (d.standing.status = .idle → evidenceOf d < a.threshold)

/-- What the first refresh does to a contender that is idle. -/
theorem appraisal_idle (idle : c.standing.status = .idle) (outside : c.id ∉ a.candidates) :
    a.appraisal false c = if a.threshold ≤ evidenceOf c then ⟨c.promote.1, .promoted, evidenceOf c⟩
      else ⟨c.resetObservations, .starved, evidenceOf c⟩ := by
  have noCandidate : c.isCandidate = false := by
    rw [Interactor.isCandidate, Standing.isCandidate, idle]
    rfl
  by_cases enough : a.threshold ≤ evidenceOf c
  · simp [appraisal_eq, noCandidate, outside, enough]
  · simp [appraisal_eq, noCandidate, outside, enough, not_le.1 enough]

/-- What the first refresh does to a contender that is not idle. -/
theorem appraisal_busy (busy : c.standing.status ≠ .idle) :
    a.appraisal false c = if a.threshold ≤ evidenceOf c then ⟨c, .kept, evidenceOf c⟩
      else ⟨c.exclude.1, .excluded, evidenceOf c⟩ := by
  have candidate : c.isCandidate = true := by
    simpa [Interactor.isCandidate, Standing.isCandidate] using busy
  by_cases enough : a.threshold ≤ evidenceOf c
  · simp [appraisal_eq, candidate, enough, enough.not_gt]
  · simp [appraisal_eq, candidate, enough, not_le.1 enough]

theorem enters_appraisal (agrees : Agrees a.candidates cs) (member : c ∈ cs) :
    Enters a (a.sharing cs queue).arbiter.candidates c (a.appraisal false c).contender := by
  have joins : (a.appraisal false c).contender.id ∈ (a.sharing cs queue).arbiter.candidates ↔
      c.id ∈ a.candidates ∧ (a.appraisal false c).verdict.leavesPool = false ∨
        (a.appraisal false c).verdict = .promoted := by
    rw [appraisal_id]
    exact mem_refresh_candidates (m := ⟨a, cs, queue, {}, []⟩) agrees.ids member
  refine ⟨a.appraisal_id false c, fun entitled => ?_, fun barred => ?_⟩
  · rw [joins]
    by_cases idle : c.standing.status = .idle
    · rw [appraisal_idle idle (agrees.not_mem_of_idle member idle), if_pos entitled.1]
      refine ⟨.inr rfl, rfl, ?_⟩
      simp [c.promote_standing, idle]
    · rw [appraisal_busy idle, if_pos entitled.1]
      exact ⟨.inl ⟨entitled.2.resolve_right idle, rfl⟩, rfl, Iff.rfl⟩
  · rw [joins]
    by_cases idle : c.standing.status = .idle
    · have low : ¬ a.threshold ≤ evidenceOf c := fun enough => barred ⟨enough, .inr idle⟩
      have outside := agrees.not_mem_of_idle member idle
      rw [appraisal_idle idle outside, if_neg low]
      refine ⟨by simp [outside], fun _ => ?_⟩
      show evidenceOf c.resetObservations < _
      rw [c.evidenceOf_resetObservations, exact_negInfinity]
      exact bot_le.trans_lt (not_le.1 low)
    · rw [appraisal_busy idle]
      split
      · next enough =>
        refine ⟨?_, fun idle' => absurd idle' idle⟩
        rintro (⟨inPool, -⟩ | promoted)
        · exact barred ⟨enough, .inl inPool⟩
        · cases promoted
      · next low =>
        refine ⟨by simp [Verdict.leavesPool], fun _ => ?_⟩
        show evidenceOf c.exclude.1 < _
        rw [c.evidenceOf_exclude, exact_negInfinity]
        exact bot_le.trans_lt (not_le.1 low)

/-- The first refresh lets all contenders in that are entitled to a share. -/
theorem forall₂_enters (agrees : Agrees a.candidates cs) : List.Forall₂
    (Enters a (a.sharing cs queue).arbiter.candidates) cs (a.sharing cs queue).contenders := by
  rw [sharing, refresh_contenders]
  exact forall₂_map_of_mem (List.forall₂_same.2 fun c _ => rfl) fun c d same member _ => by
    obtain rfl := same
    exact enters_appraisal agrees member

theorem mem_sharers : c ∈ a.sharers cs ↔ c ∈ cs ∧ a.Entitles c := by simp [sharers]

variable (queue) in
theorem agrees_sharing (agrees : Agrees a.candidates cs) :
    Agrees (a.sharing cs queue).arbiter.candidates (a.sharing cs queue).contenders :=
  Agrees.refresh (m := ⟨a, cs, queue, {}, []⟩) agrees false

/-- The contestants of the first refresh are those that are entitled to a share. -/
theorem map_evidenceOf_sharing (agrees : Agrees a.candidates cs) :
    (contestants (a.sharing cs queue)).map evidenceOf = (a.sharers cs).map evidenceOf := by
  have enters : List.Forall₂ (Enters a (a.sharing cs queue).arbiter.candidates)
      (a.sharers cs) (contestants (a.sharing cs queue)) := by
    refine List.rel_filter (fun c d enters => ?_) (forall₂_enters agrees)
    simp only [decide_eq_true_eq]
    exact ⟨fun entitled => (enters.inside entitled).1,
      fun inPool => by_contra fun barred => (enters.outside barred).1 inPool⟩
  exact map_eq_of (fun c d ⟨enters, sharer, _⟩ => (enters.inside (mem_sharers.1 sharer).2).2.1)
    (mem_of_forall₂ enters)

/-- The total that is shared out is that of the sharers. -/
theorem poolTotal_sharing (agrees : Agrees a.candidates cs) :
    (a.sharing cs queue).arbiter.poolTotal (a.sharing cs queue).contenders =
      logSumExp ((a.sharers cs).map evidenceOf) := by
  have agrees' := agrees_sharing queue agrees
  rw [← map_evidenceOf_sharing agrees]
  refine logSumExp_perm (((perm_contestants agrees').map _).trans (.of_eq ?_))
  rw [List.map_map]
  refine List.map_congr_left fun d contestant => ?_
  rw [Function.comp_apply, findContender?_id agrees'.ids (mem_contestants.1 contestant).1]
  rfl

/-! ## Between the refreshes -/

/-- Between the refreshes `d` becomes `e`: if it is in the pool it is told its share among the given
scores, and may have claimed the touches instead of leaving. -/
structure Hears (pool : List InteractorId) (scores : List EReal) (d e : Interactor EReal ν) :
    Prop extends d.Reconsiders e where
  share : d.id ∈ pool → e.candidateProbability = softmax scores (evidenceOf d)
  claims : d.standing.status = .selfExcluded → e.standing.status ≠ .selfExcluded →
    e.isClaiming = true

theorem hears_updateRules {pool : List InteractorId} {scores : List EReal} {share : EReal}
    (fair : share = softmax scores (evidenceOf d)) :
    Hears pool scores d (Interactor.afterRules { d with candidateProbability := share }) := by
  obtain ⟨e, told⟩ : ∃ e : Interactor EReal ν, e = { d with candidateProbability := share } :=
    ⟨_, rfl⟩
  have ranked : d.Reconsiders e := by
    rw [told]
    exact ⟨rfl, rfl, .inl rfl⟩
  have standing : e.standing = d.standing := by rw [told]
  rw [← told]
  refine ⟨ranked.trans e.reconsiders_afterRules, fun _ => ?_, fun leaves stays => ?_⟩
  · rw [e.afterRules_candidateProbability, told, ← fair]
  · rw [← standing] at leaves
    rcases e.afterRules_standing with same | claimed
    · exact absurd (same ▸ leaves) stays
    · rw [Interactor.isClaiming, claimed, Standing.apply_claim, leaves]
      rfl

theorem forall₂_hears (agrees : Agrees a.candidates cs) : List.Forall₂
    (Hears (a.sharing cs queue).arbiter.candidates ((a.sharers cs).map evidenceOf))
    (a.sharing cs queue).contenders (a.shared cs queue).contenders := by
  have agrees' := agrees_sharing queue agrees
  rw [shared, updateRules_contenders, shareOut_eq_map agrees'.ids agrees'.distinct, List.map_map]
  refine forall₂_map_of_mem (List.forall₂_same.2 fun d _ => rfl) fun d d' same source _ => ?_
  obtain rfl := same
  rw [Function.comp_apply]
  by_cases inPool : d.id ∈ (a.sharing cs queue).arbiter.candidates
  · have sharer : evidenceOf d ∈ (a.sharers cs).map evidenceOf := by
      rw [← map_evidenceOf_sharing agrees]
      exact List.mem_map_of_mem (mem_contestants.2 ⟨source, inPool⟩)
    simp only [if_pos inPool]
    refine hears_updateRules ?_
    rw [poolTotal_sharing agrees]
    exact exp_sub_logSumExp sharer
  · simp only [if_neg inPool]
    exact ⟨d.reconsiders_refl, fun inside => absurd inside inPool,
      fun leaves stays => absurd leaves stays⟩

/-! ## After the round -/

/-- Once the pool has settled, the contender `c` is `f`: in the pool if it was entitled to a share
and has not left, with the same evidence and with its share among all who were entitled. -/
structure Keeps (a : Arbiter EReal) (cs : List (Interactor EReal ν)) (pool : List InteractorId)
    (c f : Interactor EReal ν) : Prop where
  id_eq : f.id = c.id
  inPool : f.id ∈ pool ↔
    a.Entitles c ∧ (c.standing.status ≠ .selfExcluded ∨ f.isClaiming = true)
  evidence : f.id ∈ pool → evidenceOf f = evidenceOf c
  share : f.id ∈ pool →
    f.candidateProbability = softmax ((a.sharers cs).map evidenceOf) (evidenceOf c)

variable (queue) in
theorem agrees_shared (agrees : Agrees a.candidates cs) :
    Agrees (a.shared cs queue).arbiter.candidates (a.shared cs queue).contenders :=
  Agrees.updateRules (m := { a.sharing cs queue with
      contenders := (a.sharing cs queue).arbiter.shareOut (a.sharing cs queue).contenders })
    ((agrees_sharing queue agrees).calm (calm_shareOut _ _))

/-- The second refresh lets go of those who ask to leave. -/
theorem refresh_leaves {m : Round EReal ν}
    (agrees : Agrees m.arbiter.candidates m.contenders) (member : c ∈ m.contenders)
    (leaves : c.standing.status = .selfExcluded) :
    c.id ∉ (refresh true m).1.arbiter.candidates ∧
      (m.arbiter.appraisal true c).contender.isClaiming = false := by
  have asks : c.hasSelfExcluded = true := by simpa [Interactor.hasSelfExcluded] using leaves
  have granted : m.arbiter.appraisal true c = ⟨c.granted, .granted, evidenceOf c⟩ := by
    simp only [appraisal_eq, asks, Bool.and_self, if_true]
  rw [mem_refresh_candidates agrees.ids member, granted, Interactor.isClaiming]
  refine ⟨by simp [Verdict.leavesPool], ?_⟩
  rw [standing_of_granted c asks]
  rfl

/-- The second refresh keeps everyone else where they are, if they are in the pool on the strength
of their evidence, or outside for the lack of it. -/
theorem refresh_stays {m : Round EReal ν}
    (agrees : Agrees m.arbiter.candidates m.contenders) (member : c ∈ m.contenders)
    (strong : c.id ∈ m.arbiter.candidates → m.arbiter.threshold ≤ evidenceOf c)
    (weak : c.standing.status = .idle → evidenceOf c < m.arbiter.threshold)
    (stays : c.standing.status ≠ .selfExcluded) :
    (c.id ∈ (refresh true m).1.arbiter.candidates ↔ c.id ∈ m.arbiter.candidates) ∧
      (c.id ∈ m.arbiter.candidates → (m.arbiter.appraisal true c).contender = c) := by
  rw [mem_refresh_candidates agrees.ids member]
  obtain ⟨-, -, leaves, -⟩ | ⟨verdict, -, low, -⟩ | ⟨-, idle, enough, -, -⟩ |
    ⟨verdict, idle, -, -⟩ | ⟨verdict, after, -, -⟩ := m.arbiter.appraisal_cases true c
  · exact absurd leaves stays
  · have outside : c.id ∉ m.arbiter.candidates := fun inPool => not_le.2 low (strong inPool)
    simp [verdict, outside]
  · exact absurd enough (not_le.2 (weak idle))
  · have outside := agrees.not_mem_of_idle member idle
    simp [verdict, outside]
  · simp [verdict, after, Verdict.leavesPool]

/-- From the start of the round to the settled pool. -/
theorem keeps_appraisal {e : Interactor EReal ν} (agrees : Agrees a.candidates cs)
    (member : e ∈ (a.shared cs queue).contenders)
    (enters : Enters a (a.sharing cs queue).arbiter.candidates c d)
    (hears : Hears (a.sharing cs queue).arbiter.candidates ((a.sharers cs).map evidenceOf) d e) :
    Keeps a cs (a.settling cs queue).1.arbiter.candidates c
      ((a.shared cs queue).arbiter.appraisal true e).contender := by
  have inside : e.id ∈ (a.shared cs queue).arbiter.candidates ↔ a.Entitles c := by
    rw [hears.id_eq]
    exact ⟨fun inPool => by_contra fun barred => (enters.outside barred).1 inPool,
      fun entitled => (enters.inside entitled).1⟩
  have evidence (entitled : a.Entitles c) : evidenceOf e = evidenceOf c :=
    hears.evidence.trans (enters.inside entitled).2.1
  have id_eq := hears.id_eq.trans enters.id_eq
  have agrees' := agrees_shared queue agrees
  by_cases leaves : e.standing.status = .selfExcluded
  · obtain ⟨out, silent⟩ := refresh_leaves agrees' member leaves
    rw [← (a.shared cs queue).arbiter.appraisal_id true e] at out
    refine ⟨(appraisal_id _ _ _).trans id_eq, iff_of_false out ?_, fun inPool => absurd inPool out,
      fun inPool => absurd inPool out⟩
    rintro ⟨entitled, stays | claims⟩
    · refine stays ((enters.inside entitled).2.2.1 ?_)
      rcases hears.status with same | ⟨left, -⟩
      · exact same.symm.trans leaves
      · exact left
    · rw [silent] at claims
      cases claims
  · obtain ⟨stays, still⟩ := refresh_stays agrees' member
      (fun inPool => (inside.1 inPool).1.trans_eq (evidence (inside.1 inPool)).symm)
      (fun idle => by
        -- Whoever is idle is outside the pool, and has heard nothing.
        have outside := agrees'.not_mem_of_idle member idle
        have idle' : d.standing.status = .idle := by
          rcases hears.status with same | ⟨-, plain⟩
          · exact same.symm.trans idle
          · rw [idle] at plain
            cases plain
        rw [hears.evidence]
        exact (enters.outside (mt inside.2 outside)).2 idle') leaves
    have stays' := (congrArg (· ∈ (a.settling cs queue).1.arbiter.candidates)
      ((a.shared cs queue).arbiter.appraisal_id true e)).to_iff.trans (stays.trans inside)
    refine ⟨(appraisal_id _ _ _).trans id_eq,
      stays'.trans ⟨fun entitled => ⟨entitled, ?_⟩, And.left⟩, fun inPool => ?_, fun inPool => ?_⟩
    · rw [still (inside.2 entitled)]
      by_cases left : c.standing.status = .selfExcluded
      · exact .inr (hears.claims ((enters.inside entitled).2.2.2 left) leaves)
      · exact .inl left
    · have entitled := stays'.1 inPool
      rw [still (inside.2 entitled), evidence entitled]
    · have entitled := stays'.1 inPool
      rw [still (inside.2 entitled), hears.share (hears.id_eq ▸ inside.2 entitled),
        (enters.inside entitled).2.1]

variable (queue) in
theorem forall₂_keeps (agrees : Agrees a.candidates cs) :
    List.Forall₂ (Keeps a cs (a.settling cs queue).1.arbiter.candidates) cs
      (a.settling cs queue).1.contenders := by
  rw [settling_eq, refresh_contenders]
  have course : List.Forall₂ (fun c e => ∃ d, Enters a (a.sharing cs queue).arbiter.candidates c d ∧
      Hears (a.sharing cs queue).arbiter.candidates ((a.sharers cs).map evidenceOf) d e)
      cs (a.shared cs queue).contenders :=
    forall₂_comp (forall₂_enters agrees) (forall₂_hears agrees)
      fun c d e enters hears => ⟨d, enters, hears⟩
  refine forall₂_map_of_mem course fun c e ⟨d, enters, hears⟩ _ member => ?_
  exact keeps_appraisal agrees member enters hears

/-- If a round leaves anyone in the pool, those are left that were entitled to a share and did not
ask to leave, and each has the share that the softmax gives it among all who were entitled. -/
theorem forall₂_remaining (agrees : Agrees a.candidates cs)
    (occupied : (a.mediate cs queue).arbiter.candidates ≠ []) :
    List.Forall₂ (fun c f => f.id = c.id ∧ evidenceOf f = evidenceOf c ∧
        f.candidateProbability = softmax ((a.sharers cs).map evidenceOf) (evidenceOf c))
      (a.remaining cs) (contestants (a.mediate cs queue)) := by
  obtain ⟨silent, result⟩ := mediate_of_occupied (agrees.settling queue).ids occupied
  have keeps := forall₂_keeps queue agrees
  have silent' : ∀ f ∈ (a.settling cs queue).1.contenders,
      f.id ∈ (a.settling cs queue).1.arbiter.candidates → ¬ f.isClaiming = true := by
    intro f member inPool claims
    have claimer := (mem_claimers (agrees.settling queue).ids member).2 ⟨inPool, claims⟩
    rw [silent] at claimer
    cases claimer
  have paired : List.Forall₂ (Keeps a cs (a.settling cs queue).1.arbiter.candidates)
      (a.remaining cs) (contestants (a.settling cs queue).1) := by
    rw [remaining, sharers, List.filter_filter]
    refine (List.rel_filter (fun c f ⟨keeps, _, member⟩ => ?_) (mem_of_forall₂ keeps)).imp
      fun _ _ => And.left
    simp only [Bool.and_eq_true, decide_eq_true_eq]
    constructor
    · rintro ⟨stays, entitled⟩
      exact keeps.inPool.2 ⟨entitled, .inl stays⟩
    · intro inPool
      obtain ⟨entitled, stays⟩ := keeps.inPool.1 inPool
      exact ⟨stays.resolve_right (silent' f member inPool), entitled⟩
  rw [result]
  refine (mem_of_forall₂ paired).imp fun c f ⟨keeps, _, contestant⟩ => ?_
  have inPool := (mem_contestants.1 contestant).2
  exact ⟨keeps.id_eq, keeps.evidence inPool, keeps.share inPool⟩

/-- If a round leaves anyone in the pool, somebody shared. -/
theorem sharers_ne_nil (agrees : Agrees a.candidates cs)
    (occupied : (a.mediate cs queue).arbiter.candidates ≠ [])
    (some : contestants (a.mediate cs queue) ≠ []) :
    a.sharers cs ≠ [] := by
  obtain ⟨f, member⟩ := List.exists_mem_of_ne_nil _ some
  obtain ⟨c, remains, -⟩ := exists_source (forall₂_remaining agrees occupied) f member
  exact List.ne_nil_of_mem (List.mem_filter.1 remains).1

/-- The shares in the pool add up to one if and only if whoever left had none. -/
theorem sum_contestants_eq_one_iff (agrees : Agrees a.candidates cs)
    (occupied : (a.mediate cs queue).arbiter.candidates ≠ []) :
    ((contestants (a.mediate cs queue)).map Interactor.candidateProbability).sum = 1 ↔
      IsDivisible ((a.sharers cs).map evidenceOf) ∧
        ∀ c ∈ a.sharers cs, c.standing.status = .selfExcluded → evidenceOf c = ⊥ := by
  have shares : (contestants (a.mediate cs queue)).map Interactor.candidateProbability =
      (a.remaining cs).map fun c => softmax ((a.sharers cs).map evidenceOf) (evidenceOf c) := by
    rw [← List.forall₂_eq_eq_eq, List.forall₂_map_left_iff, List.forall₂_map_right_iff]
    exact (forall₂_remaining agrees occupied).flip.imp fun _ _ kept => kept.2.2
  rw [shares, remaining, sum_softmax_filter_eq_one_iff]
  simp

end Exact

end TouchIntent.Arbiter
