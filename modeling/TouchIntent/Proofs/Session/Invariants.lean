import Mathlib
import TouchIntent.Proofs.Arbiter.Reordering
import TouchIntent.Proofs.Recognizer.Dominance
import TouchIntent.Proofs.Session.FreshStart
import TouchIntent.Proofs.Session.Inference
import TouchIntent.Proofs.Session.Jitter

/-!
# Invariants of interactors

What is true of each interactor of a session stays true if no operation on a single interactor
breaks it. Two things may be taken for granted. Only members of the pool are told a share, so
whoever is told one is not idle; and only the samples of a run are looked at, by interactors that
are shown. Three such properties are that nobody idle has a share, that nobody has infinite
evidence, and that nobody claims who has no rule to claim by.
-/

namespace TouchIntent

open Scalar Arbiter

variable {R ν : Type} [Scalar R]

/-- All samples that an operation takes in are of a kind. -/
def SessionOp.Brings (admitted : Sample R → Prop) (op : SessionOp R) : Prop :=
  ∀ batch ∈ op.batch?, ∀ x ∈ batch, admitted x

/-- A property of interactors that no operation breaks, as long as all samples are of a kind. -/
structure Interactor.IsInvariant (admitted : Sample R → Prop) (inv : Interactor R ν → Prop) :
    Prop where
  appraisal : ∀ (c : Interactor R ν) (a : Arbiter R) (grants : Bool),
    inv c → inv (a.appraisal grants c).contender
  rank : ∀ (c : Interactor R ν) (candidateProbability : R), c.standing.status ≠ .idle →
    inv c → inv { c with candidateProbability }
  updateRules : ∀ c, inv c → inv c.afterRules
  determine : ∀ c, inv c → inv c.determine.1
  exclude : ∀ c, inv c → inv c.exclude.1
  reset : ∀ c, inv c → inv c.reset
  timeOut : ∀ c, inv c → inv c.timeOut.1
  timer : ∀ (c : Interactor R ν) (timer : Option CancelToken), inv c → inv { c with timer }
  look : ∀ (c : Interactor R ν) (x : Sample R), admitted x → c.isHidden = false →
    inv c → inv (c.observeTouch x)

namespace Interactor.IsInvariant

variable {admitted : Sample R → Prop} {inv : Interactor R ν → Prop}
  (invariant : IsInvariant admitted inv)
include invariant

section Mediation

variable {a : Arbiter R} {cs : List (Interactor R ν)} (agrees : Agrees a.candidates cs)
include agrees

theorem shareOut (all : ∀ c ∈ cs, inv c) : ∀ c ∈ a.shareOut cs, inv c := by
  rw [shareOut_eq_map agrees.ids agrees.distinct, List.forall_mem_map]
  intro c member
  split
  · next inPool =>
    refine invariant.rank c _ (fun idle => ?_) (all c member)
    have pooled := agrees.pooled c member inPool
    rw [idle] at pooled
    cases pooled
  · exact all c member

theorem settling (queue : TaskQueue) (all : ∀ c ∈ cs, inv c) :
    ∀ c ∈ (a.settling cs queue).1.contenders, inv c := by
  refine (of_settling (fun pool cs => Agrees pool cs ∧ ∀ c ∈ cs, inv c) ⟨agrees, all⟩
    ?_ ?_ ?_).2
  · rintro grants m ⟨agrees, all⟩
    refine ⟨agrees.refresh grants, ?_⟩
    rw [refresh_contenders, List.forall_mem_map]
    exact fun c member => invariant.appraisal c m.arbiter grants (all c member)
  · rintro a cs ⟨agrees, all⟩
    exact ⟨agrees.calm (calm_shareOut a cs), invariant.shareOut agrees all⟩
  · rintro m ⟨agrees, all⟩
    refine ⟨agrees.updateRules, ?_⟩
    rw [updateRules_contenders, List.forall_mem_map]
    intro c member
    split
    · exact invariant.updateRules c (all c member)
    · exact all c member

/-- A round of mediation breaks no invariant. -/
theorem mediate (queue : TaskQueue) (all : ∀ c ∈ cs, inv c) :
    ∀ c ∈ (a.mediate cs queue).contenders, inv c := by
  have settled := agrees.settling queue
  have kept := invariant.settling agrees queue all
  rw [mediate_eq]
  split
  · exact kept
  · next claimer _ =>
    rw [settleClaim_contenders settled.ids settled.distinct, List.forall_mem_map]
    intro c member
    split_ifs
    · exact invariant.determine c (kept c member)
    · exact invariant.exclude c (kept c member)
    · exact kept c member
  · rw [settleClaims_contenders, List.forall_mem_map]
    intro c member
    split
    · exact invariant.determine c (kept c member)
    · exact invariant.exclude c (kept c member)

end Mediation

section Runs

variable {s : Session R ν} (consistent : s.IsConsistent)
include consistent

theorem takeIn {batch : List (Sample R)} (brought : ∀ x ∈ batch, admitted x)
    (all : ∀ c ∈ s.interactors, inv c) : ∀ c ∈ (s.takeIn batch).interactors, inv c := by
  have visible : ∀ c ∈ s.interactors, c.isHidden = false := consistent.visible
  have folded : ∀ samples : List (Sample R), (∀ x ∈ samples, admitted x) →
      ∀ c ∈ (samples.foldl Session.forward s).interactors, inv c ∧ c.isHidden = false := by
    intro samples admits
    induction samples using List.reverseRecOn with
    | nil => exact fun c member => ⟨all c member, visible c member⟩
    | append_singleton seen x ih =>
      obtain ⟨earlier, last⟩ := List.forall_mem_append.1 admits
      rw [List.foldl_concat, Session.forward, List.forall_mem_map]
      intro c member
      obtain ⟨holds, shown⟩ := ih earlier c member
      refine ⟨invariant.look c x (last x (List.mem_singleton_self x)) shown holds, ?_⟩
      rw [(sameMake_observeTouch shown x).isHidden]
      exact shown
  refine fun c member => (folded (s.worthwhile batch) (fun x kept => brought x ?_) c member).1
  obtain ⟨⟨y, i⟩, placed, rfl⟩ := List.mem_map.1 kept
  exact List.fst_mem_of_mem_zipIdx (List.mem_of_mem_filter placed)

omit consistent in
theorem timeOut_interactors (now : Millis) (all : ∀ c ∈ s.interactors, inv c) :
    ∀ c ∈ (s.timeOut now).interactors, inv c := by
  have : IsTrans (Interactor R ν) fun c d => inv c → inv d :=
    ⟨fun _ _ _ first second => second ∘ first⟩
  have kept : List.Forall₂ (fun c d => inv c → inv d) s.interactors
      (s.timeOut now).interactors :=
    (Session.forall₂_timeOut (fun _ holds => holds) (fun c => invariant.timeOut c) s now).1
  intro d member
  obtain ⟨c, source, still⟩ := exists_source kept d member
  exact still (all c source)

theorem handle {batch : List (Sample R)} (brought : ∀ x ∈ batch, admitted x)
    (all : ∀ c ∈ s.interactors, inv c) : ∀ c ∈ (s.handle batch).session.interactors, inv c := by
  have taken := invariant.takeIn consistent brought all
  rw [Session.handle_eq]
  split
  · exact all
  · split
    · exact taken
    · rw [Session.mediate_interactors]
      exact invariant.mediate (Session.isConsistent_takeIn consistent batch).toAgrees _ taken

theorem advance (now : Millis) (all : ∀ c ∈ s.interactors, inv c) :
    ∀ c ∈ (s.advance now).session.interactors, inv c := by
  rw [Session.advance_eq]
  split
  · exact all
  · next somebody =>
    have mediates : s.mediating? (.advance now) = some (s.timeOut now) := by
      rw [Session.mediating?, if_neg somebody]
    rw [Session.mediate_interactors]
    exact invariant.mediate (Session.agrees_mediating consistent mediates) _
      (invariant.timeOut_interactors now all)

/-- What the arbiter finds when it is asked has kept all invariants. -/
theorem mediating {op : SessionOp R} (brings : op.Brings admitted) {found : Session R ν}
    (mediates : s.mediating? op = some found) (all : ∀ c ∈ s.interactors, inv c) :
    ∀ c ∈ found.interactors, inv c := by
  have taken : ∀ batch : List (Sample R), (∀ x ∈ batch, admitted x) →
      s.intake? batch = some found → ∀ c ∈ found.interactors, inv c := by
    intro batch brought asked
    rw [Session.intake?] at asked
    split at asked
    · cases asked
    · obtain rfl := Option.some.inj asked
      exact invariant.takeIn consistent brought all
  cases op with
  | handle batch => exact taken batch (brings batch rfl) mediates
  | handleEvent primary second => exact taken _ (brings _ rfl) mediates
  | mediate =>
    obtain rfl := Option.some.inj mediates
    exact all
  | advance now =>
    simp only [Session.mediating?] at mediates
    split at mediates
    · cases mediates
    · obtain rfl := Option.some.inj mediates
      exact invariant.timeOut_interactors now all
  | selfExcludeAfter id delay => cases mediates
  | resetAll => cases mediates

/-- No operation breaks an invariant. -/
theorem perform {op : SessionOp R} (brings : op.Brings admitted)
    (all : ∀ c ∈ s.interactors, inv c) : ∀ c ∈ (s.perform op).interactors, inv c := by
  cases op with
  | handle batch => exact invariant.handle consistent (brings batch rfl) all
  | handleEvent primary second => exact invariant.handle consistent (brings _ rfl) all
  | mediate =>
    rw [Session.perform, Session.mediate_interactors]
    exact invariant.mediate consistent.toAgrees s.queue all
  | advance now => exact invariant.advance consistent now all
  | selfExcludeAfter id delay =>
    have kept : List.Forall₂ (fun c d => inv c → inv d) s.interactors
        ((s.selfExcludeAfter id delay).getD s).interactors :=
      (Session.forall₂_selfExcludeAfter (fun _ holds => holds)
        (fun c timer => invariant.timer c timer) s id delay).1
    intro d member
    obtain ⟨c, source, still⟩ := exists_source kept d member
    exact still (all c source)
  | resetAll =>
    intro d member
    obtain ⟨c, source, rfl⟩ := List.mem_map.1 member
    exact invariant.reset c (all c source)

/-- No run breaks an invariant. -/
theorem performAll {ops : List (SessionOp R)} (brings : ∀ op ∈ ops, op.Brings admitted)
    (all : ∀ c ∈ s.interactors, inv c) : ∀ c ∈ (s.performAll ops).interactors, inv c := by
  induction ops using List.reverseRecOn with
  | nil => exact all
  | append_singleton done op ih =>
    obtain ⟨earlier, last⟩ := List.forall_mem_append.1 brings
    rw [Session.performAll_concat]
    exact invariant.perform (Session.isConsistent_performAll consistent done)
      (last op (List.mem_singleton_self op)) (ih earlier)

end Runs

end Interactor.IsInvariant

namespace Interactor

/-! ## Nobody idle has a share -/

section SettledUp

variable {a : Interactor R ν}

/-- An interactor that has no share while it is idle. -/
def IsSettledUp (a : Interactor R ν) : Prop :=
  a.standing.status = .idle → a.candidateProbability = zero

/-- Whoever is granted the wish to leave loses its share. -/
theorem candidateProbability_of_granted (leaves : a.standing.status = .selfExcluded) :
    a.granted.candidateProbability = zero := by
  have changes : (a.apply .grantSelfExclusion).2.isChange = true := by
    rcases stands : a.standing with ⟨status, claiming⟩
    rw [stands] at leaves
    cases leaves
    cases claiming <;> simp [apply, stands, Standing.apply, Standing.next?, Standing.idle,
      Transition.isChange]
  show a.grantSelfExclusion.1.candidateProbability = zero
  simp only [grantSelfExclusion, changes, if_true]
  rfl

theorem IsSettledUp.updateRules (settled : a.IsSettledUp) : a.afterRules.IsSettledUp := by
  intro idle
  rw [a.afterRules_candidateProbability]
  refine settled ?_
  rcases a.afterRules_standing with same | claimed
  · rwa [same] at idle
  · rw [claimed, Standing.apply_claim] at idle
    cases status : a.standing.status <;> simp [status] at idle
    rfl

theorem IsSettledUp.determine (settled : a.IsSettledUp) : a.determine.1.IsSettledUp := by
  intro idle
  rw [determine_standing] at idle
  split at idle
  · cases idle
  · exact settled idle

theorem isSettledUp_promote (a : Interactor R ν) : a.promote.1.IsSettledUp := by
  intro idle
  rw [promote_standing] at idle
  split at idle
  · cases idle
  · next busy => exact absurd idle busy

theorem isSettledUp_selfExclude (a : Interactor R ν) : a.selfExclude.1.IsSettledUp := by
  by_cases rests : a.standing.status = .idle
  · intro _
    rw [selfExclude, if_pos rests]
    rfl
  · intro idle
    rw [selfExclude_standing, if_neg rests] at idle
    cases idle

theorem IsSettledUp.appraisal (settled : a.IsSettledUp) (arbiter : Arbiter R) (grants : Bool) :
    (arbiter.appraisal grants a).contender.IsSettledUp := by
  rw [Arbiter.appraisal_eq]
  split_ifs with granted
  · obtain ⟨-, leaves⟩ := Bool.and_eq_true_iff.1 granted
    exact fun _ => candidateProbability_of_granted (by simpa [hasSelfExcluded] using leaves)
  · exact fun _ => rfl
  · exact a.isSettledUp_promote
  · exact settled
  · exact settled

/-- No operation leaves a share to anyone idle. -/
theorem isInvariant_settledUp :
    IsInvariant (fun _ => True) (IsSettledUp : Interactor R ν → Prop) where
  appraisal _ arbiter grants settled := settled.appraisal arbiter grants
  rank c share busy _ idle := absurd idle busy
  updateRules _ settled := settled.updateRules
  determine _ settled := settled.determine
  exclude _ _ _ := rfl
  reset c _ _ := by
    rw [c.reset_eq]
    rfl
  timeOut _ _ := isSettledUp_selfExclude _
  timer _ _ settled := settled
  look c x _ visible settled := by
    intro idle
    rw [observeTouch_standing, visible] at idle
    rw [observeTouch, if_neg (by simp [visible])]
    exact settled idle

end SettledUp

/-! ## Nobody has infinite evidence -/

section Measured

variable {a b : Interactor EReal ν}

/-- A sound interactor whose evidence is not infinite. -/
structure IsMeasured (a : Interactor EReal ν) : Prop extends a.IsSound where
  limited : a.evidence ≠ ⊤

theorem IsMeasured.map (measured : a.IsMeasured)
    {change : Recognizer EReal → Recognizer EReal} (keeps : ∀ r, r.IsSound → (change r).IsSound)
    (prior : b.prior = a.prior) (behaviors : b.behaviors = a.behaviors.map change)
    (limited : b.evidence ≠ ⊤) : b.IsMeasured where
  sized := by rw [prior, behaviors, List.length_map, measured.sized]
  positive := prior ▸ measured.positive
  inhabited := by
    rw [behaviors, Ne, List.map_eq_nil_iff]
    exact measured.inhabited
  behaviors := by
    rw [behaviors, List.forall_mem_map]
    exact fun r member => keeps r (measured.behaviors r member)
  limited := limited

theorem IsMeasured.of_eq (measured : a.IsMeasured) (prior : b.prior = a.prior)
    (behaviors : b.behaviors = a.behaviors) (evidence : b.evidence = a.evidence) : b.IsMeasured :=
  measured.map (fun _ sound => sound) prior (behaviors.trans (List.map_id' _).symm)
    (evidence ▸ measured.limited)

theorem IsMeasured.resetObservations (measured : a.IsMeasured) :
    a.resetObservations.IsMeasured := by
  have nothing : (zero : EReal) ≠ ⊤ := by simp
  exact measured.map (fun _ sound => sound.reset) rfl rfl nothing

theorem IsMeasured.resetReasoning (measured : a.IsMeasured) : a.resetReasoning.IsMeasured := by
  have forgets (r : Recognizer EReal) (sound : r.IsSound) :
      { r with logPosterior := unobservedPosterior }.IsSound := sound.of_unjudged rfl
  exact measured.resetObservations.map forgets rfl rfl measured.resetObservations.limited

theorem IsMeasured.apply (measured : a.IsMeasured) (command : StandingCommand) :
    (a.apply command).1.IsMeasured := measured.of_eq rfl rfl rfl

theorem IsMeasured.exclude (measured : a.IsMeasured) : a.exclude.1.IsMeasured :=
  (measured.apply .exclude).resetReasoning

theorem IsMeasured.granted (measured : a.IsMeasured) : a.granted.IsMeasured := by
  have left := measured.apply .grantSelfExclusion
  have granted : a.grantSelfExclusion.1.IsMeasured := by
    unfold grantSelfExclusion
    simp only
    split
    · exact left.resetReasoning
    · exact left
  exact granted.of_eq rfl rfl rfl

theorem IsMeasured.appraisal (measured : a.IsMeasured) (arbiter : Arbiter EReal) (grants : Bool) :
    (arbiter.appraisal grants a).contender.IsMeasured := by
  rw [Arbiter.appraisal_eq]
  split_ifs
  · exact measured.granted
  · exact measured.exclude
  · exact measured.apply .promote
  · exact measured.resetObservations
  · exact measured

theorem IsMeasured.updateRules (measured : a.IsMeasured) : a.afterRules.IsMeasured := by
  unfold Interactor.afterRules Interactor.updateRules
  simp only
  split <;> exact measured.of_eq rfl rfl rfl

theorem IsMeasured.timeOut (measured : a.IsMeasured) : a.timeOut.1.IsMeasured := by
  have stopped : { a with timer := none }.IsMeasured := measured.of_eq rfl rfl rfl
  unfold Interactor.timeOut selfExclude
  split
  · exact stopped.exclude
  · exact stopped.apply .selfExclude

theorem IsMeasured.observeTouch (measured : a.IsMeasured) {x : Sample EReal} (finite : x.IsFinite)
    (visible : a.isHidden = false) : (a.observeTouch x).IsMeasured := by
  obtain ⟨c, same, sound⟩ := measured.toIsSound.observeTouch_eq visible finite
  rw [same]
  refine ⟨sound.updatePosterior, ?_⟩
  rw [updatePosterior_evidence]
  exact logSumExp_ne_top (logWeights_ne_top sound.positive sound.bounded)

/-- Samples of real numbers leave nobody with infinite evidence. -/
theorem isInvariant_measured :
    IsInvariant Sample.IsFinite (IsMeasured : Interactor EReal ν → Prop) where
  appraisal _ arbiter grants measured := measured.appraisal arbiter grants
  rank _ _ _ measured := measured.of_eq rfl rfl rfl
  updateRules _ measured := measured.updateRules
  determine _ measured := measured.apply .determine
  exclude _ measured := measured.exclude
  reset c measured := by
    rw [c.reset_eq]
    exact measured.resetReasoning.of_eq rfl rfl rfl
  timeOut _ measured := measured.timeOut
  timer _ _ measured := measured.of_eq rfl rfl rfl
  look _ _ finite visible measured := measured.observeTouch finite visible

theorem IsMeasured.evidenceOf_ne_top (measured : a.IsMeasured) : evidenceOf a ≠ ⊤ := by
  show a.meanEvidence?.getD negInfinity ≠ ⊤
  unfold meanEvidence?
  split
  · simp
  · next some =>
    have many : (0 : ℝ) < a.observationCount := Nat.cast_pos.2 (Nat.pos_of_ne_zero some)
    rw [Option.getD_some, exact_ofNat]
    have limited := measured.limited
    generalize a.evidence = e at limited ⊢
    cases e with
    | bot =>
      rw [EReal.bot_div_of_pos_ne_top (EReal.coe_pos.2 many) (EReal.coe_ne_top _)]
      exact bot_ne_top
    | coe e =>
      rw [← EReal.coe_div]
      exact EReal.coe_ne_top _
    | top => exact absurd rfl limited

end Measured

/-! ## Who never claims -/

section Mute

/-- An interactor that has no rule to claim by. -/
structure IsMute {R ν : Type} (a : Interactor R ν) : Prop where
  ruleless : a.claimRule = none
  silent : a.isClaiming = false

variable {a b : Interactor R ν}

theorem IsMute.of_sameMake (mute : a.IsMute) (same : a.SameMake b) (silent : b.isClaiming = false) :
    b.IsMute := ⟨same.claimRule.trans mute.ruleless, silent⟩

theorem IsMute.appraisal (mute : a.IsMute) (arbiter : Arbiter R) (grants : Bool) :
    (arbiter.appraisal grants a).contender.IsMute := by
  refine mute.of_sameMake (isLasting_sameMake.appraisal a arbiter grants) ?_
  obtain ⟨-, -, -, after⟩ | ⟨-, -, -, after⟩ | ⟨-, -, -, -, after⟩ | ⟨-, -, -, after⟩ |
    ⟨-, after, -⟩ := arbiter.appraisal_cases grants a
  all_goals rw [isClaiming, after]
  · rfl
  · rfl
  all_goals exact mute.silent

theorem IsMute.updateRules (mute : a.IsMute) : a.afterRules.IsMute := by
  unfold Interactor.afterRules Interactor.updateRules
  simp only [mute.ruleless, Option.bind_none, Option.getD_none, Bool.false_eq_true, if_false]
  exact ⟨rfl, mute.silent⟩

/-- Whoever has no rule to claim by never claims. -/
theorem isInvariant_mute : IsInvariant (fun _ => True) (IsMute : Interactor R ν → Prop) where
  appraisal _ arbiter grants mute := mute.appraisal arbiter grants
  rank _ _ _ mute := ⟨mute.ruleless, mute.silent⟩
  updateRules _ mute := mute.updateRules
  determine c mute := by
    refine ⟨mute.ruleless, ?_⟩
    rw [isClaiming, determine_standing]
    split <;> exact mute.silent
  exclude c mute := by
    refine ⟨mute.ruleless, ?_⟩
    rw [isClaiming, exclude_standing]
    rfl
  reset c mute := by
    refine mute.of_sameMake (isLasting_sameMake.reset c) ?_
    rw [isClaiming, reset_standing]
    rfl
  timeOut c mute := by
    refine mute.of_sameMake (isLasting_sameMake.timeOut c) ?_
    rw [isClaiming, timeOut_standing]
    split
    · rfl
    · exact mute.silent
  timer _ _ mute := ⟨mute.ruleless, mute.silent⟩
  look c x _ visible mute := by
    refine mute.of_sameMake (sameMake_observeTouch visible x) ?_
    rw [isClaiming, observeTouch_standing, visible]
    exact mute.silent

end Mute

end Interactor

end TouchIntent
