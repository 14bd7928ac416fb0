import Mathlib
import TouchIntent.Proofs.Arbiter.Contest
import TouchIntent.Proofs.Session.PoolConsistency

/-!
# What becomes of claims

A round of mediation in a session without a winner: who wins depends on the claims and on the
evidence in the settled pool, and on nothing else.
-/

namespace TouchIntent

open Arbiter

namespace Session

/-- No id is shared, and the pool lists, each once, the interactors that are candidates or have
asked to leave. -/
structure ListsMembers {R ν : Type} (s : Session R ν) : Prop where
  ids : (s.interactors.map Interactor.id).Nodup
  distinct : s.arbiter.candidates.Nodup
  mem_iff : ∀ id, id ∈ s.arbiter.candidates ↔ ∃ a ∈ s.interactors, a.id = id ∧
    (a.standing.status = .candidate ∨ a.standing.status = .selfExcluded)

variable {R ν : Type} {s : Session R ν}

theorem ListsMembers.agrees (listed : s.ListsMembers) :
    Agrees s.arbiter.candidates s.interactors where
  ids := listed.ids
  distinct := listed.distinct
  known := by
    intro id inPool
    obtain ⟨a, member, rfl, -⟩ := (listed.mem_iff id).1 inPool
    exact List.mem_map_of_mem member
  pooled := by
    intro a member inPool
    obtain ⟨b, source, same, pooled⟩ := (listed.mem_iff a.id).1 inPool
    obtain rfl := List.inj_on_of_nodup_map listed.ids source member same
    rcases pooled with plain | leaves
    · rw [plain]
      rfl
    · rw [leaves]
      rfl
  listed a member plain := (listed.mem_iff a.id).2 ⟨a, member, rfl, .inl plain⟩

/-- Between the operations of a host, every session of a scene lists its members. -/
theorem IsConsistent.listsMembers (consistent : s.IsConsistent) : s.ListsMembers where
  ids := consistent.ids
  distinct := consistent.distinct
  mem_iff id := by
    rw [consistent.mem_iff]
    constructor
    · rintro ⟨a, member, same, plain⟩
      exact ⟨a, member, same, .inl plain⟩
    · rintro ⟨a, member, same, plain | leaves⟩
      · exact ⟨a, member, same, plain⟩
      · exact absurd leaves (consistent.loyal a member)

end Session

/-- A round of mediation in a session without a winner. If nobody in the settled pool claims, nobody
wins. A sole claimant is judged; if several claim, the first contestant of greatest evidence is.
Whoever is judged wins if and only if its evidence lies above the threshold; everyone else ends up
idle, the pool empty, and the outcome names the winner. -/
theorem claims_resolved {ν : Type} {s : Session EReal ν} (listed : s.ListsMembers)
    (undecided : ∀ a ∈ s.interactors, a.isDetermined = false) :
    (claimants (s.arbiter.settling s.interactors s.queue).1 = [] →
      (∀ a ∈ s.mediate.session.interactors, a.isDetermined = false) ∧
        s.mediate.outcome.bind MediationOutcome.determined = none) ∧
    (∀ c, claimants (s.arbiter.settling s.interactors s.queue).1 = [c] →
      Judged s.arbiter.threshold c s.mediate.session.interactors
        s.mediate.session.arbiter.candidates
        (s.mediate.outcome.bind MediationOutcome.determined)) ∧
    (2 ≤ (claimants (s.arbiter.settling s.interactors s.queue).1).length →
      ∃ w, IsFirstBest (contestants (s.arbiter.settling s.interactors s.queue).1) w ∧
        Judged s.arbiter.threshold w s.mediate.session.interactors
          s.mediate.session.arbiter.candidates
          (s.mediate.outcome.bind MediationOutcome.determined)) := by
  rw [Session.mediate_interactors, Session.mediate_arbiter, Session.mediate_outcome,
    Option.bind_some]
  refine ⟨mediate_silent listed.agrees undecided, fun c sole => ?_, fun several => ?_⟩
  · exact judged_sole listed.agrees undecided sole
  · exact judged_several listed.agrees undecided several

namespace Twins

/-- Two elements, the second one a bit away from the first, have seen a tap in the middle of the
first one. The arbiter has not mediated yet; when it does, they contest and both claim. -/
theorem settling_takeIn_tap {ν : Type} {s : Session EReal ν} {c d : Interactor EReal ν} {x : ℝ}
    (consistent : s.IsConsistent) (arbiter : s.arbiter = ⟨defaultRuleOutEvidence, []⟩)
    (interactors : s.interactors = [c, d]) (cwatches : c.Watches standard false [])
    (cidle : c.standing = .idle) (first : c.id = 0) (dwatches : d.Watches (standardAt x) false [])
    (didle : d.standing = .idle) (second : d.id = 1) (near : x ^ 2 ≤ 1) :
    (s.takeIn [tap]).ListsMembers ∧
    (∀ a ∈ (s.takeIn [tap]).interactors, a.isDetermined = false) ∧
    ∃ c' d' : Interactor EReal ν,
      contestants ((s.takeIn [tap]).arbiter.settling (s.takeIn [tap]).interactors
        (s.takeIn [tap]).queue).1 = [c', d'] ∧
      claimants ((s.takeIn [tap]).arbiter.settling (s.takeIn [tap]).interactors
        (s.takeIn [tap]).queue).1 = [c', d'] ∧
      evidenceOf c' = ((-Real.log (2 * Real.pi) : ℝ) : EReal) ∧
      evidenceOf d' = ((-Real.log (2 * Real.pi) - x ^ 2 / 2 : ℝ) : EReal) := by
  have taken := Session.isConsistent_takeIn consistent [tap]
  have shown : (s.takeIn [tap]).interactors = [c.observeTouch tap, d.observeTouch tap] := by
    rw [s.takeIn_singleton (by decide)]
    simp [Session.forward, interactors]
  have stands {a : Interactor EReal ν} {g : Gaussian EReal} (watches : a.Watches g false [])
      (idle : a.standing = .idle) : (a.observeTouch tap).standing = .idle := by
    rw [a.observeTouch_standing, watches.visible, idle]
    rfl
  have likely (x : ℝ) : (Model.single (standardAt x)).logLikelihood ([] ++ [tap]) =
      ((-Real.log (2 * Real.pi) - x ^ 2 / 2 : ℝ) : EReal) := by
    rw [List.nil_append, Model.logLikelihood_single
      (e := fun _ => -Real.log (2 * Real.pi) - x ^ 2 / 2) (List.cons_ne_nil tap [])
      (by simpa using logDensity_around x)]
    simp only [List.map_cons, List.map_nil, List.sum_cons, List.sum_nil, add_zero]
  have centred : (Model.single standard).logLikelihood ([] ++ [tap]) =
      ((-Real.log (2 * Real.pi) : ℝ) : EReal) := by simpa using likely 0
  have better : -Real.log (2 * Real.pi) - x ^ 2 / 2 ≤ -Real.log (2 * Real.pi) :=
    sub_le_self _ (by positivity)
  obtain ⟨m, c', d', settles, pool, contenders, ⟨cseen, cstands, cid⟩, dseen, dstands, did⟩ :=
    settling_claiming (cwatches.observeTouch (by decide) rfl centred)
      (dwatches.observeTouch (by decide) rfl (likely x)) (stands cwatches cidle)
      (stands dwatches didle) ((c.observeTouch_id tap).trans first)
      ((d.observeTouch_id tap).trans second) rfl centred (likely x) better
      (threshold_lt_around near)
  have untouched : (s.takeIn [tap]).arbiter = ⟨defaultRuleOutEvidence, []⟩ := by
    rw [s.takeIn_singleton (by decide)]
    exact arbiter
  have contest : contestants ((s.takeIn [tap]).arbiter.settling (s.takeIn [tap]).interactors
      (s.takeIn [tap]).queue).1 = [c', d'] := by
    rw [untouched, shown, settles]
    simp [contestants, pool, contenders, cid, did]
  refine ⟨taken.listsMembers, fun a member => ?_, c', d', contest, ?_,
    evidenceOf_eq (evidence_tap cseen centred), evidenceOf_eq (evidence_tap dseen (likely x))⟩
  · rw [shown] at member
    rcases List.mem_pair.1 member with rfl | rfl
    · rw [Interactor.isDetermined, stands cwatches cidle]
      rfl
    · rw [Interactor.isDetermined, stands dwatches didle]
      rfl
  · rw [claimants, contest]
    simp [claiming_candidate cstands, claiming_candidate dstands]

/-- The twins have both seen a tap, and the arbiter has not mediated yet. -/
theorem takeIn_tap {ν : Type} : ∃ s : Session EReal ν, Session.ofScene .default scene = .ok s ∧
    (s.takeIn [tap]).ListsMembers ∧
    (∀ a ∈ (s.takeIn [tap]).interactors, a.isDetermined = false) ∧
    ∃ c d : Interactor EReal ν, claimants ((s.takeIn [tap]).arbiter.settling
      (s.takeIn [tap]).interactors (s.takeIn [tap]).queue).1 = [c, d] := by
  obtain ⟨s, c, d, built, arbiter, interactors, ⟨cwatches, cidle, first⟩, dwatches, didle,
    second⟩ := @ofScene_scene ν
  obtain ⟨listed, undecided, c', d', -, claims, -⟩ :=
    settling_takeIn_tap (Session.isConsistent_ofScene built) arbiter interactors cwatches cidle
      first (show d.Watches (standardAt 0) false [] from dwatches) didle second (by norm_num)
  exact ⟨s, built, listed, undecided, c', d', claims⟩

end Twins

/-- Both twins claim after a tap, and one of them is judged. -/
theorem claims_resolved_twins : ∃ s : Session EReal Unit,
    Session.ofScene .default Twins.scene = .ok s ∧ (s.takeIn [Twins.tap]).ListsMembers ∧
    (∀ a ∈ (s.takeIn [Twins.tap]).interactors, a.isDetermined = false) ∧
    ∃ w, IsFirstBest (contestants ((s.takeIn [Twins.tap]).arbiter.settling
        (s.takeIn [Twins.tap]).interactors (s.takeIn [Twins.tap]).queue).1) w ∧
      Judged (s.takeIn [Twins.tap]).arbiter.threshold w
        (s.takeIn [Twins.tap]).mediate.session.interactors
        (s.takeIn [Twins.tap]).mediate.session.arbiter.candidates
        ((s.takeIn [Twins.tap]).mediate.outcome.bind MediationOutcome.determined) := by
  obtain ⟨s, built, listed, undecided, c, d, claims⟩ := @Twins.takeIn_tap Unit
  refine ⟨s, built, listed, undecided, (claims_resolved listed undecided).2.2 ?_⟩
  rw [claims]
  exact Nat.le_refl 2

end TouchIntent
