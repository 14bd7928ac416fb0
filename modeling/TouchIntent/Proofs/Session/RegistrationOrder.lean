import Mathlib
import TouchIntent.Proofs.Arbiter.Reordering
import TouchIntent.Proofs.Session.ClaimResolution

/-!
# The order of registration

The elements of the screen are registered in some order, which gives them their ids. It is not to
decide who wins: a round of mediation with the same elements in another order has the same outcome,
and leaves every element in the same state, unless two contestants tie for the greatest evidence.
-/

namespace TouchIntent

open Arbiter

/-- A round of mediation in a session without a winner, and one with the same interactors in another
order: up to the ids they determine, exclude and promote the same interactors, leave all of them in
the same state and the same ones in the pool, and call the same listeners. -/
theorem registration_order_irrelevant {ν : Type} {rename : InteractorId → InteractorId}
    (injective : Function.Injective rename) {s t : Session EReal ν} (listed : s.ListsMembers)
    (undecided : ∀ a ∈ s.interactors, a.isDetermined = false)
    (reordered : Reordered rename s.arbiter s.interactors t.arbiter t.interactors)
    (untied : Untied (contestants (s.arbiter.settling s.interactors s.queue).1)) :
    Reordered rename s.mediate.session.arbiter s.mediate.session.interactors
      t.mediate.session.arbiter t.mediate.session.interactors ∧
    (∃ o o', s.mediate.outcome = some o ∧ t.mediate.outcome = some o' ∧
      o'.determined = o.determined.map rename ∧ o'.excluded.Perm (o.excluded.map rename) ∧
      o'.promoted.Perm (o.promoted.map rename)) ∧
    t.mediate.firings.Perm s.mediate.firings := by
  have same : SameRound rename (s.arbiter.mediate s.interactors s.queue)
      (t.arbiter.mediate t.interactors t.queue) :=
    reordered.mediate injective listed.agrees undecided untied
  simp only [Session.mediate_interactors, Session.mediate_arbiter, Session.mediate_outcome,
    Session.mediate_firings]
  exact ⟨same.toReordered, ⟨_, _, rfl, rfl, same.determined, same.excluded, same.promoted⟩,
    same.reports⟩

/-- An element that is shown takes in a sample without asking for its own id. -/
theorem Interactor.observeTouch_renamed {ν : Type} (a : Interactor EReal ν)
    (rename : InteractorId → InteractorId) (visible : a.isHidden = false) (s : Sample EReal) :
    (a.renamed rename).observeTouch s = (a.observeTouch s).renamed rename := by
  have visible' : (a.renamed rename).isHidden = false := visible
  simp only [observeTouch, visible, visible', Bool.false_eq_true, if_false]
  rfl

namespace Twins

/-- An element a bit away from the corner. -/
noncomputable def aside : SceneInteractor EReal := { twin "right" with bounds := around 1 }

/-- The scene of two elements, the nearer one first. -/
noncomputable def leftFirst : Scene EReal := ⟨scene.surface, [twin "left", aside]⟩

/-- The same scene in the other order. -/
noncomputable def leftLast : Scene EReal := ⟨scene.surface, [aside, twin "left"]⟩

/-- Both orders lead to the same elements, with the ids exchanged. -/
theorem ofScene_leftFirst {ν : Type} : ∃ (s t : Session EReal ν) (c d : Interactor EReal ν),
    Session.ofScene .default leftFirst = .ok s ∧ Session.ofScene .default leftLast = .ok t ∧
      s.arbiter = ⟨defaultRuleOutEvidence, []⟩ ∧ t.arbiter = s.arbiter ∧
      s.interactors = [c, d] ∧
      t.interactors = [d.renamed (Equiv.swap 0 1), c.renamed (Equiv.swap 0 1)] ∧
      (c.Watches standard false [] ∧ c.standing = .idle ∧ c.id = 0) ∧
      (d.Watches (standardAt 1) false [] ∧ d.standing = .idle ∧ d.id = 1) := by
  obtain ⟨c, cbuilt, cwatches, cidle⟩ := @build_twin ν "left"
  obtain ⟨d, dbuilt, dwatches, didle⟩ :=
    SceneInteractor.build_tap (ν := ν) (i := aside) rfl (compile_around 1) rfl rfl rfl
  refine ⟨((Session.empty .default).add c).add d, ((Session.empty .default).add d).add c,
    { c with id := 0 }, { d with id := 1 }, ?_, ?_, rfl, rfl, rfl, ?_,
    ⟨cwatches.withId 0, cidle, rfl⟩, dwatches.withId 1, didle, rfl⟩
  · simp only [Session.ofScene, leftFirst, scene, Settings.default, List.foldlM_cons,
      List.foldlM_nil, cbuilt, dbuilt]
    rfl
  · simp only [Session.ofScene, leftLast, scene, Settings.default, List.foldlM_cons,
      List.foldlM_nil, cbuilt, dbuilt]
    rfl
  · simp [Session.add, Session.empty, Interactor.renamed]

/-- They still are the same elements when they have seen a tap, and there is no tie. -/
theorem takeIn_leftFirst {ν : Type} : ∃ s t : Session EReal ν,
    Session.ofScene .default leftFirst = .ok s ∧ Session.ofScene .default leftLast = .ok t ∧
      (s.takeIn [tap]).ListsMembers ∧
      (∀ a ∈ (s.takeIn [tap]).interactors, a.isDetermined = false) ∧
      Reordered (Equiv.swap 0 1) (s.takeIn [tap]).arbiter (s.takeIn [tap]).interactors
        (t.takeIn [tap]).arbiter (t.takeIn [tap]).interactors ∧
      Untied (contestants ((s.takeIn [tap]).arbiter.settling (s.takeIn [tap]).interactors
        (s.takeIn [tap]).queue).1) := by
  obtain ⟨s, t, c, d, built, built', arbiter, arbiter', interactors, interactors',
    ⟨cwatches, cidle, first⟩, dwatches, didle, second⟩ := @ofScene_leftFirst ν
  obtain ⟨listed, undecided, c', d', contest, -, cevidence, devidence⟩ :=
    settling_takeIn_tap (Session.isConsistent_ofScene built) arbiter interactors cwatches cidle
      first dwatches didle second (by norm_num)
  have less : evidenceOf d' < evidenceOf c' := by
    rw [cevidence, devidence, EReal.coe_lt_coe_iff]
    norm_num
  refine ⟨s, t, built, built', listed, undecided, ⟨?_, ?_, ?_⟩, ?_⟩
  · rw [s.takeIn_singleton (by decide), t.takeIn_singleton (by decide)]
    exact congrArg Arbiter.threshold arbiter'
  · rw [s.takeIn_singleton (by decide), t.takeIn_singleton (by decide)]
    show t.arbiter.candidates.Perm (s.arbiter.candidates.map _)
    rw [arbiter', arbiter]
    exact .nil
  · rw [s.takeIn_singleton (by decide), t.takeIn_singleton (by decide)]
    show (t.interactors.map _).Perm ((s.interactors.map _).map _)
    rw [interactors, interactors']
    simp only [List.map_cons, List.map_nil, c.observeTouch_renamed _ cwatches.visible,
      d.observeTouch_renamed _ dwatches.visible]
    exact .swap _ _ _
  · rw [contest]
    intro v hv w hw tie _
    rcases List.mem_pair.1 hv with rfl | rfl <;> rcases List.mem_pair.1 hw with rfl | rfl
    · rfl
    · exact absurd tie less.ne'
    · exact absurd tie less.ne
    · rfl

end Twins

/-- Two elements of which a tap is meant for one rather than the other, in both orders. -/
theorem registration_order_irrelevant_twins : ∃ s t : Session EReal Unit,
    Session.ofScene .default Twins.leftFirst = .ok s ∧
      Session.ofScene .default Twins.leftLast = .ok t ∧
      Reordered (Equiv.swap 0 1) (s.takeIn [Twins.tap]).mediate.session.arbiter
        (s.takeIn [Twins.tap]).mediate.session.interactors
        (t.takeIn [Twins.tap]).mediate.session.arbiter
        (t.takeIn [Twins.tap]).mediate.session.interactors ∧
      ∃ o o', (s.takeIn [Twins.tap]).mediate.outcome = some o ∧
        (t.takeIn [Twins.tap]).mediate.outcome = some o' ∧
        o'.determined = o.determined.map (Equiv.swap 0 1) ∧
        o'.excluded.Perm (o.excluded.map (Equiv.swap 0 1)) ∧
        o'.promoted.Perm (o.promoted.map (Equiv.swap 0 1)) := by
  obtain ⟨s, t, built, built', listed, undecided, reordered, untied⟩ :=
    @Twins.takeIn_leftFirst Unit
  obtain ⟨after, decided, -⟩ := registration_order_irrelevant (Equiv.swap 0 1).injective listed
    undecided reordered untied
  exact ⟨s, t, built, built', after, decided⟩

end TouchIntent
