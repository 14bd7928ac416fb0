import TouchIntent.Proofs.Arbiter.Pool
import TouchIntent.Proofs.Recognizer.Position
import TouchIntent.Proofs.Rule.Run

/-!
# What no operation changes

Every operation on an interactor is put together from a few changes. A relation between an
interactor and what has become of it that these changes keep is *lasting*: no operation breaks it.
The one that matters is to be of the same make. Ids, names, priors, claim rules and the graph of the
rules stay as they were built, and so does all of a behaviour that a reset does not forget, unless
the behaviour may start anywhere.
-/

namespace TouchIntent

open Scalar

variable {R ν : Type} [Scalar R]

namespace Recognizer

/-- A recognizer without what its interactor makes of it: its posterior, and whether it is the most
likely behaviour. -/
def unjudged (r : Recognizer R) : Recognizer R :=
  { r with logPosterior := negInfinity, isMostLikely := false }

section Unjudged

variable (r : Recognizer R) (posterior : R)

@[simp] theorem unjudged_weigh : { r with logPosterior := posterior }.unjudged = r.unjudged := rfl

@[simp] theorem unjudged_reset : r.reset.unjudged = r.unjudged.reset := rfl

theorem unjudged_anchor (s : Sample R) : (r.anchor s).unjudged = r.unjudged.anchor s := by
  have placed : r.unjudged.origin = r.origin := rfl
  have anchored : r.unjudged.isAnchored = r.isAnchored := rfl
  rw [anchor, anchor, placed, anchored]
  cases r.origin with
  | none => rfl
  | some o => cases !r.isAnchored && s.kind == .down <;> rfl

/-- What a recognizer makes of a sample does not depend on what its interactor makes of it. -/
theorem unjudged_observeTouch (s : Sample R) :
    (r.observeTouch s).unjudged = r.unjudged.observeTouch s := by
  by_cases accepted : s.pointer ∈ r.window.pointers
  · have taken : (r.takeIn s).unjudged = r.unjudged.takeIn s := by
      simp only [takeIn, ← unjudged_anchor]
      rfl
    have accepted' : s.pointer ∈ r.unjudged.window.pointers := accepted
    rw [observeTouch_eq accepted, observeTouch_eq accepted', ← taken]
    rfl
  · have ignored : s.pointer ∉ r.unjudged.window.pointers := accepted
    rw [observeTouch_of_ignored accepted, observeTouch_of_ignored ignored]

end Unjudged

/-- `r'` is what `r` has become: if the gesture may not start anywhere, a reset makes them equal
again, up to what the interactor makes of them. -/
structure Becomes (r r' : Recognizer R) : Prop where
  origin : r.origin = none → r'.origin = none
  reset : r.origin = none → r'.reset.unjudged = r.reset.unjudged

namespace Becomes

variable {r r' r'' : Recognizer R}

theorem refl (r : Recognizer R) : r.Becomes r := ⟨fun fixed => fixed, fun _ => rfl⟩

theorem trans (first : r.Becomes r') (second : r'.Becomes r'') : r.Becomes r'' where
  origin fixed := second.origin (first.origin fixed)
  reset fixed := (second.reset (first.origin fixed)).trans (first.reset fixed)

/-- What an interactor makes of a behaviour does not last. -/
theorem of_unjudged (same : r'.unjudged = r.unjudged) : r.Becomes r' where
  origin fixed := (congrArg Recognizer.origin same).trans fixed
  reset _ := by rw [unjudged_reset, same, unjudged_reset]

theorem forget (r : Recognizer R) : r.Becomes r.reset where
  origin fixed := fixed
  reset _ := by rw [reset_reset]

/-- Where a gesture may not start anywhere, samples do not move it. -/
theorem observeTouch (r : Recognizer R) (s : Sample R) : r.Becomes (r.observeTouch s) := by
  by_cases accepted : s.pointer ∈ r.window.pointers
  · have still : r.origin = none → r.anchor s = r := by
      intro fixed
      rw [anchor, fixed]
    constructor
    · intro fixed
      rw [observeTouch_eq accepted]
      show (r.anchor s).origin = none
      rw [still fixed]
      exact fixed
    · intro fixed
      rw [reset_observeTouch accepted, still fixed]
  · rw [observeTouch_of_ignored accepted]
    exact refl r

end Becomes

end Recognizer

namespace Interactor

/-- A relation between an interactor and what has become of it that no operation breaks. -/
structure IsLasting (rel : Interactor R ν → Interactor R ν → Prop) : Prop where
  refl : ∀ a, rel a a
  trans : ∀ a b c, rel a b → rel b c → rel a c
  stand : ∀ (a : Interactor R ν) (standing : Standing), rel a { a with standing }
  rank : ∀ (a : Interactor R ν) (candidateProbability : R), rel a { a with candidateProbability }
  stopTimer : ∀ a : Interactor R ν, rel a { a with timer := none }
  forget : ∀ a, rel a a.resetObservations
  startOver : ∀ a, rel a a.resetReasoning
  look : ∀ (a : Interactor R ν) (s : Sample R), a.isHidden = false → rel a (a.observeTouch s)
  judge : ∀ a, rel a { a with rulebook := (a.rulebook.update a.views).book }

namespace IsLasting

variable {rel : Interactor R ν → Interactor R ν → Prop} (lasting : IsLasting rel)
  (a : Interactor R ν)
include lasting

theorem apply (command : StandingCommand) : rel a (a.apply command).1 := lasting.stand a _

theorem exclude : rel a a.exclude.1 :=
  lasting.trans _ _ _ (lasting.apply a .exclude) (lasting.startOver _)

theorem selfExclude : rel a a.selfExclude.1 := by
  unfold Interactor.selfExclude
  split
  · exact lasting.exclude a
  · exact lasting.apply a .selfExclude

theorem withdrawSelfExclusion (queue : TaskQueue) : rel a (a.withdrawSelfExclusion queue).1 :=
  lasting.trans _ _ _ (lasting.stopTimer a) (lasting.apply _ .withdrawSelfExclusion)

theorem grantSelfExclusion : rel a a.grantSelfExclusion.1 := by
  have granted := lasting.apply a .grantSelfExclusion
  unfold Interactor.grantSelfExclusion
  simp only
  split
  · exact lasting.trans _ _ _ granted (lasting.startOver _)
  · exact granted

theorem timeOut : rel a a.timeOut.1 :=
  lasting.trans _ _ _ (lasting.stopTimer a) (lasting.selfExclude _)

theorem reset : rel a a.reset := by
  unfold Interactor.reset
  split
  · exact lasting.exclude a
  · exact lasting.startOver a

theorem observeTouch (s : Sample R) : rel a (a.observeTouch s) := by
  cases hidden : a.isHidden with
  | false => exact lasting.look a s hidden
  | true =>
    unfold Interactor.observeTouch
    rw [if_pos hidden]
    split
    · exact lasting.selfExclude a
    · exact lasting.reset a

theorem claim (queue : TaskQueue) : rel a (a.claim queue).1 :=
  lasting.trans _ _ _ (lasting.stopTimer a) (lasting.apply _ .claim)

theorem undetermine (queue : TaskQueue) : rel a (a.undetermine queue).1 :=
  lasting.trans _ _ _ (lasting.apply a .undetermine)
    (lasting.trans _ _ _ (lasting.startOver _) (lasting.stopTimer _))

theorem afterRules : rel a a.afterRules := by
  have judged := lasting.judge a
  unfold Interactor.afterRules Interactor.updateRules
  simp only
  split
  · exact lasting.trans _ _ _ judged (lasting.claim _ {})
  · exact judged

theorem appraisal (arbiter : Arbiter R) (grants : Bool) :
    rel a (arbiter.appraisal grants a).contender := by
  rw [Arbiter.appraisal_eq]
  split_ifs
  · exact lasting.trans _ _ _ (lasting.grantSelfExclusion a) (lasting.withdrawSelfExclusion _ {})
  · exact lasting.exclude a
  · exact lasting.apply a .promote
  · exact lasting.forget a
  · exact lasting.refl a

end IsLasting

/-! ## The same make -/

/-- `b` is what has become of `a` in the course of a session. -/
structure SameMake (a b : Interactor R ν) : Prop where
  id_eq : b.id = a.id
  name : b.name = a.name
  prior : b.prior = a.prior
  claimRule : b.claimRule = a.claimRule
  isHidden : b.isHidden = a.isHidden
  graph : a.rulebook.SameGraph b.rulebook
  behaviors : a.prior.length = a.behaviors.length →
    List.Forall₂ Recognizer.Becomes a.behaviors b.behaviors

namespace SameMake

variable {a b c : Interactor R ν}

theorem trans (first : a.SameMake b) (second : b.SameMake c) : a.SameMake c where
  id_eq := second.id_eq.trans first.id_eq
  name := second.name.trans first.name
  prior := second.prior.trans first.prior
  claimRule := second.claimRule.trans first.claimRule
  isHidden := second.isHidden.trans first.isHidden
  graph := first.graph.trans second.graph
  behaviors := by
    intro sized
    have earlier := first.behaviors sized
    have later := second.behaviors (by rw [first.prior, sized, earlier.length_eq])
    exact Arbiter.forall₂_comp earlier later fun _ _ _ => Recognizer.Becomes.trans

end SameMake

theorem updatePosterior_behaviors (a : Interactor R ν) :
    a.updatePosterior.behaviors =
      (a.behaviors.zipWith (fun b p => { b with logPosterior := p })
        a.updatePosterior.posterior).zipIdx.map
          fun (b, i) => { b with isMostLikely := i == a.updatePosterior.mostLikely } := rfl

theorem length_updatePosterior (a : Interactor R ν) :
    a.updatePosterior.posterior.length = min a.prior.length a.behaviors.length := by
  simp only [updatePosterior]
  split <;> simp

/-- Working out the posteriors leaves of each behaviour all but its own. -/
theorem unjudged_updatePosterior (a : Interactor R ν)
    (sized : a.prior.length = a.behaviors.length) :
    List.Forall₂ (fun r r' : Recognizer R => r'.unjudged = r.unjudged) a.behaviors
      a.updatePosterior.behaviors := by
  rw [List.forall₂_iff_get]
  constructor
  · simp [updatePosterior_behaviors, length_updatePosterior, sized]
  · intro i h h'
    simp only [updatePosterior_behaviors, List.get_eq_getElem, List.getElem_map,
      List.getElem_zipIdx, List.getElem_zipWith]
    rfl

theorem becomes_updatePosterior (a : Interactor R ν) (sized : a.prior.length = a.behaviors.length) :
    List.Forall₂ Recognizer.Becomes a.behaviors a.updatePosterior.behaviors :=
  (a.unjudged_updatePosterior sized).imp fun _ _ => Recognizer.Becomes.of_unjudged

theorem sameMake_observeTouch {a : Interactor R ν} (shown : a.isHidden = false) (s : Sample R) :
    a.SameMake (a.observeTouch s) := by
  unfold Interactor.observeTouch
  rw [if_neg (by rw [shown]; exact Bool.false_ne_true)]
  refine ⟨rfl, rfl, rfl, rfl, rfl, .refl _, fun sized => ?_⟩
  have seen : List.Forall₂ Recognizer.Becomes a.behaviors
      (a.behaviors.map fun b => b.observeTouch s) := by
    rw [List.forall₂_map_right_iff]
    exact List.forall₂_same.2 fun r _ => .observeTouch r s
  have judged := becomes_updatePosterior
    { a with behaviors := a.behaviors.map fun b => b.observeTouch s } (by simpa using sized)
  exact Arbiter.forall₂_comp seen judged fun _ _ _ => Recognizer.Becomes.trans

theorem sameMake_resetObservations (a : Interactor R ν) : a.SameMake a.resetObservations := by
  refine ⟨rfl, rfl, rfl, rfl, rfl, .refl _, fun _ => ?_⟩
  rw [resetObservations, List.forall₂_map_right_iff]
  exact List.forall₂_same.2 fun r _ => .forget r

theorem sameMake_resetReasoning (a : Interactor R ν) : a.SameMake a.resetReasoning := by
  have graph := a.rulebook.sameGraph_perform .reset
  rw [Rulebook.withAdded_of_none rfl] at graph
  refine ⟨rfl, rfl, rfl, rfl, rfl, graph, fun _ => ?_⟩
  simp only [resetReasoning, resetObservations, forgetPosterior, List.map_map,
    List.forall₂_map_right_iff]
  refine List.forall₂_same.2 fun r _ => ?_
  exact (Recognizer.Becomes.forget r).trans (.of_unjudged rfl)

theorem sameMake_judge (a : Interactor R ν) :
    a.SameMake { a with rulebook := (a.rulebook.update a.views).book } := by
  have graph := a.rulebook.sameGraph_perform (.update a.views)
  rw [Rulebook.withAdded_of_none rfl] at graph
  exact ⟨rfl, rfl, rfl, rfl, rfl, graph, fun _ => List.forall₂_same.2 fun r _ => .refl r⟩

theorem SameMake.of_eq {a b : Interactor R ν} (id_eq : b.id = a.id) (name : b.name = a.name)
    (prior : b.prior = a.prior) (claimRule : b.claimRule = a.claimRule)
    (isHidden : b.isHidden = a.isHidden) (rulebook : b.rulebook = a.rulebook)
    (behaviors : b.behaviors = a.behaviors) : a.SameMake b := by
  refine ⟨id_eq, name, prior, claimRule, isHidden, rulebook ▸ .refl _, fun _ => ?_⟩
  rw [behaviors]
  exact List.forall₂_same.2 fun r _ => .refl r

theorem sameMake_timer (a : Interactor R ν) (timer : Option CancelToken) :
    a.SameMake { a with timer } := .of_eq rfl rfl rfl rfl rfl rfl rfl

/-- No operation changes the make of an interactor. -/
theorem isLasting_sameMake : IsLasting (SameMake (R := R) (ν := ν)) where
  refl _ := .of_eq rfl rfl rfl rfl rfl rfl rfl
  trans _ _ _ := SameMake.trans
  stand _ _ := .of_eq rfl rfl rfl rfl rfl rfl rfl
  rank _ _ := .of_eq rfl rfl rfl rfl rfl rfl rfl
  stopTimer a := a.sameMake_timer none
  forget := sameMake_resetObservations
  startOver := sameMake_resetReasoning
  look _ s shown := sameMake_observeTouch shown s
  judge := sameMake_judge

end Interactor

end TouchIntent
