import Mathlib
import TouchIntent.Proofs.Interactor.Posterior
import TouchIntent.Proofs.Recognizer.Likelihood
import TouchIntent.Proofs.Session.SingleWinner

/-!
# What an interactor infers

An interactor that is shown a run of samples has each of its behaviours look at all of them, and
concludes something after every one. Its conclusions do not bear on what the behaviours see. So
after each sample it weighs the behaviours by what each of them makes of the whole run, those that
ignored some of the samples included.
-/

namespace TouchIntent

open Scalar

/-- What its interactor makes of it does not matter to whether a recognizer is sound. -/
theorem Recognizer.IsSound.of_unjudged {r r' : Recognizer EReal} (sound : r.IsSound)
    (same : r'.unjudged = r.unjudged) : r'.IsSound := by
  have model : r'.unjudged.model = r.unjudged.model := by rw [same]
  have origin : r'.unjudged.origin = r.unjudged.origin := by rw [same]
  have window : r'.unjudged.window = r.unjudged.window := by rw [same]
  have likelihood : r'.unjudged.logLikelihood = r.unjudged.logLikelihood := by rw [same]
  refine ⟨?_, ?_, ?_, ?_⟩
  · exact model ▸ sound.model
  · exact origin ▸ sound.origin
  · exact window ▸ sound.seen
  · exact likelihood ▸ sound.bounded

namespace Interactor

/-! ## Runs of samples -/

section Runs

variable {R ν : Type} [Scalar R] {a b : Interactor R ν}

/-- An interactor that is not hidden has all of its behaviours look at a sample, and then concludes
from what they make of it. -/
theorem observeTouch_eq (visible : a.isHidden = false) (s : Sample R) :
    ∃ c : Interactor R ν, a.observeTouch s = c.updatePosterior ∧ c.prior = a.prior ∧
      c.behaviors = (a.behaviors.map fun r => r.observeTouch s) ∧ c.isHidden = false := by
  rw [observeTouch, if_neg (by simp [visible])]
  exact ⟨_, rfl, rfl, rfl, visible⟩

/-- `b` is what has become of `a` after a run of samples: each behaviour has looked at all of them,
and all else that may have changed is what the interactor makes of its behaviours. -/
structure HasSeen (a : Interactor R ν) (samples : List (Sample R)) (b : Interactor R ν) :
    Prop where
  prior : b.prior = a.prior
  visible : b.isHidden = false
  behaviors : List.Forall₂ (fun r r' : Recognizer R =>
    r'.unjudged = (samples.foldl Recognizer.observeTouch r).unjudged) a.behaviors b.behaviors

theorem HasSeen.observeTouch {samples : List (Sample R)} (seen : a.HasSeen samples b)
    (sized : a.prior.length = a.behaviors.length) (s : Sample R) :
    a.HasSeen (samples ++ [s]) (b.observeTouch s) := by
  obtain ⟨c, same, prior, behaviors, visible⟩ := b.observeTouch_eq seen.visible s
  have sized' : c.prior.length = c.behaviors.length := by
    rw [prior, behaviors, List.length_map, seen.prior, sized, seen.behaviors.length_eq]
  have looked : List.Forall₂ (fun r r' : Recognizer R =>
      r'.unjudged = ((samples ++ [s]).foldl Recognizer.observeTouch r).unjudged)
      a.behaviors c.behaviors := by
    rw [behaviors, List.forall₂_map_right_iff]
    refine seen.behaviors.imp fun r r' earlier => ?_
    rw [List.foldl_concat, Recognizer.unjudged_observeTouch, earlier,
      ← Recognizer.unjudged_observeTouch]
  rw [same]
  refine ⟨prior.trans seen.prior, visible, ?_⟩
  exact Arbiter.forall₂_comp looked (c.unjudged_updatePosterior sized') fun _ _ _ known kept =>
    kept.trans known

theorem hasSeen_foldl (visible : a.isHidden = false) (sized : a.prior.length = a.behaviors.length)
    (samples : List (Sample R)) : a.HasSeen samples (samples.foldl Interactor.observeTouch a) := by
  induction samples using List.reverseRecOn with
  | nil => exact ⟨rfl, visible, List.forall₂_same.2 fun _ _ => rfl⟩
  | append_singleton samples s ih =>
    rw [List.foldl_concat]
    exact ih.observeTouch sized s

/-- The running likelihood of a behaviour is the one it would come to on its own. -/
theorem HasSeen.logLikelihoods {samples : List (Sample R)} (seen : a.HasSeen samples b) :
    b.logLikelihoods =
      a.behaviors.map fun r => (samples.foldl Recognizer.observeTouch r).logLikelihood := by
  rw [← List.forall₂_eq_eq_eq, Interactor.logLikelihoods, List.forall₂_map_left_iff,
    List.forall₂_map_right_iff]
  exact seen.behaviors.flip.imp fun _ _ same => congrArg Recognizer.logLikelihood same

end Runs

section Exact

variable {ν : Type} {a : Interactor EReal ν}

/-- An interactor with a valid prior over sound behaviours, of which it has some. -/
structure IsSound (a : Interactor EReal ν) : Prop extends a.HasPrior where
  inhabited : a.behaviors ≠ []
  behaviors : ∀ r ∈ a.behaviors, r.IsSound

/-- An interactor that is built has the uniform prior. -/
theorem isSound_build {id : InteractorId} {behaviors : List (Recognizer EReal)}
    (built : Interactor.build id behaviors = .ok a) (sound : ∀ r ∈ behaviors, r.IsSound) :
    a.IsSound := by
  obtain ⟨-, -, -, -, sized, same, -⟩ := Session.build_eq_ok built
  obtain ⟨some, uniform⟩ := Session.prior_of_build built
  refine ⟨⟨?_, fun p member => ?_⟩, ?_, fun r member => ?_⟩
  · rw [sized, same, List.length_map]
  · rw [uniform] at member
    obtain ⟨_, -, rfl⟩ := List.mem_map.1 member
    rw [exact_one, exact_ofNat]
    exact exact_isPositive_div (exact_isPositive_coe one_pos)
      (exact_isPositive_coe (Nat.cast_pos.2 (List.length_pos_iff.2 some)))
  · rwa [same, Ne, List.map_eq_nil_iff]
  · rw [same] at member
    obtain ⟨r', source, rfl⟩ := List.mem_map.1 member
    exact (sound r' source).of_unjudged rfl

/-- Any prior that is accepted is valid. -/
theorem IsSound.withPrior (sound : a.IsSound) {prior : List EReal} {b : Interactor EReal ν}
    (weighted : a.withPrior prior = .ok b) : b.IsSound := by
  have positive := Session.isPositive_of_withPrior weighted
  obtain ⟨sized, rfl⟩ := Session.exists_of_withPrior weighted
  have some : prior ≠ [] := by
    rw [← List.length_pos_iff, sized, List.length_pos_iff]
    exact sound.inhabited
  refine ⟨⟨?_, fun p member => ?_⟩, sound.inhabited, sound.behaviors⟩
  · rw [List.length_map, sized]
  · obtain ⟨q, source, rfl⟩ := List.mem_map.1 member
    exact exact_isPositive_div (positive q source) (exact_isPositive_sum some positive)

/-- An interactor of a scene is sound, for an element, a surface and a density that are given by
real numbers. -/
theorem isSound_of_build {i : SceneInteractor EReal} {compiler : Compiler EReal}
    {maxObservations : Nat} (finite : compiler.IsFinite) (box : i.bounds.IsFinite)
    (built : i.build compiler maxObservations = .ok a) : a.IsSound := by
  refine Session.of_build_eq_ok IsSound ?_ ?_ ?_ ?_ built
  · intro behaviors core compiled made
    have sound : core.IsSound := isSound_build made fun r member => by
      obtain ⟨source, -, b, ok, rfl⟩ := compiled r member
      exact Recognizer.isSound_compile finite box ok maxObservations
    exact { sound with }
  · intro core prior next sound weighted
    exact sound.withPrior weighted
  · intro core statement next label sound ruled
    obtain ⟨book, -, rfl⟩ := Session.exists_of_addRule ruled
    exact { sound with }
  · intro core label next sound claims
    obtain rfl := Session.eq_of_claimOn claims
    exact { sound with }

theorem IsSound.bounded (sound : a.IsSound) : ∀ l ∈ a.logLikelihoods, l ≠ ⊤ := by
  intro l member
  obtain ⟨r, source, rfl⟩ := List.mem_map.1 member
  exact (sound.behaviors r source).bounded

/-- Concluding something keeps an interactor sound. -/
theorem IsSound.updatePosterior (sound : a.IsSound) : a.updatePosterior.IsSound := by
  have kept := a.unjudged_updatePosterior sound.sized
  refine ⟨⟨sound.sized.trans kept.length_eq, sound.positive⟩, fun none => ?_, fun r member => ?_⟩
  · rw [none, List.forall₂_nil_right_iff] at kept
    exact sound.inhabited kept
  · obtain ⟨i, inside, rfl⟩ := List.mem_iff_getElem.1 member
    exact (sound.behaviors _ (List.getElem_mem (kept.length_eq ▸ inside))).of_unjudged
      (kept.get (kept.length_eq ▸ inside) inside)

/-- What a sound interactor concludes from a sample it concludes from sound behaviours. -/
theorem IsSound.observeTouch_eq (sound : a.IsSound) (visible : a.isHidden = false)
    {s : Sample EReal} (finite : s.IsFinite) :
    ∃ c : Interactor EReal ν, a.observeTouch s = c.updatePosterior ∧ c.IsSound := by
  obtain ⟨c, same, prior, behaviors, -⟩ := a.observeTouch_eq visible s
  refine ⟨c, same, ⟨?_, prior ▸ sound.positive⟩, ?_, fun r member => ?_⟩
  · rw [prior, behaviors, List.length_map, sound.sized]
  · rw [behaviors, Ne, List.map_eq_nil_iff]
    exact sound.inhabited
  · rw [behaviors] at member
    obtain ⟨r', source, rfl⟩ := List.mem_map.1 member
    exact (sound.behaviors r' source).observeTouch finite

theorem IsSound.foldl_observeTouch (sound : a.IsSound) (visible : a.isHidden = false)
    {samples : List (Sample EReal)} (finite : ∀ s ∈ samples, s.IsFinite) :
    (samples.foldl Interactor.observeTouch a).IsSound := by
  induction samples using List.reverseRecOn with
  | nil => exact sound
  | append_singleton samples s ih =>
    obtain ⟨earlier, last⟩ := List.forall_mem_append.1 finite
    have seen := hasSeen_foldl visible sound.sized samples
    obtain ⟨c, same, sound'⟩ := (ih earlier).observeTouch_eq seen.visible
      (last s (List.mem_singleton.2 rfl))
    rw [List.foldl_concat, same]
    exact sound'.updatePosterior

/-- After any run of samples that an interactor sees, whatever its prior and its behaviours, its
posterior is that of Bayes' rule: each behaviour is weighed by its prior times its likelihood, and
the likelihood is what the behaviour makes of the samples on its own. If no behaviour is likely at
all, there is no evidence, and the first behaviour is flagged. -/
theorem posterior_follows_bayes (sound : a.IsSound) (visible : a.isHidden = false)
    {samples : List (Sample EReal)} (some : samples ≠ [])
    (finite : ∀ s ∈ samples, s.IsFinite) :
    let b := samples.foldl Interactor.observeTouch a
    b.prior = a.prior ∧
      b.logLikelihoods =
        (a.behaviors.map fun r => (samples.foldl Recognizer.observeTouch r).logLikelihood) ∧
      ((∃ l ∈ b.logLikelihoods, isFinite l = true) → b.FollowsBayes) ∧
      ((∀ l ∈ b.logLikelihoods, isFinite l = false) →
        b.evidence = ⊥ ∧ b.mostLikely = 0 ∧ b.Flags 0) := by
  intro b
  have seen : a.HasSeen samples b := hasSeen_foldl visible sound.sized samples
  refine ⟨seen.prior, seen.logLikelihoods, ?_⟩
  obtain ⟨c, same, sound'⟩ : ∃ c : Interactor EReal ν, b = c.updatePosterior ∧ c.IsSound := by
    obtain ⟨earlier, s, rfl⟩ := (List.eq_nil_or_concat' samples).resolve_left some
    obtain ⟨before, last⟩ := List.forall_mem_append.1 finite
    have reached := sound.foldl_observeTouch visible before
    have shown := (hasSeen_foldl visible sound.sized earlier).visible
    obtain ⟨c, same, sound'⟩ := reached.observeTouch_eq shown (last s (List.mem_singleton.2 rfl))
    refine ⟨c, ?_, sound'⟩
    rw [← same]
    exact List.foldl_concat ..
  rw [same, updatePosterior_logLikelihoods sound'.sized]
  refine ⟨followsBayes_updatePosterior sound'.toHasPrior sound'.bounded, fun unlikely => ?_⟩
  refine updatePosterior_of_unlikely sound'.toHasPrior sound'.inhabited fun l member => ?_
  by_contra likely
  have finite' := exact_isFinite.2 ⟨sound'.bounded l member, likely⟩
  rw [unlikely l member] at finite'
  cases finite'

/-- A gesture of one stop in the corner of the surface, for the given pointers. -/
noncomputable def cornerTap (pointers : List PointerId) : Behavior EReal where
  label := "C"
  model := .single Twins.standard
  pattern := ⟨[⟨true, true, []⟩], [[true]], []⟩
  origin := none
  pointers

/-- Two behaviours, of which the likelier one a priori does not listen to the pointer. -/
theorem posterior_follows_bayes_unheard : ∃ c a : Interactor EReal Unit,
    Interactor.build 0 [.ofBehavior (cornerTap [0, 1]) 1, .ofBehavior (cornerTap [1]) 1] = .ok c ∧
      c.withPrior [((1 : ℝ) : EReal), ((3 : ℝ) : EReal)] = .ok a ∧
      (a.observeTouch Twins.tap).prior = a.prior ∧
      (a.observeTouch Twins.tap).FollowsBayes := by
  have recognizer (pointers : List PointerId) :
      (Recognizer.ofBehavior (cornerTap pointers) 1).IsSound :=
    Recognizer.isSound_ofBehavior
      (Model.isSound_single (Gaussian.exact_hasDensity one_pos (by norm_num) _)
        ⟨exact_isFinite_coe 0, exact_isFinite_coe 0⟩)
      (fun _ centred => by cases (show none = some _ from centred)) 1
  have recognizers :=
    List.forall_mem_cons.2 ⟨recognizer [0, 1], List.forall_mem_singleton.2 (recognizer [1])⟩
  obtain ⟨c, built⟩ : ∃ c : Interactor EReal Unit, Interactor.build 0
      [.ofBehavior (cornerTap [0, 1]) 1, .ofBehavior (cornerTap [1]) 1] = .ok c := ⟨_, rfl⟩
  obtain ⟨-, -, visible, -, -, behaviors, -⟩ := Session.build_eq_ok built
  obtain ⟨a, weighted⟩ : ∃ a : Interactor EReal Unit,
      c.withPrior [((1 : ℝ) : EReal), ((3 : ℝ) : EReal)] = .ok a := by
    have first : isPositive ((1 : ℝ) : EReal) = true := exact_isPositive_coe (by norm_num)
    have second : isPositive ((3 : ℝ) : EReal) = true := exact_isPositive_coe (by norm_num)
    refine ⟨_, if_neg ?_⟩
    simp [behaviors, first, second, -EReal.coe_one]
  obtain ⟨-, same⟩ := Session.exists_of_withPrior weighted
  have sound := (isSound_build built recognizers).withPrior weighted
  have finite : Twins.tap.IsFinite :=
    ⟨exact_isFinite_coe 0, exact_isFinite_coe 0, exact_isFinite_coe 0, exact_isFinite_coe 0,
      exact_isFinite_coe 0⟩
  obtain ⟨r, first, saw, room⟩ :
      ∃ r ∈ a.behaviors, r.Saw Twins.standard [] ∧ r.window.capacity = 1 := by
    rw [same, behaviors]
    exact ⟨_, List.mem_cons_self, ⟨rfl, rfl, rfl, ⟨_, _, rfl, rfl, rfl⟩, rfl⟩, rfl⟩
  have likely : (r.observeTouch Twins.tap).logLikelihood =
      ((-Real.log (2 * Real.pi) : ℝ) : EReal) := by
    have density := Model.logLikelihood_single (e := fun _ => -Real.log (2 * Real.pi))
      (List.cons_ne_nil Twins.tap []) (by simpa using Twins.logDensity_tap)
    exact (saw.observeTouch (room ▸ Nat.one_pos) rfl (by simpa using density)).2.2.1
  have heard : isFinite (r.observeTouch Twins.tap).logLikelihood = true := by
    rw [likely]
    exact exact_isFinite_coe _
  obtain ⟨prior, likelihoods, bayes, -⟩ := posterior_follows_bayes sound (same ▸ visible)
    (List.cons_ne_nil Twins.tap []) (List.forall_mem_singleton.2 finite)
  exact ⟨c, a, built, weighted, prior,
    bayes ⟨_, likelihoods ▸ List.mem_map_of_mem first, heard⟩⟩

end Exact

end Interactor

end TouchIntent
