import Mathlib
import TouchIntent.Proofs.Gesture.BestPath
import TouchIntent.Proofs.Interactor.Lasting
import TouchIntent.Proofs.Numeric.LogTotal

/-!
# Bayes' rule

After every sample an interactor works out how probable each of its behaviours is. It does so in log
space, where a likelihood that vanishes is `-∞`, and normalizes by the log total, which is also its
evidence. In exact arithmetic this is Bayes' rule: the posterior probability of a behaviour is its
prior times its likelihood, divided by the sum of these over all behaviours.
-/

namespace TouchIntent

open Scalar

/-! ## The first of greatest score -/

/-- The score at the position is the greatest, and greater than those before it. -/
def IsFirstGreatest (scores : List EReal) (k : Nat) : Prop :=
  ∃ best, scores[k]? = some best ∧
    ∀ i score, scores[i]? = some score → score ≤ best ∧ (i < k → score < best)

theorem isFirstGreatest_firstBestIndex {scores : List EReal} (some : scores ≠ []) :
    IsFirstGreatest scores (firstBestIndex scores) := by
  have inhabited : 0 < scores.length := List.length_pos_iff.2 some
  rw [firstBestIndex, dif_pos inhabited]
  obtain ⟨k, chosen⟩ : ∃ k, k = firstBest inhabited fun i => scores[i] := ⟨_, rfl⟩
  rw [← chosen]
  refine ⟨scores[k], List.getElem?_eq_getElem k.isLt, fun i score found => ?_⟩
  obtain ⟨within, rfl⟩ := List.getElem?_eq_some_iff.1 found
  have spec := firstBest_spec inhabited (fun i => scores[i]) ⟨i, within⟩
  rw [← chosen] at spec
  refine ⟨spec.1, fun earlier => lt_of_le_of_ne spec.1 fun tie => ?_⟩
  exact absurd (spec.2 tie) (not_le.2 earlier)

/-- A change of scale does not change which score is the first of the greatest. -/
theorem isFirstGreatest_map_iff {scale : EReal → EReal} (increases : StrictMono scale)
    {scores : List EReal} {k : Nat} :
    IsFirstGreatest (scores.map scale) k ↔ IsFirstGreatest scores k := by
  simp only [IsFirstGreatest, List.getElem?_map, Option.map_eq_some_iff]
  constructor
  · rintro ⟨_, ⟨best, found, rfl⟩, bound⟩
    refine ⟨best, found, fun i score held => ?_⟩
    obtain ⟨noMore, less⟩ := bound i _ ⟨score, held, rfl⟩
    exact ⟨increases.le_iff_le.1 noMore, fun earlier => increases.lt_iff_lt.1 (less earlier)⟩
  · rintro ⟨best, found, bound⟩
    refine ⟨_, ⟨best, found, rfl⟩, ?_⟩
    rintro i _ ⟨score, held, rfl⟩
    obtain ⟨noMore, less⟩ := bound i score held
    exact ⟨increases.le_iff_le.2 noMore, fun earlier => increases.lt_iff_lt.2 (less earlier)⟩

namespace Interactor

section Weights

variable {R ν : Type} [Scalar R] (a : Interactor R ν)

/-- The running log-likelihoods of the behaviours. -/
def logLikelihoods : List R := a.behaviors.map Recognizer.logLikelihood

/-- Prior times likelihood, for each behaviour. -/
def weights : List R := a.prior.zipWith (fun p l => p * exp l) a.logLikelihoods

/-- The logarithms of the weights, as the program works them out. -/
def logWeights : List R := a.prior.zipWith (fun p l => ln p + l) a.logLikelihoods

/-- This behaviour is flagged as the most likely one, and no other. -/
def Flags (k : Nat) : Prop :=
  k < a.behaviors.length ∧
    ∀ i r, a.behaviors[i]? = some r → (r.isMostLikely = true ↔ i = k)

/-- The prior has an entry for each behaviour, and its entries are positive. -/
structure HasPrior : Prop where
  sized : a.prior.length = a.behaviors.length
  positive : ∀ p ∈ a.prior, isPositive p = true

theorem updatePosterior_evidence : a.updatePosterior.evidence = logSumExp a.logWeights := by
  simp only [updatePosterior, logWeights, logLikelihoods, List.zipWith_map_right]

theorem updatePosterior_posterior : a.updatePosterior.posterior =
    if isFinite a.updatePosterior.evidence
      then a.logWeights.map fun x => x - a.updatePosterior.evidence
      else a.logWeights := by
  simp only [updatePosterior, logWeights, logLikelihoods, List.zipWith_map_right]

variable {a}

/-- Each behaviour is told its own posterior. -/
theorem updatePosterior_stored (sized : a.prior.length = a.behaviors.length) :
    a.updatePosterior.behaviors.map Recognizer.logPosterior = a.updatePosterior.posterior := by
  have length := a.length_updatePosterior
  refine List.ext_getElem ?_ fun i h h' => ?_
  · simp [updatePosterior_behaviors, length, sized]
  · simp [updatePosterior_behaviors]

/-- Each behaviour is told whether it is the most likely one. -/
theorem updatePosterior_flags (sized : a.prior.length = a.behaviors.length)
    (within : a.updatePosterior.mostLikely < a.behaviors.length) :
    a.updatePosterior.Flags a.updatePosterior.mostLikely := by
  have same := (a.unjudged_updatePosterior sized).length_eq
  refine ⟨same ▸ within, fun i r found => ?_⟩
  rw [updatePosterior_behaviors, List.getElem?_map, Option.map_eq_some_iff] at found
  obtain ⟨⟨b, j⟩, placed, rfl⟩ := found
  rw [List.getElem?_zipIdx, Option.map_eq_some_iff] at placed
  obtain ⟨b', -, same⟩ := placed
  obtain ⟨rfl, rfl⟩ := Prod.mk.inj same
  simp

theorem updatePosterior_logLikelihoods (sized : a.prior.length = a.behaviors.length) :
    a.updatePosterior.logLikelihoods = a.logLikelihoods := by
  refine Arbiter.map_eq_of (fun r r' same => ?_) (a.unjudged_updatePosterior sized)
  have kept : r'.unjudged.logLikelihood = r.unjudged.logLikelihood := by rw [same]
  exact kept

theorem updatePosterior_weights (sized : a.prior.length = a.behaviors.length) :
    a.updatePosterior.weights = a.weights := by
  rw [weights, updatePosterior_logLikelihoods sized]
  rfl

end Weights

section Exact

variable {ν : Type} {a : Interactor EReal ν}

/-- What Bayes' rule says of an interactor with some likely behaviour. -/
structure FollowsBayes (a : Interactor EReal ν) : Prop where
  finite : isFinite a.evidence = true
  evidence : a.evidence = ln a.weights.sum
  normalized : (a.posterior.map exp).sum = 1
  proportional : a.posterior.map (fun p => exp p * a.weights.sum) = a.weights
  stored : a.behaviors.map Recognizer.logPosterior = a.posterior
  flagged : a.Flags a.mostLikely
  best : IsFirstGreatest a.weights a.mostLikely

/-- The weights are the exponentials of their logarithms. -/
theorem weights_eq_map_exp (positive : ∀ p ∈ a.prior, isPositive p = true) :
    a.weights = a.logWeights.map exp := by
  rw [weights, logWeights, List.map_zipWith]
  refine List.ext_getElem (by simp) fun i h h' => ?_
  rw [List.length_zipWith, lt_min_iff] at h
  obtain ⟨p, above, weighed⟩ :=
    exact_isPositive_iff.1 (positive a.prior[i] (List.getElem_mem h.1))
  rw [List.getElem_zipWith, List.getElem_zipWith, weighed, exact_exp_eq, exact_exp_eq,
    EReal.exp_add, exact_exp_ln, EReal.coe_ennreal_mul,
    EReal.coe_toENNReal (EReal.coe_nonneg.2 above.le)]

/-- Likelihoods that are not infinite make for weights that are not infinite. -/
theorem logWeights_ne_top (positive : ∀ p ∈ a.prior, isPositive p = true)
    (bounded : ∀ l ∈ a.logLikelihoods, l ≠ ⊤) : ∀ x ∈ a.logWeights, x ≠ ⊤ := by
  intro x member
  obtain ⟨i, found⟩ := List.mem_iff_getElem?.1 member
  obtain ⟨p, l, weighed, likely, rfl⟩ := List.getElem?_zipWith_eq_some.1 found
  obtain ⟨r, -, rfl⟩ := exact_isPositive_iff.1 (positive p (List.mem_of_getElem? weighed))
  exact EReal.add_ne_top (exact_ln_ne_top (exact_isFinite_coe r))
    (bounded l (List.mem_of_getElem? likely))

/-- The sum of the weights, in nonnegative numbers. -/
theorem sum_weights (positive : ∀ p ∈ a.prior, isPositive p = true) :
    a.weights.sum = (((a.logWeights.map EReal.exp).sum : ENNReal) : EReal) := by
  rw [weights_eq_map_exp positive, ← exact_sum, ← exact_sum_eq, List.map_map]
  rfl

/-- The evidence is the logarithm of the sum of the weights. -/
theorem updatePosterior_evidence_eq_ln (positive : ∀ p ∈ a.prior, isPositive p = true)
    (bounded : ∀ l ∈ a.logLikelihoods, l ≠ ⊤) :
    a.updatePosterior.evidence = ln a.weights.sum := by
  rw [updatePosterior_evidence, sum_weights positive,
    ← exp_logSumExp (logWeights_ne_top positive bounded), ← exact_exp_eq]
  show _ = ENNReal.log (EReal.toENNReal _)
  rw [exact_exp_eq, EReal.toENNReal_coe, EReal.log_exp]

/-- A weight vanishes if and only if the likelihood does. -/
theorem logWeights_eq_bot_iff (prior : a.HasPrior) :
    (∀ x ∈ a.logWeights, x = ⊥) ↔ ∀ l ∈ a.logLikelihoods, l = ⊥ := by
  have vanishes {p l : EReal} (weighed : p ∈ a.prior) : ln p + l = ⊥ ↔ l = ⊥ := by
    obtain ⟨r, above, rfl⟩ := exact_isPositive_iff.1 (prior.positive p weighed)
    rw [exact_ln above, EReal.add_eq_bot_iff, or_iff_right (EReal.coe_ne_bot _)]
  constructor
  · intro none l member
    obtain ⟨i, likely⟩ := List.mem_iff_getElem?.1 member
    have within : i < a.prior.length := by
      obtain ⟨inside, -⟩ := List.getElem?_eq_some_iff.1 likely
      rw [logLikelihoods, List.length_map] at inside
      rwa [prior.sized]
    have found : a.logWeights[i]? = some (ln a.prior[i] + l) :=
      List.getElem?_zipWith_eq_some.2 ⟨_, l, List.getElem?_eq_getElem within, likely, rfl⟩
    exact (vanishes (List.getElem_mem within)).1 (none _ (List.mem_of_getElem? found))
  · intro none x member
    obtain ⟨i, found⟩ := List.mem_iff_getElem?.1 member
    obtain ⟨p, l, weighed, likely, rfl⟩ := List.getElem?_zipWith_eq_some.1 found
    exact (vanishes (List.mem_of_getElem? weighed)).2 (none l (List.mem_of_getElem? likely))

/-- The evidence is finite if and only if some behaviour is likely at all. -/
theorem isFinite_evidence_iff (prior : a.HasPrior) (bounded : ∀ l ∈ a.logLikelihoods, l ≠ ⊤) :
    isFinite a.updatePosterior.evidence = true ↔
      ∃ l ∈ a.logLikelihoods, isFinite l = true := by
  have weights := logWeights_ne_top prior.positive bounded
  rw [updatePosterior_evidence, exact_isFinite, and_iff_right (logSumExp_ne_top weights), Ne,
    logSumExp_eq_bot_iff weights, logWeights_eq_bot_iff prior]
  constructor
  · intro some
    obtain ⟨l, member, likely⟩ : ∃ l ∈ a.logLikelihoods, l ≠ ⊥ := by simpa using some
    exact ⟨l, member, exact_isFinite.2 ⟨bounded l member, likely⟩⟩
  · rintro ⟨l, member, finite⟩ none
    exact (exact_isFinite.1 finite).2 (none l member)

/-- The most likely behaviour is the first of greatest posterior, and it alone is flagged. -/
theorem updatePosterior_choice (prior : a.HasPrior) (inhabited : a.behaviors ≠ []) :
    IsFirstGreatest a.updatePosterior.posterior a.updatePosterior.mostLikely ∧
      a.updatePosterior.Flags a.updatePosterior.mostLikely := by
  have length : a.updatePosterior.posterior.length = a.behaviors.length := by
    rw [length_updatePosterior, prior.sized, min_self]
  have some : a.updatePosterior.posterior ≠ [] := by
    rwa [Ne, ← List.length_eq_zero_iff, length, List.length_eq_zero_iff]
  have best : IsFirstGreatest a.updatePosterior.posterior a.updatePosterior.mostLikely :=
    isFirstGreatest_firstBestIndex some
  have within : a.updatePosterior.mostLikely < a.behaviors.length := by
    obtain ⟨_, found, -⟩ := best
    obtain ⟨inside, -⟩ := List.getElem?_eq_some_iff.1 found
    rwa [length] at inside
  exact ⟨best, updatePosterior_flags prior.sized within⟩

/-- Numbers that are divided by their total add up to one, in log space. -/
theorem sum_map_exp_sub {xs : List EReal} {e : ℝ} (total : (xs.map EReal.exp).sum = EReal.exp e) :
    (xs.map fun x => EReal.exp (x - e)).sum = 1 := by
  have split : (fun x : EReal => EReal.exp (x - e)) = fun x => EReal.exp x * EReal.exp (-e) := by
    funext x
    rw [sub_eq_add_neg, EReal.exp_add]
  rw [split, List.sum_map_mul_right, total, ← EReal.exp_add, ← EReal.coe_neg, ← EReal.coe_add,
    add_neg_cancel, EReal.coe_zero, EReal.exp_zero]

/-- Working out the posterior anew follows Bayes' rule, as long as some behaviour is likely. -/
theorem followsBayes_updatePosterior (prior : a.HasPrior)
    (bounded : ∀ l ∈ a.logLikelihoods, l ≠ ⊤)
    (likely : ∃ l ∈ a.logLikelihoods, isFinite l = true) : a.updatePosterior.FollowsBayes := by
  have finite := (isFinite_evidence_iff prior bounded).2 likely
  obtain ⟨e, evidence⟩ := exact_real_of_isFinite finite
  have posterior : a.updatePosterior.posterior = a.logWeights.map fun x : EReal => x - e := by
    rw [updatePosterior_posterior, if_pos finite, evidence]
  have weights := updatePosterior_weights prior.sized
  have total : (a.logWeights.map EReal.exp).sum = EReal.exp e := by
    rw [← evidence, updatePosterior_evidence,
      exp_logSumExp (logWeights_ne_top prior.positive bounded)]
  have shifts : StrictMono fun x : EReal => x - e := fun x y less =>
    exact_add_lt_add less (exact_isFinite_coe (-e))
  have grows : StrictMono (exp : EReal → EReal) :=
    EReal.coe_ennreal_strictMono.comp EReal.exp_strictMono
  have inhabited : a.behaviors ≠ [] := by
    obtain ⟨l, member, -⟩ := likely
    obtain ⟨r, source, -⟩ := List.mem_map.1 member
    exact List.ne_nil_of_mem source
  obtain ⟨best, flagged⟩ := updatePosterior_choice prior inhabited
  refine ⟨finite, ?_, ?_, ?_, updatePosterior_stored prior.sized, flagged, ?_⟩
  · rw [updatePosterior_evidence_eq_ln prior.positive bounded, weights]
  · rw [posterior, ← exact_sum_eq, List.map_map]
    refine Eq.trans ?_ (congrArg ENNReal.toEReal (sum_map_exp_sub total))
    rw [← exact_sum, List.map_map]
    rfl
  · rw [weights, sum_weights prior.positive, total, posterior, weights_eq_map_exp prior.positive,
      List.map_map]
    refine List.map_congr_left fun x _ => ?_
    rw [Function.comp_apply, exact_exp_eq, exact_exp_eq, ← EReal.coe_ennreal_mul, ← EReal.exp_add,
      EReal.sub_add_cancel]
  · rw [weights, weights_eq_map_exp prior.positive, isFirstGreatest_map_iff grows,
      ← isFirstGreatest_map_iff shifts, ← posterior]
    exact best

/-- If no behaviour is likely at all, there is no evidence, and the first behaviour is flagged. -/
theorem updatePosterior_of_unlikely (prior : a.HasPrior) (inhabited : a.behaviors ≠ [])
    (none : ∀ l ∈ a.logLikelihoods, l = ⊥) :
    a.updatePosterior.evidence = ⊥ ∧ a.updatePosterior.mostLikely = 0 ∧
      a.updatePosterior.Flags 0 := by
  have bounded : ∀ l ∈ a.logLikelihoods, l ≠ ⊤ := fun l member => by
    rw [none l member]
    exact bot_ne_top
  have vanish := (logWeights_eq_bot_iff prior).2 none
  have evidence : a.updatePosterior.evidence = ⊥ := by
    rw [updatePosterior_evidence,
      logSumExp_eq_bot_iff (logWeights_ne_top prior.positive bounded)]
    exact vanish
  have posterior : a.updatePosterior.posterior = a.logWeights := by
    rw [updatePosterior_posterior, if_neg]
    rw [exact_isFinite, evidence]
    exact fun finite => finite.2 rfl
  obtain ⟨⟨best, found, bound⟩, flagged⟩ := updatePosterior_choice prior inhabited
  rw [posterior] at found bound
  -- All posteriors are the same, so no later one is preferred to the first.
  have first : a.updatePosterior.mostLikely = 0 := by
    by_contra later
    have within : 0 < a.logWeights.length := by
      obtain ⟨inside, -⟩ := List.getElem?_eq_some_iff.1 found
      omega
    have less := (bound 0 _ (List.getElem?_eq_getElem within)).2 (Nat.pos_of_ne_zero later)
    rw [vanish best (List.mem_of_getElem? found)] at less
    exact not_lt_bot less
  exact ⟨evidence, first, first ▸ flagged⟩

end Exact

end Interactor

end TouchIntent
