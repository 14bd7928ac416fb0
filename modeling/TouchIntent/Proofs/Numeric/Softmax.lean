import Mathlib
import TouchIntent.Proofs.Numeric.LogTotal

/-!
# Softmax

A score in log space, as a share of all scores: its exponential, divided by the sum of the
exponentials. The program subtracts the log total instead, and gives up where that is not finite.
In exact arithmetic both are the same, since a total of zero or `∞` leaves nothing to anyone. The
shares of all scores add up to one; the shares of some add up to one only if the others have none.
-/

namespace TouchIntent

open Scalar

/-- What one of the scores amounts to, as a share of them all. -/
noncomputable def softmax (scores : List EReal) (score : EReal) : EReal :=
  ((EReal.exp score / (scores.map EReal.exp).sum : ENNReal) : EReal)

/-- There is something to share: the exponentials add up to a number other than zero. -/
structure IsDivisible (scores : List EReal) : Prop where
  bounded : ∀ x ∈ scores, x ≠ ⊤
  inhabited : ∃ x ∈ scores, x ≠ ⊥

variable {scores : List EReal}

theorem sum_map_exp_eq_zero_iff : (scores.map EReal.exp).sum = 0 ↔ ∀ x ∈ scores, x = ⊥ := by
  rw [List.sum_eq_zero_iff, List.forall_mem_map]
  simp only [EReal.exp_eq_zero_iff]

theorem sum_map_exp_eq_top_iff : (scores.map EReal.exp).sum = ⊤ ↔ ⊤ ∈ scores := by
  induction scores with
  | nil => simp
  | cons x rest ih =>
    rw [List.map_cons, List.sum_cons, ENNReal.add_eq_top, EReal.exp_eq_top_iff, ih, List.mem_cons,
      eq_comm]

theorem isDivisible_iff :
    IsDivisible scores ↔ (scores.map EReal.exp).sum ≠ 0 ∧ (scores.map EReal.exp).sum ≠ ⊤ := by
  rw [Ne, Ne, sum_map_exp_eq_zero_iff, sum_map_exp_eq_top_iff]
  constructor
  · rintro ⟨bounded, x, member, some⟩
    exact ⟨fun none => some (none x member), fun infinite => bounded ⊤ infinite rfl⟩
  · rintro ⟨some, finite⟩
    push Not at some
    exact ⟨fun x member same => finite (same ▸ member), some⟩

/-- An infinite score makes the log total `∞`, or what is left of `∞ - ∞`. -/
theorem not_isFinite_logSumExp (infinite : ⊤ ∈ scores) : ¬ isFinite (logSumExp scores) = true := by
  have greatest : greatest scores = ⊤ := top_le_iff.1 ((greatest_spec scores).2 ⊤ infinite)
  have notLow : ¬ (⊤ : EReal) ≤ negInfinity := by simp
  rw [logSumExp, greatest, if_neg notLow, exact_isFinite]
  rintro ⟨notTop, notBot⟩
  generalize ln (sum (scores.map fun x => exp (x - ⊤))) = rest at *
  cases rest with
  | bot => exact notBot (EReal.bot_add ⊤)
  | coe r => exact notTop (EReal.coe_add_top r)
  | top => exact notTop EReal.top_add_top

theorem isFinite_logSumExp_iff : isFinite (logSumExp scores) = true ↔ IsDivisible scores := by
  by_cases bounded : ∀ x ∈ scores, x ≠ ⊤
  · rw [exact_isFinite, and_iff_right (logSumExp_ne_top bounded), Ne,
      logSumExp_eq_bot_iff bounded]
    push Not
    exact ⟨fun inhabited => ⟨bounded, inhabited⟩, IsDivisible.inhabited⟩
  · refine iff_of_false (not_isFinite_logSumExp ?_) fun divisible => bounded divisible.bounded
    push Not at bounded
    obtain ⟨x, member, rfl⟩ := bounded
    exact member

/-- What the program works out is the softmax. -/
theorem exp_sub_logSumExp {score : EReal} (member : score ∈ scores) :
    (if isFinite (logSumExp scores) then exp (score - logSumExp scores) else zero) =
      softmax scores score := by
  rw [softmax]
  by_cases finite : isFinite (logSumExp scores) = true
  · have bounded := (isFinite_logSumExp_iff.1 finite).bounded
    rw [if_pos finite, exact_exp_eq, sub_eq_add_neg, EReal.exp_add, EReal.exp_neg,
      exp_logSumExp bounded, div_eq_mul_inv]
  · have nothing : EReal.exp score / (scores.map EReal.exp).sum = 0 := by
      by_cases infinite : ⊤ ∈ scores
      · rw [sum_map_exp_eq_top_iff.2 infinite, ENNReal.div_top]
      · have vanish : ∀ x ∈ scores, x = ⊥ := by
          by_contra some
          push Not at some
          exact finite (isFinite_logSumExp_iff.2
            ⟨fun x member same => infinite (same ▸ member), some⟩)
        rw [sum_map_exp_eq_zero_iff.2 vanish, vanish score member, EReal.exp_bot, ENNReal.zero_div]
    rw [if_neg finite, exact_zero, nothing, EReal.coe_ennreal_zero]

/-- Of two equal scores each one amounts to one half. -/
theorem softmax_pair (l : ℝ) : softmax [(l : EReal), (l : EReal)] l = ((1 / 2 : ℝ) : EReal) := by
  have positive := Real.exp_pos l
  have half : ENNReal.ofReal (Real.exp l) / (ENNReal.ofReal (Real.exp l) +
      ENNReal.ofReal (Real.exp l)) = ENNReal.ofReal (1 / 2) := by
    rw [← ENNReal.ofReal_add positive.le positive.le,
      ← ENNReal.ofReal_div_of_pos (add_pos positive positive)]
    congr 1
    field_simp
    norm_num
  rw [softmax, List.map_cons, List.map_cons, List.map_nil, List.sum_cons, List.sum_singleton,
    EReal.exp_coe, half, EReal.coe_ennreal_ofReal, max_eq_left (by norm_num)]

/-- The shares of those that stay add up to one if and only if the others have none. -/
theorem sum_softmax_filter_eq_one_iff {α : Type} (score : α → EReal) (stays : α → Bool)
    (xs : List α) :
    ((xs.filter stays).map fun x => softmax (xs.map score) (score x)).sum = 1 ↔
      IsDivisible (xs.map score) ∧ ∀ x ∈ xs, stays x = false → score x = ⊥ := by
  obtain ⟨weight, weights⟩ : ∃ weight : α → ENNReal, weight = EReal.exp ∘ score := ⟨_, rfl⟩
  have total : ((xs.map score).map EReal.exp).sum = (xs.map weight).sum := by
    rw [List.map_map, weights]
  have split : (xs.map weight).sum =
      ((xs.filter stays).map weight).sum + ((xs.filter fun x => !stays x).map weight).sum := by
    rw [← List.sum_append, ← List.map_append]
    exact ((List.filter_append_perm stays xs).map weight).sum_eq.symm
  have shares : ((xs.filter stays).map fun x => softmax (xs.map score) (score x)).sum =
      ((((xs.filter stays).map weight).sum / (xs.map weight).sum : ENNReal) : EReal) := by
    rw [div_eq_mul_inv, ← List.sum_map_mul_right, ← exact_sum, exact_sum_eq, List.map_map]
    refine congrArg List.sum (List.map_congr_left fun x _ => ?_)
    rw [softmax, total, div_eq_mul_inv, weights]
    rfl
  have none : ((xs.filter fun x => !stays x).map weight).sum = 0 ↔
      ∀ x ∈ xs, stays x = false → score x = ⊥ := by
    rw [List.sum_eq_zero_iff, List.forall_mem_map]
    simp only [List.mem_filter, Bool.not_eq_true', and_imp, weights, Function.comp_apply,
      EReal.exp_eq_zero_iff]
  rw [shares, EReal.coe_ennreal_eq_one, ← none, isDivisible_iff, total]
  constructor
  · intro whole
    have notZero : (xs.map weight).sum ≠ 0 := by
      intro zero
      rw [split, add_eq_zero] at zero
      rw [zero.1, ENNReal.zero_div] at whole
      exact zero_ne_one whole
    have notTop : (xs.map weight).sum ≠ ⊤ := by
      intro top
      rw [top, ENNReal.div_top] at whole
      exact zero_ne_one whole
    rw [ENNReal.div_eq_one_iff notZero notTop] at whole
    refine ⟨⟨notZero, notTop⟩, (ENNReal.add_right_inj (whole ▸ notTop)).1 ?_⟩
    rw [← split, add_zero, whole]
  · rintro ⟨⟨notZero, notTop⟩, rest⟩
    rw [rest, add_zero] at split
    exact (ENNReal.div_eq_one_iff notZero notTop).2 split.symm

end TouchIntent
