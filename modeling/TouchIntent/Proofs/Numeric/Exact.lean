import Mathlib
import TouchIntent.Numeric.LogSum

/-!
# Exact arithmetic

The extended reals are scalars. A statement about them is a statement about the program without
rounding: sums, products, logarithms and exponentials are the mathematical ones, and the logarithm
of zero is `-∞`. Between finite values every operation is that of the reals.
-/

namespace TouchIntent

open Classical in
noncomputable instance : Scalar EReal where
  ofNat n := ((n : ℝ) : EReal)
  ofDecimal digits exponent := (((digits : ℝ) * 10 ^ exponent : ℝ) : EReal)
  infinity := ⊤
  undefined := ⊤
  pi := (Real.pi : EReal)
  ln x := ENNReal.log x.toENNReal
  exp x := ((EReal.exp x : ENNReal) : EReal)
  sqrt x := (Real.sqrt x.toReal : EReal)
  sin x := (Real.sin x.toReal : EReal)
  cos x := (Real.cos x.toReal : EReal)
  isFinite x := decide (x ≠ ⊤ ∧ x ≠ ⊥)
  decLt _ _ := inferInstance
  decLe _ _ := inferInstance

namespace Scalar

@[simp] theorem exact_ofNat (n : Nat) : (ofNat n : EReal) = ((n : ℝ) : EReal) := rfl

@[simp] theorem exact_zero : (zero : EReal) = 0 := by simp [zero]

@[simp] theorem exact_one : (one : EReal) = 1 := by simp [one]

@[simp] theorem exact_infinity : (infinity : EReal) = ⊤ := rfl

@[simp] theorem exact_negInfinity : (negInfinity : EReal) = ⊥ := by
  simp [negInfinity, show -(⊤ : EReal) = ⊥ from rfl]

@[simp] theorem exact_isFinite {x : EReal} : isFinite x = true ↔ x ≠ ⊤ ∧ x ≠ ⊥ := by
  simp [isFinite]

/-- A finite scalar is a real number. -/
theorem exact_real_of_isFinite {x : EReal} (finite : isFinite x = true) :
    ∃ r : ℝ, x = (r : EReal) := by
  obtain ⟨notTop, notBot⟩ := exact_isFinite.1 finite
  exact ⟨x.toReal, (EReal.coe_toReal notTop notBot).symm⟩

@[simp] theorem exact_isFinite_coe (r : ℝ) : isFinite (r : EReal) = true :=
  exact_isFinite.2 ⟨EReal.coe_ne_top r, EReal.coe_ne_bot r⟩

theorem exact_isFinite_add {x y : EReal} (left : isFinite x = true) (right : isFinite y = true) :
    isFinite (x + y) = true := by
  obtain ⟨r, rfl⟩ := exact_real_of_isFinite left
  obtain ⟨q, rfl⟩ := exact_real_of_isFinite right
  rw [← EReal.coe_add]
  exact exact_isFinite_coe (r + q)

/-- A finite summand changes no comparison. -/
theorem exact_add_lt_add {x y z : EReal} (less : x < y) (finite : isFinite z = true) :
    x + z < y + z := by
  obtain ⟨r, rfl⟩ := exact_real_of_isFinite finite
  exact EReal.add_lt_add_right_coe less r

theorem exact_ln {x : ℝ} (positive : 0 < x) : ln (x : EReal) = (Real.log x : EReal) := by
  show ENNReal.log (x : EReal).toENNReal = _
  rw [EReal.toENNReal_of_ne_top (EReal.coe_ne_top x), EReal.toReal_coe,
    ENNReal.log_ofReal_of_pos positive]

theorem exact_exp (x : ℝ) : exp (x : EReal) = (Real.exp x : EReal) := by
  show ((EReal.exp x : ENNReal) : EReal) = _
  rw [EReal.exp_coe, EReal.coe_ennreal_ofReal, max_eq_left (Real.exp_pos x).le]

theorem exact_ratio (num den : Nat) : (ratio num den : EReal) = ((num / den : ℝ) : EReal) := by
  rw [ratio, exact_ofNat, exact_ofNat, EReal.coe_div]

theorem exact_half : (half : EReal) = ((1 / 2 : ℝ) : EReal) := by
  rw [half, exact_ratio]
  norm_num

/-- Adding up a list is adding up in the extended reals. -/
theorem exact_sum_eq (xs : List EReal) : sum xs = xs.sum := by
  rw [sum, exact_zero, List.sum_eq_foldl]

/-! ## Positive numbers -/

theorem exact_isPositive_iff {x : EReal} :
    isPositive x = true ↔ ∃ r : ℝ, 0 < r ∧ x = (r : EReal) := by
  rw [isPositive, Bool.and_eq_true, decide_eq_true_eq, exact_zero]
  constructor
  · rintro ⟨finite, above⟩
    obtain ⟨r, rfl⟩ := exact_real_of_isFinite finite
    exact ⟨r, EReal.coe_pos.1 above, rfl⟩
  · rintro ⟨r, above, rfl⟩
    exact ⟨exact_isFinite_coe r, EReal.coe_pos.2 above⟩

theorem exact_isPositive_coe {x : ℝ} (positive : 0 < x) : isPositive (x : EReal) = true :=
  exact_isPositive_iff.2 ⟨x, positive, rfl⟩

theorem exact_isPositive_div {x y : EReal} (left : isPositive x = true)
    (right : isPositive y = true) : isPositive (x / y) = true := by
  obtain ⟨r, above, rfl⟩ := exact_isPositive_iff.1 left
  obtain ⟨q, above', rfl⟩ := exact_isPositive_iff.1 right
  rw [← EReal.coe_div]
  exact exact_isPositive_coe (div_pos above above')

/-- Positive numbers add up to a real number that is not negative. -/
theorem exact_sum_of_isPositive {xs : List EReal} (positive : ∀ x ∈ xs, isPositive x = true) :
    ∃ r : ℝ, 0 ≤ r ∧ sum xs = (r : EReal) := by
  rw [exact_sum_eq]
  induction xs with
  | nil => exact ⟨0, le_rfl, rfl⟩
  | cons x xs ih =>
    obtain ⟨first, others⟩ := List.forall_mem_cons.1 positive
    obtain ⟨r, above, rfl⟩ := exact_isPositive_iff.1 first
    obtain ⟨q, nonneg, total⟩ := ih others
    refine ⟨r + q, by positivity, ?_⟩
    rw [List.sum_cons, total, EReal.coe_add]

/-- Positive numbers, of which there are some, add up to a positive one. -/
theorem exact_isPositive_sum {xs : List EReal} (some : xs ≠ [])
    (positive : ∀ x ∈ xs, isPositive x = true) : isPositive (sum xs) = true := by
  cases xs with
  | nil => exact absurd rfl some
  | cons x xs =>
    obtain ⟨first, others⟩ := List.forall_mem_cons.1 positive
    obtain ⟨r, above, rfl⟩ := exact_isPositive_iff.1 first
    obtain ⟨q, nonneg, total⟩ := exact_sum_of_isPositive others
    rw [exact_sum_eq] at total
    rw [exact_sum_eq, List.sum_cons, total, ← EReal.coe_add]
    exact exact_isPositive_coe (by positivity)

end Scalar

/-- The log total of a single finite summand is that summand. -/
theorem exact_logSumExp_singleton (x : ℝ) : logSumExp [(x : EReal)] = x := by
  have top : greatest [(x : EReal)] = x := by
    simp [greatest, Scalar.maximum, EReal.bot_lt_coe]
  have notLow : ¬ (x : EReal) ≤ Scalar.negInfinity := by simp
  have total : Scalar.sum [Scalar.exp ((x : EReal) - x)] = ((1 : ℝ) : EReal) := by
    rw [← EReal.coe_sub, sub_self, Scalar.exact_exp, Real.exp_zero]
    simp [Scalar.sum]
  simp only [logSumExp, top, notLow, if_false, List.map_cons, List.map_nil]
  rw [total, Scalar.exact_ln one_pos, Real.log_one]
  simp

end TouchIntent
