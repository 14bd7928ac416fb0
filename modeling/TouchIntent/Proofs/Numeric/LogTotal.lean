import Mathlib
import TouchIntent.Proofs.Numeric.Exact

/-!
# Adding up in log space

In exact arithmetic `logSumExp` is the logarithm of the sum of the exponentials. It takes out the
greatest summand first, which must be less than `∞`: among probabilities none is infinite.
-/

namespace TouchIntent

open Scalar

/-- The exponential of the program is that of the extended reals. -/
theorem exact_exp_eq (x : EReal) : exp x = ((EReal.exp x : ENNReal) : EReal) := rfl

/-- Logarithm and exponential cancel where no number is negative. -/
theorem exact_exp_ln {x : EReal} : EReal.exp (ln x) = x.toENNReal := ENNReal.exp_log _

/-- The logarithm of a finite number is less than `∞`. -/
theorem exact_ln_ne_top {x : EReal} (finite : isFinite x = true) : ln x ≠ ⊤ := by
  rw [Ne, ← EReal.exp_eq_top_iff, exact_exp_ln, EReal.toENNReal_eq_top_iff]
  exact (exact_isFinite.1 finite).1

theorem exact_maximum (x y : EReal) : maximum x y = max x y := by
  rw [maximum]
  by_cases less : x < y
  · rw [if_pos less, max_eq_right less.le]
  · rw [if_neg less, max_eq_left (not_lt.1 less)]

/-- Exponentials are added up without leaving the nonnegative numbers. -/
theorem exact_sum (xs : List ENNReal) :
    sum (xs.map fun x : ENNReal => (x : EReal)) = ((xs.sum : ENNReal) : EReal) := by
  rw [exact_sum_eq]
  induction xs with
  | nil => simp
  | cons x rest ih => rw [List.map_cons, List.sum_cons, List.sum_cons, ih, EReal.coe_ennreal_add]

/-- The greatest of a list is one of its members or `-∞`, and no member exceeds it. -/
theorem greatest_spec (xs : List EReal) :
    (greatest xs = ⊥ ∨ greatest xs ∈ xs) ∧ ∀ x ∈ xs, x ≤ greatest xs := by
  have spec (start : EReal) :
      (xs.foldl maximum start = start ∨ xs.foldl maximum start ∈ xs) ∧
        ∀ x ∈ start :: xs, x ≤ xs.foldl maximum start := by
    induction xs generalizing start with
    | nil => simp
    | cons y rest ih =>
      rw [List.foldl_cons, exact_maximum]
      obtain ⟨attained, bound⟩ := ih (max start y)
      have above := bound (max start y) List.mem_cons_self
      refine ⟨?_, fun x member => ?_⟩
      · rcases attained with same | member
        · rw [same]
          rcases max_choice start y with kept | replaced
          · exact .inl kept
          · rw [replaced]
            exact .inr List.mem_cons_self
        · exact .inr (List.mem_cons_of_mem _ member)
      · rcases List.mem_cons.1 member with rfl | member
        · exact (le_max_left _ y).trans above
        · rcases List.mem_cons.1 member with rfl | member
          · exact (le_max_right start _).trans above
          · exact bound x (List.mem_cons_of_mem _ member)
  obtain ⟨attained, bound⟩ := spec negInfinity
  rw [greatest]
  exact ⟨by rwa [exact_negInfinity] at attained ⊢, fun x member =>
    bound x (List.mem_cons_of_mem _ member)⟩

/-- The log total is the logarithm of the sum of the exponentials. -/
theorem exp_logSumExp {xs : List EReal} (bounded : ∀ x ∈ xs, x ≠ ⊤) :
    EReal.exp (logSumExp xs) = (xs.map EReal.exp).sum := by
  obtain ⟨attained, bound⟩ := greatest_spec xs
  rw [logSumExp]
  by_cases low : greatest xs ≤ negInfinity
  · -- Every summand vanishes, and so does the sum.
    rw [if_pos low, exact_negInfinity, EReal.exp_bot]
    rw [exact_negInfinity, le_bot_iff] at low
    refine (List.sum_eq_zero fun y member => ?_).symm
    obtain ⟨x, source, rfl⟩ := List.mem_map.1 member
    rw [EReal.exp_eq_zero_iff, ← le_bot_iff, ← low]
    exact bound x source
  · rw [if_neg low]
    rw [exact_negInfinity, le_bot_iff] at low
    obtain ⟨top, greatest_eq⟩ : ∃ top : ℝ, greatest xs = (top : EReal) :=
      ⟨_, (EReal.coe_toReal (bounded _ (attained.resolve_left low)) low).symm⟩
    have shifted : (xs.map fun x => exp (x - greatest xs)) =
        (xs.map fun x => EReal.exp (x - greatest xs)).map fun y : ENNReal => (y : EReal) := by
      rw [List.map_map]
      rfl
    rw [shifted, exact_sum, EReal.exp_add, exact_exp_ln, EReal.toENNReal_coe,
      ← List.sum_map_mul_right]
    refine congrArg List.sum (List.map_congr_left fun x _ => ?_)
    rw [← EReal.exp_add, greatest_eq, EReal.sub_add_cancel]

/-- A log total of summands less than `∞` is less than `∞`. -/
theorem logSumExp_ne_top {xs : List EReal} (bounded : ∀ x ∈ xs, x ≠ ⊤) : logSumExp xs ≠ ⊤ := by
  rw [Ne, ← EReal.exp_eq_top_iff, exp_logSumExp bounded]
  induction xs with
  | nil => simp
  | cons x rest ih =>
    rw [List.map_cons, List.sum_cons, ENNReal.add_eq_top, EReal.exp_eq_top_iff, not_or]
    exact ⟨bounded x List.mem_cons_self,
      ih fun y member => bounded y (List.mem_cons_of_mem _ member)⟩

/-- A log total vanishes if and only if every summand does. -/
theorem logSumExp_eq_bot_iff {xs : List EReal} (bounded : ∀ x ∈ xs, x ≠ ⊤) :
    logSumExp xs = ⊥ ↔ ∀ x ∈ xs, x = ⊥ := by
  rw [← EReal.exp_eq_zero_iff, exp_logSumExp bounded, List.sum_eq_zero_iff, List.forall_mem_map]
  simp only [EReal.exp_eq_zero_iff]

end TouchIntent
