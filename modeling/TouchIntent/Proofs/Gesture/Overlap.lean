import Mathlib
import TouchIntent.Proofs.Gesture.Vanishing
import TouchIntent.Proofs.Numeric.PositiveDefinite

/-!
# The overlap of a state and a contact ellipse

The Bhattacharyya coefficient is a product of two factors. The one compares the determinants of the
covariances with the determinant of their mean, and is at most one because the determinant of the
mean is at least the geometric mean; the other falls with the distance of the sample from the state.
So a contact ellipse has at most everything in common with a state, and it has only if it lies where
the state lies and has the same covariance.
-/

namespace TouchIntent

open Scalar

/-- The covariance of a contact ellipse is symmetric and, if the ellipse has an area, positive
definite. -/
theorem isPositiveDefinite_contactCovariance {orientation minorAxis majorAxis : EReal}
    (orientated : isFinite orientation = true) (finiteMinor : isFinite minorAxis = true)
    (finiteMajor : isFinite majorAxis = true) (wide : minorAxis ≠ 0) (long : majorAxis ≠ 0) :
    (contactCovariance orientation minorAxis majorAxis).IsPositiveDefinite := by
  obtain ⟨o, rfl⟩ := exact_real_of_isFinite orientated
  obtain ⟨u, rfl⟩ := exact_real_of_isFinite finiteMinor
  obtain ⟨v, rfl⟩ := exact_real_of_isFinite finiteMajor
  obtain ⟨a, b, c, d, area, covariance⟩ := exact_contactCovariance o u v
  have some : a * d - b * c ≠ 0 := by
    rw [area]
    have wide : u ≠ 0 := by exact_mod_cast wide
    have long : v ≠ 0 := by exact_mod_cast long
    positivity
  rw [covariance]
  refine Mat2.isPositiveDefinite_ofReals_iff.2 ⟨?_, ?_⟩
  · by_contra flat
    have squares : a ^ 2 + c ^ 2 = 0 := le_antisymm (not_lt.1 flat) (by positivity)
    obtain ⟨left, right⟩ := (add_eq_zero_iff_of_nonneg (sq_nonneg a) (sq_nonneg c)).1 squares
    obtain rfl := pow_eq_zero_iff two_ne_zero |>.1 left
    obtain rfl := pow_eq_zero_iff two_ne_zero |>.1 right
    exact some (by ring)
  · calc 0 < (a * d - b * c) ^ 2 := by positivity
      _ = (a ^ 2 + c ^ 2) * (b ^ 2 + d ^ 2) - (a * b + c * d) * (a * b + c * d) := by ring

/-- Half the logarithm of a number that is bounded by a square. -/
theorem half_log_sub_log_nonpos {x y : ℝ} (above : 0 < x) (above' : 0 < y) (bound : x ≤ y ^ 2) :
    1 / 2 * Real.log x - Real.log y ≤ 0 ∧
      (1 / 2 * Real.log x - Real.log y = 0 ↔ x = y ^ 2) := by
  have square : Real.log (y ^ 2) = 2 * Real.log y := by
    rw [Real.log_pow]
    norm_num
  constructor
  · have less := Real.log_le_log above bound
    linarith
  · rw [← Real.log_injOn_pos.eq_iff above (pow_pos above' 2), square]
    constructor <;> intro same <;> linarith

namespace Gaussian

variable {g : Gaussian EReal} {sample : Sample EReal}

/-- The logarithm of the factor that compares the determinants, for two covariances and their
mean. -/
theorem exists_comparison {m n : Mat2 EReal} (left : m.IsPositiveDefinite)
    (right : n.IsPositiveDefinite) : ∃ comparison : ℝ,
      half * (half * ln (m.det * n.det) - ln ((m.add n).scale half).det) =
        ((1 / 2 * comparison : ℝ) : EReal) ∧
      comparison ≤ 0 ∧ (comparison = 0 ↔ n = m) := by
  obtain ⟨a, b, d, rfl, first, minor⟩ := left.exists_ofReals
  obtain ⟨p, q, r, rfl, first', minor'⟩ := right.exists_ofReals
  have product : 0 < (a * d - b * b) * (p * r - q * q) := mul_pos minor minor'
  have mean : 0 < 1 / 4 * ((a + p) * (d + r) - (b + q) * (b + q)) := by
    have total := Mat2.det_sum_pos first minor first' minor'
    positivity
  have whole : (((Mat2.ofReals a b d).add (Mat2.ofReals p q r)).scale half).det =
      ((1 / 4 * ((a + p) * (d + r) - (b + q) * (b + q)) : ℝ) : EReal) := by
    rw [Mat2.add_ofReals, exact_half, Mat2.scale_ofReals, Mat2.det_ofReals]
    congr 1
    ring
  obtain ⟨bound, attained⟩ := half_log_sub_log_nonpos product mean
    (Mat2.det_mul_det_le first minor first' minor')
  refine ⟨_, ?_, bound, ?_⟩
  · rw [whole, Mat2.det_ofReals, Mat2.det_ofReals, ← EReal.coe_mul, exact_ln product, exact_ln mean,
      exact_half, ← EReal.coe_mul, ← EReal.coe_sub, ← EReal.coe_mul]
  · rw [attained, Mat2.det_mul_det_eq_iff first minor first' minor', Mat2.ofReals_inj]
    tauto

/-- The overlap with an ellipse, by the comparison of the covariances and the distance. -/
theorem exists_logBhattacharyya (definite : g.covariance.IsPositiveDefinite)
    (meanX : isFinite g.mean.x = true) (meanY : isFinite g.mean.y = true)
    (finite : sample.IsFinite) (wide : sample.minorAxis ≠ 0) (long : sample.majorAxis ≠ 0) :
    ∃ comparison distance : ℝ,
      g.logBhattacharyya sample = ((1 / 2 * comparison - distance / 8 : ℝ) : EReal) ∧
      (comparison ≤ 0 ∧ (comparison = 0 ↔
        contactCovariance sample.orientation sample.minorAxis sample.majorAxis = g.covariance)) ∧
      0 ≤ distance ∧ (distance = 0 ↔ sample.position = g.mean) := by
  have contact := isPositiveDefinite_contactCovariance finite.orientation finite.minorAxis
    finite.majorAxis wide long
  have pooled : (g.pooled sample).IsPositiveDefinite := definite.mean contact
  obtain ⟨comparison, compared, bound⟩ := exists_comparison definite contact
  have compared : half * (half * ln (g.covariance.det *
      (contactCovariance sample.orientation sample.minorAxis sample.majorAxis).det) -
        ln (g.pooled sample).det) = ((1 / 2 * comparison : ℝ) : EReal) := compared
  obtain ⟨u, centerX⟩ := exact_real_of_isFinite meanX
  obtain ⟨v, centerY⟩ := exact_real_of_isFinite meanY
  obtain ⟨x, pointX⟩ := exact_real_of_isFinite finite.x
  obtain ⟨y, pointY⟩ := exact_real_of_isFinite finite.y
  have center : g.mean = ⟨u, v⟩ := by rw [← centerX, ← centerY]
  have point : sample.position = ⟨x, y⟩ := by rw [← pointX, ← pointY]
  have offset : sample.position.sub g.mean = ⟨((x - u : ℝ) : EReal), ((y - v : ℝ) : EReal)⟩ := by
    rw [point, center, Vec2.sub, EReal.coe_sub, EReal.coe_sub]
  obtain ⟨distance, form, nonneg, level⟩ := pooled.inverse.exists_quadratic (x - u) (y - v)
  refine ⟨comparison, distance, ?_, bound, nonneg, ?_⟩
  · rw [logBhattacharyya_eq finite contact.det_pos definite.finite pooled.det_pos, compared, offset,
      form, exact_ofNat, ← EReal.coe_div, ← EReal.coe_sub]
    norm_num
  · rw [level, point, center, sub_eq_zero, sub_eq_zero]
    simp

/-- A contact ellipse with an area has at most everything in common with a state, and it has exactly
if it lies at the mean of the state and has its covariance. The covariance of the ellipse is
symmetric, and its determinant is the same however the ellipse is turned. -/
theorem logBhattacharyya_nonpos (definite : g.covariance.IsPositiveDefinite)
    (meanX : isFinite g.mean.x = true) (meanY : isFinite g.mean.y = true)
    (finite : sample.IsFinite) (wide : sample.minorAxis ≠ 0) (long : sample.majorAxis ≠ 0) :
    let contact := contactCovariance sample.orientation sample.minorAxis sample.majorAxis
    g.logBhattacharyya sample ≤ 0 ∧
      (g.logBhattacharyya sample = 0 ↔ sample.position = g.mean ∧ contact = g.covariance) ∧
      contact.transpose = contact ∧
      ∀ orientation, isFinite orientation = true →
        (contactCovariance orientation sample.minorAxis sample.majorAxis).det = contact.det := by
  intro contact
  obtain ⟨comparison, distance, overlap, ⟨compared, equal⟩, apart, level⟩ :=
    exists_logBhattacharyya definite meanX meanY finite wide long
  refine ⟨?_, ?_, ?_, fun orientation orientated => ?_⟩
  · rw [overlap, EReal.coe_nonpos]
    linarith
  · rw [overlap, EReal.coe_eq_zero, ← equal, ← level]
    constructor
    · intro whole
      constructor <;> linarith
    · rintro ⟨same, alike⟩
      rw [same, alike]
      norm_num
  · exact (isPositiveDefinite_contactCovariance finite.orientation finite.minorAxis
      finite.majorAxis wide long).symmetric
  · obtain ⟨o, own⟩ := exact_real_of_isFinite finite.orientation
    obtain ⟨o', rfl⟩ := exact_real_of_isFinite orientated
    obtain ⟨u, minorAxis⟩ := exact_real_of_isFinite finite.minorAxis
    obtain ⟨v, majorAxis⟩ := exact_real_of_isFinite finite.majorAxis
    show _ = (contactCovariance sample.orientation sample.minorAxis sample.majorAxis).det
    rw [own, minorAxis, majorAxis, det_contactCovariance, det_contactCovariance]

/-- A state in the corner that is four times as long as it is wide. -/
noncomputable def oblong : Gaussian EReal := ⟨⟨((0 : ℝ) : EReal), 0⟩, .ofReals 1 0 16⟩

/-- A contact ellipse of that shape, somewhere on the edge. -/
noncomputable def oblongTouch (x : ℝ) : Sample EReal :=
  ⟨.down, 0, 0, ⟨x, 0⟩, 0, ((6 : ℝ) : EReal), ((12 : ℝ) : EReal), ((0 : ℝ) : EReal), ⟨0, 0⟩⟩

/-- The state has everything in common with the ellipse in the corner, and less with any other. -/
theorem logBhattacharyya_nonpos_oblong :
    oblong.logBhattacharyya (oblongTouch 0) = 0 ∧ oblong.logBhattacharyya (oblongTouch 1) < 0 := by
  have definite : oblong.covariance.IsPositiveDefinite :=
    Mat2.isPositiveDefinite_ofReals_iff.2 ⟨one_pos, by norm_num⟩
  have finite (x : ℝ) : (oblongTouch x).IsFinite :=
    ⟨exact_isFinite_coe x, exact_isFinite_coe 0, exact_isFinite_coe 0, exact_isFinite_coe 6,
      exact_isFinite_coe 12⟩
  have bounded (x : ℝ) := logBhattacharyya_nonpos definite (exact_isFinite_coe 0)
    (exact_isFinite_coe 0) (finite x) (by simp [oblongTouch]) (by simp [oblongTouch])
  have same : contactCovariance (oblongTouch 0).orientation (oblongTouch 0).minorAxis
      (oblongTouch 0).majorAxis = oblong.covariance := by
    rw [oblongTouch, contactCovariance_coe, Real.cos_zero, Real.sin_zero]
    norm_num [oblong, Mat2.ofReals]
  refine ⟨(bounded 0).2.1.2 ⟨rfl, same⟩, lt_of_le_of_ne (bounded 1).1 fun whole => ?_⟩
  have place := congrArg Vec2.x ((bounded 1).2.1.1 whole).1
  simp [oblongTouch, oblong] at place

end Gaussian

end TouchIntent
