import Mathlib
import TouchIntent.Proofs.Gesture.Density

/-!
# Emissions in exact arithmetic

The logarithm of an emission is a real number or `-∞`, as long as all numbers that it is computed
from are real, and all logarithms are taken of numbers that have one. That is no matter of course:
a covariance need be symmetric up to a tolerance only, so the covariance that a state and a contact
ellipse have together may have a negative determinant.
-/

namespace TouchIntent

open Scalar

namespace Scalar

variable {x y : EReal}

theorem exact_isFinite_neg (finite : isFinite x = true) : isFinite (-x) = true := by
  obtain ⟨r, rfl⟩ := exact_real_of_isFinite finite
  rw [← EReal.coe_neg]
  exact exact_isFinite_coe _

theorem exact_isFinite_sub (left : isFinite x = true) (right : isFinite y = true) :
    isFinite (x - y) = true := by
  rw [sub_eq_add_neg]
  exact exact_isFinite_add left (exact_isFinite_neg right)

theorem exact_isFinite_mul (left : isFinite x = true) (right : isFinite y = true) :
    isFinite (x * y) = true := by
  obtain ⟨r, rfl⟩ := exact_real_of_isFinite left
  obtain ⟨q, rfl⟩ := exact_real_of_isFinite right
  rw [← EReal.coe_mul]
  exact exact_isFinite_coe _

theorem exact_isFinite_div (left : isFinite x = true) (right : isFinite y = true) :
    isFinite (x / y) = true := by
  obtain ⟨r, rfl⟩ := exact_real_of_isFinite left
  obtain ⟨q, rfl⟩ := exact_real_of_isFinite right
  rw [← EReal.coe_div]
  exact exact_isFinite_coe _

theorem exact_isFinite_ln (finite : isFinite x = true) (positive : 0 < x) :
    isFinite (ln x) = true := by
  obtain ⟨r, rfl⟩ := exact_real_of_isFinite finite
  rw [exact_ln (EReal.coe_pos.1 positive)]
  exact exact_isFinite_coe _

theorem exact_isFinite_half : isFinite (half : EReal) = true := by
  rw [exact_half]
  exact exact_isFinite_coe _

end Scalar

namespace Mat2

variable {m n : Mat2 EReal}

/-- A matrix is finite if its entries are. -/
theorem exact_isFinite_iff : m.isFinite = true ↔
    (Scalar.isFinite m.col0.x = true ∧ Scalar.isFinite m.col0.y = true) ∧
      Scalar.isFinite m.col1.x = true ∧ Scalar.isFinite m.col1.y = true := by
  simp only [Mat2.isFinite, Bool.and_eq_true, and_assoc]

theorem exact_isFinite_add (left : m.isFinite = true) (right : n.isFinite = true) :
    (m.add n).isFinite = true := by
  obtain ⟨⟨a, b⟩, c, d⟩ := exact_isFinite_iff.1 left
  obtain ⟨⟨a', b'⟩, c', d'⟩ := exact_isFinite_iff.1 right
  exact exact_isFinite_iff.2 ⟨⟨Scalar.exact_isFinite_add a a', Scalar.exact_isFinite_add b b'⟩,
    Scalar.exact_isFinite_add c c', Scalar.exact_isFinite_add d d'⟩

theorem exact_isFinite_scale (finite : m.isFinite = true) {k : EReal}
    (factor : Scalar.isFinite k = true) : (m.scale k).isFinite = true := by
  obtain ⟨⟨a, b⟩, c, d⟩ := exact_isFinite_iff.1 finite
  exact exact_isFinite_iff.2 ⟨⟨exact_isFinite_mul a factor, exact_isFinite_mul b factor⟩,
    exact_isFinite_mul c factor, exact_isFinite_mul d factor⟩

theorem exact_isFinite_det (finite : m.isFinite = true) : Scalar.isFinite m.det = true := by
  obtain ⟨⟨a, b⟩, c, d⟩ := exact_isFinite_iff.1 finite
  exact exact_isFinite_sub (exact_isFinite_mul a d) (exact_isFinite_mul b c)

theorem exact_isFinite_inverse (finite : m.isFinite = true) : m.inverse.isFinite = true := by
  obtain ⟨⟨a, b⟩, c, d⟩ := exact_isFinite_iff.1 finite
  have unit : Scalar.isFinite (one : EReal) = true := by
    rw [exact_one]
    exact exact_isFinite_coe 1
  have factor := exact_isFinite_div unit (exact_isFinite_det finite)
  exact exact_isFinite_iff.2
    ⟨⟨exact_isFinite_mul d factor, exact_isFinite_mul b (exact_isFinite_neg factor)⟩,
      exact_isFinite_mul c (exact_isFinite_neg factor), exact_isFinite_mul a factor⟩

theorem exact_isFinite_quadratic (finite : m.isFinite = true) {v : Vec2 EReal}
    (x : Scalar.isFinite v.x = true) (y : Scalar.isFinite v.y = true) :
    Scalar.isFinite (m.quadratic v) = true := by
  obtain ⟨⟨a, b⟩, c, d⟩ := exact_isFinite_iff.1 finite
  exact Scalar.exact_isFinite_add
    (exact_isFinite_mul x (Scalar.exact_isFinite_add (exact_isFinite_mul a x)
      (exact_isFinite_mul c y)))
    (exact_isFinite_mul y (Scalar.exact_isFinite_add (exact_isFinite_mul b x)
      (exact_isFinite_mul d y)))

end Mat2

/-- The covariance of a contact ellipse, entry by entry. -/
theorem contactCovariance_coe (orientation minorAxis majorAxis : ℝ) :
    contactCovariance (orientation : EReal) minorAxis majorAxis =
      ⟨⟨((Real.cos orientation ^ 2 * (minorAxis / 6) ^ 4 +
            Real.sin orientation ^ 2 * (majorAxis / 6) ^ 4 : ℝ) : EReal),
          ((Real.cos orientation * Real.sin orientation *
            ((minorAxis / 6) ^ 4 - (majorAxis / 6) ^ 4) : ℝ) : EReal)⟩,
        ⟨((Real.cos orientation * Real.sin orientation *
            ((minorAxis / 6) ^ 4 - (majorAxis / 6) ^ 4) : ℝ) : EReal),
          ((Real.sin orientation ^ 2 * (minorAxis / 6) ^ 4 +
            Real.cos orientation ^ 2 * (majorAxis / 6) ^ 4 : ℝ) : EReal)⟩⟩ := by
  have six : (contactAxisScale : EReal) = ((6 : ℝ) : EReal) := by
    rw [contactAxisScale, exact_ofNat]
    norm_num
  have cosine : cos (orientation : EReal) = ((Real.cos orientation : ℝ) : EReal) := rfl
  have sine : sin (orientation : EReal) = ((Real.sin orientation : ℝ) : EReal) := rfl
  have zero : (zero : EReal) = ((0 : ℝ) : EReal) := by simp
  simp only [contactCovariance, Mat2.diagonal, Mat2.rotation, Mat2.mul, Mat2.apply, Mat2.transpose,
    six, cosine, sine, zero, square, ← EReal.coe_div, ← EReal.coe_mul, ← EReal.coe_add,
    ← EReal.coe_neg]
  congr 2 <;> congr 1 <;> ring

/-- The covariance of a contact ellipse is a real matrix times its transpose. -/
theorem exact_contactCovariance (orientation minorAxis majorAxis : ℝ) :
    ∃ a b c d : ℝ, a * d - b * c = (minorAxis / 6) ^ 2 * (majorAxis / 6) ^ 2 ∧
      contactCovariance (orientation : EReal) minorAxis majorAxis =
        ⟨⟨((a ^ 2 + c ^ 2 : ℝ) : EReal), ((a * b + c * d : ℝ) : EReal)⟩,
          ⟨((a * b + c * d : ℝ) : EReal), ((b ^ 2 + d ^ 2 : ℝ) : EReal)⟩⟩ := by
  refine ⟨Real.cos orientation * (minorAxis / 6) ^ 2, Real.sin orientation * (minorAxis / 6) ^ 2,
    -Real.sin orientation * (majorAxis / 6) ^ 2, Real.cos orientation * (majorAxis / 6) ^ 2, ?_, ?_⟩
  · linear_combination
      (minorAxis / 6) ^ 2 * (majorAxis / 6) ^ 2 * Real.cos_sq_add_sin_sq orientation
  · rw [contactCovariance_coe]
    congr 2 <;> congr 1 <;> ring

/-- What scoring a sample depends on is given by real numbers. -/
structure Sample.IsFinite (s : Sample EReal) : Prop where
  x : Scalar.isFinite s.position.x = true
  y : Scalar.isFinite s.position.y = true
  orientation : Scalar.isFinite s.orientation = true
  minorAxis : Scalar.isFinite s.minorAxis = true
  majorAxis : Scalar.isFinite s.majorAxis = true

namespace Gaussian

/-- The covariance that a state and the contact ellipse of a sample have together. -/
def pooled {R : Type} [Scalar R] (g : Gaussian R) (sample : Sample R) : Mat2 R :=
  (g.covariance.add
    (contactCovariance sample.orientation sample.minorAxis sample.majorAxis)).scale half

variable {g : Gaussian EReal} {sample : Sample EReal}

theorem isFinite_contactCovariance (finite : sample.IsFinite) :
    (contactCovariance sample.orientation sample.minorAxis sample.majorAxis).isFinite = true := by
  obtain ⟨o, orientation⟩ := exact_real_of_isFinite finite.orientation
  obtain ⟨u, minorAxis⟩ := exact_real_of_isFinite finite.minorAxis
  obtain ⟨v, majorAxis⟩ := exact_real_of_isFinite finite.majorAxis
  obtain ⟨a, b, c, d, -, covariance⟩ := exact_contactCovariance o u v
  rw [orientation, minorAxis, majorAxis, covariance, Mat2.exact_isFinite_iff]
  exact ⟨⟨exact_isFinite_coe _, exact_isFinite_coe _⟩, exact_isFinite_coe _, exact_isFinite_coe _⟩

theorem isFinite_pooled (covariance : g.covariance.isFinite = true) (finite : sample.IsFinite) :
    (g.pooled sample).isFinite = true :=
  Mat2.exact_isFinite_scale
    (Mat2.exact_isFinite_add covariance (isFinite_contactCovariance finite)) exact_isFinite_half

/-- A covariance that has a density is finite and has a positive determinant. -/
theorem covariance_of_hasDensity (dense : g.hasDensity = true) :
    g.covariance.isFinite = true ∧ 0 < g.covariance.det := by
  simp only [hasDensity, Mat2.isCovariance, Bool.and_eq_true, decide_eq_true_eq] at dense
  obtain ⟨⟨⟨⟨finite, -⟩, -⟩, positive⟩, -⟩ := dense
  rw [exact_zero] at positive
  exact ⟨finite, positive⟩

/-- Without a contact area, or a determinant to divide by, there is no overlap. -/
theorem logBhattacharyya_eq_bot
    (degenerate : (contactCovariance sample.orientation sample.minorAxis sample.majorAxis).det ≤ 0 ∨
      (g.pooled sample).det = 0) : g.logBhattacharyya sample = ⊥ := by
  rw [logBhattacharyya]
  extract_lets
  split
  · exact exact_negInfinity
  · next area =>
    rw [not_or, not_le, exact_zero] at area
    have singular : (g.pooled sample).det = 0 := degenerate.resolve_left area.1.not_ge
    have irregular : (g.pooled sample).inverse? = none := by
      rw [Mat2.inverse?, if_neg]
      rw [exact_zero, singular]
      simp
    split
    · exact exact_negInfinity
    · next inverse found =>
      have invertible : (g.pooled sample).inverse? = some inverse := found
      rw [irregular] at invertible
      cases invertible

/-- The overlap with an ellipse that has an area. -/
theorem logBhattacharyya_eq (finite : sample.IsFinite)
    (area : 0 < (contactCovariance sample.orientation sample.minorAxis sample.majorAxis).det)
    (covariance : g.covariance.isFinite = true) (proper : 0 < (g.pooled sample).det) :
    g.logBhattacharyya sample =
      half * (half * ln (g.covariance.det *
          (contactCovariance sample.orientation sample.minorAxis sample.majorAxis).det) -
        ln (g.pooled sample).det) -
      (g.pooled sample).inverse.quadratic (sample.position.sub g.mean) / ofNat 8 := by
  have touch := isFinite_contactCovariance finite
  have invertible : (g.pooled sample).inverse? = some (g.pooled sample).inverse := by
    rw [Mat2.inverse?, if_pos]
    rw [exact_zero]
    exact ⟨.inr proper, Mat2.exact_isFinite_det (isFinite_pooled covariance finite)⟩
  rw [logBhattacharyya]
  extract_lets
  split
  · next noArea =>
    rw [exact_zero] at noArea
    exact absurd noArea (not_or.2 ⟨area.not_ge, not_not.2 (Mat2.exact_isFinite_det touch)⟩)
  · split
    · next found =>
      have irregular : (g.pooled sample).inverse? = none := found
      rw [irregular] at invertible
      cases invertible
    · next inverse found =>
      have same : (g.pooled sample).inverse? = some inverse := found
      obtain rfl := Option.some.inj (same.symm.trans invertible)
      rfl

/-- With a contact area, and together a positive determinant, the overlap is not zero. -/
theorem isFinite_logBhattacharyya (dense : g.hasDensity = true)
    (meanX : isFinite g.mean.x = true) (meanY : isFinite g.mean.y = true)
    (finite : sample.IsFinite)
    (area : 0 < (contactCovariance sample.orientation sample.minorAxis sample.majorAxis).det)
    (proper : 0 < (g.pooled sample).det) : isFinite (g.logBhattacharyya sample) = true := by
  obtain ⟨covariance, positive⟩ := covariance_of_hasDensity dense
  have touch := isFinite_contactCovariance finite
  have whole := isFinite_pooled covariance finite
  have overlap := exact_isFinite_ln
    (exact_isFinite_mul (Mat2.exact_isFinite_det covariance) (Mat2.exact_isFinite_det touch))
    (EReal.mul_pos positive area)
  have distance := Mat2.exact_isFinite_quadratic (Mat2.exact_isFinite_inverse whole)
    (v := sample.position.sub g.mean)
    (exact_isFinite_sub finite.x meanX) (exact_isFinite_sub finite.y meanY)
  have eight : isFinite (ofNat 8 : EReal) = true := by
    rw [exact_ofNat]
    exact exact_isFinite_coe _
  rw [logBhattacharyya_eq finite area covariance proper]
  exact exact_isFinite_sub
    (exact_isFinite_mul exact_isFinite_half (exact_isFinite_sub
      (exact_isFinite_mul exact_isFinite_half overlap)
      (exact_isFinite_ln (Mat2.exact_isFinite_det whole) proper)))
    (exact_isFinite_div distance eight)

/-- The Bhattacharyya coefficient is less than `∞` where it has a logarithm. -/
theorem logBhattacharyya_ne_top (dense : g.hasDensity = true)
    (meanX : isFinite g.mean.x = true) (meanY : isFinite g.mean.y = true)
    (finite : sample.IsFinite) (proper : 0 ≤ (g.pooled sample).det) :
    g.logBhattacharyya sample ≠ ⊤ := by
  by_cases degenerate :
      (contactCovariance sample.orientation sample.minorAxis sample.majorAxis).det ≤ 0 ∨
        (g.pooled sample).det = 0
  · rw [logBhattacharyya_eq_bot degenerate]
    exact bot_ne_top
  · obtain ⟨area, singular⟩ := not_or.1 degenerate
    exact (exact_isFinite.1 (isFinite_logBhattacharyya dense meanX meanY finite (not_le.1 area)
      (lt_of_le_of_ne proper (Ne.symm singular)))).1

/-- An emission is less than `∞` where it has a logarithm. -/
theorem logEmission_ne_top (dense : g.hasDensity = true) (meanX : isFinite g.mean.x = true)
    (meanY : isFinite g.mean.y = true) (finite : sample.IsFinite) {mode : Emission}
    (proper : mode = .bhattacharyya → 0 ≤ (g.pooled sample).det) :
    g.logEmission mode sample ≠ ⊤ := by
  cases mode with
  | gaussian => exact (exact_isFinite.1 (isFinite_logDensity dense meanX meanY finite.x finite.y)).1
  | bhattacharyya => exact logBhattacharyya_ne_top dense meanX meanY finite (proper rfl)

/-- A symmetric covariance has a positive determinant together with any contact ellipse. -/
theorem pooled_det_pos {a b d : ℝ} (first : 0 < a) (second : 0 < a * d - b * b)
    {mean : Vec2 EReal} (finite : sample.IsFinite) :
    0 < ((⟨mean, ⟨⟨a, b⟩, ⟨b, d⟩⟩⟩ : Gaussian EReal).pooled sample).det := by
  obtain ⟨o, orientation⟩ := exact_real_of_isFinite finite.orientation
  obtain ⟨u, minorAxis⟩ := exact_real_of_isFinite finite.minorAxis
  obtain ⟨v, majorAxis⟩ := exact_real_of_isFinite finite.majorAxis
  obtain ⟨p, q, r, s, -, covariance⟩ := exact_contactCovariance o u v
  -- The form `d x² - 2 b x y + a y²` is nonnegative, as is the determinant of the ellipse.
  have form (x y : ℝ) : 0 ≤ d * x ^ 2 - 2 * b * x * y + a * y ^ 2 := by
    have square : a * (d * x ^ 2 - 2 * b * x * y + a * y ^ 2) =
        (a * y - b * x) ^ 2 + (a * d - b * b) * x ^ 2 := by ring
    have scaled : 0 ≤ a * (d * x ^ 2 - 2 * b * x * y + a * y ^ 2) := by
      rw [square]
      positivity
    exact nonneg_of_mul_nonneg_right scaled first
  have total : 0 < 1 / 2 * (a + (p ^ 2 + r ^ 2)) * (1 / 2 * (d + (q ^ 2 + s ^ 2))) -
      1 / 2 * (b + (p * q + r * s)) * (1 / 2 * (b + (p * q + r * s))) := by
    have split : 1 / 2 * (a + (p ^ 2 + r ^ 2)) * (1 / 2 * (d + (q ^ 2 + s ^ 2))) -
        1 / 2 * (b + (p * q + r * s)) * (1 / 2 * (b + (p * q + r * s))) =
        1 / 4 * ((a * d - b * b) + (p * s - q * r) ^ 2 +
          (d * p ^ 2 - 2 * b * p * q + a * q ^ 2) + (d * r ^ 2 - 2 * b * r * s + a * s ^ 2)) := by
      ring
    rw [split]
    have left := form p q
    have right := form r s
    positivity
  simp only [pooled, orientation, minorAxis, majorAxis, covariance, exact_half, Mat2.add,
    Mat2.scale, Vec2.add, Vec2.scale, Mat2.det, ← EReal.coe_add, ← EReal.coe_mul, ← EReal.coe_sub]
  rw [EReal.coe_pos]
  calc (0 : ℝ) < _ := total
    _ = _ := by ring

/-- A symmetric covariance is proper together with any contact ellipse. -/
theorem pooled_det_nonneg {a b d : ℝ} (first : 0 < a) (second : 0 < a * d - b * b)
    {mean : Vec2 EReal} (finite : sample.IsFinite) :
    0 ≤ ((⟨mean, ⟨⟨a, b⟩, ⟨b, d⟩⟩⟩ : Gaussian EReal).pooled sample).det :=
  (pooled_det_pos first second finite).le

end Gaussian

end TouchIntent
