import Mathlib
import TouchIntent.Numeric.Plane
import TouchIntent.Proofs.Numeric.Exact

/-!
# Positive definite matrices

In exact arithmetic a symmetric matrix is positive definite exactly if its leading entry and its
determinant are positive, and then so are its inverse and its sum with another one. The determinant
of the mean of two such matrices is at least the geometric mean of their determinants.
-/

namespace TouchIntent

open Scalar

namespace Mat2

/-- A symmetric matrix, finite, whose quadratic form is positive except at the origin. -/
structure IsPositiveDefinite (m : Mat2 EReal) : Prop where
  finite : m.isFinite = true
  symmetric : m.transpose = m
  positive : ∀ v : Vec2 EReal, Scalar.isFinite v.x = true → Scalar.isFinite v.y = true →
    v ≠ ⟨0, 0⟩ → 0 < m.quadratic v

/-- The symmetric matrix of real entries. -/
def ofReals (a b d : ℝ) : Mat2 EReal := ⟨⟨a, b⟩, ⟨b, d⟩⟩

variable {a b d p q r : ℝ}

/-! ## Symmetric matrices of real entries -/

theorem transpose_ofReals (a b d : ℝ) : (ofReals a b d).transpose = ofReals a b d := rfl

theorem isFinite_ofReals (a b d : ℝ) : (ofReals a b d).isFinite = true := by
  simp [Mat2.isFinite, ofReals, -exact_isFinite]

theorem det_ofReals (a b d : ℝ) : (ofReals a b d).det = ((a * d - b * b : ℝ) : EReal) := by
  rw [det, ofReals, EReal.coe_sub, EReal.coe_mul, EReal.coe_mul]

theorem add_ofReals (a b d p q r : ℝ) :
    (ofReals a b d).add (ofReals p q r) = ofReals (a + p) (b + q) (d + r) := by
  simp only [Mat2.add, Vec2.add, ofReals, EReal.coe_add]

theorem scale_ofReals (a b d k : ℝ) :
    (ofReals a b d).scale k = ofReals (a * k) (b * k) (d * k) := by
  simp only [Mat2.scale, Vec2.scale, ofReals, EReal.coe_mul]

theorem quadratic_ofReals (a b d x y : ℝ) :
    (ofReals a b d).quadratic ⟨x, y⟩ = ((a * x ^ 2 + 2 * b * x * y + d * y ^ 2 : ℝ) : EReal) := by
  simp only [quadratic, apply, Vec2.dot, ofReals, ← EReal.coe_mul, ← EReal.coe_add]
  congr 1
  ring

theorem inverse_ofReals (a b d : ℝ) : (ofReals a b d).inverse =
    ofReals (d / (a * d - b * b)) (-b / (a * d - b * b)) (a / (a * d - b * b)) := by
  have unit : (one : EReal) = ((1 : ℝ) : EReal) := by simp
  simp only [inverse, det_ofReals, unit, ← EReal.coe_div]
  simp only [ofReals, ← EReal.coe_neg, ← EReal.coe_mul]
  congr 3 <;> ring

theorem ofReals_inj : ofReals a b d = ofReals p q r ↔ a = p ∧ b = q ∧ d = r := by
  simp only [ofReals, Mat2.mk.injEq, Vec2.mk.injEq, EReal.coe_eq_coe_iff]
  tauto

/-- A form with positive leading entry and determinant, by completing the square. -/
theorem form_pos (first : 0 < a) (minor : 0 < a * d - b * b) {x y : ℝ} (some : ¬ (x = 0 ∧ y = 0)) :
    0 < a * x ^ 2 + 2 * b * x * y + d * y ^ 2 := by
  have square : a * (a * x ^ 2 + 2 * b * x * y + d * y ^ 2) =
      (a * x + b * y) ^ 2 + (a * d - b * b) * y ^ 2 := by ring
  have scaled : 0 < a * (a * x ^ 2 + 2 * b * x * y + d * y ^ 2) := by
    rw [square]
    by_cases level : y = 0
    · have aside : x ≠ 0 := fun none => some ⟨none, level⟩
      subst level
      simpa using by positivity
    · positivity
  exact pos_of_mul_pos_right scaled first.le

theorem isPositiveDefinite_ofReals_iff_form : (ofReals a b d).IsPositiveDefinite ↔
    ∀ x y : ℝ, ¬ (x = 0 ∧ y = 0) → 0 < a * x ^ 2 + 2 * b * x * y + d * y ^ 2 := by
  constructor
  · intro definite x y some
    have above := definite.positive ⟨x, y⟩ (exact_isFinite_coe x) (exact_isFinite_coe y)
      (by simpa using some)
    rwa [quadratic_ofReals, EReal.coe_pos] at above
  · refine fun form => ⟨isFinite_ofReals a b d, transpose_ofReals a b d, ?_⟩
    rintro ⟨x, y⟩ finiteX finiteY some
    obtain ⟨x, rfl⟩ := exact_real_of_isFinite finiteX
    obtain ⟨y, rfl⟩ := exact_real_of_isFinite finiteY
    rw [quadratic_ofReals, EReal.coe_pos]
    exact form x y (by simpa using some)

theorem isPositiveDefinite_ofReals_iff :
    (ofReals a b d).IsPositiveDefinite ↔ 0 < a ∧ 0 < a * d - b * b := by
  rw [isPositiveDefinite_ofReals_iff_form]
  constructor
  · intro form
    have first : 0 < a := by simpa using form 1 0 (by simp)
    refine ⟨first, pos_of_mul_pos_right ?_ first.le⟩
    calc 0 < a * (-b) ^ 2 + 2 * b * (-b) * a + d * a ^ 2 := form (-b) a fun none => first.ne' none.2
      _ = a * (a * d - b * b) := by ring
  · rintro ⟨first, minor⟩ x y some
    exact form_pos first minor some

/-- A symmetric matrix is given by three real numbers if it is finite. -/
theorem exists_ofReals {m : Mat2 EReal} (finite : m.isFinite = true)
    (symmetric : m.transpose = m) : ∃ a b d : ℝ, m = ofReals a b d := by
  obtain ⟨⟨a, b⟩, c, d⟩ := m
  obtain rfl : c = b := congrArg (fun m => m.col0.y) symmetric
  simp only [Mat2.isFinite, Bool.and_eq_true] at finite
  obtain ⟨⟨⟨finiteA, finiteB⟩, -⟩, finiteD⟩ := finite
  obtain ⟨a, rfl⟩ := exact_real_of_isFinite finiteA
  obtain ⟨b, rfl⟩ := exact_real_of_isFinite finiteB
  obtain ⟨d, rfl⟩ := exact_real_of_isFinite finiteD
  exact ⟨a, b, d, rfl⟩

theorem IsPositiveDefinite.exists_ofReals {m : Mat2 EReal} (definite : m.IsPositiveDefinite) :
    ∃ a b d : ℝ, m = ofReals a b d ∧ 0 < a ∧ 0 < a * d - b * b := by
  obtain ⟨a, b, d, rfl⟩ := Mat2.exists_ofReals definite.finite definite.symmetric
  exact ⟨a, b, d, rfl, isPositiveDefinite_ofReals_iff.1 definite⟩

theorem IsPositiveDefinite.det_pos {m : Mat2 EReal} (definite : m.IsPositiveDefinite) :
    0 < m.det := by
  obtain ⟨a, b, d, rfl, -, minor⟩ := definite.exists_ofReals
  rw [det_ofReals]
  exact EReal.coe_pos.2 minor

/-- The form is a real number at a point of the real plane. It vanishes only at the origin. -/
theorem IsPositiveDefinite.exists_quadratic {m : Mat2 EReal} (definite : m.IsPositiveDefinite)
    (x y : ℝ) : ∃ form : ℝ, m.quadratic ⟨x, y⟩ = (form : EReal) ∧ 0 ≤ form ∧
      (form = 0 ↔ x = 0 ∧ y = 0) := by
  obtain ⟨a, b, d, rfl, first, minor⟩ := definite.exists_ofReals
  refine ⟨_, quadratic_ofReals a b d x y, ?_⟩
  by_cases origin : x = 0 ∧ y = 0
  · obtain ⟨rfl, rfl⟩ := origin
    simp
  · have above := form_pos first minor origin
    exact ⟨above.le, iff_of_false above.ne' origin⟩

theorem IsPositiveDefinite.inverse {m : Mat2 EReal} (definite : m.IsPositiveDefinite) :
    m.inverse.IsPositiveDefinite := by
  obtain ⟨a, b, d, rfl, first, minor⟩ := definite.exists_ofReals
  have last : 0 < d := by
    simpa using form_pos first minor (x := 0) (y := 1) (by simp)
  rw [inverse_ofReals, isPositiveDefinite_ofReals_iff]
  refine ⟨div_pos last minor, ?_⟩
  have whole : d / (a * d - b * b) * (a / (a * d - b * b)) -
      -b / (a * d - b * b) * (-b / (a * d - b * b)) = 1 / (a * d - b * b) := by
    field_simp
  rw [whole]
  exact one_div_pos.2 minor

/-! ## Sums -/

/-- What the determinant of a sum has beyond the sum of the determinants. -/
def mixedDet (a b d p q r : ℝ) : ℝ := a * r + d * p - (b * q + b * q)

theorem det_sum (a b d p q r : ℝ) : (a + p) * (d + r) - (b + q) * (b + q) =
    (a * d - b * b) + (p * r - q * q) + mixedDet a b d p q r := by
  rw [mixedDet]
  ring

/-- The discriminant of a pencil of symmetric matrices, by completing the square. -/
theorem mixedDet_sq (a b d p q r : ℝ) :
    a ^ 2 * (mixedDet a b d p q r ^ 2 - 4 * ((a * d - b * b) * (p * r - q * q))) =
      (a * (a * r - d * p) - 2 * b * (a * q - b * p)) ^ 2 +
        4 * (a * d - b * b) * (a * q - b * p) ^ 2 := by
  rw [mixedDet]
  ring

/-- Two positive numbers and a third that is at least twice their geometric mean: a quarter of the
sum is at least the geometric mean, and exceeds it unless the two are equal and the third is twice
each of them. -/
theorem mul_le_sq_mean {s t u : ℝ} (above : 0 < s) (above' : 0 < t) (between : 0 < u)
    (bound : 4 * (s * t) ≤ u ^ 2) : s * t ≤ (1 / 4 * (s + t + u)) ^ 2 ∧
      (s * t = (1 / 4 * (s + t + u)) ^ 2 → s = t ∧ u ^ 2 = 4 * (s * t)) := by
  have apart : 0 ≤ (s - t) ^ 2 := sq_nonneg _
  have sums : 4 * (s * t) ≤ (s + t) * u := by
    have means : 4 * (s * t) ≤ (s + t) ^ 2 := by linarith
    rw [← sq_le_sq₀ (by positivity) (by positivity)]
    calc (4 * (s * t)) ^ 2 = 4 * (s * t) * (4 * (s * t)) := by ring
      _ ≤ (s + t) ^ 2 * u ^ 2 := mul_le_mul means bound (by positivity) (by positivity)
      _ = ((s + t) * u) ^ 2 := by ring
  have parts : 16 * ((1 / 4 * (s + t + u)) ^ 2 - s * t) =
      (s - t) ^ 2 + 2 * ((s + t) * u - 4 * (s * t)) + (u ^ 2 - 4 * (s * t)) := by ring
  constructor
  · linarith
  · intro attained
    -- None of the parts of the excess is negative, so each of them vanishes with it.
    have vanishes : (s - t) ^ 2 = 0 := by linarith
    exact ⟨sub_eq_zero.1 (pow_eq_zero_iff two_ne_zero |>.1 vanishes), by linarith⟩

section Pair

variable (first : 0 < a) (minor : 0 < a * d - b * b)
include first minor

theorem four_det_mul_det_le :
    4 * ((a * d - b * b) * (p * r - q * q)) ≤ mixedDet a b d p q r ^ 2 := by
  have scaled : 0 ≤ a ^ 2 * (mixedDet a b d p q r ^ 2 -
      4 * ((a * d - b * b) * (p * r - q * q))) := by
    rw [mixedDet_sq]
    positivity
  exact sub_nonneg.1 (nonneg_of_mul_nonneg_right scaled (by positivity))

/-- The bound is attained only by a multiple of the matrix. -/
theorem proportional_of_eq
    (attained : mixedDet a b d p q r ^ 2 = 4 * ((a * d - b * b) * (p * r - q * q))) :
    a * q = b * p ∧ a * r = d * p := by
  have squares := mixedDet_sq a b d p q r
  rw [attained, sub_self, mul_zero] at squares
  have aside : (a * q - b * p) ^ 2 = 0 := by
    have bound := sq_nonneg (a * (a * r - d * p) - 2 * b * (a * q - b * p))
    have scaled : 4 * (a * d - b * b) * (a * q - b * p) ^ 2 ≤ 0 := by linarith
    exact le_antisymm (nonpos_of_mul_nonpos_right scaled (by positivity)) (sq_nonneg _)
  have same : a * q - b * p = 0 := pow_eq_zero_iff two_ne_zero |>.1 aside
  rw [same] at squares
  have level : a * (a * r - d * p) = 0 := by simpa using squares.symm
  exact ⟨sub_eq_zero.1 same, sub_eq_zero.1 ((mul_eq_zero.1 level).resolve_left first.ne')⟩

variable (first' : 0 < p) (minor' : 0 < p * r - q * q)
include first' minor'

theorem mixedDet_pos : 0 < mixedDet a b d p q r := by
  have square : a * p * mixedDet a b d p q r =
      a ^ 2 * (p * r - q * q) + p ^ 2 * (a * d - b * b) + (a * q - b * p) ^ 2 := by
    rw [mixedDet]
    ring
  have scaled : 0 < a * p * mixedDet a b d p q r := by
    rw [square]
    positivity
  exact pos_of_mul_pos_right scaled (mul_pos first first').le

theorem det_sum_pos : 0 < (a + p) * (d + r) - (b + q) * (b + q) := by
  have mixed := mixedDet_pos first minor first' minor'
  rw [det_sum]
  positivity

theorem det_mul_det_le : (a * d - b * b) * (p * r - q * q) ≤
    (1 / 4 * ((a + p) * (d + r) - (b + q) * (b + q))) ^ 2 := by
  rw [det_sum]
  exact (mul_le_sq_mean minor minor' (mixedDet_pos first minor first' minor')
    (four_det_mul_det_le first minor)).1

/-- The determinant of the mean is the geometric mean of the determinants only if the matrices are
the same. -/
theorem det_mul_det_eq_iff : (a * d - b * b) * (p * r - q * q) =
    (1 / 4 * ((a + p) * (d + r) - (b + q) * (b + q))) ^ 2 ↔ a = p ∧ b = q ∧ d = r := by
  constructor
  · intro attained
    rw [det_sum] at attained
    obtain ⟨equal, mixed⟩ := (mul_le_sq_mean minor minor' (mixedDet_pos first minor first' minor')
      (four_det_mul_det_le first minor)).2 attained
    -- The one matrix is a multiple of the other, by a factor that can only be one.
    obtain ⟨aside, level⟩ := proportional_of_eq first minor mixed
    have scaled : a ^ 2 * (a * d - b * b) = p ^ 2 * (a * d - b * b) := by
      calc a ^ 2 * (a * d - b * b) = p * a * (a * r) - (a * q) ^ 2 := by rw [equal]; ring
        _ = p ^ 2 * (a * d - b * b) := by rw [aside, level]; ring
    have corner : a = p := by
      have same := mul_right_cancel₀ minor.ne' scaled
      exact (pow_left_inj₀ first.le first'.le two_ne_zero).1 same
    rw [← corner, mul_comm b] at aside
    rw [← corner, mul_comm d] at level
    exact ⟨corner, (mul_left_cancel₀ first.ne' aside).symm, (mul_left_cancel₀ first.ne' level).symm⟩
  · rintro ⟨rfl, rfl, rfl⟩
    ring

end Pair

/-- The mean of two positive definite matrices. -/
theorem IsPositiveDefinite.mean {m n : Mat2 EReal} (left : m.IsPositiveDefinite)
    (right : n.IsPositiveDefinite) : ((m.add n).scale half).IsPositiveDefinite := by
  obtain ⟨a, b, d, rfl, first, minor⟩ := left.exists_ofReals
  obtain ⟨p, q, r, rfl, first', minor'⟩ := right.exists_ofReals
  have total := det_sum_pos first minor first' minor'
  rw [add_ofReals, exact_half, scale_ofReals, isPositiveDefinite_ofReals_iff]
  exact ⟨by positivity, by linarith⟩

end Mat2

end TouchIntent
