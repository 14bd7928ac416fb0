import Mathlib
import TouchIntent.Gesture.Gaussian
import TouchIntent.Proofs.Numeric.Exact

/-!
# Densities in exact arithmetic

A distribution whose parameters are real numbers has a real logarithm of its density at every real
point. The formula below is what the program computes, with the logarithms of the reals.
-/

namespace TouchIntent

open Scalar

/-- The determinant of a matrix of real numbers. -/
theorem exact_det (a b c d : ℝ) :
    (⟨⟨a, b⟩, ⟨c, d⟩⟩ : Mat2 EReal).det = ((a * d - b * c : ℝ) : EReal) := by
  rw [Mat2.det, EReal.coe_sub, EReal.coe_mul, EReal.coe_mul]

namespace Gaussian

/-- The density of a distribution with real parameters, at a point of the real plane. -/
theorem exact_logDensity {a b c d : ℝ} (positive : 0 < a * d - b * c) (u v x y : ℝ) :
    (⟨⟨u, v⟩, ⟨⟨a, b⟩, ⟨c, d⟩⟩⟩ : Gaussian EReal).logDensity ⟨x, y⟩ =
      ((-Real.log (2 * Real.pi) - 1 / 2 * Real.log (a * d - b * c) -
        1 / 2 * ((x - u) * (d * (1 / (a * d - b * c)) * (x - u) +
            c * -(1 / (a * d - b * c)) * (y - v)) +
          (y - v) * (b * -(1 / (a * d - b * c)) * (x - u) +
            a * (1 / (a * d - b * c)) * (y - v))) : ℝ) : EReal) := by
  have circle : (ofNat 2 * pi : EReal) = ((2 * Real.pi : ℝ) : EReal) := by
    rw [exact_ofNat, EReal.coe_mul]
    rfl
  have unit : (one : EReal) = ((1 : ℝ) : EReal) := by simp
  rw [Gaussian.logDensity, circle, exact_half, exact_ln (by positivity)]
  simp only [Mat2.inverse, exact_det, unit]
  rw [exact_ln positive]
  simp only [Mat2.quadratic, Mat2.apply, Vec2.dot, Vec2.sub]
  push_cast
  rfl

/-- A symmetric real matrix with positive leading minors is a covariance with a density. -/
theorem exact_hasDensity {a b d : ℝ} (first : 0 < a) (second : 0 < a * d - b * b)
    (mean : Vec2 EReal) : (⟨mean, ⟨⟨a, b⟩, ⟨b, d⟩⟩⟩ : Gaussian EReal).hasDensity = true := by
  have minor : (zero : EReal) < ((a * d - b * b : ℝ) : EReal) := by
    rw [exact_zero]
    exact EReal.coe_pos.2 second
  have tolerance : (0 : EReal) ≤ Mat2.symmetryTolerance := by
    rw [Mat2.symmetryTolerance, exact_ratio]
    exact EReal.coe_nonneg.2 (by positivity)
  have size (x : EReal) : (0 : EReal) ≤ Scalar.abs x := by
    rw [Scalar.abs, exact_zero]
    by_cases negative : x < 0
    · rw [if_pos negative]
      simpa using negative.le
    · rw [if_neg negative]
      exact not_lt.1 negative
  have greater : (0 : EReal) ≤ maximum (Scalar.abs (b : EReal)) (Scalar.abs (b : EReal)) := by
    rw [maximum, ite_self]
    exact size b
  have symmetric : Scalar.abs ((b : EReal) - b) ≤
      Mat2.symmetryTolerance *
        (one + maximum (Scalar.abs (b : EReal)) (Scalar.abs (b : EReal))) := by
    rw [← EReal.coe_sub, sub_self, Scalar.abs, exact_zero, exact_one]
    simp only [EReal.coe_zero, lt_irrefl, if_false]
    exact mul_nonneg tolerance (add_nonneg zero_le_one greater)
  have covariance : (⟨⟨a, b⟩, ⟨b, d⟩⟩ : Mat2 EReal).isCovariance = true := by
    simp only [Mat2.isCovariance, Mat2.isFinite, exact_det, exact_isFinite_coe, Bool.and_true,
      Bool.and_eq_true, decide_eq_true_eq]
    exact ⟨⟨⟨trivial, symmetric⟩, by simpa using first⟩, minor⟩
  have inverse : (⟨⟨a, b⟩, ⟨b, d⟩⟩ : Mat2 EReal).inverse?.isSome = true := by
    simp only [Mat2.inverse?, exact_det]
    rw [if_pos ⟨Or.inr minor, exact_isFinite_coe _⟩]
    rfl
  rw [hasDensity, covariance, inverse]
  rfl

/-- A density at a finite point is finite. -/
theorem isFinite_logDensity {g : Gaussian EReal} (dense : g.hasDensity = true)
    (meanX : isFinite g.mean.x = true) (meanY : isFinite g.mean.y = true) {point : Vec2 EReal}
    (x : isFinite point.x = true) (y : isFinite point.y = true) :
    isFinite (g.logDensity point) = true := by
  obtain ⟨⟨u, v⟩, ⟨⟨a, b⟩, ⟨c, d⟩⟩⟩ := g
  obtain ⟨px, py⟩ := point
  simp only [hasDensity, Mat2.isCovariance, Mat2.isFinite, Bool.and_eq_true,
    decide_eq_true_eq] at dense
  obtain ⟨⟨⟨⟨⟨⟨⟨fa, fb⟩, fc⟩, fd⟩, -⟩, -⟩, positive⟩, -⟩ := dense
  obtain ⟨a, rfl⟩ := exact_real_of_isFinite fa
  obtain ⟨b, rfl⟩ := exact_real_of_isFinite fb
  obtain ⟨c, rfl⟩ := exact_real_of_isFinite fc
  obtain ⟨d, rfl⟩ := exact_real_of_isFinite fd
  obtain ⟨u, rfl⟩ := exact_real_of_isFinite meanX
  obtain ⟨v, rfl⟩ := exact_real_of_isFinite meanY
  obtain ⟨px, rfl⟩ := exact_real_of_isFinite x
  obtain ⟨py, rfl⟩ := exact_real_of_isFinite y
  rw [exact_det, exact_zero, EReal.coe_pos] at positive
  rw [exact_logDensity positive]
  exact exact_isFinite_coe _

end Gaussian

end TouchIntent
