import Mathlib
import TouchIntent.Proofs.Gesture.PathSum
import TouchIntent.Proofs.Gesture.SingleState
import TouchIntent.Proofs.Numeric.PositiveDefinite

/-!
# Fitting a state to samples

The two loops of a fit add up the weighted positions, and their scatter about the sum; the scatter
is regularized once for each sample. With weights that are not negative the scatter has a form that
is a sum of squares, so the regularized one is positive definite. The main statement of this module
says when a fit fails, that it then leaves the model as it was, and which model it leaves otherwise.
-/

namespace TouchIntent

open Scalar

/-- A distribution with a symmetric matrix has a density exactly if the matrix is positive
definite. -/
theorem Gaussian.hasDensity_iff {g : Gaussian EReal} (finite : g.covariance.isFinite = true)
    (symmetric : g.covariance.transpose = g.covariance) :
    g.hasDensity = true ↔ g.covariance.IsPositiveDefinite := by
  obtain ⟨mean, covariance⟩ := g
  obtain ⟨a, b, d, rfl⟩ := Mat2.exists_ofReals finite symmetric
  rw [Mat2.isPositiveDefinite_ofReals_iff]
  constructor
  · intro dense
    simp only [hasDensity, Mat2.isCovariance, Bool.and_eq_true, decide_eq_true_eq,
      Mat2.det_ofReals, exact_zero, EReal.coe_pos] at dense
    obtain ⟨⟨⟨-, first⟩, minor⟩, -⟩ := dense
    exact ⟨EReal.coe_pos.1 first, minor⟩
  · rintro ⟨first, minor⟩
    exact exact_hasDensity first minor mean

namespace Model

/-- The weighted sum of what is measured of samples. -/
noncomputable def weightedSum (measure : Sample EReal → EReal)
    (weighted : List (Sample EReal × EReal)) : EReal :=
  (weighted.map fun (sample, weight) => measure sample * weight).sum

/-- The weighted sum of the positions. -/
noncomputable def weightedMean (weighted : List (Sample EReal × EReal)) : Vec2 EReal :=
  ⟨weightedSum (fun s => s.position.x) weighted, weightedSum (fun s => s.position.y) weighted⟩

/-- The weighted sum of the squares and products of the distances from a center, with `10⁻⁵` for
each sample on the diagonal. -/
noncomputable def regularizedScatter (center : Vec2 EReal)
    (weighted : List (Sample EReal × EReal)) : Mat2 EReal :=
  let share := ((weighted.length / 100000 : ℝ) : EReal)
  let squareX := weightedSum
    (fun s => (s.position.x - center.x) * (s.position.x - center.x)) weighted
  let product := weightedSum
    (fun s => (s.position.x - center.x) * (s.position.y - center.y)) weighted
  let squareY := weightedSum
    (fun s => (s.position.y - center.y) * (s.position.y - center.y)) weighted
  ⟨⟨squareX + share, product⟩, ⟨product, squareY + share⟩⟩

/-- The positions and the weights are real numbers. -/
def IsMeasured (weighted : List (Sample EReal × EReal)) : Prop :=
  ∀ p ∈ weighted, (isFinite p.1.position.x = true ∧ isFinite p.1.position.y = true) ∧
    isFinite p.2 = true

variable {weighted : List (Sample EReal × EReal)} {center : Vec2 EReal}

/-! ## What the loops add up -/

theorem foldl_vec_add {α : Type} (f : α → Vec2 EReal) (xs : List α) (v : Vec2 EReal) :
    xs.foldl (fun v x => v.add (f x)) v =
      ⟨v.x + (xs.map fun x => (f x).x).sum, v.y + (xs.map fun x => (f x).y).sum⟩ := by
  induction xs generalizing v with
  | nil => simp
  | cons x xs ih =>
    rw [List.foldl_cons, ih]
    simp only [Vec2.add, List.map_cons, List.sum_cons, add_assoc]

/-- Matrices are added up column by column. -/
theorem foldl_mat_add {α : Type} (f : α → Mat2 EReal) (xs : List α) (m : Mat2 EReal) :
    xs.foldl (fun m x => m.add (f x)) m =
      ⟨xs.foldl (fun v x => v.add (f x).col0) m.col0,
        xs.foldl (fun v x => v.add (f x).col1) m.col1⟩ := by
  induction xs generalizing m with
  | nil => rfl
  | cons x xs ih =>
    rw [List.foldl_cons, ih]
    rfl

/-- What is added once for each sample. -/
theorem sum_map_add_const {α : Type} (f : α → EReal) (c : ℝ) (xs : List α) :
    (xs.map fun x => f x + (c : EReal)).sum = (xs.map f).sum + ((xs.length * c : ℝ) : EReal) := by
  rw [List.sum_map_add, List.map_const', List.sum_replicate, ← EReal.coe_nsmul, nsmul_eq_mul]

theorem fittedMean_eq (weighted : List (Sample EReal × EReal)) :
    fittedMean weighted = weightedMean weighted := by
  rw [fittedMean, foldl_vec_add (fun p : Sample EReal × EReal => p.1.position.scale p.2)]
  simp [weightedMean, weightedSum, Vec2.scale]

/-- What a sample adds to a fitted covariance. -/
noncomputable def deposit (center : Vec2 EReal) (p : Sample EReal × EReal) : Mat2 EReal :=
  let d := p.1.position.sub center
  ((⟨d.scale d.x, d.scale d.y⟩ : Mat2 EReal).scale p.2).add
    (Mat2.diagonal fitRegularization fitRegularization)

theorem deposit_eq (center : Vec2 EReal) (p : Sample EReal × EReal) : deposit center p =
    ⟨⟨(p.1.position.x - center.x) * (p.1.position.x - center.x) * p.2 + ((1 / 100000 : ℝ) : EReal),
        (p.1.position.x - center.x) * (p.1.position.y - center.y) * p.2⟩,
      ⟨(p.1.position.x - center.x) * (p.1.position.y - center.y) * p.2,
        (p.1.position.y - center.y) * (p.1.position.y - center.y) * p.2 +
          ((1 / 100000 : ℝ) : EReal)⟩⟩ := by
  have share : (fitRegularization : EReal) = ((1 / 100000 : ℝ) : EReal) := by
    rw [fitRegularization, exact_ratio]
    norm_num
  simp only [deposit, Mat2.add, Mat2.scale, Mat2.diagonal, Vec2.add, Vec2.scale, Vec2.sub,
    exact_zero, add_zero, share, mul_comm (p.1.position.y - center.y) (p.1.position.x - center.x)]

theorem fittedCovariance_eq (center : Vec2 EReal) (weighted : List (Sample EReal × EReal)) :
    fittedCovariance center weighted = regularizedScatter center weighted := by
  have total : ((weighted.length / 100000 : ℝ) : EReal) =
      ((weighted.length * (1 / 100000) : ℝ) : EReal) := by rw [mul_one_div]
  show weighted.foldl (fun m p => m.add (deposit center p)) Mat2.zero = _
  rw [foldl_mat_add, foldl_vec_add, foldl_vec_add]
  simp only [deposit_eq, sum_map_add_const, Mat2.zero, exact_zero, zero_add, regularizedScatter,
    weightedSum, total]

/-! ## The regularized scatter -/

theorem weightedSum_cons (measure : Sample EReal → EReal) (p : Sample EReal × EReal)
    (weighted : List (Sample EReal × EReal)) :
    weightedSum measure (p :: weighted) = measure p.1 * p.2 + weightedSum measure weighted :=
  List.sum_cons

theorem isFinite_weightedSum (measure : Sample EReal → EReal)
    (finite : ∀ p ∈ weighted, isFinite (measure p.1) = true ∧ isFinite p.2 = true) :
    isFinite (weightedSum measure weighted) = true := by
  induction weighted with
  | nil => exact exact_isFinite_coe 0
  | cons p rest ih =>
    obtain ⟨⟨measured, weight⟩, others⟩ := List.forall_mem_cons.1 finite
    rw [weightedSum_cons]
    exact exact_isFinite_add (exact_isFinite_mul measured weight) (ih others)

theorem IsMeasured.isFinite_mean (measured : IsMeasured weighted) :
    isFinite (weightedMean weighted).x = true ∧ isFinite (weightedMean weighted).y = true :=
  ⟨isFinite_weightedSum (fun s => s.position.x) fun p member =>
      ⟨(measured p member).1.1, (measured p member).2⟩,
    isFinite_weightedSum (fun s => s.position.y) fun p member =>
      ⟨(measured p member).1.2, (measured p member).2⟩⟩

theorem IsMeasured.isFinite_scatter (measured : IsMeasured weighted)
    (finiteX : isFinite center.x = true) (finiteY : isFinite center.y = true) :
    (regularizedScatter center weighted).isFinite = true := by
  have offset (p) (member : p ∈ weighted) :
      isFinite (p.1.position.x - center.x) = true ∧ isFinite (p.1.position.y - center.y) = true :=
    ⟨exact_isFinite_sub (measured p member).1.1 finiteX,
      exact_isFinite_sub (measured p member).1.2 finiteY⟩
  have product : isFinite (weightedSum
      (fun s => (s.position.x - center.x) * (s.position.y - center.y)) weighted) = true :=
    isFinite_weightedSum _ fun p member =>
      ⟨exact_isFinite_mul (offset p member).1 (offset p member).2, (measured p member).2⟩
  rw [Mat2.exact_isFinite_iff]
  refine ⟨⟨exact_isFinite_add (isFinite_weightedSum _ fun p member => ?_) (exact_isFinite_coe _),
    product⟩, product, exact_isFinite_add (isFinite_weightedSum _ fun p member => ?_)
      (exact_isFinite_coe _)⟩
  · exact ⟨exact_isFinite_mul (offset p member).1 (offset p member).1, (measured p member).2⟩
  · exact ⟨exact_isFinite_mul (offset p member).2 (offset p member).2, (measured p member).2⟩

/-- With weights that are not negative, the scatter has a form that is not negative: each sample
adds a square to it. -/
theorem IsMeasured.exists_form (measured : IsMeasured weighted)
    (nonneg : ∀ p ∈ weighted, 0 ≤ p.2) (u v : ℝ) : ∃ a b d : ℝ,
      weightedSum (fun s => (s.position.x - u) * (s.position.x - u)) weighted = (a : EReal) ∧
      weightedSum (fun s => (s.position.x - u) * (s.position.y - v)) weighted = (b : EReal) ∧
      weightedSum (fun s => (s.position.y - v) * (s.position.y - v)) weighted = (d : EReal) ∧
      ∀ x y : ℝ, 0 ≤ a * x ^ 2 + 2 * b * x * y + d * y ^ 2 := by
  induction weighted with
  | nil => exact ⟨0, 0, 0, rfl, rfl, rfl, fun x y => by simp⟩
  | cons p rest ih =>
    obtain ⟨⟨⟨finiteX, finiteY⟩, finite⟩, others⟩ := List.forall_mem_cons.1 measured
    obtain ⟨above, nonneg⟩ := List.forall_mem_cons.1 nonneg
    obtain ⟨a, b, d, squareX, product, squareY, form⟩ := ih others nonneg
    obtain ⟨px, placeX⟩ := exact_real_of_isFinite finiteX
    obtain ⟨py, placeY⟩ := exact_real_of_isFinite finiteY
    obtain ⟨w, weight⟩ := exact_real_of_isFinite finite
    rw [weight, EReal.coe_nonneg] at above
    refine ⟨(px - u) * (px - u) * w + a, (px - u) * (py - v) * w + b, (py - v) * (py - v) * w + d,
      ?_, ?_, ?_, fun x y => ?_⟩
    · rw [weightedSum_cons, squareX, placeX, weight]
      rfl
    · rw [weightedSum_cons, product, placeX, placeY, weight]
      rfl
    · rw [weightedSum_cons, squareY, placeY, weight]
      rfl
    · calc 0 ≤ w * ((px - u) * x + (py - v) * y) ^ 2 + (a * x ^ 2 + 2 * b * x * y + d * y ^ 2) :=
            add_nonneg (by positivity) (form x y)
        _ = _ := by ring

theorem IsMeasured.isPositiveDefinite (measured : IsMeasured weighted)
    (nonneg : ∀ p ∈ weighted, 0 ≤ p.2) (present : weighted ≠ [])
    (finiteX : isFinite center.x = true) (finiteY : isFinite center.y = true) :
    (regularizedScatter center weighted).IsPositiveDefinite := by
  obtain ⟨⟨u, v⟩, rfl⟩ : ∃ c, c = center := ⟨center, rfl⟩
  obtain ⟨u, rfl⟩ := exact_real_of_isFinite finiteX
  obtain ⟨v, rfl⟩ := exact_real_of_isFinite finiteY
  obtain ⟨a, b, d, squareX, product, squareY, form⟩ := measured.exists_form nonneg u v
  have share : 0 < (weighted.length / 100000 : ℝ) := by
    have := List.length_pos_of_ne_nil present
    positivity
  have scatter : regularizedScatter ⟨u, v⟩ weighted =
      .ofReals (a + weighted.length / 100000) b (d + weighted.length / 100000) := by
    simp only [regularizedScatter, squareX, product, squareY, ← EReal.coe_add]
    rfl
  rw [scatter, Mat2.isPositiveDefinite_ofReals_iff_form]
  intro x y aside
  have away : 0 < x ^ 2 + y ^ 2 := by
    refine lt_of_le_of_ne (by positivity) fun none => aside ?_
    obtain ⟨left, right⟩ :=
      (add_eq_zero_iff_of_nonneg (sq_nonneg x) (sq_nonneg y)).1 none.symm
    exact ⟨pow_eq_zero_iff two_ne_zero |>.1 left, pow_eq_zero_iff two_ne_zero |>.1 right⟩
  calc 0 < (a * x ^ 2 + 2 * b * x * y + d * y ^ 2) + weighted.length / 100000 * (x ^ 2 + y ^ 2) :=
        add_pos_of_nonneg_of_pos (form x y) (mul_pos share away)
    _ = _ := by ring

/-! ## Fitting -/

variable {m : Model EReal} {state : Nat} {samples : List (Sample EReal)} {weights : List EReal}

theorem isMeasured_zip
    (positions : ∀ s ∈ samples, isFinite s.position.x = true ∧ isFinite s.position.y = true)
    (finite : ∀ w ∈ weights, isFinite w = true) : IsMeasured (samples.zip weights) := by
  rintro ⟨s, w⟩ member
  obtain ⟨sample, weight⟩ := List.of_mem_zip member
  exact ⟨positions s sample, finite w weight⟩

/-- Nothing is written to a model before all that can be wrong with a fit has been found out. -/
theorem fit_of_error {R : Type} [Scalar R] {m : Model R} {state : Nat} {samples : List (Sample R)}
    {weights : List R} {e : ModelError} (refused : (m.fit state samples weights).2 = .error e) :
    (m.fit state samples weights).1 = m := by
  unfold fit at refused ⊢
  split at refused
  · next inRange =>
    rw [dif_pos inRange]
    split at refused
    · next absent => rw [if_pos absent]
    · next present =>
      rw [if_neg present]
      split at refused
      · next unmatched => rw [if_pos unmatched]
      · next matched =>
        rw [if_neg matched]
        simp only at refused ⊢
        split at refused
        · rfl
        · cases refused
  · next outside => rw [dif_neg outside]

/-- A fit of a state that there is to samples that there are, each with its weight. -/
theorem fit_eq_of_matched (inRange : state < m.size) (present : samples ≠ [])
    (matched : samples.length = weights.length) (measured : IsMeasured (samples.zip weights)) :
    let weighted := samples.zip weights
    let covariance := regularizedScatter (weightedMean weighted) weighted
    (covariance.IsPositiveDefinite → m.fit state samples weights =
      ({ m with states := m.states.set state ⟨weightedMean weighted, covariance⟩ inRange },
        .ok ())) ∧
    (¬ covariance.IsPositiveDefinite →
      m.fit state samples weights = (m, .error .degenerateFit)) := by
  intro weighted covariance
  have mean := measured.isFinite_mean
  have dense : (⟨weightedMean weighted, covariance⟩ : Gaussian EReal).hasDensity = true ↔
      covariance.IsPositiveDefinite :=
    Gaussian.hasDensity_iff (measured.isFinite_scatter mean.1 mean.2) rfl
  rw [fit, dif_pos inRange, if_neg (by simpa using present), if_neg (not_not.2 matched)]
  simp only [fittedMean_eq, fittedCovariance_eq, Gaussian.of?]
  constructor
  · intro definite
    rw [if_pos (dense.2 definite)]
  · intro degenerate
    rw [if_neg (mt dense.1 degenerate)]

theorem exists_error_of_unmatched
    (improper : m.size ≤ state ∨ samples = [] ∨ samples.length ≠ weights.length) :
    ∃ e, (m.fit state samples weights).2 = .error e := by
  rw [fit]
  split
  · next inRange =>
    split
    · exact ⟨_, rfl⟩
    · next present =>
      have unmatched : samples.length ≠ weights.length := by
        rcases improper with outside | none | unmatched
        · exact absurd inRange (not_lt.2 outside)
        · exact absurd (by simp [none]) present
        · exact unmatched
      rw [if_pos unmatched]
      exact ⟨_, rfl⟩
  · exact ⟨_, rfl⟩

section Measured

variable (positions : ∀ s ∈ samples, isFinite s.position.x = true ∧ isFinite s.position.y = true)
  (finite : ∀ w ∈ weights, isFinite w = true)
include positions finite

theorem exists_error_iff : (∃ e, (m.fit state samples weights).2 = .error e) ↔
    m.size ≤ state ∨ samples = [] ∨ samples.length ≠ weights.length ∨
      ¬ (regularizedScatter (weightedMean (samples.zip weights))
        (samples.zip weights)).IsPositiveDefinite := by
  by_cases improper : m.size ≤ state ∨ samples = [] ∨ samples.length ≠ weights.length
  · refine iff_of_true (exists_error_of_unmatched improper) ?_
    tauto
  · obtain ⟨inRange, present, matched⟩ : state < m.size ∧ samples ≠ [] ∧
        samples.length = weights.length := by simpa using improper
    obtain ⟨fits, fails⟩ :=
      fit_eq_of_matched inRange present matched (isMeasured_zip positions finite)
    constructor
    · rintro ⟨e, refused⟩
      refine .inr (.inr (.inr fun definite => ?_))
      rw [fits definite] at refused
      cases refused
    · rintro (outside | none | unmatched | degenerate)
      · exact absurd inRange (not_lt.2 outside)
      · exact absurd none present
      · exact absurd matched unmatched
      · exact ⟨.degenerateFit, by rw [fails degenerate]⟩

theorem eq_of_fit_eq_ok (fitted : (m.fit state samples weights).2 = .ok ()) :
    let weighted := samples.zip weights
    let covariance := regularizedScatter (weightedMean weighted) weighted
    covariance.IsPositiveDefinite ∧ ∃ inRange : state < m.size, (m.fit state samples weights).1 =
      { m with states := m.states.set state ⟨weightedMean weighted, covariance⟩ inRange } := by
  have proper : ¬ ∃ e, (m.fit state samples weights).2 = .error e := by
    rintro ⟨e, refused⟩
    cases fitted.symm.trans refused
  rw [exists_error_iff positions finite] at proper
  simp only [not_or, not_le, not_not, ne_eq] at proper
  obtain ⟨inRange, present, matched, definite⟩ := proper
  have fits := (fit_eq_of_matched inRange present matched (isMeasured_zip positions finite)).1
    definite
  exact ⟨definite, inRange, by rw [fits]⟩

theorem isPositiveDefinite_of_nonneg (present : samples ≠ [])
    (matched : samples.length = weights.length) (nonneg : ∀ w ∈ weights, 0 ≤ w) :
    (regularizedScatter (weightedMean (samples.zip weights))
      (samples.zip weights)).IsPositiveDefinite := by
  have measured := isMeasured_zip positions finite
  have mean := measured.isFinite_mean
  refine measured.isPositiveDefinite (fun p member => ?_) (fun none => ?_) mean.1 mean.2
  · exact nonneg p.2 (List.of_mem_zip member).2
  · rcases List.zip_eq_nil_iff.1 none with none | none
    · exact present none
    · refine present (List.eq_nil_of_length_eq_zero ?_)
      rw [matched, none]
      rfl

end Measured

/-- A state that has a density may take the place of another. -/
theorem WellFormed.setState (wellFormed : m.WellFormed) (inRange : state < m.size)
    {g : Gaussian EReal} (dense : g.hasDensity = true)
    (mean : isFinite g.mean.x = true ∧ isFinite g.mean.y = true) :
    ({ m with states := m.states.set state g inRange } : Model EReal).WellFormed := by
  have states (i : Fin m.size) : (m.states.set state g inRange).get i = g ∨
      (m.states.set state g inRange).get i = m.states.get i := by
    rw [Vector.get_eq_getElem, Vector.getElem_set]
    split
    · exact .inl rfl
    · exact .inr (Vector.get_eq_getElem ..).symm
  refine ⟨fun i => ?_, fun i => ?_, wellFormed.initial, wellFormed.transitions⟩
  · show ((m.states.set state g inRange).get i).hasDensity = true
    rcases states i with new | old
    · rw [new]
      exact dense
    · rw [old]
      exact wellFormed.dense i
  · show isFinite ((m.states.set state g inRange).get i).mean.x = true ∧
      isFinite ((m.states.set state g inRange).get i).mean.y = true
    rcases states i with new | old
    · rw [new]
      exact mean
    · rw [old]
      exact wellFormed.mean i

/-- The weights of samples that weigh the same. -/
noncomputable def equalWeights (samples : List (Sample EReal)) : List EReal :=
  samples.map fun _ => one / ofNat (max samples.length 1)

theorem equalWeights_spec {w : EReal} (member : w ∈ equalWeights samples) :
    isFinite w = true ∧ 0 ≤ w := by
  have above : 0 < (max samples.length 1 : ℕ) := by positivity
  obtain ⟨-, -, rfl⟩ := List.mem_map.1 member
  have share : (one / ofNat (max samples.length 1) : EReal) =
      ((1 / (max samples.length 1 : ℕ) : ℝ) : EReal) := by
    rw [EReal.coe_div, EReal.coe_one, exact_one, exact_ofNat]
  rw [share]
  exact ⟨exact_isFinite_coe _, EReal.coe_nonneg.2 (by positivity)⟩

theorem fitUniform_eq (m : Model EReal) (state : Nat) (samples : List (Sample EReal)) :
    m.fitUniform state samples = m.fit state samples (equalWeights samples) := rfl

/-- A fit to samples of equal weight fails only for want of the state or of samples. -/
theorem exists_error_fitUniform_iff
    (positions : ∀ s ∈ samples, isFinite s.position.x = true ∧ isFinite s.position.y = true) :
    (∃ e, (m.fitUniform state samples).2 = .error e) ↔ m.size ≤ state ∨ samples = [] := by
  have matched : samples.length = (equalWeights samples).length := (List.length_map _).symm
  have finite : ∀ w ∈ equalWeights samples, isFinite w = true :=
    fun w member => (equalWeights_spec member).1
  rw [fitUniform_eq, exists_error_iff positions finite]
  constructor
  · rintro (outside | none | unmatched | degenerate)
    · exact .inl outside
    · exact .inr none
    · exact absurd matched unmatched
    · refine .inr (by_contra fun present => degenerate ?_)
      exact isPositiveDefinite_of_nonneg positions finite present matched
        fun w member => (equalWeights_spec member).2
  · rintro (outside | none)
    · exact .inl outside
    · exact .inr (.inl none)

/-- A fit fails if there is no such state, there are no samples, a sample has no weight of its own,
or the regularized scatter of the samples is not positive definite, and in no other case; then it
leaves the model as it was. Otherwise one state of the model is exchanged, for the distribution with
the weighted mean of the positions and their regularized scatter about that mean. The scatter is
positive definite if no weight is negative, so a fit to samples of equal weight fails only for want
of the state or of samples. -/
theorem fit_eq_error_iff (wellFormed : m.WellFormed)
    (positions : ∀ s ∈ samples, isFinite s.position.x = true ∧ isFinite s.position.y = true)
    (finite : ∀ w ∈ weights, isFinite w = true) :
    let weighted := samples.zip weights
    let covariance := regularizedScatter (weightedMean weighted) weighted
    ((∃ e, (m.fit state samples weights).2 = .error e) ↔ m.size ≤ state ∨ samples = [] ∨
      samples.length ≠ weights.length ∨ ¬ covariance.IsPositiveDefinite) ∧
    (∀ e, (m.fit state samples weights).2 = .error e → (m.fit state samples weights).1 = m) ∧
    ((m.fit state samples weights).2 = .ok () → (m.fit state samples weights).1.WellFormed ∧
      ∃ inRange : state < m.size, (m.fit state samples weights).1 =
        { m with states := m.states.set state ⟨weightedMean weighted, covariance⟩ inRange }) ∧
    (samples ≠ [] → samples.length = weights.length → (∀ w ∈ weights, 0 ≤ w) →
      covariance.IsPositiveDefinite) ∧
    ((∃ e, (m.fitUniform state samples).2 = .error e) ↔ m.size ≤ state ∨ samples = []) ∧
    (∀ e, (m.fitUniform state samples).2 = .error e → (m.fitUniform state samples).1 = m) ∧
    ((m.fitUniform state samples).2 = .ok () →
      ∃ g, (m.fitUniform state samples).1.state? state = some g ∧
        g.covariance.IsPositiveDefinite) := by
  intro weighted covariance
  refine ⟨exists_error_iff positions finite, fun _ => fit_of_error, fun fitted => ?_,
    isPositiveDefinite_of_nonneg positions finite, exists_error_fitUniform_iff positions,
    fun _ => fit_of_error, fun fitted => ?_⟩
  · have mean := (isMeasured_zip positions finite).isFinite_mean
    obtain ⟨definite, inRange, same⟩ := eq_of_fit_eq_ok positions finite fitted
    rw [same]
    refine ⟨wellFormed.setState inRange ?_ mean, inRange, rfl⟩
    exact (Gaussian.hasDensity_iff definite.finite definite.symmetric).2 definite
  · rw [fitUniform_eq] at fitted ⊢
    obtain ⟨definite, inRange, same⟩ := eq_of_fit_eq_ok positions
      (fun w member => (equalWeights_spec member).1) fitted
    rw [same]
    exact ⟨_, Vector.getElem?_set_self inRange, definite⟩

theorem wellFormed_single {g : Gaussian EReal} (dense : g.hasDensity = true)
    (mean : isFinite g.mean.x = true ∧ isFinite g.mean.y = true) :
    (Model.single g).WellFormed := by
  have unit : 0 ≤ (one : EReal) ∧ isFinite (one : EReal) = true := by
    rw [exact_one]
    exact ⟨zero_le_one, exact_isFinite_coe 1⟩
  refine ⟨?_, ?_, ?_, ?_⟩
  · rintro ⟨i, inRange⟩
    obtain rfl := Nat.lt_one_iff.1 inRange
    exact dense
  · rintro ⟨i, inRange⟩
    obtain rfl := Nat.lt_one_iff.1 inRange
    exact mean
  · rintro ⟨i, inRange⟩
    obtain rfl := Nat.lt_one_iff.1 inRange
    exact unit
  · rintro ⟨i, inRange⟩ ⟨j, inRange'⟩
    obtain rfl := Nat.lt_one_iff.1 inRange
    obtain rfl := Nat.lt_one_iff.1 inRange'
    exact unit

/-- A state in the corner, fitted to two samples of the edge that weigh the same. -/
theorem fit_eq_error_iff_edge :
    ∃ m', (Model.single ⟨⟨((0 : ℝ) : EReal), 0⟩, .ofReals 1 0 1⟩).fit 0
        [fingertip .down 0 0, fingertip .up 10 2] [half, half] = (m', .ok ()) ∧
      m'.state? 0 = some ⟨⟨((1 : ℝ) : EReal), ((0 : ℝ) : EReal)⟩,
        .ofReals (1 + 2 / 100000) 0 (2 / 100000)⟩ := by
  have dense : (⟨⟨((0 : ℝ) : EReal), 0⟩, .ofReals 1 0 1⟩ : Gaussian EReal).hasDensity = true :=
    Gaussian.exact_hasDensity one_pos (by norm_num) _
  have positions : ∀ s ∈ [fingertip .down 0 0, fingertip .up 10 2],
      isFinite s.position.x = true ∧ isFinite s.position.y = true := by
    intro s member
    rcases List.mem_pair.1 member with rfl | rfl <;>
      exact ⟨exact_isFinite_coe _, exact_isFinite_coe 0⟩
  have weights : ∀ w ∈ [half, (half : EReal)], w = ((1 / 2 : ℝ) : EReal) := by simp [exact_half]
  have finite : ∀ w ∈ [half, (half : EReal)], isFinite w = true := fun w member =>
    weights w member ▸ exact_isFinite_coe _
  obtain ⟨fails, -, fits, definite, -⟩ := @fit_eq_error_iff _ 0 _ _
    (wellFormed_single dense ⟨exact_isFinite_coe 0, exact_isFinite_coe 0⟩) positions finite
  have scatter := definite (by simp) rfl fun w member =>
    weights w member ▸ EReal.coe_nonneg.2 (by norm_num)
  cases fitted : ((Model.single ⟨⟨((0 : ℝ) : EReal), 0⟩, .ofReals 1 0 1⟩).fit 0
      [fingertip .down 0 0, fingertip .up 10 2] [half, half]).2 with
  | error e =>
    rcases fails.1 ⟨e, fitted⟩ with outside | none | unmatched | degenerate
    · exact absurd Nat.one_pos (not_lt.2 outside)
    · cases none
    · exact absurd rfl unmatched
    · exact absurd scatter degenerate
  | ok done =>
    obtain ⟨-, inRange, same⟩ := fits fitted
    have pair (measure : Sample EReal → EReal) (s t : Sample EReal) :
        weightedSum measure ([s, t].zip [half, half]) =
          measure s * ((1 / 2 : ℝ) : EReal) + measure t * ((1 / 2 : ℝ) : EReal) := by
      simp [weightedSum, exact_half]
    have mean : weightedMean ([fingertip .down 0 0, fingertip .up 10 2].zip [half, half]) =
        ⟨((1 : ℝ) : EReal), ((0 : ℝ) : EReal)⟩ := by
      simp only [weightedMean, pair, fingertip, ← EReal.coe_zero, ← EReal.coe_mul, ← EReal.coe_add]
      norm_num
    refine ⟨_, Prod.ext same fitted, (Vector.getElem?_set_self inRange).trans ?_⟩
    rw [mean]
    simp only [regularizedScatter, pair, fingertip, Mat2.ofReals, ← EReal.coe_zero,
      ← EReal.coe_sub, ← EReal.coe_mul, ← EReal.coe_add]
    norm_num

end Model

end TouchIntent
