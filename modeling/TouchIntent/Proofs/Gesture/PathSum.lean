import Mathlib
import TouchIntent.Gesture.Model
import TouchIntent.Proofs.Gesture.Emission
import TouchIntent.Proofs.Numeric.LogTotal

/-!
# The sum over all paths

The forward recursion keeps, for each state, the log total of all paths that end there. Distributing
the last step and the last emission over these paths gives the log total of all paths that are one
observation longer. In exact arithmetic the recursion therefore adds up the probabilities of all
paths through the observations, of which there are exponentially many.
-/

namespace TouchIntent

namespace Trellis

variable {σ : Type} {n : Nat} (t : Trellis EReal n) (emit : σ → Fin n → EReal)

/-- The probability of stepping along a path and emitting an observation after each step. -/
noncomputable def weight (rest : List σ) (path : Fin (rest.length + 1) → Fin n) : ENNReal :=
  ∏ k : Fin rest.length, EReal.exp ((t.step.get (path k.castSucc)).get (path k.succ)) *
    EReal.exp (emit (rest.get k) (path k.succ))

/-- The first step of a path, and the rest of it. -/
theorem weight_cons (next : σ) (rest : List σ) (i : Fin n) (path : Fin (rest.length + 1) → Fin n) :
    t.weight emit (next :: rest) (Fin.cons i path) =
      EReal.exp ((t.step.get i).get (path 0)) * EReal.exp (emit next (path 0)) *
        t.weight emit rest path := by
  rw [weight, weight]
  exact Fin.prod_univ_succ (n := rest.length) _

/-- A sum over all paths, by their first state. -/
theorem sum_paths {k : Nat} (f : (Fin (k + 1) → Fin n) → ENNReal) :
    ∑ path, f path = ∑ path : Fin k → Fin n, ∑ i, f (Fin.cons i path) := by
  rw [← (Fin.consEquiv fun _ => Fin n).sum_comp, Fintype.sum_prod_type_right]
  rfl

variable {t emit} {totals : Vector EReal n}

theorem advance_get (next : σ) (j : Fin n) : (t.advance emit totals next).get j =
    logSumExp ((List.finRange n).map fun i => totals.get i + (t.step.get i).get j) +
      emit next j := by
  simp [advance, Vector.get_eq_getElem]

/-- The ways into a state. -/
theorem ways_ne_top (bounded : ∀ i, totals.get i ≠ ⊤) (steps : ∀ i j, (t.step.get i).get j ≠ ⊤)
    (j : Fin n) :
    ∀ x ∈ (List.finRange n).map fun i => totals.get i + (t.step.get i).get j, x ≠ ⊤ := by
  intro x member
  obtain ⟨i, -, rfl⟩ := List.mem_map.1 member
  exact EReal.add_ne_top (bounded i) (steps i j)

/-- One step of the recursion: all ways into a state, then the emission. -/
theorem exp_advance (bounded : ∀ i, totals.get i ≠ ⊤) (steps : ∀ i j, (t.step.get i).get j ≠ ⊤)
    (next : σ) (j : Fin n) :
    EReal.exp ((t.advance emit totals next).get j) =
      (∑ i, EReal.exp (totals.get i) * EReal.exp ((t.step.get i).get j)) *
        EReal.exp (emit next j) := by
  rw [advance_get, EReal.exp_add, exp_logSumExp (ways_ne_top bounded steps j), Fin.sum_univ_def,
    List.map_map]
  refine congrArg (· * EReal.exp (emit next j)) (congrArg List.sum (List.map_congr_left ?_))
  intro i _
  exact EReal.exp_add _ _

theorem advance_ne_top (bounded : ∀ i, totals.get i ≠ ⊤) (steps : ∀ i j, (t.step.get i).get j ≠ ⊤)
    {next : σ} (emissions : ∀ j, emit next j ≠ ⊤) (j : Fin n) :
    (t.advance emit totals next).get j ≠ ⊤ := by
  rw [advance_get]
  exact EReal.add_ne_top (logSumExp_ne_top (ways_ne_top bounded steps j)) (emissions j)

theorem foldl_advance_ne_top {rest : List σ} (bounded : ∀ i, totals.get i ≠ ⊤)
    (steps : ∀ i j, (t.step.get i).get j ≠ ⊤) (emissions : ∀ s ∈ rest, ∀ j, emit s j ≠ ⊤) :
    ∀ i, (rest.foldl (t.advance emit) totals).get i ≠ ⊤ := by
  induction rest generalizing totals with
  | nil => exact bounded
  | cons next rest ih =>
    exact ih (advance_ne_top bounded steps (emissions next List.mem_cons_self))
      fun s member => emissions s (List.mem_cons_of_mem _ member)

theorem enter_get (first : σ) (j : Fin n) :
    (t.enter emit first).get j = t.start.get j + emit first j := by
  simp [enter, Vector.get_eq_getElem]

/-- The entries of a vector are its members. -/
theorem forall_mem_toList {v : Vector EReal n} {p : EReal → Prop} :
    (∀ x ∈ v.toList, p x) ↔ ∀ i, p (v.get i) := by
  constructor
  · intro all i
    rw [Vector.get_eq_getElem]
    exact all _ (Vector.mem_toList_iff.2 (Vector.getElem_mem i.isLt))
  · intro all x member
    obtain ⟨i, inside, rfl⟩ := List.mem_iff_getElem.1 member
    rw [Vector.length_toList] at inside
    simpa [Vector.get_eq_getElem] using all ⟨i, inside⟩

/-- Going on from any totals, the recursion adds up all paths from there. -/
theorem exp_foldl_advance {rest : List σ} (bounded : ∀ i, totals.get i ≠ ⊤)
    (steps : ∀ i j, (t.step.get i).get j ≠ ⊤) (emissions : ∀ s ∈ rest, ∀ j, emit s j ≠ ⊤) :
    EReal.exp (logSumExp (rest.foldl (t.advance emit) totals).toList) =
      ∑ path : Fin (rest.length + 1) → Fin n,
        EReal.exp (totals.get (path 0)) * t.weight emit rest path := by
  induction rest generalizing totals with
  | nil =>
    have members : totals.toList = (List.finRange n).map totals.get := by
      rw [← List.ofFn_eq_map, ← Vector.toList_ofFn]
      congr 1
      ext i inRange
      simp [Vector.get_eq_getElem]
    rw [List.foldl_nil, exp_logSumExp (forall_mem_toList.2 bounded), members, List.map_map,
      ← Fin.sum_univ_def]
    -- There is one way to go on through no observations.
    refine Eq.trans ?_ ((sum_paths (k := 0) _).trans (Fintype.sum_unique _)).symm
    refine Finset.sum_congr rfl fun i _ => ?_
    simp [weight]
  | cons next rest ih =>
    have emitted := emissions next List.mem_cons_self
    have later := ih (advance_ne_top bounded steps emitted)
      fun s member => emissions s (List.mem_cons_of_mem _ member)
    rw [List.foldl_cons, later]
    refine (Finset.sum_congr rfl fun path _ => ?_).trans (sum_paths _).symm
    rw [exp_advance bounded steps, Finset.sum_mul, Finset.sum_mul]
    refine Finset.sum_congr rfl fun i _ => ?_
    rw [weight_cons, Fin.cons_zero]
    ring

/-- The forward recursion adds up the probabilities of all paths. -/
theorem exp_forward (starts : ∀ j, t.start.get j ≠ ⊤) (steps : ∀ i j, (t.step.get i).get j ≠ ⊤)
    {first : σ} {rest : List σ} (emissions : ∀ s ∈ first :: rest, ∀ j, emit s j ≠ ⊤) :
    EReal.exp (t.forward emit (first :: rest)) =
      ∑ path : Fin (rest.length + 1) → Fin n, EReal.exp (t.start.get (path 0)) *
        EReal.exp (emit first (path 0)) * t.weight emit rest path := by
  have bounded (j : Fin n) : (t.enter emit first).get j ≠ ⊤ := by
    rw [enter_get]
    exact EReal.add_ne_top (starts j) (emissions first List.mem_cons_self j)
  rw [forward, exp_foldl_advance bounded steps
    fun s member => emissions s (List.mem_cons_of_mem _ member)]
  refine Finset.sum_congr rfl fun path _ => ?_
  rw [enter_get, EReal.exp_add]

end Trellis

/-- Nonnegative numbers are multiplied alike as extended reals. -/
theorem exact_coe_prod {k : Nat} (f : Fin k → ENNReal) :
    ((∏ i, f i : ENNReal) : EReal) = ∏ i, (f i : EReal) :=
  map_prod (⟨⟨fun x : ENNReal => (x : EReal), rfl⟩, EReal.coe_ennreal_mul⟩ : ENNReal →* EReal) f _

/-- Nonnegative numbers are added up alike as extended reals. -/
theorem exact_coe_sum {ι : Type} [Fintype ι] (f : ι → ENNReal) :
    ((∑ i, f i : ENNReal) : EReal) = ∑ i, (f i : EReal) :=
  map_sum (⟨⟨fun x : ENNReal => (x : EReal), rfl⟩, EReal.coe_ennreal_add⟩ : ENNReal →+ EReal) f _

namespace Model

open Scalar

/-- The parameters of a model are real numbers, its states have densities, and its weights are not
negative. -/
structure WellFormed (m : Model EReal) : Prop where
  dense : ∀ i, (m.states.get i).hasDensity = true
  mean : ∀ i, isFinite (m.states.get i).mean.x = true ∧ isFinite (m.states.get i).mean.y = true
  initial : ∀ i, 0 ≤ m.initial.get i ∧ isFinite (m.initial.get i) = true
  transitions : ∀ i j, 0 ≤ (m.transitions.get i).get j ∧
    isFinite ((m.transitions.get i).get j) = true

/-- The probability of going through the given states and emitting the samples there. -/
noncomputable def pathLikelihood (m : Model EReal) (first : Sample EReal)
    (rest : List (Sample EReal)) (path : Fin (rest.length + 1) → Fin m.size) : EReal :=
  m.initial.get (path 0) *
    (∏ k : Fin rest.length, (m.transitions.get (path k.castSucc)).get (path k.succ)) *
    ∏ k : Fin (rest.length + 1), exp (m.logEmission ((first :: rest).get k) (path k))

theorem trellis_start (m : Model EReal) (i : Fin m.size) :
    m.trellis.start.get i = ln (m.initial.get i) := by
  simp [trellis, Vector.get_eq_getElem]

theorem trellis_step (m : Model EReal) (i j : Fin m.size) :
    (m.trellis.step.get i).get j = ln ((m.transitions.get i).get j) := by
  simp [trellis, Vector.get_eq_getElem]

variable {m : Model EReal} {first : Sample EReal} {rest : List (Sample EReal)}

/-- What the paths of the trellis add up to, in plain probabilities. -/
theorem coe_weight (wellFormed : m.WellFormed) (path : Fin (rest.length + 1) → Fin m.size) :
    ((EReal.exp (m.trellis.start.get (path 0)) * EReal.exp (m.logEmission first (path 0)) *
        m.trellis.weight m.logEmission rest path : ENNReal) : EReal) =
      m.pathLikelihood first rest path := by
  have start (i : Fin m.size) :
      ((EReal.exp (m.trellis.start.get i) : ENNReal) : EReal) = m.initial.get i := by
    rw [trellis_start, exact_exp_ln, EReal.coe_toENNReal (wellFormed.initial i).1]
  have step (i j : Fin m.size) : ((EReal.exp ((m.trellis.step.get i).get j) : ENNReal) : EReal) =
      (m.transitions.get i).get j := by
    rw [trellis_step, exact_exp_ln, EReal.coe_toENNReal (wellFormed.transitions i j).1]
  rw [pathLikelihood, Trellis.weight, Finset.prod_mul_distrib, Fin.prod_univ_succ]
  simp only [EReal.coe_ennreal_mul, exact_coe_prod, start, step, ← exact_exp_eq]
  show _ = m.initial.get (path 0) * _ * (exp (m.logEmission first (path 0)) *
    ∏ k : Fin rest.length, exp (m.logEmission (rest.get k) (path k.succ)))
  ac_rfl

/-- The likelihood of a sequence is the sum, over all paths through the states, of the probability
of the path and of emitting the sequence along it, and its logarithm is `-∞` exactly if that sum is
zero. Where contact ellipses are compared, the determinants that are taken the logarithm of must
not be negative, as they may be if a covariance is symmetric only up to rounding. -/
theorem exp_logLikelihood_eq_sum (wellFormed : m.WellFormed)
    (samples : ∀ s ∈ first :: rest, s.IsFinite)
    (proper : m.emission = .bhattacharyya →
      ∀ s ∈ first :: rest, ∀ i, 0 ≤ ((m.states.get i).pooled s).det) :
    exp (m.logLikelihood (first :: rest)) =
        ∑ path : Fin (rest.length + 1) → Fin m.size, m.pathLikelihood first rest path ∧
      (m.logLikelihood (first :: rest) = ⊥ ↔
        ∑ path : Fin (rest.length + 1) → Fin m.size, m.pathLikelihood first rest path = 0) := by
  have starts (i : Fin m.size) : m.trellis.start.get i ≠ ⊤ := by
    rw [trellis_start]
    exact exact_ln_ne_top (wellFormed.initial i).2
  have steps (i j : Fin m.size) : (m.trellis.step.get i).get j ≠ ⊤ := by
    rw [trellis_step]
    exact exact_ln_ne_top (wellFormed.transitions i j).2
  have emissions : ∀ s ∈ first :: rest, ∀ i, m.logEmission s i ≠ ⊤ := fun s member i =>
    Gaussian.logEmission_ne_top (wellFormed.dense i) (wellFormed.mean i).1 (wellFormed.mean i).2
      (samples s member) fun mode => proper mode s member i
  have total : exp (m.logLikelihood (first :: rest)) =
      ∑ path : Fin (rest.length + 1) → Fin m.size, m.pathLikelihood first rest path := by
    rw [exact_exp_eq, logLikelihood, Trellis.exp_forward starts steps emissions, exact_coe_sum]
    exact Finset.sum_congr rfl fun path _ => coe_weight wellFormed path
  refine ⟨total, ?_⟩
  rw [← total, exact_exp_eq, EReal.coe_ennreal_eq_zero, EReal.exp_eq_zero_iff]

/-- A slide along an edge of the surface, which starts in one corner and stays in the other, by how
the contact ellipses fit. -/
noncomputable def cornerSlide : Model EReal where
  size := 2
  inhabited := Nat.two_pos
  states := #v[⟨⟨0, 0⟩, ⟨⟨1, 0⟩, ⟨0, 1⟩⟩⟩, ⟨⟨1, 0⟩, ⟨⟨1, 0⟩, ⟨0, 1⟩⟩⟩]
  transitions := #v[#v[ratio 1 3, ratio 2 3], #v[0, 1]]
  initial := #v[1, 0]
  emission := .bhattacharyya

/-- A fingertip at a point of the edge. -/
noncomputable def fingertip (kind : EventKind) (time : Millis) (x : ℝ) : Sample EReal :=
  ⟨kind, 0, time, ⟨x, 0⟩, 0, 1, 1, 0, ⟨0, 0⟩⟩

theorem exp_logLikelihood_eq_sum_cornerSlide :
    exp (cornerSlide.logLikelihood [fingertip .down 0 0, fingertip .up 10 1]) =
        ∑ path : Fin 2 → Fin 2,
          cornerSlide.pathLikelihood (fingertip .down 0 0) [fingertip .up 10 1] path ∧
      (cornerSlide.logLikelihood [fingertip .down 0 0, fingertip .up 10 1] = ⊥ ↔
        ∑ path : Fin 2 → Fin 2,
          cornerSlide.pathLikelihood (fingertip .down 0 0) [fingertip .up 10 1] path = 0) := by
  have zero : 0 ≤ (0 : EReal) ∧ isFinite (0 : EReal) = true := ⟨le_rfl, exact_isFinite_coe 0⟩
  have one : 0 ≤ (1 : EReal) ∧ isFinite (1 : EReal) = true := ⟨zero_le_one, exact_isFinite_coe 1⟩
  have share (numerator : Nat) : 0 ≤ (ratio numerator 3 : EReal) ∧
      isFinite (ratio numerator 3 : EReal) = true := by
    rw [exact_ratio]
    exact ⟨EReal.coe_nonneg.2 (by positivity), exact_isFinite_coe _⟩
  have finite (kind : EventKind) (time : Millis) (x : ℝ) : (fingertip kind time x).IsFinite :=
    ⟨exact_isFinite_coe x, zero.2, zero.2, one.2, one.2⟩
  have round : (0 : ℝ) < 1 * 1 - 0 * 0 := by norm_num
  refine exp_logLikelihood_eq_sum (m := cornerSlide) ⟨?_, ?_, ?_, ?_⟩ ?_ ?_
  · intro i
    match i with
    | ⟨0, _⟩ | ⟨1, _⟩ => exact Gaussian.exact_hasDensity one_pos round _
  · intro i
    match i with
    | ⟨0, _⟩ => exact ⟨zero.2, zero.2⟩
    | ⟨1, _⟩ => exact ⟨one.2, zero.2⟩
  · intro i
    match i with
    | ⟨0, _⟩ => exact one
    | ⟨1, _⟩ => exact zero
  · intro i j
    match i, j with
    | ⟨0, _⟩, ⟨0, _⟩ => exact share 1
    | ⟨0, _⟩, ⟨1, _⟩ => exact share 2
    | ⟨1, _⟩, ⟨0, _⟩ => exact zero
    | ⟨1, _⟩, ⟨1, _⟩ => exact one
  · intro sample member
    rcases List.mem_pair.1 member with rfl | rfl <;> exact finite _ _ _
  · intro _ sample member i
    have measured : sample.IsFinite := by
      rcases List.mem_pair.1 member with rfl | rfl <;> exact finite _ _ _
    match i with
    | ⟨0, _⟩ | ⟨1, _⟩ => exact Gaussian.pooled_det_nonneg one_pos round measured

end Model

end TouchIntent
