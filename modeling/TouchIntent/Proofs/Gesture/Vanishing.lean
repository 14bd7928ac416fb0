import Mathlib
import TouchIntent.Proofs.Gesture.Compiled
import TouchIntent.Proofs.Gesture.PathSum

/-!
# Likelihoods that vanish

By its position a sample is never impossible, wherever it is. By its contact ellipse it is
impossible in every state if the ellipse has no area, and in no state otherwise. The model of a
gesture text lets any state follow any other, so a sequence of samples is impossible exactly if one
of its samples is.
-/

namespace TouchIntent

open Scalar

/-! ## Samples -/

/-- The contact ellipse of a sample has no area. -/
def Sample.IsFlat (s : Sample EReal) : Prop := s.minorAxis = 0 ∨ s.majorAxis = 0

/-- The determinant of a contact ellipse is a power of its area. -/
theorem det_contactCovariance (orientation minorAxis majorAxis : ℝ) :
    (contactCovariance (orientation : EReal) minorAxis majorAxis).det =
      ((((minorAxis / 6) ^ 2 * (majorAxis / 6) ^ 2) ^ 2 : ℝ) : EReal) := by
  obtain ⟨a, b, c, d, area, covariance⟩ :=
    exact_contactCovariance orientation minorAxis majorAxis
  rw [covariance, ← area]
  simp only [Mat2.det, ← EReal.coe_mul, ← EReal.coe_sub]
  congr 1
  ring

theorem det_contactCovariance_pos_iff {s : Sample EReal} (finite : s.IsFinite) :
    0 < (contactCovariance s.orientation s.minorAxis s.majorAxis).det ↔ ¬ s.IsFlat := by
  obtain ⟨o, orientation⟩ := exact_real_of_isFinite finite.orientation
  obtain ⟨u, minorAxis⟩ := exact_real_of_isFinite finite.minorAxis
  obtain ⟨v, majorAxis⟩ := exact_real_of_isFinite finite.majorAxis
  rw [Sample.IsFlat, orientation, minorAxis, majorAxis, det_contactCovariance, EReal.coe_pos,
    EReal.coe_eq_zero, EReal.coe_eq_zero]
  constructor
  · rintro area (rfl | rfl) <;> simp at area
  · intro area
    obtain ⟨wide, long⟩ := not_or.1 area
    positivity

namespace Gaussian

variable {g : Gaussian EReal} {s : Sample EReal}

/-- An ellipse has nothing in common with a state only if it has no area. -/
theorem logBhattacharyya_eq_bot_iff (dense : g.hasDensity = true)
    (meanX : isFinite g.mean.x = true) (meanY : isFinite g.mean.y = true) (finite : s.IsFinite)
    (proper : 0 < (g.pooled s).det) : g.logBhattacharyya s = ⊥ ↔ s.IsFlat := by
  by_cases flat : s.IsFlat
  · have noArea := (det_contactCovariance_pos_iff finite).not_left.2 flat
    exact iff_of_true (logBhattacharyya_eq_bot (.inl (not_lt.1 noArea))) flat
  · have area := (det_contactCovariance_pos_iff finite).2 flat
    have score := isFinite_logBhattacharyya dense meanX meanY finite area proper
    exact iff_of_false (exact_isFinite.1 score).2 flat

theorem logEmission_eq_bot_iff (dense : g.hasDensity = true)
    (meanX : isFinite g.mean.x = true) (meanY : isFinite g.mean.y = true) (finite : s.IsFinite)
    (proper : 0 < (g.pooled s).det) {mode : Emission} :
    g.logEmission mode s = ⊥ ↔ mode = .bhattacharyya ∧ s.IsFlat := by
  cases mode with
  | gaussian =>
    have score := isFinite_logDensity dense meanX meanY finite.x finite.y
    exact iff_of_false (exact_isFinite.1 score).2 fun mode => Emission.noConfusion mode.1
  | bhattacharyya =>
    exact (logBhattacharyya_eq_bot_iff dense meanX meanY finite proper).trans
      (and_iff_right rfl).symm

end Gaussian

/-! ## Sequences -/

namespace Trellis

variable {σ : Type} {n : Nat} {t : Trellis EReal n} {emit : σ → Fin n → EReal}
  {totals : Vector EReal n}

/-- If any state may follow any other, then a state cannot be reached only if nothing could be
reached before, or the state cannot emit the observation. -/
theorem advance_eq_bot_iff (bounded : ∀ i, totals.get i ≠ ⊤)
    (steps : ∀ i j, isFinite ((t.step.get i).get j) = true) (next : σ) (j : Fin n) :
    (t.advance emit totals next).get j = ⊥ ↔ (∀ i, totals.get i = ⊥) ∨ emit next j = ⊥ := by
  have steps' (i j : Fin n) := exact_isFinite.1 (steps i j)
  rw [advance_get, EReal.add_eq_bot_iff,
    logSumExp_eq_bot_iff (ways_ne_top bounded (fun i j => (steps' i j).1) j)]
  refine or_congr_left ?_
  simp [EReal.add_eq_bot_iff, (steps' _ j).2]

theorem foldl_advance_eq_bot_iff {rest : List σ} (bounded : ∀ i, totals.get i ≠ ⊤)
    (steps : ∀ i j, isFinite ((t.step.get i).get j) = true)
    (emissions : ∀ s ∈ rest, ∀ j, emit s j ≠ ⊤) :
    (∀ j, (rest.foldl (t.advance emit) totals).get j = ⊥) ↔
      (∀ j, totals.get j = ⊥) ∨ ∃ s ∈ rest, ∀ j, emit s j = ⊥ := by
  induction rest generalizing totals with
  | nil => simp
  | cons next rest ih =>
    obtain ⟨emitted, later⟩ := List.forall_mem_cons.1 emissions
    have bounded' := advance_ne_top bounded (fun i j => (exact_isFinite.1 (steps i j)).1) emitted
    rw [List.foldl_cons, ih bounded' later, List.exists_mem_cons_iff, ← or_assoc]
    refine or_congr_left ?_
    simp only [advance_eq_bot_iff bounded steps, forall_or_left]

/-- If any state may be the first and may follow any other, then a sequence is impossible exactly if
no state can emit one of its observations. -/
theorem forward_eq_bot_iff (starts : ∀ j, isFinite (t.start.get j) = true)
    (steps : ∀ i j, isFinite ((t.step.get i).get j) = true) {observations : List σ}
    (some : observations ≠ []) (emissions : ∀ s ∈ observations, ∀ j, emit s j ≠ ⊤) :
    t.forward emit observations = ⊥ ↔ ∃ s ∈ observations, ∀ j, emit s j = ⊥ := by
  cases observations with
  | nil => exact absurd rfl some
  | cons first rest =>
    obtain ⟨emitted, later⟩ := List.forall_mem_cons.1 emissions
    have bounded (j : Fin n) : (t.enter emit first).get j ≠ ⊤ := by
      rw [enter_get]
      exact EReal.add_ne_top (exact_isFinite.1 (starts j)).1 (emitted j)
    have entered (j : Fin n) : (t.enter emit first).get j = ⊥ ↔ emit first j = ⊥ := by
      rw [enter_get, EReal.add_eq_bot_iff]
      exact or_iff_right (exact_isFinite.1 (starts j)).2
    have bounded' := foldl_advance_ne_top bounded (fun i j => (exact_isFinite.1 (steps i j)).1)
      later
    rw [forward, logSumExp_eq_bot_iff (forall_mem_toList.2 bounded'), forall_mem_toList,
      foldl_advance_eq_bot_iff bounded steps later, List.exists_mem_cons_iff]
    simp only [entered]

end Trellis

namespace Model

/-- Any state may be the first and may follow any other, and all of them have an area in common
with any contact ellipse. -/
structure IsOpen (m : Model EReal) : Prop where
  initial : ∀ i, 0 < m.initial.get i
  transitions : ∀ i j, 0 < (m.transitions.get i).get j
  pooled : ∀ s : Sample EReal, s.IsFinite → ∀ i, 0 < ((m.states.get i).pooled s).det

variable {m : Model EReal}

theorem IsOpen.translate (free : m.IsOpen) (d : Vec2 EReal) : (m.translate d).IsOpen := by
  have state (i : Fin m.size) : (m.translate d).states.get i = (m.states.get i).translate d := by
    simp [Model.translate, Vector.get_eq_getElem]
  refine ⟨free.initial, free.transitions, fun s finite i => ?_⟩
  rw [state i]
  exact free.pooled s finite i

/-- A sequence is impossible exactly if contact ellipses are compared, and one has no area. -/
theorem IsOpen.logLikelihood_eq_bot_iff (free : m.IsOpen) (wellFormed : m.WellFormed)
    {samples : List (Sample EReal)} (some : samples ≠ []) (finite : ∀ s ∈ samples, s.IsFinite) :
    m.logLikelihood samples = ⊥ ↔ m.emission = .bhattacharyya ∧ ∃ s ∈ samples, s.IsFlat := by
  have starts (i : Fin m.size) : isFinite (m.trellis.start.get i) = true := by
    rw [trellis_start]
    exact exact_isFinite_ln (wellFormed.initial i).2 (free.initial i)
  have steps (i j : Fin m.size) : isFinite ((m.trellis.step.get i).get j) = true := by
    rw [trellis_step]
    exact exact_isFinite_ln (wellFormed.transitions i j).2 (free.transitions i j)
  have emissions : ∀ s ∈ samples, ∀ i, m.logEmission s i ≠ ⊤ := fun s member i =>
    Gaussian.logEmission_ne_top (wellFormed.dense i) (wellFormed.mean i).1 (wellFormed.mean i).2
      (finite s member) fun _ => (free.pooled s (finite s member) i).le
  have emitted : ∀ s ∈ samples, ∀ i, m.logEmission s i = ⊥ ↔
      m.emission = .bhattacharyya ∧ s.IsFlat := fun s member i =>
    Gaussian.logEmission_eq_bot_iff (wellFormed.dense i) (wellFormed.mean i).1
      (wellFormed.mean i).2 (finite s member) (free.pooled s (finite s member) i)
  have first : Fin m.size := ⟨0, m.inhabited⟩
  rw [logLikelihood, Trellis.forward_eq_bot_iff starts steps some emissions]
  constructor
  · rintro ⟨s, member, impossible⟩
    obtain ⟨mode, flat⟩ := (emitted s member first).1 (impossible first)
    exact ⟨mode, s, member, flat⟩
  · rintro ⟨mode, s, member, flat⟩
    exact ⟨s, member, fun i => (emitted s member i).2 ⟨mode, flat⟩⟩

end Model

/-- The model of a gesture text is open. -/
theorem Compiler.isOpen_compile {c : Compiler EReal} {element : Bounds EReal} {source : String}
    {b : Behavior EReal} (ok : c.compile source element = .ok b) : b.model.IsOpen := by
  have normalized := isNormalized_of_compile ok
  refine ⟨normalized.initial_pos, normalized.transitions_pos, fun s finite i => ?_⟩
  obtain ⟨u, v, above, minor, state⟩ := normalized.exists_symmetric i
  rw [state]
  exact Gaussian.pooled_det_pos above minor finite

end TouchIntent
