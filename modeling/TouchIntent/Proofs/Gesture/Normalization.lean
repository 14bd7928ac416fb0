import Mathlib
import TouchIntent.Gesture.Compile
import TouchIntent.Proofs.Fallible
import TouchIntent.Proofs.Numeric.Exact

/-!
# Normalized probabilities

Weights that are not negative are brought to sum one, with a small constant added to each before, so
that none of the probabilities is zero. A model is built of such lists only if they have the shape
that they should have, and all of its states have a density.
-/

namespace TouchIntent

open Scalar

section Sums

/-- Real numbers add up to a real number. -/
theorem coe_list_sum (xs : List ℝ) :
    (xs.map Real.toEReal).sum = ((xs.sum : ℝ) : EReal) := by
  induction xs with
  | nil => simp
  | cons x rest ih => rw [List.map_cons, List.sum_cons, List.sum_cons, ih, EReal.coe_add]

/-- The entries of a vector add up to the sum of its list. -/
theorem sum_get {n : Nat} (v : Vector EReal n) : ∑ i, v.get i = v.toList.sum := by
  have entries : (List.finRange n).map v.get = v.toList := by
    apply List.ext_getElem
    · simp
    · intro i _ _
      simp [Vector.get]
  rw [Fin.sum_univ_def, entries]

end Sums

section Laplace

theorem exact_laplaceEpsilon : (laplaceEpsilon : EReal) = ((1 / 1000 : ℝ) : EReal) := by
  rw [laplaceEpsilon, exact_ratio]
  norm_num

/-- One or several real numbers that are not negative. -/
def IsWeights (weights : List EReal) : Prop :=
  weights ≠ [] ∧ ∃ xs : List ℝ, (∀ x ∈ xs, 0 ≤ x) ∧ weights = xs.map Real.toEReal

/-- Probabilities of which none is zero. -/
structure IsDistribution (ps : List EReal) : Prop where
  positive : ∀ p ∈ ps, 0 < p
  total : ps.sum = 1

/-- A weight with the constant added. -/
noncomputable def raise (x : ℝ) : ℝ := x + 1 / 1000

theorem laplaceCorrect_coe (xs : List ℝ) :
    laplaceCorrect (xs.map Real.toEReal) =
      ((xs.map raise).map fun y => y / (xs.map raise).sum).map Real.toEReal := by
  have raised : (xs.map Real.toEReal).map (fun w => w + laplaceEpsilon) =
      (xs.map raise).map Real.toEReal := by
    rw [List.map_map, List.map_map]
    apply List.map_congr_left
    intro x _
    simp only [Function.comp_apply, exact_laplaceEpsilon, raise, EReal.coe_add]
  simp only [laplaceCorrect, raised, exact_sum_eq, coe_list_sum]
  simp only [List.map_map]
  apply List.map_congr_left
  intro x _
  simp only [Function.comp_apply, EReal.coe_div]

/-- Normalizing weights makes a distribution of them. -/
theorem isDistribution_laplaceCorrect {weights : List EReal} (given : IsWeights weights) :
    IsDistribution (laplaceCorrect weights) := by
  obtain ⟨some, xs, nonneg, rfl⟩ := given
  have raised : ∀ y ∈ xs.map raise, 0 < y := by
    intro y member
    obtain ⟨x, inside, rfl⟩ := List.mem_map.1 member
    have := nonneg x inside
    rw [raise]
    positivity
  have nonempty : xs.map raise ≠ [] := by
    intro empty
    rw [List.map_eq_nil_iff.1 empty] at some
    exact some rfl
  have total : 0 < (xs.map raise).sum := List.sum_pos _ raised nonempty
  rw [laplaceCorrect_coe]
  refine ⟨?_, ?_⟩
  · intro p member
    obtain ⟨q, inside, rfl⟩ := List.mem_map.1 member
    obtain ⟨y, inside', rfl⟩ := List.mem_map.1 inside
    exact EReal.coe_pos.2 (div_pos (raised y inside') total)
  · have share : ((xs.map raise).map fun y => y / (xs.map raise).sum).sum = 1 := by
      simp only [div_eq_mul_inv]
      rw [List.sum_map_mul_right, List.map_id', mul_inv_cancel₀ total.ne']
    rw [coe_list_sum, share, EReal.coe_one]

end Laplace

section Building

variable {R : Type}

theorem toList_of_vector? {α : Type} {n : Nat} {xs : List α} {v : Vector α n}
    (fits : vector? n xs = some v) : v.toList = xs := by
  unfold vector? at fits
  split at fits
  · obtain rfl := Option.some.inj fits
    rfl
  · cases fits

theorem toList_of_squareMatrix {α : Type} {n : Nat} {rows : Vector (List α) n}
    {square : Vector (Vector α n) n} (ok : squareMatrix rows = .ok square) (i : Fin n) :
    (square.get i).toList = rows.get i := by
  unfold squareMatrix at ok
  split at ok
  · cases ok
  · obtain rfl := Except.ok.inj ok
    simp only [Vector.get_eq_getElem, Vector.getElem_ofFn]
    rfl

theorem exists_vector? {α : Type} {n : Nat} {xs : List α} (length : xs.length = n) :
    ∃ v, vector? n xs = some v := by
  rw [vector?, dif_pos length]
  exact ⟨_, rfl⟩

theorem exists_squareMatrix {α : Type} {n : Nat} {rows : Vector (List α) n}
    (square : ∀ i, (rows.get i).length = n) : ∃ matrix, squareMatrix rows = .ok matrix := by
  unfold squareMatrix
  split
  · next i found =>
    have unequal := List.find?_some found
    simp [square i] at unequal
  · exact ⟨_, rfl⟩

variable [Scalar R]

/-- A model has these states and probabilities, and its states have densities. -/
structure Model.BuiltFrom (m : Model R) (states : List (Gaussian R)) (transitions : List (List R))
    (initial : List R) : Prop where
  toList_states : m.states.toList = states
  row : ∀ i : Fin m.size, transitions[i.val]? = some (m.transitions.get i).toList
  toList_initial : m.initial.toList = initial
  dense : ∀ g ∈ states, g.hasDensity = true

/-- What is known of a model that could be built. -/
theorem Model.builtFrom_of_build {states : List (Gaussian R)} {transitions : List (List R)}
    {initial : List R} {m : Model R} (ok : Model.build states transitions initial = .ok m) :
    m.BuiltFrom states transitions initial := by
  unfold build at ok
  simp only at ok
  split at ok
  · split at ok
    · cases ok
    · next start starts =>
      split at ok
      · cases ok
      · next rows fits =>
        split at ok
        · cases ok
        · next square squares =>
          split at ok
          · cases ok
          · next dense =>
            obtain rfl := Except.ok.inj ok
            refine ⟨rfl, ?_, toList_of_vector? starts, ?_⟩
            · intro i
              rw [← toList_of_vector? fits, toList_of_squareMatrix squares]
              simp [Vector.get]
            · intro g member
              rw [List.findIdx?_eq_none_iff] at dense
              simpa using dense g member
  · cases ok

/-- A model can be built of lists of the right shape if its states have densities. -/
theorem Model.exists_build {states : List (Gaussian R)} {transitions : List (List R)}
    {initial : List R} (inhabited : 0 < states.length) (starts : initial.length = states.length)
    (rows : transitions.length = states.length)
    (square : ∀ row ∈ transitions, row.length = states.length)
    (dense : ∀ g ∈ states, g.hasDensity = true) :
    ∃ m, Model.build states transitions initial = .ok m := by
  obtain ⟨start, startsOk⟩ := exists_vector? starts
  obtain ⟨listed, rowsOk⟩ := exists_vector? rows
  have lengths (i : Fin states.length) : (listed.get i).length = states.length := by
    apply square
    rw [← toList_of_vector? rowsOk, Vector.mem_toList_iff]
    exact Vector.getElem_mem i.isLt
  obtain ⟨matrix, matrixOk⟩ := exists_squareMatrix lengths
  have fits : states.findIdx? (fun g => !g.hasDensity) = none := by
    rw [List.findIdx?_eq_none_iff]
    intro g member
    simp [dense g member]
  unfold build
  simp only [inhabited, dif_pos, startsOk, rowsOk, matrixOk, fits]
  exact ⟨_, rfl⟩

end Building

end TouchIntent
