import Mathlib
import TouchIntent.Gesture.Model
import TouchIntent.Proofs.Gesture.Emission

/-!
# Translated models

A state scores a sample by where the sample lies relative to the mean of the state. So a model whose
means are moved scores samples that are moved along as the model did before; and the two dynamic
programs, which see nothing of a sample but its scores, total and decode the same.
-/

namespace TouchIntent

open Scalar

namespace Scalar

variable {x y z : EReal}

theorem exact_add_sub_add_right (finite : isFinite z = true) : x + z - (y + z) = x - y := by
  obtain ⟨r, rfl⟩ := exact_real_of_isFinite finite
  rw [EReal.add_sub_add_comm (.inr (EReal.coe_ne_top r)) (.inr (EReal.coe_ne_bot r)),
    EReal.sub_self (EReal.coe_ne_top r) (EReal.coe_ne_bot r), add_zero]

theorem exact_add_sub_cancel (finite : isFinite x = true) : x + (y - x) = y := by
  obtain ⟨r, rfl⟩ := exact_real_of_isFinite finite
  rw [add_comm, EReal.sub_add_cancel]

/-- A detour over `z` is as long as the way without it. -/
theorem exact_add_sub_add_cancel (finite : isFinite z = true) : z + (y - (x + z)) = y - x := by
  calc z + (y - (x + z)) = z + (y - z + z - (x + z)) := by
        rw [add_comm (y - z), exact_add_sub_cancel finite]
    _ = z + (y - z - x) := by rw [exact_add_sub_add_right finite]
    _ = y - x := by
        rw [sub_eq_add_neg, ← add_assoc, exact_add_sub_cancel finite, ← sub_eq_add_neg]

end Scalar

namespace Vec2

/-- A point given by real numbers. -/
structure IsFinite (v : Vec2 EReal) : Prop where
  x : Scalar.isFinite v.x = true
  y : Scalar.isFinite v.y = true

variable {u v d : Vec2 EReal}

theorem isFinite_zero : (⟨0, 0⟩ : Vec2 EReal).IsFinite :=
  ⟨exact_isFinite_coe 0, exact_isFinite_coe 0⟩

theorem IsFinite.add (left : u.IsFinite) (right : v.IsFinite) : (u.add v).IsFinite :=
  ⟨exact_isFinite_add left.x right.x, exact_isFinite_add left.y right.y⟩

theorem IsFinite.sub (left : u.IsFinite) (right : v.IsFinite) : (u.sub v).IsFinite :=
  ⟨exact_isFinite_sub left.x right.x, exact_isFinite_sub left.y right.y⟩

@[simp] theorem exact_add_zero (u : Vec2 EReal) : u.add ⟨0, 0⟩ = u := by simp [add]

theorem exact_add_assoc (u v w : Vec2 EReal) : (u.add v).add w = u.add (v.add w) := by
  simp only [add, add_assoc]

theorem exact_add_comm (u v : Vec2 EReal) : u.add v = v.add u := by
  simp only [add, add_comm]

theorem exact_add_sub_add_right (finite : d.IsFinite) : (u.add d).sub (v.add d) = u.sub v := by
  simp only [add, sub, Scalar.exact_add_sub_add_right finite.x,
    Scalar.exact_add_sub_add_right finite.y]

theorem exact_add_sub_cancel (finite : d.IsFinite) : d.add (v.sub d) = v := by
  simp only [add, sub, Scalar.exact_add_sub_cancel finite.x, Scalar.exact_add_sub_cancel finite.y]

theorem exact_add_sub_add_cancel (finite : d.IsFinite) : d.add (v.sub (u.add d)) = v.sub u := by
  simp only [add, sub, Scalar.exact_add_sub_add_cancel finite.x,
    Scalar.exact_add_sub_add_cancel finite.y]

end Vec2

/-- The sample somewhere else. -/
def Sample.displace {R : Type} [Scalar R] (s : Sample R) (d : Vec2 R) : Sample R :=
  { s with position := s.position.add d }

namespace Gaussian

variable {d : Vec2 EReal}

/-- Either emission looks at a sample from the mean of the state. -/
theorem logEmission_translate (finite : d.IsFinite) (g : Gaussian EReal) (mode : Emission)
    (s : Sample EReal) :
    (g.translate d).logEmission mode (s.displace d) = g.logEmission mode s := by
  have seen : (s.position.add d).sub (g.mean.add d) = s.position.sub g.mean :=
    Vec2.exact_add_sub_add_right finite
  cases mode with
  | gaussian => simp only [logEmission, logDensity, translate, Sample.displace, seen]
  | bhattacharyya => simp only [logEmission, logBhattacharyya, translate, Sample.displace, seen]

end Gaussian

namespace Trellis

variable {R σ τ : Type} [Scalar R] {n : Nat} (t : Trellis R n) (emit : τ → Fin n → R) (f : σ → τ)

/-- The total depends on observations only by what the states make of them. -/
theorem forward_map (observations : List σ) :
    t.forward emit (observations.map f) = t.forward (fun s => emit (f s)) observations := by
  cases observations with
  | nil => rfl
  | cons first rest =>
    rw [List.map_cons, forward, List.foldl_map]
    rfl

/-- The best path depends on observations only by what the states make of them. -/
theorem bestPath_map (inhabited : 0 < n) (observations : List σ) :
    t.bestPath inhabited emit (observations.map f) =
      t.bestPath inhabited (fun s => emit (f s)) observations := by
  cases observations with
  | nil => rfl
  | cons first rest =>
    simp only [List.map_cons, bestPath, List.foldl_map]
    rfl

end Trellis

namespace Model

variable (m : Model EReal) {d : Vec2 EReal}

@[simp] theorem translate_zero : m.translate ⟨0, 0⟩ = m := by
  simp [translate, Gaussian.translate]

theorem translate_translate (d e : Vec2 EReal) :
    (m.translate d).translate e = m.translate (d.add e) := by
  simp [translate, Gaussian.translate, Function.comp_def, Vec2.exact_add_assoc]

theorem logEmission_translate (finite : d.IsFinite) (s : Sample EReal) :
    (m.translate d).logEmission (s.displace d) = m.logEmission s := by
  funext state
  have moved : (m.translate d).states[state] = m.states[state].translate d :=
    Vector.getElem_map _ _
  rw [logEmission, moved]
  exact Gaussian.logEmission_translate finite _ m.emission s

/-- A model that is moved finds samples that are moved along as likely as before. -/
theorem logLikelihood_translate (finite : d.IsFinite) (samples : List (Sample EReal)) :
    (m.translate d).logLikelihood (samples.map fun s => s.displace d) =
      m.logLikelihood samples := by
  rw [logLikelihood, Trellis.forward_map]
  simp only [m.logEmission_translate finite]
  rfl

/-- A model that is moved decodes samples that are moved along as before. -/
theorem mostLikelyPath_translate (finite : d.IsFinite) (samples : List (Sample EReal)) :
    (m.translate d).mostLikelyPath (samples.map fun s => s.displace d) =
      m.mostLikelyPath samples := by
  rw [mostLikelyPath, Trellis.bestPath_map]
  simp only [m.logEmission_translate finite]
  rfl

end Model

end TouchIntent
