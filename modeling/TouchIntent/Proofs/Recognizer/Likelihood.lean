import Mathlib
import TouchIntent.Proofs.Gesture.Origin
import TouchIntent.Proofs.Gesture.PathSum
import TouchIntent.Proofs.Recognizer.Batch

/-!
# Likelihoods are numbers

In exact arithmetic a likelihood may vanish, and its logarithm be `-∞`, but it is never infinite.
This holds of any recognizer whose parameters and samples are real numbers, so of the recognizer of
any gesture text, and stays so while it takes in samples.
-/

namespace TouchIntent

open Scalar

/-! ## Models -/

/-- Totals that are less than `∞` stay so along a trellis. -/
theorem Trellis.forward_ne_top {σ : Type} {n : Nat} {t : Trellis EReal n} {emit : σ → Fin n → EReal}
    (starts : ∀ j, t.start.get j ≠ ⊤) (steps : ∀ i j, (t.step.get i).get j ≠ ⊤)
    {observations : List σ} (emissions : ∀ s ∈ observations, ∀ j, emit s j ≠ ⊤) :
    t.forward emit observations ≠ ⊤ := by
  cases observations with
  | nil => simp [forward]
  | cons first rest =>
    have entered (j : Fin n) : (t.enter emit first).get j ≠ ⊤ := by
      rw [enter_get]
      exact EReal.add_ne_top (starts j) (emissions first List.mem_cons_self j)
    exact logSumExp_ne_top (forall_mem_toList.2 (foldl_advance_ne_top entered steps
      fun s member => emissions s (List.mem_cons_of_mem _ member)))

namespace Model

/-- A model of real parameters that scores any sample of real numbers. Where contact ellipses are
compared, the determinants that are taken the logarithm of are not to be negative. -/
structure IsSound (m : Model EReal) : Prop extends m.WellFormed where
  proper : m.emission = .bhattacharyya → ∀ s : Sample EReal, s.IsFinite →
    ∀ i, 0 ≤ ((m.states.get i).pooled s).det

variable {m : Model EReal}

theorem IsSound.logLikelihood_ne_top (sound : m.IsSound) {samples : List (Sample EReal)}
    (finite : ∀ s ∈ samples, s.IsFinite) : m.logLikelihood samples ≠ ⊤ := by
  refine Trellis.forward_ne_top (fun i => ?_) (fun i j => ?_) fun s member i => ?_
  · rw [trellis_start]
    exact exact_ln_ne_top (sound.initial i).2
  · rw [trellis_step]
    exact exact_ln_ne_top (sound.transitions i j).2
  · exact Gaussian.logEmission_ne_top (sound.dense i) (sound.mean i).1 (sound.mean i).2
      (finite s member) fun mode => sound.proper mode s (finite s member) i

theorem IsSound.translate (sound : m.IsSound) {d : Vec2 EReal} (finite : d.IsFinite) :
    (m.translate d).IsSound := by
  have state (i : Fin m.size) : (m.translate d).states.get i = (m.states.get i).translate d := by
    simp [Model.translate, Vector.get_eq_getElem]
  refine ⟨⟨fun i => ?_, fun i => ?_, sound.initial, sound.transitions⟩, fun mode s real i => ?_⟩
  · rw [state i]
    exact sound.dense i
  · rw [state i]
    exact ⟨exact_isFinite_add (sound.mean i).1 finite.x,
      exact_isFinite_add (sound.mean i).2 finite.y⟩
  · rw [state i]
    exact sound.proper mode s real i

/-- A single state with a density makes a sound model. -/
theorem isSound_single {g : Gaussian EReal} (dense : g.hasDensity = true)
    (mean : g.mean.IsFinite) : (Model.single g).IsSound := by
  have certain : 0 ≤ (one : EReal) ∧ isFinite (one : EReal) = true := by
    rw [exact_one]
    exact ⟨zero_le_one, exact_isFinite_coe 1⟩
  have only (i : Fin (Model.single g).size) : i = ⟨0, Nat.one_pos⟩ :=
    Fin.ext (Nat.lt_one_iff.1 i.isLt)
  refine ⟨⟨fun i => ?_, fun i => ?_, fun i => ?_, fun i j => ?_⟩, fun mode => by cases mode⟩
  · rw [only i]
    exact dense
  · rw [only i]
    exact ⟨mean.x, mean.y⟩
  · rw [only i]
    exact certain
  · rw [only i, only j]
    exact certain

end Model

/-- A probability is a real number. -/
theorem exact_isFinite_of_sum {n : Nat} {v : Vector EReal n} (positive : ∀ i, 0 < v.get i)
    (total : ∑ i, v.get i = 1) (i : Fin n) : 0 ≤ v.get i ∧ isFinite (v.get i) = true := by
  have nonneg := (positive i).le
  have bounded : v.get i ≤ 1 := total ▸ Finset.single_le_sum
    (fun j _ => (positive j).le) (Finset.mem_univ i)
  refine ⟨nonneg, exact_isFinite.2 ⟨?_, ?_⟩⟩
  · exact (bounded.trans_lt (EReal.coe_lt_top 1)).ne
  · exact ((EReal.bot_lt_coe 0).trans_le nonneg).ne'

/-- The model of a gesture text is sound, for an element, a surface and a density that are given by
real numbers. -/
theorem Compiler.isSound_compile {c : Compiler EReal} (finite : c.IsFinite)
    {element : Bounds EReal} (box : element.IsFinite) {source : String} {b : Behavior EReal}
    (ok : c.compile source element = .ok b) : b.model.IsSound := by
  have normalized := isNormalized_of_compile ok
  refine ⟨⟨fun i => ?_, fun i => ?_, ?_, fun i => ?_⟩, fun _ s real i => ?_⟩
  · obtain ⟨u, v, above, minor, state⟩ := normalized.exists_symmetric i
    rw [state]
    exact Gaussian.exact_hasDensity above minor _
  · have mean := isFinite_mean finite box ok i
    exact ⟨mean.x, mean.y⟩
  · exact exact_isFinite_of_sum normalized.initial_pos normalized.initial_sum
  · exact exact_isFinite_of_sum (normalized.transitions_pos i) (normalized.transitions_sum i)
  · obtain ⟨u, v, above, minor, state⟩ := normalized.exists_symmetric i
    rw [state]
    exact Gaussian.pooled_det_nonneg above minor real

/-! ## Recognizers -/

namespace Recognizer

/-- A recognizer of a sound model, which has seen samples of real numbers and found them not
infinitely likely. -/
structure IsSound (r : Recognizer EReal) : Prop where
  model : r.model.IsSound
  origin : ∀ o ∈ r.origin, o.IsFinite
  seen : ∀ p, ∀ s ∈ r.window.samples p, s.IsFinite
  bounded : r.logLikelihood ≠ ⊤

variable {r : Recognizer EReal} {s : Sample EReal}

theorem isSound_ofBehavior {b : Behavior EReal} (model : b.model.IsSound)
    (origin : ∀ o ∈ b.origin, o.IsFinite) (capacity : Nat) :
    (Recognizer.ofBehavior b capacity).IsSound where
  model := model
  origin := origin
  seen := by
    intro p s member
    have none : (Recognizer.ofBehavior b capacity).window.samples p = [] :=
      Window.samples_empty b.pointers capacity
    rw [none] at member
    cases member
  bounded := by simp [Recognizer.ofBehavior]

/-- A recognizer of a gesture text is sound. -/
theorem isSound_compile {c : Compiler EReal} (finite : c.IsFinite) {element : Bounds EReal}
    (box : element.IsFinite) {source : String} {b : Behavior EReal}
    (ok : c.compile source element = .ok b) (capacity : Nat) :
    (Recognizer.ofBehavior b capacity).IsSound :=
  isSound_ofBehavior (Compiler.isSound_compile finite box ok)
    (fun _ centred => Compiler.isFinite_origin finite box ok centred) capacity

theorem IsSound.anchor (sound : r.IsSound) (finite : s.IsFinite) :
    (r.anchor s).model.IsSound ∧ ∀ o ∈ (r.anchor s).origin, o.IsFinite := by
  unfold Recognizer.anchor
  split
  · exact ⟨sound.model, sound.origin⟩
  · next o centred =>
    have centre : o.IsFinite := sound.origin o centred
    have way : (s.position.sub o).IsFinite := Vec2.IsFinite.sub ⟨finite.x, finite.y⟩ centre
    split
    · refine ⟨sound.model.translate way, fun o' moved => ?_⟩
      obtain ⟨o, source, rfl⟩ := Option.map_eq_some_iff.1 moved
      exact (sound.origin o source).add way
    · exact ⟨sound.model, sound.origin⟩

/-- Taking in a sample of real numbers keeps a recognizer sound. A sample of a pointer that it does
not listen to leaves its likelihood as it was. -/
theorem IsSound.observeTouch (sound : r.IsSound) (finite : s.IsFinite) :
    (r.observeTouch s).IsSound := by
  by_cases accepted : s.pointer ∈ r.window.pointers
  · obtain ⟨model, origin⟩ := sound.anchor finite
    have seen : ∀ p, ∀ x ∈ (r.window.push s).samples p, x.IsFinite := by
      intro p x member
      rw [Window.samples_push accepted] at member
      have member := List.mem_of_mem_drop member
      split at member
      · rcases List.mem_append.1 member with earlier | latest
        · exact sound.seen p x earlier
        · rw [List.mem_singleton.1 latest]
          exact finite
      · exact sound.seen p x member
    refine ⟨?_, ?_, ?_, ?_⟩
    · rw [observeTouch_model accepted]
      exact model
    · rw [observeTouch_eq accepted]
      exact origin
    · rw [observeTouch_window]
      exact seen
    · have greatest_eq : (r.observeTouch s).logLikelihood = _ :=
        congrArg Prod.fst (observeTouch_dominant accepted)
      rw [greatest_eq, Track.dominant_fst]
      rcases (greatest_spec _).1 with low | member
      · rw [low]
        exact bot_ne_top
      · obtain ⟨t, kept, same⟩ := List.mem_map.1 member
        obtain ⟨u, -, rfl⟩ := List.mem_map.1 (List.mem_of_mem_filter kept)
        rw [← same, Track.decode_logLikelihood]
        exact model.logLikelihood_ne_top (seen u.pointer)
  · rw [observeTouch_of_ignored accepted]
    exact sound

end Recognizer

end TouchIntent
