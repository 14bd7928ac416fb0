import Mathlib
import TouchIntent.Gesture.Compile
import TouchIntent.Proofs.Gesture.Density
import TouchIntent.Proofs.Gesture.Tokens

/-!
# Gestures of a single stop

A gesture of a single stop has a model of a single state. There is one path through its
observations, so the likelihood of a sequence is the product of the likelihoods of its samples, and
decoding has no choice. The gesture text `C` stands for the stop that covers the element itself.
-/

namespace TouchIntent

open Scalar

namespace Trellis

/-- The best path has a state for each observation. -/
theorem length_bestPath {R σ : Type} [Scalar R] {n : Nat} (t : Trellis R n) (inhabited : 0 < n)
    (emit : σ → Fin n → R) (observations : List σ) :
    (t.bestPath inhabited emit observations).length = observations.length := by
  cases observations with
  | nil => rfl
  | cons first rest =>
    have grown (survivors : Vector (Survivor R n) n) (seen : Nat)
        (length : ∀ j : Fin n, survivors[j].states.length = seen) (j : Fin n) :
        (rest.foldl (t.advanceSurvivors inhabited emit) survivors)[j].states.length =
          seen + rest.length := by
      induction rest generalizing survivors seen with
      | nil => exact length j
      | cons next rest ih =>
        rw [List.foldl_cons, List.length_cons, ← Nat.add_assoc, Nat.add_right_comm]
        refine ih _ (seen + 1) fun i => ?_
        have longer :=
          length (firstBest inhabited fun k : Fin n => survivors[k].score + t.step[k][i])
        simpa [advanceSurvivors] using longer
    rw [bestPath, List.length_reverse, List.length_cons, Nat.add_comm]
    exact grown _ 1 (fun j => by simp [enterSurvivors]) _

variable {σ : Type} {t : Trellis EReal 1} {emit : σ → Fin 1 → EReal} {a w : ℝ} {e : σ → ℝ}

/-- One observation adds its step and its emission. -/
theorem advance_single (step : t.step[0][0] = w) {next : σ} (emission : emit next 0 = e next)
    (x : ℝ) : t.advance emit #v[(x : EReal)] next = #v[((x + (w + e next) : ℝ) : EReal)] := by
  refine Vector.ext fun i inRange => ?_
  obtain rfl : i = 0 := Nat.lt_one_iff.1 inRange
  have sum : logSumExp ((List.finRange 1).map fun k =>
      #v[(x : EReal)][k] + t.step[k][0]) = ((x + w : ℝ) : EReal) := by
    rw [List.finRange_succ, List.map_cons]
    show logSumExp [(x : EReal) + t.step[0][0]] = _
    rw [step, ← EReal.coe_add]
    exact exact_logSumExp_singleton _
  simp only [advance, Vector.getElem_ofFn]
  show logSumExp ((List.finRange 1).map fun k => #v[(x : EReal)][k] + t.step[k][0]) +
    emit next 0 = ((x + (w + e next) : ℝ) : EReal)
  rw [sum, emission, ← EReal.coe_add, add_assoc]

theorem foldl_advance_single (step : t.step[0][0] = w) {rest : List σ}
    (emission : ∀ s ∈ rest, emit s 0 = e s) (x : ℝ) :
    rest.foldl (t.advance emit) #v[(x : EReal)] =
      #v[((x + (rest.map fun s => w + e s).sum : ℝ) : EReal)] := by
  induction rest generalizing x with
  | nil => simp
  | cons next rest ih =>
    rw [List.foldl_cons, advance_single step (emission next List.mem_cons_self),
      ih fun s member => emission s (List.mem_cons_of_mem _ member), List.map_cons,
      List.sum_cons, add_assoc x]

/-- The log total of the one path through the observations. -/
theorem forward_single (start : t.start[0] = a) (step : t.step[0][0] = w) {first : σ}
    {rest : List σ} (emission : ∀ s ∈ first :: rest, emit s 0 = e s) :
    t.forward emit (first :: rest) =
      ((a + e first + (rest.map fun s => w + e s).sum : ℝ) : EReal) := by
  have entered : t.enter emit first = #v[((a + e first : ℝ) : EReal)] := by
    refine Vector.ext fun i inRange => ?_
    obtain rfl : i = 0 := Nat.lt_one_iff.1 inRange
    simp only [enter, Vector.getElem_ofFn]
    rw [EReal.coe_add, ← start, ← emission first List.mem_cons_self]
    rfl
  rw [forward, entered,
    foldl_advance_single step fun s member => emission s (List.mem_cons_of_mem _ member)]
  exact exact_logSumExp_singleton _

/-- The one path through the observations. -/
theorem bestPath_single {R : Type} [Scalar R] (t : Trellis R 1) (inhabited : 0 < 1)
    (emit : σ → Fin 1 → R) (observations : List σ) :
    t.bestPath inhabited emit observations = List.replicate observations.length 0 :=
  List.eq_replicate_iff.2
    ⟨t.length_bestPath inhabited emit observations, fun i _ => Subsingleton.elim i 0⟩

end Trellis

section SingleStop

variable {R : Type} [Scalar R]

/-- The model of a single state, which every sequence starts in and stays in. -/
def Model.single (g : Gaussian R) : Model R where
  size := 1
  inhabited := Nat.one_pos
  states := #v[g]
  transitions := #v[#v[one]]
  initial := #v[one]
  emission := .gaussian

/-- Decoding stays in the only state. -/
theorem Model.mostLikelyPath_single (g : Gaussian R) (samples : List (Sample R)) :
    ((Model.single g).mostLikelyPath samples).map Fin.val = List.replicate samples.length 0 :=
  (congrArg (List.map Fin.val) (Trellis.bestPath_single _ _ _ _)).trans List.map_replicate

/-- What a route of a single stop builds. -/
theorem Model.build_single {g : Gaussian R} (dense : g.hasDensity = true) :
    Model.build [g] [[one]] [one] = .ok (Model.single g) := by
  have rows : squareMatrix (#v[[one]] : Vector (List R) 1) = .ok #v[#v[one]] := by
    rw [squareMatrix]
    split
    · next i found =>
      have bad := List.find?_some found
      obtain rfl : i = 0 := Subsingleton.elim _ _
      simp [Vector.get] at bad
    · rfl
  have fits : [g].findIdx? (fun g => !g.hasDensity) = none := by simp [dense]
  simp only [build, fits]
  rw [dif_pos (by simp)]
  simp only [vector?]
  rw [dif_pos (by rfl), dif_pos (by rfl)]
  show ((match squareMatrix (#v[[one]] : Vector (List R) 1) with
    | .error row => .error (.transitionShape row (#v[[one]] : Vector (List R) 1)[row].length 1)
    | .ok transitions => .ok ⟨1, Nat.one_pos, #v[g], transitions, #v[one], .gaussian⟩) :
      Except ModelError (Model R)) = _
  rw [rows]
  rfl

theorem RouteToken.scan_heading {letter : Char} {heading : Heading}
    (written : single? letter = some (.heading heading : RouteToken R))
    (visible : ¬ Text.isBlank letter = true) (offset : Nat) :
    (scan offset [letter] : List (PlacedToken R)) = [⟨offset, .heading heading⟩] := by
  have plain : letter ≠ '-' ∧ letter ≠ '<' ∧ letter ≠ '[' := by
    refine ⟨?_, ?_, ?_⟩ <;> rintro rfl <;> cases written
  rw [scan_plain plain.1 plain.2.1 plain.2.2, if_neg visible, written, Option.elim_some, scan_nil]

/-- The route of a single heading that leaves the region of the element as it is. -/
theorem Route.read_heading {letter : Char} {heading : Heading}
    (written : RouteToken.single? letter = some (.heading heading : RouteToken R))
    (visible : ¬ Text.isBlank letter = true) (still : ∀ r : Region R, r.move heading = r)
    (density : R) (element : Bounds R) (wide : ¬ element.width ≤ zero)
    (high : ¬ element.height ≤ zero) {offset : Nat} :
    Route.read density element offset [letter] =
      .ok ⟨⟨Region.ofBounds element, [heading].contains .origin, false, false, []⟩, [],
        element⟩ := by
  rw [Route.read, RouteToken.scan_heading written visible]
  simp [readFrom, Draft.add, Draft.begin, Draft.finish, Region.place, bind, Except.bind,
    Region.ofBounds, wide, high, still]
  rfl

/-- The route of the gesture text `C`. -/
theorem Route.read_centre (density : R) (element : Bounds R) (wide : ¬ element.width ≤ zero)
    (high : ¬ element.height ≤ zero) {offset : Nat} :
    Route.read density element offset ['C'] =
      .ok ⟨⟨Region.ofBounds element, false, false, false, []⟩, [], element⟩ := by
  have visible : ¬ Text.isBlank 'C' = true := by decide
  exact Route.read_heading rfl visible (fun _ => rfl) density element wide high

/-- A single weight becomes the probability one. -/
theorem laplaceCorrect_single (x : ℝ) (positive : 0 ≤ x) :
    laplaceCorrect [(x : EReal)] = [one] := by
  have small : (laplaceEpsilon : EReal) = ((1 / 1000 : ℝ) : EReal) := by
    rw [laplaceEpsilon, exact_ratio]
    norm_num
  have raised : (x : EReal) + laplaceEpsilon = ((x + 1 / 1000 : ℝ) : EReal) := by
    rw [small, EReal.coe_add]
  have total : sum [((x + 1 / 1000 : ℝ) : EReal)] = ((x + 1 / 1000 : ℝ) : EReal) := by
    simp [sum]
  simp only [laplaceCorrect, List.map_cons, List.map_nil, raised, total]
  rw [← EReal.coe_div, div_self (by positivity), exact_one, EReal.coe_one]

end SingleStop

section Centre

variable {c : Compiler EReal} {element : Bounds EReal}

/-- The gesture text `C` for an element, with a label or without one. -/
theorem Compiler.compile_labelled_centre {source : String} {label : Option String} {offset : Nat}
    (text : GestureText.ofChars source.toList = ⟨label, offset, ['C']⟩)
    (mode : c.emission = .gaussian)
    (surface : 0 < c.surface.width ∧ 0 < c.surface.height)
    (area : 0 < element.width ∧ 0 < element.height)
    (dense : ((Region.ofBounds element).gaussian c.surface).hasDensity = true) :
    c.compile source element = .ok {
      label := label.getD "C"
      model := .single ((Region.ofBounds element).gaussian c.surface)
      pattern := ⟨[⟨true, true, []⟩], [[true]], []⟩
      origin := none
      pointers := [0, 1] } := by
  have route : Route.read c.density element offset ['C'] = .ok _ :=
    Route.read_centre c.density element (by simpa using area.1) (by simpa using area.2)
  have modelled : c.model ⟨⟨Region.ofBounds element, false, false, false, []⟩, [], element⟩ =
      .ok (.single ((Region.ofBounds element).gaussian c.surface)) := by
    have unit : (one : EReal) = ((1 : ℝ) : EReal) := by simp
    have share : (one / ofNat 1 : EReal) = ((1 : ℝ) : EReal) := by
      rw [unit, exact_ofNat, ← EReal.coe_div]
      norm_num
    have steps : laplaceCorrect [(one / ofNat 1 : EReal)] = [one] := by
      rw [share]
      exact laplaceCorrect_single 1 zero_le_one
    have starts : laplaceCorrect [(one : EReal)] = [one] := by
      conv_lhs => rw [unit]
      exact laplaceCorrect_single 1 zero_le_one
    show (Model.build [(Region.ofBounds element).gaussian c.surface]
      [laplaceCorrect [one / ofNat 1]] (laplaceCorrect [one]) >>= fun model =>
        pure (model.withEmission c.emission)) = _
    rw [steps, starts, Model.build_single dense, mode]
    rfl
  have wide : ¬ ¬ ((zero : EReal) < c.surface.width ∧ zero < c.surface.height) := by
    rw [exact_zero, not_not]
    exact surface
  have large : ¬ ¬ ((zero : EReal) < element.width ∧ zero < element.height) := by
    rw [exact_zero, not_not]
    exact area
  simp only [compile, if_neg wide, if_neg large, text, route, modelled]
  rfl

end Centre

/-- The samples are independent: their log-likelihoods add up. -/
theorem Model.logLikelihood_single {g : Gaussian EReal} {e : Sample EReal → ℝ}
    {samples : List (Sample EReal)} (some : samples ≠ [])
    (density : ∀ s ∈ samples, g.logDensity s.position = e s) :
    (Model.single g).logLikelihood samples = (((samples.map e).sum : ℝ) : EReal) := by
  have certain : ln (one : EReal) = ((0 : ℝ) : EReal) := by
    have unit : (one : EReal) = ((1 : ℝ) : EReal) := by simp
    rw [unit, exact_ln one_pos, Real.log_one]
  cases samples with
  | nil => exact absurd rfl some
  | cons first rest =>
    have trellis : (Model.single g).trellis = (⟨#v[ln one], #v[#v[ln one]]⟩ : Trellis EReal 1) := by
      simp [Model.trellis, Model.single]
    have total : Trellis.forward ⟨#v[ln one], #v[#v[ln one]]⟩ (Model.single g).logEmission
        (first :: rest) = ((0 + e first + (rest.map fun s => 0 + e s).sum : ℝ) : EReal) := by
      refine Trellis.forward_single ?_ ?_ density
      · exact certain
      · exact certain
    rw [logLikelihood, trellis]
    refine total.trans ?_
    simp

end TouchIntent
