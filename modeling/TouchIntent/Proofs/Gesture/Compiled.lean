import Mathlib
import TouchIntent.Proofs.Gesture.Arrows
import TouchIntent.Proofs.Gesture.Normalization

/-!
# Compiled gestures

What holds of every behaviour that a gesture text compiles to. Its pattern has a state for each
stop, and the steps and the states that a gesture may start in are those that the arrows of the text
allow. Its model has the same states; in exact arithmetic all probabilities are positive and add up
to one, and no state is degenerate.
-/

namespace TouchIntent

open Scalar

namespace MarkerTarget

/-- The state that a target belongs to and its place there: the state itself, then its events. -/
def place : MarkerTarget → Nat × Nat
  | state i => (i, 0)
  | event i token => (i, token + 1)

/-- The order of states, and within a state the state itself before its events. -/
def Before (a b : MarkerTarget) : Prop :=
  a.place.1 < b.place.1 ∨ a.place.1 = b.place.1 ∧ a.place.2 < b.place.2

/-- The pattern has what the target names. -/
def InRange (p : Pattern) : MarkerTarget → Prop
  | state i => i < p.size
  | event i token => i < p.size ∧ token < (p.tokens i).length

end MarkerTarget

/-- The pattern of a gesture whose stops are joined by these arrows. -/
structure Pattern.Fits (p : Pattern) (arrows : List Arrow) : Prop where
  size : p.size = arrows.length + 1
  square : p.valid.length = p.size ∧ ∀ row ∈ p.valid, row.length = p.size
  isValidStep_iff : ∀ i j, p.isValidStep i j = true ↔ i < p.size ∧ j < p.size ∧
    (j = i ∨ j = i + 1 ∨ i = j + 1 ∧ arrows[j]? = some .twoWay)
  isInitial_iff : ∀ i, p.isInitial i = true ↔
    i = 0 ∨ i = arrows.length ∧ arrows.getLast? = some .twoWay
  exists_isFinal : ∃ i, p.isFinal i = true
  indices : p.markers.map Marker.index = List.range p.markers.length
  ordered : (p.markers.map Marker.target).Pairwise MarkerTarget.Before
  inRange : ∀ m ∈ p.markers, m.target.InRange p

/-- The probabilities of a model are positive and add up to one, and every state is spread along the
axes of the surface. -/
structure Model.IsNormalized (m : Model EReal) : Prop where
  initial_pos : ∀ i, 0 < m.initial.get i
  initial_sum : ∑ i, m.initial.get i = 1
  transitions_pos : ∀ i j, 0 < (m.transitions.get i).get j
  transitions_sum : ∀ i, ∑ j, (m.transitions.get i).get j = 1
  covariance : ∀ i, ∃ u v : ℝ, 0 < u ∧ 0 < v ∧
    (m.states.get i).covariance = Mat2.diagonal (u : EReal) (v : EReal)

/-- The covariances of a normalized model are symmetric and positive definite. -/
theorem Model.IsNormalized.exists_symmetric {m : Model EReal} (normalized : m.IsNormalized)
    (i : Fin m.size) : ∃ u v : ℝ, 0 < u ∧ 0 < u * v - 0 * 0 ∧
      m.states.get i = ⟨(m.states.get i).mean,
        ⟨⟨(u : EReal), ((0 : ℝ) : EReal)⟩, ⟨((0 : ℝ) : EReal), (v : EReal)⟩⟩⟩ := by
  obtain ⟨u, v, above, above', spread⟩ := normalized.covariance i
  refine ⟨u, v, above, by simpa using mul_pos above above', ?_⟩
  rw [Mat2.diagonal, exact_zero] at spread
  exact congrArg (Gaussian.mk _) spread

theorem Pattern.resize_of_length {α : Type} {n : Nat} {filler : α} {xs : List α}
    (length : xs.length = n) : Pattern.resize n filler xs = xs := by
  rw [Pattern.resize, length, Nat.sub_self, List.take_of_length_le (Nat.le_of_eq length)]
  exact List.append_nil xs

/-- Of the numbers below a bound that have a property, one among them is not the only one exactly
if another one has the property. -/
theorem one_lt_length_filter_range {n i : Nat} {p : Nat → Bool} (inside : i < n)
    (holds : p i = true) : 1 < ((List.range n).filter p).length ↔ ∃ j < n, p j = true ∧ j ≠ i := by
  have nodup : ((List.range n).filter p).Nodup := List.nodup_range.filter p
  have mem (j : Nat) : j ∈ (List.range n).filter p ↔ j < n ∧ p j = true := by
    rw [List.mem_filter, List.mem_range]
  have self := (mem i).2 ⟨inside, holds⟩
  cases all : (List.range n).filter p with
  | nil =>
    rw [all] at self
    cases self
  | cons a rest =>
    rw [all] at self nodup mem
    cases rest with
    | nil =>
      have only : ∀ j, j ∈ [a] → j = a := fun j => List.mem_singleton.1
      constructor
      · intro more
        simp at more
      · rintro ⟨j, below, other, differ⟩
        exact absurd ((only j ((mem j).2 ⟨below, other⟩)).trans (only i self).symm) differ
    | cons b rest =>
      have distinct : a ≠ b := by
        rintro rfl
        simp at nodup
      refine iff_of_true (by simp) ?_
      by_cases same : a = i
      · have second := (mem b).1 (by simp)
        exact ⟨b, second.1, second.2, fun again => distinct (same.trans again.symm)⟩
      · have first := (mem a).1 (by simp)
        exact ⟨a, first.1, first.2, same⟩

namespace Route

variable {R : Type} (r : Route R)

theorem size_eq : r.size = r.arrows.length + 1 := r.length_stops

theorem size_pattern : r.pattern.size = r.size := by
  simp [pattern, Pattern.build, Pattern.size, size]

theorem getElem?_pattern_states (i : Nat) :
    r.pattern.states[i]? = (r.stops[i]?).map fun stop =>
      ⟨r.isStart i, r.isEnd i, stop.events.map RouteEvent.token⟩ := by
  simp [pattern, Pattern.build, List.getElem?_zipIdx]
  cases r.stops[i]? <;> rfl

theorem pattern_valid : r.pattern.valid = r.stepMatrix := by
  have rows : r.stepMatrix.length = r.size := by simp [stepMatrix]
  have cells : r.stepMatrix.map (Pattern.resize r.size false) = r.stepMatrix := by
    refine (List.map_congr_left (g := id) ?_).trans (List.map_id _)
    intro row member
    apply Pattern.resize_of_length
    obtain ⟨i, -, rfl⟩ := List.mem_map.1 member
    simp
  have size : r.stops.length = r.size := rfl
  simp only [pattern, Pattern.build, List.length_map, List.length_zipIdx, size]
  rw [Pattern.resize_of_length rows, cells]

theorem isValidStep_pattern (i j : Nat) : r.pattern.isValidStep i j = true ↔
    i < r.size ∧ j < r.size ∧ (j = i ∨ j = i + 1 ∨ i = j + 1 ∧ r.arrows[j]? = some .twoWay) := by
  rw [Pattern.isValidStep, pattern_valid, stepMatrix, ← isStep_iff]
  by_cases row : i < r.size
  · by_cases cell : j < r.size
    · simp [row, cell]
    · simp [row, cell]
  · simp [row]

/-- A gesture may turn back at its last stop if the last arrow goes both ways. -/
theorem one_lt_stepCount_iff {i : Nat} (last : i = r.arrows.length) :
    1 < r.stepCount i ↔ r.arrows.getLast? = some .twoWay := by
  have inside : i < r.size := by
    rw [size_eq]
    omega
  have stays : r.isStep i i = true := r.isStep_iff.2 (.inl rfl)
  rw [stepCount, one_lt_length_filter_range inside stays]
  constructor
  · rintro ⟨j, below, step, differ⟩
    rw [size_eq] at below
    rcases r.isStep_iff.1 step with same | next | ⟨back, twoWay⟩
    · exact absurd same differ
    · omega
    · rw [List.getLast?_eq_getElem?, ← twoWay]
      congr 1
      omega
  · intro twoWay
    have some_arrow : r.arrows ≠ [] := by
      intro none
      rw [none] at twoWay
      cases twoWay
    have positive : 0 < r.arrows.length := List.length_pos_iff.2 some_arrow
    rw [List.getLast?_eq_getElem?] at twoWay
    exact ⟨i - 1, by omega, r.isStep_iff.2 (.inr (.inr ⟨by omega, by rwa [last]⟩)), by omega⟩

theorem isInitial_pattern (i : Nat) : r.pattern.isInitial i = true ↔
    i = 0 ∨ i = r.arrows.length ∧ r.arrows.getLast? = some .twoWay := by
  have size := r.size_eq
  have starts : r.isStart i = true ↔
      i = 0 ∨ i = r.arrows.length ∧ r.arrows.getLast? = some .twoWay := by
    simp only [isStart, Bool.or_eq_true, beq_iff_eq, Bool.and_eq_true, decide_eq_true_eq, size,
      Nat.add_right_cancel_iff]
    apply or_congr_right
    apply and_congr_right
    exact r.one_lt_stepCount_iff
  rw [Pattern.isInitial, getElem?_pattern_states]
  cases found : r.stops[i]? with
  | some stop => simpa using starts
  | none =>
    have beyond : r.size ≤ i := List.getElem?_eq_none_iff.1 found
    simp only [Option.map_none, Option.any_none, Bool.false_eq_true, false_iff, not_or, not_and]
    omega

theorem exists_isFinal_pattern : ∃ i, r.pattern.isFinal i = true := by
  have ends {i : Nat} {stop : Stop R} (found : r.stops[i]? = some stop) (final : r.isEnd i = true) :
      ∃ i, r.pattern.isFinal i = true := by
    refine ⟨i, ?_⟩
    rw [Pattern.isFinal, getElem?_pattern_states, found]
    simpa using final
  cases marked : r.stops.any Stop.isFinal with
  | true =>
    obtain ⟨stop, member, final⟩ := List.any_eq_true.1 marked
    obtain ⟨i, found⟩ := List.mem_iff_getElem?.1 member
    apply ends found
    rw [isEnd, if_pos marked, found]
    exact final
  | false =>
    have last : r.rest.length < r.stops.length := by simp [stops]
    apply ends (List.getElem?_eq_getElem last)
    rw [isEnd, if_neg (by simp [marked])]
    simp [size, stops]

/-! ## Markers -/

/-- The targets of all markers, in the order of their indices. -/
def targets : List MarkerTarget :=
  (r.stops.zipIdx.map fun entry => markerTargets entry.2 entry.1).flatten

theorem markers_eq : r.pattern.markers =
    r.targets.zipIdx.map fun entry => { index := entry.2, target := entry.1 } := rfl

theorem target_markers : r.pattern.markers.map Marker.target = r.targets := by
  rw [markers_eq, List.map_map]
  exact List.zipIdx_map_fst 0 r.targets

theorem index_markers : r.pattern.markers.map Marker.index =
    List.range r.pattern.markers.length := by
  rw [markers_eq, List.map_map, List.length_map, List.length_zipIdx, List.range_eq_range']
  exact List.zipIdx_map_snd 0 r.targets

/-- The targets of the markers of the events of stop `i`. -/
def eventTargets (i : Nat) (events : List RouteEvent) : List MarkerTarget :=
  events.zipIdx.filterMap fun entry =>
    if entry.1.hasMarker then some (.event i entry.2) else none

theorem markerTargets_eq (i : Nat) (stop : Stop R) : markerTargets i stop =
    (if stop.hasMarker then [.state i] else []) ++ eventTargets i stop.events := rfl

theorem eq_state_of_mem {i : Nat} {marked : Bool} {target : MarkerTarget}
    (member : target ∈ if marked then [MarkerTarget.state i] else []) : target = .state i := by
  cases marked with
  | true => exact List.mem_singleton.1 member
  | false => cases member

theorem mem_eventTargets {i : Nat} {events : List RouteEvent} {target : MarkerTarget}
    (member : target ∈ eventTargets i events) :
    ∃ token < events.length, target = .event i token := by
  obtain ⟨⟨event, token⟩, inside, same⟩ := List.mem_filterMap.1 member
  have found := List.mem_zipIdx_iff_getElem?.1 inside
  split at same
  · obtain rfl := Option.some.inj same
    exact ⟨token, (List.getElem?_eq_some_iff.1 found).1, rfl⟩
  · cases same

theorem mem_markerTargets {i : Nat} {stop : Stop R} {target : MarkerTarget}
    (member : target ∈ markerTargets i stop) :
    target = .state i ∨ ∃ token < stop.events.length, target = .event i token := by
  rw [markerTargets_eq, List.mem_append] at member
  exact member.imp eq_state_of_mem mem_eventTargets

theorem pairwise_zipIdx {α : Type} (xs : List α) :
    xs.zipIdx.Pairwise fun a b => a.2 < b.2 := by
  have increasing : (xs.zipIdx.map Prod.snd).Pairwise (· < ·) := by
    rw [List.zipIdx_map_snd]
    exact List.pairwise_lt_range'
  exact List.pairwise_map.1 increasing

theorem ordered_markerTargets (i : Nat) (stop : Stop R) :
    (markerTargets i stop).Pairwise MarkerTarget.Before := by
  rw [markerTargets_eq, List.pairwise_append]
  refine ⟨?_, ?_, ?_⟩
  · split <;> simp
  · refine (pairwise_zipIdx stop.events).filterMap _ ?_
    intro entry entry' earlier target same target' same'
    split at same <;> split at same' <;> cases same <;> cases same'
    exact .inr ⟨rfl, Nat.succ_lt_succ earlier⟩
  · intro target state target' event
    obtain rfl := eq_state_of_mem state
    obtain ⟨token, -, rfl⟩ := mem_eventTargets event
    exact .inr ⟨rfl, Nat.succ_pos token⟩

theorem place_of_mem {i : Nat} {stop : Stop R} {target : MarkerTarget}
    (member : target ∈ markerTargets i stop) : target.place.1 = i := by
  rcases mem_markerTargets member with rfl | ⟨token, -, rfl⟩ <;> rfl

/-- Markers come in the order of the states. -/
theorem ordered_targets : r.targets.Pairwise MarkerTarget.Before := by
  rw [targets, List.pairwise_flatten, List.pairwise_map]
  refine ⟨?_, ?_⟩
  · intro here member
    obtain ⟨⟨stop, i⟩, -, rfl⟩ := List.mem_map.1 member
    exact ordered_markerTargets i stop
  · refine (pairwise_zipIdx r.stops).imp ?_
    intro entry entry' earlier target member target' member'
    left
    rw [place_of_mem member, place_of_mem member']
    exact earlier

theorem inRange_targets : ∀ target ∈ r.targets, target.InRange r.pattern := by
  intro target member
  obtain ⟨here, listed, inside⟩ := List.mem_flatten.1 member
  obtain ⟨⟨stop, i⟩, indexed, rfl⟩ := List.mem_map.1 listed
  have found := List.mem_zipIdx_iff_getElem?.1 indexed
  have below : i < r.pattern.size := by
    rw [size_pattern]
    exact (List.getElem?_eq_some_iff.1 found).1
  have tokens : r.pattern.tokens i = stop.events.map RouteEvent.token := by
    rw [Pattern.tokens, getElem?_pattern_states, found]
    rfl
  rcases mem_markerTargets inside with rfl | ⟨token, within, rfl⟩
  · exact below
  · refine ⟨below, ?_⟩
    rw [tokens, List.length_map]
    exact within

/-- The pattern of a route fits its arrows. -/
theorem fits_pattern : r.pattern.Fits r.arrows where
  size := r.size_pattern.trans r.size_eq
  square := by
    rw [pattern_valid, size_pattern]
    refine ⟨by simp [stepMatrix], ?_⟩
    intro row member
    obtain ⟨i, -, rfl⟩ := List.mem_map.1 member
    simp
  isValidStep_iff := by
    rw [size_pattern]
    exact r.isValidStep_pattern
  isInitial_iff := r.isInitial_pattern
  exists_isFinal := r.exists_isFinal_pattern
  indices := r.index_markers
  ordered := by
    rw [target_markers]
    exact r.ordered_targets
  inRange := by
    intro m member
    apply r.inRange_targets
    rw [← target_markers]
    exact List.mem_map_of_mem member

end Route

namespace Route

variable (r : Route EReal)

theorem stops_ne_nil : List.range r.size ≠ [] := by
  rw [size_eq]
  simp

/-- Numbers that are given for each stop and are not negative are weights. -/
theorem isWeights_of_stops {weight : Nat → EReal}
    (nonneg : ∀ i, ∃ x : ℝ, 0 ≤ x ∧ weight i = (x : EReal)) :
    IsWeights ((List.range r.size).map weight) := by
  choose real nonneg same using nonneg
  refine ⟨by simpa using r.stops_ne_nil, (List.range r.size).map real, ?_, ?_⟩
  · intro x member
    obtain ⟨i, -, rfl⟩ := List.mem_map.1 member
    exact nonneg i
  · rw [List.map_map]
    exact List.map_congr_left fun i _ => same i

theorem isWeights_initialWeights : IsWeights r.initialWeights := by
  apply isWeights_of_stops
  intro i
  by_cases start : r.isStart i = true
  · exact ⟨1, zero_le_one, by simp [start]⟩
  · exact ⟨0, le_refl 0, by simp [start]⟩

theorem isWeights_stepWeights (i : Nat) : IsWeights (r.stepWeights i) := by
  apply isWeights_of_stops
  intro j
  by_cases step : r.isStep i j = true
  · refine ⟨1 / (r.stepCount i : ℝ), by positivity, ?_⟩
    rw [if_pos step, exact_one, exact_ofNat, EReal.coe_div, EReal.coe_one]
  · exact ⟨0, le_refl 0, by simp [step]⟩

end Route

/-- A diagonal covariance has positive entries. -/
theorem exact_diagonal_of_hasDensity {mean : Vec2 EReal} {a b : EReal}
    (dense : (⟨mean, Mat2.diagonal a b⟩ : Gaussian EReal).hasDensity = true) :
    ∃ u v : ℝ, 0 < u ∧ 0 < v ∧ a = u ∧ b = v := by
  simp only [Gaussian.hasDensity, Mat2.isCovariance, Mat2.isFinite, Mat2.diagonal,
    Bool.and_eq_true, decide_eq_true_eq, exact_zero] at dense
  obtain ⟨⟨⟨⟨⟨⟨⟨finiteA, -⟩, -⟩, finiteB⟩, -⟩, first⟩, minor⟩, -⟩ := dense
  obtain ⟨u, rfl⟩ := exact_real_of_isFinite finiteA
  obtain ⟨v, rfl⟩ := exact_real_of_isFinite finiteB
  have u_pos : 0 < u := EReal.coe_pos.1 first
  refine ⟨u, v, u_pos, ?_, rfl, rfl⟩
  have product : 0 < u * v := by
    have zero_coe : (0 : EReal) = ((0 : ℝ) : EReal) := rfl
    rw [Mat2.det, zero_coe, ← EReal.coe_mul, ← EReal.coe_mul, ← EReal.coe_sub,
      EReal.coe_lt_coe_iff] at minor
    simpa using minor
  exact (pos_iff_pos_of_mul_pos product).1 u_pos

theorem IsDistribution.get {n : Nat} {v : Vector EReal n} (given : IsDistribution v.toList) :
    (∀ i, 0 < v.get i) ∧ ∑ i, v.get i = 1 := by
  refine ⟨?_, (sum_get v).trans given.total⟩
  intro i
  apply given.positive
  simp [Vector.get_eq_getElem]

namespace Compiler

section Inversion

variable {R : Type} [Scalar R] {c : Compiler R} {route : Route R} {m : Model R}

theorem builtFrom_of_model (ok : c.model route = .ok m) :
    ∃ built : Model R, m = built.withEmission c.emission ∧ built.BuiltFrom
      (route.stops.map fun stop => stop.region.gaussian c.surface)
      ((List.range route.size).map fun i => laplaceCorrect (route.stepWeights i))
      (laplaceCorrect route.initialWeights) := by
  obtain ⟨built, builds, same⟩ := exists_of_bind_eq_ok ok
  exact ⟨built, (Except.ok.inj same).symm, Model.builtFrom_of_build builds⟩

/-- The model of a route has a state for each stop. -/
theorem size_of_model (ok : c.model route = .ok m) : m.size = route.size := by
  obtain ⟨built, rfl, spec⟩ := builtFrom_of_model ok
  have size : built.size = route.size := by
    have lengths := congrArg List.length spec.toList_states
    simpa [Route.size] using lengths
  exact size

/-- A gesture text compiles if neither the surface nor the element is empty, the text is read as a
route and the route has a model. What it compiles to is made from these. -/
theorem compile_eq_ok_iff {source : String} {element : Bounds R} {b : Behavior R} :
    c.compile source element = .ok b ↔
      (zero < c.surface.width ∧ zero < c.surface.height) ∧
      (zero < element.width ∧ zero < element.height) ∧
      ∃ route m, GestureText.route c.density element source.toList = .ok route ∧
        c.model route = .ok m ∧ b = {
          label := (GestureText.ofChars source.toList).label.getD
            (String.ofList (Text.squeeze (GestureText.ofChars source.toList).body))
          model := m
          pattern := route.pattern
          origin := if route.isRelative then some (c.surface.normalize route.element.centre)
            else none
          pointers := defaultPointers } := by
  constructor
  · intro ok
    unfold compile at ok
    simp only at ok
    split at ok
    · cases ok
    · next surface =>
      split at ok
      · cases ok
      · next area =>
        refine ⟨not_not.1 surface, not_not.1 area, ?_⟩
        split at ok
        · cases ok
        · next route read =>
          split at ok
          · cases ok
          · next model modelled => exact ⟨route, model, read, modelled, (Except.ok.inj ok).symm⟩
  · rintro ⟨surface, area, route, m, read, modelled, rfl⟩
    rw [GestureText.route] at read
    simp only [compile, surface, area, and_self, not_true_eq_false, if_false, read, modelled]

/-- What a gesture text compiles to is made from the route that the text is read as. -/
theorem exists_route_of_compile {source : String} {element : Bounds R} {b : Behavior R}
    (ok : c.compile source element = .ok b) :
    ∃ route m, GestureText.route c.density element source.toList = .ok route ∧
      c.model route = .ok m ∧ b = {
        label := (GestureText.ofChars source.toList).label.getD
          (String.ofList (Text.squeeze (GestureText.ofChars source.toList).body))
        model := m
        pattern := route.pattern
        origin := if route.isRelative then some (c.surface.normalize route.element.centre) else none
        pointers := defaultPointers } :=
  (compile_eq_ok_iff.1 ok).2.2

/-- A behaviour has the pattern of the route that its text is read as, and a model of that route. -/
theorem compile_eq_ok {source : String} {element : Bounds R} {b : Behavior R}
    (ok : c.compile source element = .ok b) :
    ∃ route, GestureText.route c.density element source.toList = .ok route ∧
      c.model route = .ok b.model ∧ b.pattern = route.pattern := by
  obtain ⟨route, m, read, modelled, rfl⟩ := exists_route_of_compile ok
  exact ⟨route, read, modelled, rfl⟩

/-- Samples are scored as the compiler is told. -/
theorem emission_of_compile {source : String} {element : Bounds R} {b : Behavior R}
    (ok : c.compile source element = .ok b) : b.model.emission = c.emission := by
  obtain ⟨route, -, modelled, -⟩ := compile_eq_ok ok
  obtain ⟨built, same, -⟩ := builtFrom_of_model modelled
  rw [same]
  rfl

/-- A route has a model exactly if no region of it is degenerate. -/
theorem model_eq_ok_iff : (∃ m, c.model route = .ok m) ↔
    ∀ stop ∈ route.stops, (stop.region.gaussian c.surface).hasDensity = true := by
  constructor
  · rintro ⟨m, ok⟩ stop member
    obtain ⟨built, -, spec⟩ := builtFrom_of_model ok
    exact spec.dense _ (List.mem_map_of_mem member)
  · intro dense
    have size : route.size = route.stops.length := rfl
    obtain ⟨built, builds⟩ : ∃ built, Model.build
        (route.stops.map fun stop => stop.region.gaussian c.surface)
        ((List.range route.size).map fun i => laplaceCorrect (route.stepWeights i))
        (laplaceCorrect route.initialWeights) = .ok built := by
      apply Model.exists_build
      · simp [Route.stops]
      · simp [laplaceCorrect, Route.initialWeights, size]
      · simp [size]
      · intro row member
        obtain ⟨i, -, rfl⟩ := List.mem_map.1 member
        simp [laplaceCorrect, Route.stepWeights, size]
      · intro g member
        obtain ⟨stop, inside, rfl⟩ := List.mem_map.1 member
        exact dense stop inside
    refine ⟨built.withEmission c.emission, ?_⟩
    rw [model, builds]
    rfl

/-- A text that is read as a route without degenerate regions compiles. -/
theorem exists_compile {source : String} {element : Bounds R}
    (surface : zero < c.surface.width ∧ zero < c.surface.height)
    (area : zero < element.width ∧ zero < element.height)
    (read : GestureText.route c.density element source.toList = .ok route)
    (dense : ∀ stop ∈ route.stops, (stop.region.gaussian c.surface).hasDensity = true) :
    ∃ b, c.compile source element = .ok b := by
  obtain ⟨m, modelled⟩ := model_eq_ok_iff.2 dense
  exact ⟨_, compile_eq_ok_iff.2 ⟨surface, area, route, m, read, modelled, rfl⟩⟩

end Inversion

variable {c : Compiler EReal} {route : Route EReal} {m : Model EReal}

/-- The model of a route has a state for each stop, and its probabilities are normalized. -/
theorem isNormalized_model (ok : c.model route = .ok m) :
    m.size = route.size ∧ m.IsNormalized := by
  have size := size_of_model ok
  obtain ⟨built, rfl, spec⟩ := builtFrom_of_model ok
  have initial : IsDistribution built.initial.toList := by
    rw [spec.toList_initial]
    exact isDistribution_laplaceCorrect route.isWeights_initialWeights
  have row (i : Fin built.size) : IsDistribution (built.transitions.get i).toList := by
    have listed := spec.row i
    rw [List.getElem?_map, Option.map_eq_some_iff] at listed
    obtain ⟨j, -, same⟩ := listed
    rw [← same]
    exact isDistribution_laplaceCorrect (route.isWeights_stepWeights j)
  refine ⟨size, initial.get.1, initial.get.2, fun i => (row i).get.1, fun i => (row i).get.2, ?_⟩
  intro i
  have listed : built.states.get i ∈ built.states.toList := by
    rw [Vector.mem_toList_iff]
    exact Vector.getElem_mem i.isLt
  rw [spec.toList_states] at listed
  have dense := spec.dense _ listed
  obtain ⟨stop, -, same⟩ := List.mem_map.1 listed
  rw [← same] at dense
  obtain ⟨u, v, u_pos, v_pos, width, height⟩ := exact_diagonal_of_hasDensity dense
  refine ⟨u, v, u_pos, v_pos, ?_⟩
  show (built.states.get i).covariance = _
  rw [← same, Region.gaussian, width, height]

theorem isNormalized_of_compile {source : String} {element : Bounds EReal} {b : Behavior EReal}
    (ok : c.compile source element = .ok b) : b.model.IsNormalized := by
  obtain ⟨route, -, modelled, -⟩ := compile_eq_ok ok
  exact (isNormalized_model modelled).2

/-- Every gesture text that compiles, for whatever surface, element, density and emission, compiles
to a behaviour whose model and pattern have the same states, one more than the text has arrows. The
pattern fits these arrows, and in exact arithmetic the model is normalized. -/
theorem compile_wellFormed {source : String} {element : Bounds EReal} {b : Behavior EReal}
    (ok : c.compile source element = .ok b) :
    b.model.size = b.pattern.size ∧ b.pattern.Fits (GestureText.arrows source.toList) ∧
      b.model.IsNormalized := by
  obtain ⟨route, read, modelled, same⟩ := compile_eq_ok ok
  obtain ⟨size, normalized⟩ := isNormalized_model modelled
  have arrows : route.arrows = GestureText.arrows source.toList := Route.arrows_of_read read
  rw [same, ← arrows]
  exact ⟨size.trans route.size_pattern.symm, route.fits_pattern, normalized⟩

/-- The region of an element of the size of the surface is not degenerate. -/
theorem hasDensity_unit :
    ((Region.ofBounds ⟨0, 0, 1, 1⟩ : Region EReal).gaussian ⟨1, 1⟩).hasDensity = true := by
  have quarter : square ((1 : EReal) / 1 / ofNat 4) = ((1 / 16 : ℝ) : EReal) := by
    have unit : (1 : EReal) = ((1 : ℝ) : EReal) := rfl
    rw [square, exact_ofNat, unit, ← EReal.coe_div, ← EReal.coe_div, ← EReal.coe_mul]
    norm_num
  simp only [Region.gaussian, Region.ofBounds, quarter, Mat2.diagonal, exact_zero]
  exact Gaussian.exact_hasDensity (by norm_num) (by norm_num) _

/-- The text `C<->C`, for an element of the size of the surface. -/
theorem compile_wellFormed_thereAndBack :
    let c : Compiler EReal := ⟨⟨1, 1⟩, 1, .gaussian⟩
    ∃ b, c.compile "C<->C" ⟨0, 0, 1, 1⟩ = .ok b ∧ b.model.size = 2 ∧ b.pattern.Fits [.twoWay] ∧
      b.model.IsNormalized := by
  intro c
  have area : ¬ (1 : EReal) ≤ zero := by simp
  have positive : (zero : EReal) < 1 := by simp
  let stop : Stop EReal := ⟨Region.ofBounds ⟨0, 0, 1, 1⟩, false, false, false, []⟩
  let a : Route EReal := ⟨stop, [], ⟨0, 0, 1, 1⟩⟩
  have centre : Route.read 1 ⟨0, 0, 1, 1⟩ 0 ['C'] = .ok a := Route.read_centre 1 _ area area
  have text : "C<->C".toList = ['C'] ++ (Arrow.twoWay.text ++ ['C']) := by decide +kernel
  have read : GestureText.route c.density ⟨0, 0, 1, 1⟩ "C<->C".toList =
      .ok (a.join .twoWay a) := by
    rw [text, GestureText.route_of_plain (by decide)]
    exact (Route.read_append_arrow (Route.allSound_of_read centre) .twoWay ['C'] 0 0 0).2
      ⟨a, a, centre, centre, rfl⟩
  have dense : ∀ other ∈ (a.join .twoWay a).stops,
      (other.region.gaussian c.surface).hasDensity = true := by
    intro other member
    rw [Route.join_stops] at member
    have same : other = stop := by simpa [a, Route.stops] using member
    rw [same]
    exact hasDensity_unit
  have arrows : GestureText.arrows "C<->C".toList = [.twoWay] := by decide +kernel
  obtain ⟨b, ok⟩ := exists_compile (c := c) ⟨positive, positive⟩ ⟨positive, positive⟩ read dense
  obtain ⟨size, fits, normalized⟩ := compile_wellFormed ok
  rw [arrows] at fits
  exact ⟨b, ok, size.trans fits.size, fits, normalized⟩

end Compiler

end TouchIntent
