import Mathlib
import TouchIntent.Proofs.Gesture.Demands
import TouchIntent.Proofs.Pattern.Marks

/-!
# Checks of compiled gestures

What the checks of a compiled gesture say of a path, where the path may take steps that the gesture
does not allow, and may be decoded anew from one check to the next. A stay that a path comes to by
such a step covers its state like any other, although nothing that was covered before the step
counts any more; and the marker of an event stays just reached as long as no path comes by its
state.
-/

namespace TouchIntent

namespace Compiler

section Compiled

variable {R : Type} [Scalar R] {c : Compiler R} {source : String} {element : Bounds R}
  {b : Behavior R}

/-- Nothing is noted in the markers of a compiled gesture yet, and those of events belong to states
that require some. -/
theorem isMarked (ok : c.compile source element = .ok b) : b.pattern.IsMarked := by
  obtain ⟨route, -, -, same⟩ := compile_eq_ok ok
  rw [same]
  constructor
  · intro m member
    rw [Route.markers_eq, List.mem_map] at member
    obtain ⟨entry, -, rfl⟩ := member
    rfl
  · intro m member s token target
    have inRange := route.fits_pattern.inRange m member
    rw [target] at inRange
    have within : token < (route.pattern.tokens s).length := inRange.2
    intro none
    rw [none] at within
    cases within

end Compiled

end Compiler

/-! ## Coverage and the way to it -/

/-- Of a compiled gesture every covered state has a stay that meets its requirements, that the path
came to by a valid step or in an initial state, and after which all steps are valid, exactly if this
condition holds: when the stay that begins at the last break of the path meets the requirements of
its state, that state is initial, or a later stay in it meets them as well. -/
theorem coverage_entered_iff {R : Type} [Scalar R] {c : Compiler R} {source : String}
    {element : Bounds R} {b : Behavior R} (ok : c.compile source element = .ok b)
    (t : b.pattern.Trail) (previous : Option CheckResult) :
    (∀ s, (b.pattern.report t previous).isCovered s = true →
      ∃ start stop, b.pattern.Fulfils t.path t.kinds s start stop ∧
        b.pattern.MayEnter t.path s start) ↔
    ∀ i s stop, b.pattern.lastBreak? t.path = some i → IsStay t.path s i stop →
      (matchSpan (b.pattern.tokens s) (eventsBetween t.kinds i stop)).matched = true →
      b.pattern.isInitial s = true ∨ ∃ start' stop', i < start' ∧ IsStay t.path s start' stop' ∧
        (matchSpan (b.pattern.tokens s) (eventsBetween t.kinds start' stop')).matched = true :=
  Pattern.entered_iff_of_reflexive (Compiler.isValidStep_self ok) t previous

/-- There and back, a press, and on: the pattern of the text `C<->Cd->C`. -/
def detour : Pattern :=
  ⟨[⟨true, false, []⟩, ⟨false, false, [⟨.down, .once⟩]⟩, ⟨false, true, []⟩],
    [[true, true, false], [true, true, true], [false, false, true]], []⟩

theorem exists_compile_detour :
    ∃ b, (⟨⟨1, 1⟩, 1, .gaussian⟩ : Compiler EReal).compile "C<->Cd->C" ⟨0, 0, 1, 1⟩ = .ok b ∧
      b.pattern = detour := by
  obtain ⟨b, ok, same⟩ := Compiler.exists_compile_chain []
    [(.twoWay, [⟨⟨.down, .once⟩, false⟩]), (.oneWay, [])]
  exact ⟨b, ok, same.trans (by decide)⟩

/-- Straight through the gesture `C<->Cd->C`. -/
theorem coverage_entered_iff_straight :
    ∃ b, (⟨⟨1, 1⟩, 1, .gaussian⟩ : Compiler EReal).compile "C<->Cd->C" ⟨0, 0, 1, 1⟩ = .ok b ∧
      ∃ t : b.pattern.Trail, t.path = [0, 1, 2] ∧ t.kinds = [.move, .down, .up] ∧
        ((∀ s, (b.pattern.report t none).isCovered s = true →
          ∃ start stop, b.pattern.Fulfils t.path t.kinds s start stop ∧
            b.pattern.MayEnter t.path s start) ↔
        ∀ i s stop, b.pattern.lastBreak? t.path = some i → IsStay t.path s i stop →
          (matchSpan (b.pattern.tokens s) (eventsBetween t.kinds i stop)).matched = true →
          b.pattern.isInitial s = true ∨ ∃ start' stop', i < start' ∧
            IsStay t.path s start' stop' ∧
            (matchSpan (b.pattern.tokens s)
              (eventsBetween t.kinds start' stop')).matched = true) := by
  obtain ⟨b, ok, same⟩ := exists_compile_detour
  let t : b.pattern.Trail :=
    ⟨[0, 1, 2], [.move, .down, .up], by decide, by rw [same]; decide⟩
  exact ⟨b, ok, t, rfl, rfl, coverage_entered_iff ok t none⟩

/-- The gesture `C<->Cd->C` on a path that starts in its second state with a press, where no gesture
may start, goes back, and comes through to a release: the press alone covers the second state, and
the gesture is completed. -/
theorem detour_completed_unentered :
    ∃ b, (⟨⟨1, 1⟩, 1, .gaussian⟩ : Compiler EReal).compile "C<->Cd->C" ⟨0, 0, 1, 1⟩ = .ok b ∧
      ∃ r, b.pattern.check [1, 0, 1, 2] [.down, .move, .move, .up] none = some r ∧
        r.isCovered 1 = true ∧ r.hasJustCompleted = true ∧
        ¬ ∃ start stop, b.pattern.Fulfils [1, 0, 1, 2] [.down, .move, .move, .up] 1 start stop ∧
          b.pattern.MayEnter [1, 0, 1, 2] 1 start := by
  obtain ⟨b, ok, same⟩ := exists_compile_detour
  refine ⟨b, ok, ?_⟩
  rw [same]
  let t : detour.Trail := ⟨[1, 0, 1, 2], [.down, .move, .move, .up], by decide, by decide⟩
  refine ⟨detour.report t none, Pattern.check_trail t none, by cbv, by cbv, ?_⟩
  rintro ⟨start, stop, ⟨stay, matched, -⟩, enters⟩
  have occupied := stay.occupied
  have within : stop ≤ 4 := stay.within
  have places : ∀ i < 4, [1, 0, 1, 2][i]? = some 1 → i = 0 ∨ i = 2 := by decide
  have here := stay.holds start (Nat.le_refl _) occupied
  have last := stay.holds (stop - 1) (by omega) (by omega)
  rcases places start (by omega) here with rfl | rfl
  · rcases enters with initial | ⟨i, source, next, -⟩
    · cases initial
    · omega
  · obtain rfl : stop = 3 := by
      rcases places (stop - 1) (by omega) last with first | third <;> omega
    have unmet : (matchSpan (detour.tokens 1)
        (eventsBetween [.down, .move, .move, .up] 2 3)).matched = false := by cbv
    rw [unmet] at matched
    cases matched

/-! ## What is just reached -/

/-- However many trails of a compiled gesture are checked one after another, a marker that is just
reached is reached. And all that are ever just reached belong to the state in which the gesture is,
exactly if after every trail that ends with an event with a marker the next one comes by the state
of that event. -/
theorem justReached_present_iff {R : Type} [Scalar R] {c : Compiler R} {source : String}
    {element : Bounds R} {b : Behavior R} (ok : c.compile source element = .ok b)
    (trails : List b.pattern.Trail) (along : ∀ t ∈ trails, t.path.length ≤ t.kinds.length) :
    (∀ r ∈ b.pattern.reports none trails, ∀ m ∈ r.markers, m.justReached = true →
      m.reached = true) ∧
    ((∀ r ∈ b.pattern.reports none trails, ∀ m ∈ r.markers, m.justReached = true →
      m.target.owner = r.finalState) ↔ trails.IsChain Pattern.Trail.IsKeptBy) := by
  have marked := Compiler.isMarked ok
  have fresh : ∀ m ∈ b.pattern.markersAfter none, ¬ m.justReached = true := by
    intro m member now
    rw [marked.fresh m member] at now
    cases now
  have sound : ∀ m ∈ b.pattern.markersAfter none, m.justReached = true → m.reached = true :=
    fun m member now => absurd now (fresh m member)
  refine ⟨Pattern.reached_of_mem_reports marked along rfl sound, ?_⟩
  refine Pattern.owner_of_reports_iff marked along rfl sound ?_
  intro t _ m member s token _ now
  exact absurd now (fresh m member)

/-- A move and then a press, which has a marker: the pattern of the text `C->Cd$`. -/
def markedPress : Pattern :=
  ⟨[⟨true, false, []⟩, ⟨false, true, [⟨.down, .once⟩]⟩], [[true, true], [false, true]],
    [⟨0, .event 1 0, false, false⟩]⟩

theorem exists_compile_markedPress :
    ∃ b, (⟨⟨1, 1⟩, 1, .gaussian⟩ : Compiler EReal).compile "C->Cd$" ⟨0, 0, 1, 1⟩ = .ok b ∧
      b.pattern = markedPress := by
  obtain ⟨b, ok, same⟩ := Compiler.exists_compile_chain []
    [(.oneWay, [⟨⟨.down, .once⟩, true⟩])]
  exact ⟨b, ok, same.trans (by decide)⟩

/-- A sample more, and the same states as before: the gesture `C->Cd$` when the finger moves after
the press. -/
theorem justReached_present_iff_growing :
    ∃ b, (⟨⟨1, 1⟩, 1, .gaussian⟩ : Compiler EReal).compile "C->Cd$" ⟨0, 0, 1, 1⟩ = .ok b ∧
      ∃ t t' : b.pattern.Trail, t.path = [0, 1] ∧ t.kinds = [.move, .down] ∧
        t'.path = [0, 1, 1] ∧ t'.kinds = [.move, .down, .move] ∧
        (∀ r ∈ b.pattern.reports none [t, t'], ∀ m ∈ r.markers, m.justReached = true →
          m.reached = true) ∧
        ((∀ r ∈ b.pattern.reports none [t, t'], ∀ m ∈ r.markers, m.justReached = true →
          m.target.owner = r.finalState) ↔ [t, t'].IsChain Pattern.Trail.IsKeptBy) := by
  obtain ⟨b, ok, same⟩ := exists_compile_markedPress
  let t : b.pattern.Trail := ⟨[0, 1], [.move, .down], by decide, by rw [same]; decide⟩
  let t' : b.pattern.Trail := ⟨[0, 1, 1], [.move, .down, .move], by decide, by rw [same]; decide⟩
  have along : ∀ s ∈ [t, t'], s.path.length ≤ s.kinds.length := by
    intro s member
    rcases List.mem_pair.1 member with rfl | rfl <;> exact Nat.le_refl _
  exact ⟨b, ok, t, t', rfl, rfl, rfl, rfl, justReached_present_iff ok [t, t'] along⟩

/-- The gesture `C->Cd$` when a sample more makes another path likelier, on which the finger has
never left the first state: the marker of the press is just reached still. -/
theorem markedPress_justReached_elsewhere :
    ∃ b, (⟨⟨1, 1⟩, 1, .gaussian⟩ : Compiler EReal).compile "C->Cd$" ⟨0, 0, 1, 1⟩ = .ok b ∧
      ∃ r r', b.pattern.check [0, 1] [.move, .down] none = some r ∧
        b.pattern.check [0, 0, 0] [.move, .down, .move] (some r) = some r' ∧
        r'.finalState = 0 ∧ ∃ m ∈ r'.markers, m.target = .event 1 0 ∧ m.justReached = true := by
  obtain ⟨b, ok, same⟩ := exists_compile_markedPress
  refine ⟨b, ok, ?_⟩
  rw [same]
  let t : markedPress.Trail := ⟨[0, 1], [.move, .down], by decide, by decide⟩
  let t' : markedPress.Trail := ⟨[0, 0, 0], [.move, .down, .move], by decide, by decide⟩
  refine ⟨markedPress.report t none, markedPress.report t' (some (markedPress.report t none)),
    Pattern.check_trail t none, Pattern.check_trail t' _, by cbv, ⟨0, .event 1 0, true, true⟩,
    ?_, rfl, rfl⟩
  cbv
  exact List.mem_cons_self

end TouchIntent
