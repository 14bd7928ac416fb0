import Mathlib
import TouchIntent.Proofs.Gesture.Compiled
import TouchIntent.Proofs.Pattern.Demands

/-!
# Requirements of compiled gestures

Any list of requirements can be written at a stop: the letters of its events, each with the sign for
how often it has to happen, and with the sign of a marker where one is wanted. And any chain of such
stops can be written. So the lists that cannot be met can be written as well, and the gesture
compiles, but its state is never covered. All other states of compiled gestures can be.
-/

namespace TouchIntent

open Scalar

/-- The letter that requires an event in a gesture text. -/
def EventKind.letter : EventKind → Char
  | down => 'd'
  | move => 'm'
  | up => 'u'

/-- A requirement as it is written in a gesture text. -/
def EventToken.text (t : EventToken) : List Char := t.kind.letter :: t.times.sign.toList

/-- An event of a stop as it is written in a gesture text. -/
def RouteEvent.text (e : RouteEvent) : List Char :=
  e.token.text ++ if e.hasMarker then ['$'] else []

/-- A stop at the element, with events, as it is written in a gesture text. -/
def stopText (events : List RouteEvent) : List Char := 'C' :: events.flatMap RouteEvent.text

/-- Stops at the element, with events, that are joined by arrows, as they are written in a gesture
text. -/
def chainText (first : List RouteEvent) : List (Arrow × List RouteEvent) → List Char
  | [] => stopText first
  | (arrow, events) :: rest => stopText first ++ (arrow.text ++ chainText events rest)

section Reading

variable {R : Type} [Scalar R] {density : R} {missing atEnd : LocatedFault} {element : Bounds R}
  {d : Draft R}

theorem RouteToken.scan_letter (kind : EventKind) (offset : Nat) (rest : List Char) :
    ∃ offset', (scan offset (kind.letter :: rest) : List (PlacedToken R)) =
      ⟨offset, .event kind⟩ :: scan offset' rest := by
  cases kind <;> exact ⟨_, scan_plain (by decide) (by decide) (by decide)⟩

theorem RouteToken.scan_sign (times : Repeat) (offset : Nat) (rest : List Char) :
    ∃ offset', (scan offset (times.sign.toList ++ rest) : List (PlacedToken R)) =
      if times = .once then scan offset' rest else ⟨offset, .times times⟩ :: scan offset' rest := by
  cases times with
  | once => exact ⟨offset, rfl⟩
  | oneOrMore => exact ⟨_, scan_plain (by decide) (by decide) (by decide)⟩
  | zeroOrMore => exact ⟨_, scan_plain (by decide) (by decide) (by decide)⟩

variable (density missing atEnd element)

/-- A requirement that is written at a stop is the latest one of its draft. -/
theorem Route.readFrom_text (begun : d.start.isSome = true) (t : EventToken) (offset : Nat)
    (rest : List Char) :
    ∃ offset', readFrom density missing atEnd element d (RouteToken.scan offset (t.text ++ rest)) =
      readFrom density missing atEnd element
        { d with events := ⟨t, false⟩ :: d.events, afterEvent := true }
        (RouteToken.scan offset' rest) := by
  obtain ⟨kind, times⟩ := t
  obtain ⟨first, started⟩ := Option.isSome_iff_exists.1 begun
  obtain ⟨middle, letter⟩ := RouteToken.scan_letter (R := R) kind offset (times.sign.toList ++ rest)
  obtain ⟨last, sign⟩ := RouteToken.scan_sign (R := R) times middle rest
  refine ⟨last, ?_⟩
  rw [EventToken.text, List.cons_append, letter, sign, readFrom]
  cases times <;>
    simp [Draft.add, Draft.begin, started, readFrom, bind, Except.bind]

/-- An event that is written at a stop is the latest one of its draft, with its marker. -/
theorem Route.readFrom_event (begun : d.start.isSome = true) (e : RouteEvent) (offset : Nat)
    (rest : List Char) :
    ∃ offset' afterEvent,
      readFrom density missing atEnd element d (RouteToken.scan offset (e.text ++ rest)) =
        readFrom density missing atEnd element { d with events := e :: d.events, afterEvent }
          (RouteToken.scan offset' rest) := by
  obtain ⟨token, hasMarker⟩ := e
  obtain ⟨first, started⟩ := Option.isSome_iff_exists.1 begun
  obtain ⟨offset', written⟩ := readFrom_text density missing atEnd element begun token offset
    ((if hasMarker then ['$'] else []) ++ rest)
  rw [RouteEvent.text, List.append_assoc, written]
  cases hasMarker with
  | false => exact ⟨offset', true, rfl⟩
  | true =>
    have sign : (RouteToken.scan offset' ('$' :: rest) : List (PlacedToken R)) =
        ⟨offset', .marker⟩ :: RouteToken.scan (offset' + '$'.utf8Size) rest :=
      RouteToken.scan_plain (by decide) (by decide) (by decide)
    refine ⟨offset' + '$'.utf8Size, false, ?_⟩
    rw [if_pos rfl, List.singleton_append, sign, readFrom]
    simp [Draft.add, Draft.begin, started, bind, Except.bind]

/-- All events that are written at a stop are in its draft, the latest first. -/
theorem Route.readFrom_events (begun : d.start.isSome = true) (events : List RouteEvent)
    (offset : Nat) :
    ∃ afterEvent, readFrom density missing atEnd element d
        (RouteToken.scan offset (events.flatMap RouteEvent.text)) =
      readFrom density missing atEnd element
        { d with events := events.reverse ++ d.events, afterEvent } [] := by
  induction events generalizing d offset with
  | nil => exact ⟨d.afterEvent, by simp⟩
  | cons e later ih =>
    obtain ⟨offset', marked, here⟩ := readFrom_event density missing atEnd element begun e offset
      (later.flatMap RouteEvent.text)
    obtain ⟨afterEvent, there⟩ := ih
      (d := { d with events := e :: d.events, afterEvent := marked }) begun offset'
    refine ⟨afterEvent, ?_⟩
    rw [List.flatMap_cons, here, there]
    simp

variable {density}

/-- A stop at the element, with events. -/
def Stop.centred (element : Bounds R) (events : List RouteEvent) : Stop R :=
  ⟨Region.ofBounds element, false, false, false, events⟩

/-- The route of stops at the element, with events, that are joined by arrows. -/
def Route.centred (element : Bounds R) (first : List RouteEvent)
    (rest : List (Arrow × List RouteEvent)) : Route R :=
  ⟨Stop.centred element first, rest.map fun (arrow, events) => (arrow, Stop.centred element events),
    element⟩

variable {element}

/-- The route of a single stop at the element, with events. -/
theorem Route.read_stopText (wide : ¬ element.width ≤ zero) (high : ¬ element.height ≤ zero)
    (events : List RouteEvent) :
    Route.read density element 0 (stopText events) = .ok (Route.centred element events []) := by
  have centre : (RouteToken.scan 0 (stopText events) : List (PlacedToken R)) =
      ⟨0, .heading .centre⟩ :: RouteToken.scan 1 (events.flatMap RouteEvent.text) :=
    RouteToken.scan_plain (by decide) (by decide) (by decide)
  rw [read, centre]
  generalize LocatedFault.mk 0 .noStates = missing
  generalize LocatedFault.mk (0 + Text.utf8Size (stopText events)) .arrowWithoutTarget = atEnd
  obtain ⟨afterEvent, texts⟩ := readFrom_events density missing atEnd element
    (d := { headings := [.centre], start := some 1 }) rfl events 1
  have begun : readFrom density missing atEnd element {}
      (⟨0, .heading .centre⟩ :: RouteToken.scan 1 (events.flatMap RouteEvent.text)) =
      readFrom density missing atEnd element { headings := [.centre], start := some 1 }
        (RouteToken.scan 1 (events.flatMap RouteEvent.text)) := by
    rw [readFrom]
    rfl
  rw [begun, texts]
  simp [readFrom, Draft.finish, Region.place, Region.move, bind, Except.bind, Region.ofBounds, wide,
    high]
  rfl

/-- The route of a chain of stops is read off its text. -/
theorem Route.read_chainText (wide : ¬ element.width ≤ zero) (high : ¬ element.height ≤ zero)
    (first : List RouteEvent) (rest : List (Arrow × List RouteEvent)) :
    Route.read density element 0 (chainText first rest) =
      .ok (Route.centred element first rest) := by
  induction rest generalizing first with
  | nil => exact read_stopText wide high first
  | cons step rest ih =>
    obtain ⟨arrow, events⟩ := step
    have here : Route.read density element 0 (stopText first) =
        .ok (Route.centred element first []) := read_stopText wide high first
    exact (read_append_arrow (allSound_of_read here) arrow (chainText events rest) 0 0 0).2
      ⟨_, _, here, ih events, rfl⟩

end Reading

/-- A gesture text for a single stop at the element, with requirements. -/
def demandsSource (tokens : List EventToken) : String :=
  String.ofList ('C' :: tokens.flatMap EventToken.text)

theorem colon_notMem_stopText (events : List RouteEvent) : ':' ∉ stopText events := by
  have letters : ∀ e : RouteEvent, ':' ∉ e.text := by
    rintro ⟨⟨kind, times⟩, hasMarker⟩
    cases kind <;> cases times <;> cases hasMarker <;> decide
  rw [stopText, List.mem_cons, List.mem_flatMap]
  rintro (centre | ⟨e, -, inside⟩)
  · exact absurd centre (by decide)
  · exact letters e inside

theorem colon_notMem_chainText (first : List RouteEvent) (rest : List (Arrow × List RouteEvent)) :
    ':' ∉ chainText first rest := by
  induction rest generalizing first with
  | nil => exact colon_notMem_stopText first
  | cons step rest ih =>
    obtain ⟨arrow, events⟩ := step
    have joint : ':' ∉ arrow.text := by cases arrow <;> decide
    rw [chainText, List.mem_append, List.mem_append, not_or, not_or]
    exact ⟨colon_notMem_stopText first, joint, ih events⟩

namespace Compiler

/-- Any chain of stops, with any events and markers, is that of some compiled gesture. -/
theorem exists_compile_chain (first : List RouteEvent) (rest : List (Arrow × List RouteEvent)) :
    ∃ b, (⟨⟨1, 1⟩, 1, .gaussian⟩ : Compiler EReal).compile (String.ofList (chainText first rest))
        ⟨0, 0, 1, 1⟩ = .ok b ∧
      b.pattern = (Route.centred (⟨0, 0, 1, 1⟩ : Bounds EReal) first rest).pattern := by
  obtain ⟨c, unit⟩ : ∃ c, c = (⟨⟨1, 1⟩, 1, .gaussian⟩ : Compiler EReal) := ⟨_, rfl⟩
  obtain ⟨route, made⟩ : ∃ route : Route EReal,
    route = Route.centred (⟨0, 0, 1, 1⟩ : Bounds EReal) first rest := ⟨_, rfl⟩
  have area : ¬ (1 : EReal) ≤ zero := by simp
  have positive : (zero : EReal) < 1 := by simp
  have read : GestureText.route c.density ⟨0, 0, 1, 1⟩
      (String.ofList (chainText first rest)).toList = .ok route := by
    rw [String.toList_ofList, GestureText.route_of_plain (colon_notMem_chainText first rest), made]
    exact Route.read_chainText area area first rest
  have dense : ∀ stop ∈ route.stops, (stop.region.gaussian c.surface).hasDensity = true := by
    intro stop member
    have region : stop.region = Region.ofBounds ⟨0, 0, 1, 1⟩ := by
      rw [made, Route.stops, List.mem_cons] at member
      rcases member with rfl | member
      · rfl
      · simp only [Route.centred, List.map_map, List.mem_map] at member
        obtain ⟨step, -, rfl⟩ := member
        rfl
    rw [region, unit]
    exact hasDensity_unit
  rw [← unit]
  obtain ⟨b, ok⟩ := exists_compile (c := c) (by rw [unit]; exact ⟨positive, positive⟩)
    ⟨positive, positive⟩ read dense
  obtain ⟨route', read', -, same⟩ := compile_eq_ok ok
  obtain rfl : route = route' := Except.ok.inj (read.symm.trans read')
  exact ⟨b, ok, same.trans (congrArg Route.pattern made)⟩

/-- Any list of requirements is that of the only state of some compiled gesture. -/
theorem exists_compile_demands (tokens : List EventToken) :
    ∃ b, (⟨⟨1, 1⟩, 1, .gaussian⟩ : Compiler EReal).compile (demandsSource tokens) ⟨0, 0, 1, 1⟩ =
        .ok b ∧ b.pattern.size = 1 ∧ b.pattern.tokens 0 = tokens := by
  have written : demandsSource tokens =
      String.ofList (chainText (tokens.map fun t => ⟨t, false⟩) []) := by
    simp [demandsSource, chainText, stopText, List.flatMap_map, RouteEvent.text]
  obtain ⟨b, ok, same⟩ := exists_compile_chain (tokens.map fun t => ⟨t, false⟩) []
  refine ⟨b, written ▸ ok, ?_, ?_⟩
  · rw [same, Route.size_pattern]
    rfl
  · rw [same, Pattern.tokens, Route.getElem?_pattern_states]
    simp [Route.centred, Stop.centred, Route.stops, Function.comp_def]

/-- A compiled gesture may stay in each of its states. -/
theorem isValidStep_self {R : Type} [Scalar R] {c : Compiler R} {source : String}
    {element : Bounds R} {b : Behavior R} (ok : c.compile source element = .ok b) :
    ∀ s < b.pattern.size, b.pattern.isValidStep s s = true := by
  obtain ⟨route, -, -, same⟩ := compile_eq_ok ok
  intro s inRange
  rw [same] at inRange ⊢
  rw [Route.size_pattern] at inRange
  exact (route.isValidStep_pattern s s).2 ⟨inRange, inRange, .inl rfl⟩

/-- A state of a compiled gesture can be covered exactly if its requirements are not obstructed. -/
theorem exists_isCovered_iff {R : Type} [Scalar R] {c : Compiler R} {source : String}
    {element : Bounds R} {b : Behavior R} (ok : c.compile source element = .ok b) {s : Nat}
    (inRange : s < b.pattern.size) :
    (∃ path kinds previous r, b.pattern.check path kinds previous = some r ∧
      r.isCovered s = true) ↔ ¬ Obstructed (b.pattern.tokens s) :=
  Pattern.exists_isCovered_iff inRange (isValidStep_self ok s inRange)

end Compiler

/-- Every list of requirements can be written in a gesture text. Some span meets it, and a state of
a compiled gesture that has it can be covered, exactly if no repeated event is followed, at once or
after moves that need not happen, by a required event of its own kind or a required move. -/
theorem requirements_met_iff (tokens : List EventToken) :
    (∃ (c : Compiler EReal) (source : String) (element : Bounds EReal) (b : Behavior EReal)
        (s : Nat), c.compile source element = .ok b ∧ s < b.pattern.size ∧
        b.pattern.tokens s = tokens) ∧
      ((∃ span, span ≠ [] ∧ (matchSpan tokens span).matched = true) ↔ ¬ Obstructed tokens) ∧
      ∀ {R : Type} [Scalar R] (c : Compiler R) (source : String) (element : Bounds R)
        (b : Behavior R) (s : Nat), c.compile source element = .ok b → s < b.pattern.size →
        b.pattern.tokens s = tokens →
          ((∃ path kinds previous r, b.pattern.check path kinds previous = some r ∧
            r.isCovered s = true) ↔ ¬ Obstructed tokens) := by
  refine ⟨?_, exists_matched_iff tokens, ?_⟩
  · obtain ⟨b, ok, single, same⟩ := Compiler.exists_compile_demands tokens
    exact ⟨_, _, _, b, 0, ok, by omega, same⟩
  · intro R _ c source element b s ok inRange same
    rw [Compiler.exists_isCovered_iff ok inRange, same]

/-- The text `Cdm*u`. -/
theorem requirements_met_iff_drag :
    let c : Compiler EReal := ⟨⟨1, 1⟩, 1, .gaussian⟩
    let tokens : List EventToken := [⟨.down, .once⟩, ⟨.move, .zeroOrMore⟩, ⟨.up, .once⟩]
    ∃ b, c.compile "Cdm*u" ⟨0, 0, 1, 1⟩ = .ok b ∧ 0 < b.pattern.size ∧
      b.pattern.tokens 0 = tokens ∧
      ((∃ path kinds previous r, b.pattern.check path kinds previous = some r ∧
        r.isCovered 0 = true) ↔ ¬ Obstructed tokens) := by
  intro c tokens
  have written : demandsSource tokens = "Cdm*u" := by decide
  obtain ⟨b, ok, single, same⟩ := Compiler.exists_compile_demands tokens
  rw [written] at ok
  have inRange : 0 < b.pattern.size := by omega
  exact ⟨b, ok, inRange, same,
    (requirements_met_iff tokens).2.2 c "Cdm*u" ⟨0, 0, 1, 1⟩ b 0 ok inRange same⟩

/-- A press or more and then one press, the text `Cd+d`: no span meets these requirements, and
whatever path a gesture takes, and whatever happens on it, its state is not covered. -/
theorem pressesThenPress_never_covered :
    let c : Compiler EReal := ⟨⟨1, 1⟩, 1, .gaussian⟩
    let tokens : List EventToken := [⟨.down, .oneOrMore⟩, ⟨.down, .once⟩]
    (¬ ∃ span, span ≠ [] ∧ (matchSpan tokens span).matched = true) ∧
      ∃ b, c.compile "Cd+d" ⟨0, 0, 1, 1⟩ = .ok b ∧ b.pattern.tokens 0 = tokens ∧
        ∀ path kinds previous r, b.pattern.check path kinds previous = some r →
          r.isCovered 0 = false := by
  intro c tokens
  have obstructed : Obstructed tokens := by decide
  have written : demandsSource tokens = "Cd+d" := by decide
  obtain ⟨b, ok, single, same⟩ := Compiler.exists_compile_demands tokens
  rw [written] at ok
  refine ⟨fun met => (exists_matched_iff tokens).1 met obstructed, b, ok, same, ?_⟩
  intro path kinds previous r checked
  by_contra covered
  refine (Compiler.exists_isCovered_iff ok (by omega)).1
    ⟨path, kinds, previous, r, checked, Bool.eq_true_of_not_eq_false covered⟩ ?_
  rw [same]
  exact obstructed

/-- A press that may repeat, moves that need not happen, and another press; a release between the
presses keeps them apart. -/
example : Obstructed [⟨.down, .zeroOrMore⟩, ⟨.move, .zeroOrMore⟩, ⟨.down, .once⟩] ∧
    ¬ Obstructed [⟨.down, .zeroOrMore⟩, ⟨.up, .zeroOrMore⟩, ⟨.down, .once⟩] := by
  decide

end TouchIntent
