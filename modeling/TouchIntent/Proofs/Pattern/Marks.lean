import TouchIntent.Proofs.Pattern.Stays

/-!
# Markers that are just reached

A marker of a state is looked at in every check; a marker of an event only when a stay in its state
is over, at the latest when the path ends in it. So a marker of an event that a path does not come
by keeps what the check before noted, and is just reached still, wherever the gesture is now. That
happens exactly if a path ends at such an event and the next one, decoded anew, leaves out its
state.
-/

namespace TouchIntent

/-- The state that a target belongs to. -/
def MarkerTarget.owner : MarkerTarget → Nat
  | state s => s
  | event s _ => s

/-- An event has happened for the requirement at the given place. -/
def Tally.anyAt (tallies : List Tally) (token : Nat) : Bool := tallies[token]?.any (0 < ·.count)

/-- The marker after a stay in the given state, with what its events were tallied for. -/
def Marker.afterStay (state : Nat) (tallies : List Tally) (isLast : Bool) (m : Marker) : Marker :=
  match m.target with
  | .event markerState token =>
    if markerState = state then
      { m with
        reached := Tally.anyAt tallies token
        justReached := isLast && Tally.anyAt tallies token }
    else m
  | .state _ => m

namespace Marker

variable {state : Nat} {tallies : List Tally} {isLast : Bool} {m : Marker} {markers : List Marker}

theorem markEvents_eq (some : tallies ≠ []) :
    Walk.markEvents state tallies isLast markers =
      markers.map (afterStay state tallies isLast) := by
  rw [Walk.markEvents, if_neg (by simpa using some)]
  rfl

@[simp] theorem afterStay_target : (afterStay state tallies isLast m).target = m.target := by
  rw [afterStay]
  split
  · split <;> rfl
  · rfl

/-- A marker of an event of one state is of no event of another. -/
theorem target_ne_event {s token : Nat} (target : m.target = .event s token) (other : s ≠ state)
    (token' : Nat) : m.target ≠ .event state token' := by
  intro same
  rw [target] at same
  injection same with here
  exact other here

theorem afterStay_elsewhere (elsewhere : ∀ token, m.target ≠ .event state token) :
    afterStay state tallies isLast m = m := by
  rw [afterStay]
  split
  · next markerState token target =>
    by_cases here : markerState = state
    · exact absurd (here ▸ target) (elsewhere token)
    · rw [if_neg here]
  · rfl

theorem afterStay_here {token : Nat} (here : m.target = .event state token) :
    afterStay state tallies isLast m = { m with
      reached := Tally.anyAt tallies token
      justReached := isLast && Tally.anyAt tallies token } := by
  rw [afterStay, here]
  exact if_pos rfl

/-- A stay leaves the markers of states and of other states' events as they are. -/
theorem mem_markEvents_elsewhere (elsewhere : ∀ token, m.target ≠ .event state token) :
    m ∈ Walk.markEvents state tallies isLast markers ↔ m ∈ markers := by
  by_cases none : tallies = []
  · rw [Walk.markEvents, if_pos (by simpa using none)]
  · rw [markEvents_eq none, List.mem_map]
    constructor
    · rintro ⟨m', member, rfl⟩
      rw [afterStay_target] at elsewhere
      rwa [afterStay_elsewhere elsewhere]
    · intro member
      exact ⟨m, member, afterStay_elsewhere elsewhere⟩

/-- A stay notes in the markers of its own events what has happened. -/
theorem of_mem_markEvents (some : tallies ≠ []) {token : Nat} (here : m.target = .event state token)
    (member : m ∈ Walk.markEvents state tallies isLast markers) :
    m.reached = Tally.anyAt tallies token ∧
      m.justReached = (isLast && Tally.anyAt tallies token) := by
  rw [markEvents_eq some, List.mem_map] at member
  obtain ⟨m', -, rfl⟩ := member
  rw [afterStay_target] at here
  rw [afterStay_here here]
  exact ⟨rfl, rfl⟩

/-- Markers that are the same, apart from what is noted in them, are attached to the same. -/
theorem exists_of_identities {others : List Marker}
    (known : markers.map identity = others.map identity) (member : m ∈ markers) :
    ∃ m' ∈ others, m'.target = m.target := by
  have listed : m.identity ∈ markers.map identity := List.mem_map_of_mem member
  rw [known, List.mem_map] at listed
  obtain ⟨m', member', same⟩ := listed
  exact ⟨m', member', congrArg Prod.snd same⟩

end Marker

/-! ## What is tallied -/

theorem tallies_matchFrom_ne_nil (current : Tally) (later : List EventToken)
    (span : List EventKind) : (matchFrom current later span).tallies ≠ [] := by
  fun_induction matchFrom current later span with
  | case1 current later => exact List.cons_ne_nil _ _
  | case2 current later event rest jitter ih => exact ih
  | case3 current rest taken once _ => exact List.cons_ne_nil _ _
  | case4 current rest taken once next others _ ih => exact List.cons_ne_nil _ _
  | case5 current later rest taken repeated _ ih => exact ih
  | case6 current later event rest jitter differs unmet => exact List.cons_ne_nil _ _
  | case7 current event rest jitter differs met => exact List.cons_ne_nil _ _
  | case8 current event rest jitter differs met next others ih => exact List.cons_ne_nil _ _

/-- Events are tallied wherever some are required and some happen. -/
theorem tallies_matchSpan_ne_nil {tokens : List EventToken} {span : List EventKind}
    (demanding : tokens ≠ []) (some : span ≠ []) : (matchSpan tokens span).tallies ≠ [] := by
  cases tokens with
  | nil => exact absurd rfl demanding
  | cons first later =>
    cases span with
    | nil => exact absurd rfl some
    | cons e rest => exact tallies_matchFrom_ne_nil _ _ _

theorem eventsBetween_ne_nil {kinds : List EventKind} {start stop : Nat} (before : start < stop)
    (along : stop ≤ kinds.length) : eventsBetween kinds start stop ≠ [] := by
  intro none
  have length := congrArg List.length none
  simp only [eventsBetween, List.length_drop, List.length_take, List.length_nil] at length
  omega

/-! ## Along the walk -/

/-- Nothing is noted in the markers of the pattern yet, and those of events belong to states that
require some. -/
structure Pattern.IsMarked (p : Pattern) : Prop where
  fresh : ∀ m ∈ p.markers, m.justReached = false
  demanding : ∀ m ∈ p.markers, ∀ s token, m.target = .event s token → p.tokens s ≠ []

namespace Walk

variable {p : Pattern} {kinds : List EventKind} {seen : List Nat} {carried : List Marker}
  {w : Walk} {next : Nat}

/-- What the markers of the walk have to do with those that the check went on from. -/
structure Marks (p : Pattern) (carried : List Marker) (seen : List Nat) (w : Walk) : Prop where
  known : w.markers.map Marker.identity = p.markers.map Marker.identity
  /-- The markers of events in states that the path has not come by are as they were. -/
  spared : ∀ m s token, m.target = .event s token → s ∉ seen → (m ∈ w.markers ↔ m ∈ carried)
  /-- No event of a state that the path has left is just reached. -/
  passed : ∀ m ∈ w.markers, ∀ s token, m.target = .event s token → m.justReached = true →
    s = w.current ∨ s ∉ seen
  reached : ∀ m ∈ w.markers, m.justReached = true → m.reached = true

@[simp] theorem noteCovered_markers : w.noteCovered.markers = w.markers := by
  rw [noteCovered]
  split <;> rfl

theorem marks_enter {first : Nat}
    (known : carried.map Marker.identity = p.markers.map Marker.identity)
    (sound : ∀ m ∈ carried, m.justReached = true → m.reached = true) :
    Marks p carried [first] (enter p carried first) := by
  have same : (enter p carried first).markers = carried := (enter_spec p carried first).1
  have current : (enter p carried first).current = first := by
    rw [enter]
    split <;> rfl
  refine ⟨by rw [same, known], ?_, ?_, ?_⟩
  · intro m s token _ _
    rw [same]
  · intro m _ s token _ _
    rw [current, List.mem_singleton]
    exact Classical.em _
  · rw [same]
    exact sound

namespace Marks

/-- Only the markers of a walk and where it is matter. -/
theorem of_markers {w' : Walk} (marks : Marks p carried seen w) (markers : w'.markers = w.markers)
    (current : w'.current = w.current) : Marks p carried seen w' := by
  obtain ⟨known, spared, passed, reached⟩ := marks
  rw [← markers] at known spared passed reached
  rw [← current] at passed
  exact ⟨known, spared, passed, reached⟩

theorem known_closed (marks : Marks p carried seen w) {stop : Nat} {isLast : Bool} :
    (w.closeSpan p kinds stop isLast).markers.map Marker.identity =
      p.markers.map Marker.identity :=
  (keeps_closeSpan w stop isLast).markers.trans marks.known

/-- What closing the stay of the walk does to the markers. -/
theorem of_closed (marks : Marks p carried seen w) (marked : p.IsMarked)
    (stay : IsStay seen w.current w.spanStart seen.length) (along : seen.length ≤ kinds.length)
    {isLast : Bool} {m : Marker}
    (member : m ∈ (w.closeSpan p kinds seen.length isLast).markers) {token : Nat}
    (here : m.target = .event w.current token) :
    m.reached = Tally.anyAt (matchSpan (p.tokens w.current)
        (eventsBetween kinds w.spanStart seen.length)).tallies token ∧
      m.justReached = (isLast && Tally.anyAt (matchSpan (p.tokens w.current)
        (eventsBetween kinds w.spanStart seen.length)).tallies token) := by
  obtain ⟨m', member', same⟩ := Marker.exists_of_identities marks.known_closed member
  have demanding := marked.demanding m' member' w.current token (same.trans here)
  have some : eventsBetween kinds w.spanStart seen.length ≠ [] :=
    eventsBetween_ne_nil stay.occupied along
  exact Marker.of_mem_markEvents (tallies_matchSpan_ne_nil demanding some) here member

/-- Closing the stay of the walk changes no marker of another state. -/
theorem mem_closed_iff {isLast : Bool} {m : Marker} {stop : Nat}
    (elsewhere : ∀ token, m.target ≠ .event w.current token) :
    m ∈ (w.closeSpan p kinds stop isLast).markers ↔ m ∈ w.markers :=
  Marker.mem_markEvents_elsewhere elsewhere

/-- What is just reached is reached, also after a stay is closed. -/
theorem reached_closed (marks : Marks p carried seen w) (marked : p.IsMarked)
    (stay : IsStay seen w.current w.spanStart seen.length) (along : seen.length ≤ kinds.length)
    {isLast : Bool} : ∀ m ∈ (w.closeSpan p kinds seen.length isLast).markers,
      m.justReached = true → m.reached = true := by
  intro m member now
  by_cases here : ∃ token, m.target = .event w.current token
  · obtain ⟨token, here⟩ := here
    obtain ⟨reached, just⟩ := marks.of_closed marked stay along member here
    rw [just, Bool.and_eq_true] at now
    exact reached.trans now.2
  · have elsewhere := not_exists.1 here
    exact marks.reached m ((mem_closed_iff elsewhere).1 member) now

/-- After a stay is closed on the way, no event of a state that the path has come by is just
reached. -/
theorem passed_closed (marks : Marks p carried seen w) (marked : p.IsMarked)
    (stay : IsStay seen w.current w.spanStart seen.length) (along : seen.length ≤ kinds.length) :
    ∀ m ∈ (w.closeSpan p kinds seen.length false).markers, ∀ s token, m.target = .event s token →
      m.justReached = true → s ∉ seen := by
  intro m member s token target now
  by_cases here : s = w.current
  · rw [here] at target
    rw [(marks.of_closed marked stay along member target).2] at now
    cases now
  · have before := (mem_closed_iff (Marker.target_ne_event target here)).1 member
    exact (marks.passed m before s token target now).resolve_left here

/-- Closing the last stay finds an event just reached exactly if one happens in it that a marker is
attached to. -/
theorem ends_closed (marks : Marks p carried seen w) (marked : p.IsMarked)
    (stay : IsStay seen w.current w.spanStart seen.length) (along : seen.length ≤ kinds.length) :
    (∃ m ∈ (w.closeSpan p kinds seen.length true).markers, ∃ token,
      m.target = .event w.current token ∧ m.justReached = true) ↔
    ∃ token, (∃ m ∈ p.markers, m.target = .event w.current token) ∧
      Tally.anyAt (matchSpan (p.tokens w.current)
        (eventsBetween kinds w.spanStart seen.length)).tallies token = true := by
  have known : (w.closeSpan p kinds seen.length true).markers.map Marker.identity =
      p.markers.map Marker.identity := marks.known_closed
  constructor
  · rintro ⟨m, member, token, target, now⟩
    rw [(marks.of_closed marked stay along member target).2, Bool.true_and] at now
    obtain ⟨m', member', same⟩ := Marker.exists_of_identities known member
    exact ⟨token, ⟨m', member', same.trans target⟩, now⟩
  · rintro ⟨token, ⟨m, member, target⟩, happened⟩
    obtain ⟨m', member', same⟩ := Marker.exists_of_identities known.symm member
    refine ⟨m', member', token, same.trans target, ?_⟩
    rw [(marks.of_closed marked stay along member' (same.trans target)).2, Bool.true_and]
    exact happened

/-- What holds of the markers when the walk goes on; none of an event of a state that the path has
come by is just reached but for the state to which it goes on. -/
theorem leave (marks : Marks p carried seen w) (marked : p.IsMarked)
    (tells : Tells p kinds seen w) (along : seen.length ≤ kinds.length) :
    Marks p carried seen { w.leave p kinds seen.length next with current := next } := by
  by_cases stays : w.current = next
  · rw [leave_stay stays, ← stays]
    exact marks
  · rw [leave_elsewhere stays]
    refine ⟨marks.known_closed, ?_, ?_, marks.reached_closed marked tells.stay along⟩
    · intro m s token target new
      have other : s ≠ w.current := fun same => new (same ▸ List.mem_of_getLast? tells.current)
      exact (mem_closed_iff (Marker.target_ne_event target other)).trans
        (marks.spared m s token target new)
    · intro m member s token target now
      exact .inr (marks.passed_closed marked tells.stay along m member s token target now)

/-- What holds of the markers when the walk goes on, holds of the path as it goes on. -/
theorem concat (marks : Marks p carried seen w) (came : w.current = next) :
    Marks p carried (seen ++ [next]) w := by
  refine ⟨marks.known, ?_, ?_, marks.reached⟩
  · intro m s token target new
    exact marks.spared m s token target fun old => new (List.mem_append_left _ old)
  · intro m member s token target now
    by_cases here : s = next
    · exact .inl (here.trans came.symm)
    · rcases marks.passed m member s token target now with same | old
      · exact .inl same
      · refine .inr fun inside => ?_
        rcases List.mem_append.1 inside with before | last
        · exact old before
        · exact here (List.mem_singleton.1 last)

/-- What holds of the markers of the walk, holds one position further. -/
theorem arrive (marks : Marks p carried seen w) (marked : p.IsMarked)
    (tells : Tells p kinds seen w) (along : seen.length ≤ kinds.length) :
    Marks p carried (seen ++ [next]) (w.arrive p kinds seen.length next) := by
  have left : Marks p carried (seen ++ [next])
      { w.leave p kinds seen.length next with current := next } :=
    (marks.leave marked tells along).concat rfl
  by_cases valid : p.isValidStep w.current next = true
  · rw [arrive_valid valid]
    have same : (w.leave p kinds seen.length next).noteCovered.markers =
        (w.leave p kinds seen.length next).markers := noteCovered_markers
    exact left.of_markers same rfl
  · rw [arrive_invalid valid]
    exact left.of_markers rfl rfl

theorem step (marks : Marks p carried seen w) (marked : p.IsMarked)
    (tells : Tells p kinds seen w) (along : seen.length ≤ kinds.length) :
    Marks p carried (seen ++ [next]) (w.step p kinds seen.length next) := by
  have tells : Tells p kinds seen { w with visits := w.visits.modify next (· + 1) } :=
    ⟨tells.current, tells.stay, tells.covers, tells.size⟩
  have marks : Marks p carried seen { w with visits := w.visits.modify next (· + 1) } :=
    marks.of_markers rfl rfl
  rw [step_eq_arrive]
  exact marks.arrive marked tells along

theorem steps (marks : Marks p carried seen w) (marked : p.IsMarked)
    (tells : Tells p kinds seen w) {rest : List Nat} (inside : ∀ s ∈ seen ++ rest, s < p.size)
    (along : (seen ++ rest).length ≤ kinds.length) :
    Marks p carried (seen ++ rest) (w.steps p kinds seen.length rest) := by
  induction rest generalizing seen w with
  | nil =>
    rw [List.append_nil]
    exact marks
  | cons next rest ih =>
    have before : seen.length ≤ kinds.length := by
      rw [List.length_append] at along
      omega
    have further : Marks p carried (seen ++ [next]) (w.step p kinds seen.length next) :=
      marks.step marked tells before
    have tells : Tells p kinds (seen ++ [next]) (w.step p kinds seen.length next) :=
      tells.step fun s member => inside s (List.mem_append_left _ member)
    have whole : seen ++ next :: rest = seen ++ [next] ++ rest := by simp
    rw [whole] at inside along ⊢
    have after := ih further tells inside along
    rwa [List.length_append, List.length_singleton] at after

end Marks

end Walk

/-! ## Along checks -/

namespace Pattern

variable {p : Pattern}

section States

variable {visits : List Nat} {finalState : Nat} {previous : Option CheckResult}
  {markers : List Marker} {m : Marker}

/-- The end of a path changes no marker of an event. -/
theorem mem_markStates_event {s token : Nat} (target : m.target = .event s token) :
    m ∈ markStates visits finalState previous markers ↔ m ∈ markers := by
  rw [markStates, List.mem_map]
  constructor
  · rintro ⟨m', member, same⟩
    split at same
    · next s' target' =>
      rw [← same, target'] at target
      cases target
    · exact same ▸ member
  · intro member
    refine ⟨m, member, ?_⟩
    rw [target]

/-- A marker of a state that is just reached is reached, and the path ends in its state. -/
theorem of_mem_markStates_state {s : Nat} (target : m.target = .state s)
    (member : m ∈ markStates visits finalState previous markers) (now : m.justReached = true) :
    m.reached = true ∧ s = finalState := by
  obtain ⟨m', -, same⟩ := List.mem_map.1 member
  split at same
  · next state target' =>
    subst same
    obtain rfl : state = s := by
      rw [target'] at target
      injection target
    simp only [Bool.and_eq_true, beq_iff_eq] at now
    exact ⟨now.1.2, now.1.1⟩
  · next s' token target' =>
    rw [← same, target'] at target
    cases target

end States

/-- The trail ends in a stay in which an event happens that a marker is attached to. -/
def Trail.EndsAtMark (t : p.Trail) : Prop :=
  ∃ s start token, IsStay t.path s start t.path.length ∧
    (∃ m ∈ p.markers, m.target = .event s token) ∧
    Tally.anyAt (matchSpan (p.tokens s) (eventsBetween t.kinds start t.path.length)).tallies token =
      true

/-- If the trail ends at a mark, the next one comes by the state in which it ends. -/
def Trail.IsKeptBy (t t' : p.Trail) : Prop :=
  t.EndsAtMark → ∀ s, t.path.getLast? = some s → s ∈ t'.path

/-- The markers of a report, given those that the check went on from. -/
structure MarksOf (t : p.Trail) (carried : List Marker) (r : CheckResult) : Prop where
  reached : ∀ m ∈ r.markers, m.justReached = true → m.reached = true
  spared : ∀ m s token, m.target = .event s token → s ∉ t.path → (m ∈ r.markers ↔ m ∈ carried)
  passed : ∀ m ∈ r.markers, m.justReached = true →
    m.target.owner = r.finalState ∨ ∃ s token, m.target = .event s token ∧ s ∉ t.path
  ends : (∃ m ∈ r.markers, ∃ token, m.target = .event r.finalState token ∧ m.justReached = true) ↔
    t.EndsAtMark

namespace MarksOf

variable {t t' : p.Trail} {carried : List Marker} {r r' : CheckResult}

/-- If the trail comes by the states of all events that are just reached before, all that is just
reached after it belongs to the state in which it ends. -/
theorem present (of : MarksOf t carried r) (kept : ∀ m ∈ carried, ∀ s token,
    m.target = .event s token → m.justReached = true → s ∈ t.path) :
    ∀ m ∈ r.markers, m.justReached = true → m.target.owner = r.finalState := by
  intro m member now
  rcases of.passed m member now with here | ⟨s, token, target, away⟩
  · exact here
  · have before := (of.spared m s token target away).1 member
    exact absurd (kept m before s token target now) away

/-- A trail that is kept by the next one leaves no event just reached that the next one does not
come by. -/
theorem kept (of : MarksOf t carried r) (last : t.path.getLast? = some r.finalState)
    (present : ∀ m ∈ r.markers, m.justReached = true → m.target.owner = r.finalState)
    (keeps : t.IsKeptBy t') : ∀ m ∈ r.markers, ∀ s token, m.target = .event s token →
      m.justReached = true → s ∈ t'.path := by
  intro m member s token target now
  obtain rfl : s = r.finalState := by
    have here := present m member now
    rw [target] at here
    exact here
  exact keeps (of.ends.1 ⟨m, member, token, target, now⟩) _ last

/-- If a trail that ends at a mark is not kept by the next one, its event is just reached still when
the gesture is elsewhere. -/
theorem lost (of : MarksOf t carried r) (of' : MarksOf t' r.markers r')
    (last : t.path.getLast? = some r.finalState)
    (last' : t'.path.getLast? = some r'.finalState) (lost : ¬ t.IsKeptBy t') :
    ∃ m ∈ r'.markers, m.justReached = true ∧ m.target.owner ≠ r'.finalState := by
  simp only [Trail.IsKeptBy, not_forall] at lost
  obtain ⟨ends, s, ended, away⟩ := lost
  obtain rfl : r.finalState = s := Option.some.inj (last.symm.trans ended)
  obtain ⟨m, member, token, target, now⟩ := of.ends.2 ends
  refine ⟨m, (of'.spared m _ token target away).2 member, now, ?_⟩
  rw [target]
  intro here
  have same : r.finalState = r'.finalState := here
  apply away
  rw [same]
  exact List.mem_of_getLast? last'

end MarksOf

section Report

variable {t : p.Trail} {previous : Option CheckResult}

/-- The walk along a trail, before its last stay is closed, and its markers. -/
theorem walk?_marks (marked : p.IsMarked) (along : t.path.length ≤ t.kinds.length)
    (known : (p.markersAfter previous).map Marker.identity = p.markers.map Marker.identity)
    (sound : ∀ m ∈ p.markersAfter previous, m.justReached = true → m.reached = true) :
    ∃ w, Walk.Tells p t.kinds t.path w ∧ Walk.Marks p (p.markersAfter previous) t.path w ∧
      p.walk? t.path t.kinds previous =
        some (w.closeSpan p t.kinds t.path.length true).noteCovered := by
  obtain ⟨path, kinds, nonempty, inRange⟩ := t
  cases path with
  | nil => exact absurd rfl nonempty
  | cons first rest =>
    have tells : Walk.Tells p kinds [first] (Walk.enter p (p.markersAfter previous) first) :=
      Walk.tells_enter _
    exact ⟨_, tells.steps inRange,
      (Walk.marks_enter known sound).steps marked tells inRange along, rfl⟩

/-- The markers of every report. -/
theorem marksOf_report (marked : p.IsMarked) (along : t.path.length ≤ t.kinds.length)
    (known : (p.markersAfter previous).map Marker.identity = p.markers.map Marker.identity)
    (sound : ∀ m ∈ p.markersAfter previous, m.justReached = true → m.reached = true) :
    MarksOf t (p.markersAfter previous) (p.report t previous) := by
  obtain ⟨r, reported⟩ : ∃ r, r = p.report t previous := ⟨_, rfl⟩
  obtain ⟨w', walked', read, markers⟩ := report_isReadOff t previous
  obtain ⟨w, tells, marks, walked⟩ := walk?_marks marked along known sound
  obtain rfl := Option.some.inj (walked'.symm.trans walked)
  have final : r.finalState = w.current := by
    rw [reported, read.finalState, Walk.noteCovered_current]
    rfl
  rw [Walk.noteCovered_current, Walk.noteCovered_markers] at markers
  rw [← reported] at markers ⊢
  have events {m : Marker} {s token : Nat} (target : m.target = .event s token) :
      m ∈ r.markers ↔ m ∈ (w.closeSpan p t.kinds t.path.length true).markers := by
    rw [markers]
    exact mem_markStates_event target
  have came : w.current ∈ t.path := List.mem_of_getLast? tells.current
  refine ⟨?_, ?_, ?_, ?_, ?_⟩
  · intro m member now
    cases target : m.target with
    | state s => exact (of_mem_markStates_state target (markers ▸ member) now).1
    | event s token =>
      exact marks.reached_closed marked tells.stay along m ((events target).1 member) now
  · intro m s token target new
    have other : s ≠ w.current := fun same => new (same ▸ came)
    rw [events target, Walk.Marks.mem_closed_iff (Marker.target_ne_event target other)]
    exact marks.spared m s token target new
  · intro m member now
    rw [final]
    cases target : m.target with
    | state s => exact .inl (of_mem_markStates_state target (markers ▸ member) now).2
    | event s token =>
      by_cases here : s = w.current
      · exact .inl here
      · have before := (Walk.Marks.mem_closed_iff (Marker.target_ne_event target here)).1
          ((events target).1 member)
        exact .inr ⟨s, token, rfl,
          (marks.passed m before s token target now).resolve_left here⟩
  · rintro ⟨m, member, token, target, now⟩
    rw [final] at target
    obtain ⟨token, marked, happened⟩ := (marks.ends_closed marked tells.stay along).1
      ⟨m, (events target).1 member, token, target, now⟩
    exact ⟨w.current, w.spanStart, token, tells.stay, marked, happened⟩
  · rintro ⟨s, start, token, stay, attached, happened⟩
    obtain ⟨rfl, rfl⟩ := stay.eq_of_stop tells.stay
    obtain ⟨m, member, token, target, now⟩ := (marks.ends_closed marked tells.stay along).2
      ⟨token, attached, happened⟩
    exact ⟨m, (events target).2 member, token, by rw [final]; exact target, now⟩

/-- A check goes on from the markers of the report before, which are those of the pattern. -/
theorem markersAfter_report
    (known : (p.markersAfter previous).map Marker.identity = p.markers.map Marker.identity) :
    (p.report t previous).markers.map Marker.identity = p.markers.map Marker.identity ∧
      p.markersAfter (some (p.report t previous)) = (p.report t previous).markers := by
  have same := (map_identity_of_check (check_trail t previous)).trans known
  have length := congrArg List.length same
  rw [List.length_map, List.length_map] at length
  exact ⟨same, if_pos length⟩

end Report

section Reports

variable {trails : List p.Trail} {previous : Option CheckResult}

/-- However many trails are checked one after another, a marker that is just reached is reached. -/
theorem reached_of_mem_reports (marked : p.IsMarked)
    (along : ∀ t ∈ trails, t.path.length ≤ t.kinds.length)
    (known : (p.markersAfter previous).map Marker.identity = p.markers.map Marker.identity)
    (sound : ∀ m ∈ p.markersAfter previous, m.justReached = true → m.reached = true) :
    ∀ r ∈ p.reports previous trails, ∀ m ∈ r.markers, m.justReached = true → m.reached = true := by
  induction trails generalizing previous with
  | nil => simp [reports]
  | cons t later ih =>
    have of := marksOf_report marked (along t List.mem_cons_self) known sound
    obtain ⟨known', next⟩ := markersAfter_report (t := t) known
    rw [reports, List.forall_mem_cons]
    refine ⟨of.reached, ih (fun t' member => along t' (List.mem_cons_of_mem t member)) ?_ ?_⟩
    · rw [next, known']
    · rw [next]
      exact of.reached

/-- If no event is just reached that the first trail does not come by, all markers that are ever
just reached belong to the state in which the gesture is, exactly if every trail that ends at a mark
is kept by the next one. -/
theorem owner_of_reports_iff (marked : p.IsMarked)
    (along : ∀ t ∈ trails, t.path.length ≤ t.kinds.length)
    (known : (p.markersAfter previous).map Marker.identity = p.markers.map Marker.identity)
    (sound : ∀ m ∈ p.markersAfter previous, m.justReached = true → m.reached = true)
    (kept : ∀ t ∈ trails.head?, ∀ m ∈ p.markersAfter previous, ∀ s token,
      m.target = .event s token → m.justReached = true → s ∈ t.path) :
    (∀ r ∈ p.reports previous trails, ∀ m ∈ r.markers, m.justReached = true →
      m.target.owner = r.finalState) ↔ trails.IsChain Trail.IsKeptBy := by
  induction trails generalizing previous with
  | nil => simp [reports]
  | cons t later ih =>
    obtain ⟨r, reported⟩ : ∃ r, r = p.report t previous := ⟨_, rfl⟩
    have of := marksOf_report marked (along t List.mem_cons_self) known sound
    obtain ⟨known', next⟩ := markersAfter_report (t := t) known
    have last := finalState_report t previous
    rw [← reported] at of known' next last
    have present := of.present (kept t rfl)
    have along' : ∀ t' ∈ later, t'.path.length ≤ t'.kinds.length :=
      fun t' member => along t' (List.mem_cons_of_mem t member)
    have known'' :
        (p.markersAfter (some r)).map Marker.identity = p.markers.map Marker.identity := by
      rw [next, known']
    have sound' : ∀ m ∈ p.markersAfter (some r), m.justReached = true → m.reached = true := by
      rw [next]
      exact of.reached
    rw [reports, ← reported, List.forall_mem_cons, and_iff_right present]
    cases later with
    | nil => simp [reports]
    | cons t' later =>
      rw [List.isChain_cons_cons]
      by_cases keeps : t.IsKeptBy t'
      · rw [and_iff_right keeps]
        refine ih along' known'' sound' ?_
        intro t'' first
        obtain rfl := Option.some.inj first
        rw [next]
        exact of.kept last present keeps
      · have of' := marksOf_report marked (along' t' List.mem_cons_self) known'' sound'
        rw [next] at of'
        obtain ⟨m, member, now, elsewhere⟩ :=
          of.lost of' last (finalState_report t' (some r)) keeps
        refine iff_of_false (fun all => ?_) fun chain => keeps chain.1
        exact elsewhere (all _ List.mem_cons_self m member now)

end Reports

end Pattern

end TouchIntent
