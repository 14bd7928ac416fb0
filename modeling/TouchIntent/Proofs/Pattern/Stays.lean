import TouchIntent.Proofs.Pattern.Trail

/-!
# What a path covers

A *stay* is a longest stretch of a path in one state, given by its positions. A state is covered
exactly if there is a stay in it whose events meet its requirements, and after which every step of
the path is valid. How the path came to the stay does not matter for that: a stay that begins with
an invalid step, or at the start of a path in a state where no gesture may start, counts like any
other.
-/

namespace TouchIntent

/-- From position `start` on, up to and without position `stop`, the path is in the state; right
before and right after it is not. -/
structure IsStay (path : List Nat) (s start stop : Nat) : Prop where
  occupied : start < stop
  within : stop ≤ path.length
  holds : ∀ i, start ≤ i → i < stop → path[i]? = some s
  arrives : ∀ i, i + 1 = start → path[i]? ≠ some s
  leaves : path[stop]? ≠ some s

namespace IsStay

variable {path seen : List Nat} {s s' start stop start' stop' next : Nat}

/-- Two stays in one state that begin at different positions have nothing in common. -/
theorem stop_le (stay : IsStay path s start stop) (stay' : IsStay path s start' stop')
    (before : start < start') : stop ≤ start' := by
  by_contra inside
  have held : path[start' - 1]? = some s := stay.holds _ (by omega) (by omega)
  exact stay'.arrives (start' - 1) (by omega) held

/-- The path ends with one stay only. -/
theorem eq_of_stop (stay : IsStay path s start stop) (stay' : IsStay path s' start' stop) :
    s = s' ∧ start = start' := by
  have occupied := stay.occupied
  have occupied' := stay'.occupied
  have last : path[stop - 1]? = some s := stay.holds _ (by omega) (by omega)
  have last' : path[stop - 1]? = some s' := stay'.holds _ (by omega) (by omega)
  obtain rfl : s = s' := Option.some.inj (last.symm.trans last')
  refine ⟨rfl, ?_⟩
  rcases Nat.lt_trichotomy start start' with before | same | after
  · have := stay.stop_le stay' before
    omega
  · exact same
  · have := stay'.stop_le stay after
    omega

/-- A path that goes on keeps the stays that are over, and ends the last one if it goes
elsewhere. -/
theorem concat_iff (before : stop ≤ seen.length) :
    IsStay (seen ++ [next]) s start stop ↔
      IsStay seen s start stop ∧ (stop = seen.length → next ≠ s) := by
  have same (i : Nat) (below : i < seen.length) : (seen ++ [next])[i]? = seen[i]? :=
    List.getElem?_append_left below
  have new : (seen ++ [next])[seen.length]? = some next := by simp
  constructor
  · intro stay
    refine ⟨⟨stay.occupied, before, ?_, ?_, ?_⟩, ?_⟩
    · intro i from' below
      rw [← same i (by omega)]
      exact stay.holds i from' below
    · intro i previous
      have occupied := stay.occupied
      rw [← same i (by omega)]
      exact stay.arrives i previous
    · by_cases last : stop = seen.length
      · rw [last, List.getElem?_eq_none (Nat.le_refl _)]
        simp
      · rw [← same stop (by omega)]
        exact stay.leaves
    · intro last goes
      apply stay.leaves
      rw [last, new, goes]
  · rintro ⟨stay, elsewhere⟩
    have occupied := stay.occupied
    refine ⟨occupied, by simp; omega, ?_, ?_, ?_⟩
    · intro i from' below
      rw [same i (by omega)]
      exact stay.holds i from' below
    · intro i previous
      rw [same i (by omega)]
      exact stay.arrives i previous
    · by_cases last : stop = seen.length
      · rw [last, new]
        exact fun goes => elsewhere last (Option.some.inj goes)
      · rw [same stop (by omega)]
        exact stay.leaves

/-- A path that goes on in its state prolongs the last stay. -/
theorem prolong (stay : IsStay seen s start seen.length) :
    IsStay (seen ++ [s]) s start (seen ++ [s]).length := by
  have occupied := stay.occupied
  refine ⟨by simp; omega, Nat.le_refl _, ?_, ?_, ?_⟩
  · intro i from' below
    by_cases new : i = seen.length
    · simp [new]
    · have earlier : i < seen.length := by
        rw [List.length_append, List.length_singleton] at below
        omega
      rw [List.getElem?_append_left earlier]
      exact stay.holds i from' earlier
  · intro i previous
    rw [List.getElem?_append_left (by omega)]
    exact stay.arrives i previous
  · simp

/-- A path that goes on elsewhere begins a stay. -/
theorem begin (stay : IsStay seen s start seen.length) (elsewhere : s ≠ next) :
    IsStay (seen ++ [next]) next seen.length (seen ++ [next]).length := by
  have occupied := stay.occupied
  refine ⟨by simp, Nat.le_refl _, ?_, ?_, by simp⟩
  · intro i from' below
    obtain rfl : i = seen.length := by
      rw [List.length_append, List.length_singleton] at below
      omega
    simp
  · intro i previous
    rw [List.getElem?_append_left (by omega), stay.holds i (by omega) (by omega)]
    exact fun same => elsewhere (Option.some.inj same)

theorem single (first : Nat) : IsStay [first] first 0 1 := by
  refine ⟨Nat.one_pos, Nat.le_refl _, ?_, ?_, by simp⟩
  · intro i _ below
    obtain rfl : i = 0 := by omega
    rfl
  · intro i previous
    omega

end IsStay

namespace Pattern

/-- A stay whose events meet the requirements of its state, and after which the path goes on by
valid steps only. -/
structure Fulfils (p : Pattern) (path : List Nat) (kinds : List EventKind) (s start stop : Nat) :
    Prop where
  stay : IsStay path s start stop
  matched : (matchSpan (p.tokens s) (eventsBetween kinds start stop)).matched = true
  onward : ∀ i, stop ≤ i → i < path.length → p.breaksAt path i = false

variable {p : Pattern} {kinds : List EventKind} {seen : List Nat} {s start stop current next : Nat}

/-- What is fulfilled stays so as long as the path goes on by valid steps; the last stay is added
when the path leaves it. -/
theorem fulfils_concat (last : seen.getLast? = some current) (before : stop ≤ seen.length) :
    p.Fulfils (seen ++ [next]) kinds s start stop ↔ p.isValidStep current next = true ∧
      p.Fulfils seen kinds s start stop ∧ (stop = seen.length → next ≠ s) := by
  have new : p.breaksAt (seen ++ [next]) seen.length = !p.isValidStep current next :=
    breaksAt_length last next
  constructor
  · rintro ⟨stay, matched, onward⟩
    obtain ⟨stay, elsewhere⟩ := (IsStay.concat_iff before).1 stay
    refine ⟨?_, ⟨stay, matched, ?_⟩, elsewhere⟩
    · have valid := onward seen.length before (by simp)
      rw [new] at valid
      simpa using valid
    · intro i after below
      rw [← breaksAt_concat below next]
      exact onward i after (by simp; omega)
  · rintro ⟨valid, ⟨stay, matched, onward⟩, elsewhere⟩
    refine ⟨(IsStay.concat_iff before).2 ⟨stay, elsewhere⟩, matched, ?_⟩
    intro i after below
    by_cases here : i = seen.length
    · rw [here, new, valid]
      rfl
    · have earlier : i < seen.length := by
        rw [List.length_append, List.length_singleton] at below
        omega
      rw [breaksAt_concat earlier]
      exact onward i after earlier

end Pattern

namespace Walk

variable {p : Pattern} {kinds : List EventKind} {seen : List Nat} {w : Walk} {next : Nat}

/-- The state is covered so far. -/
def Covers (w : Walk) (s : Nat) : Prop := w.cover[s]?.any (0 < ·) = true

/-- What the walk tells of the states seen: where it is and since when, and which states are
fulfilled by stays that are over. -/
structure Tells (p : Pattern) (kinds : List EventKind) (seen : List Nat) (w : Walk) : Prop where
  current : seen.getLast? = some w.current
  stay : IsStay seen w.current w.spanStart seen.length
  covers : ∀ s, w.Covers s ↔
    ∃ start stop, stop < seen.length ∧ p.Fulfils seen kinds s start stop
  size : w.cover.length = p.size

theorem covers_startOver (s : Nat) : ¬ w.startOver.Covers s := by
  rw [Covers, startOver, List.getElem?_map]
  cases w.cover[s]? <;> simp

theorem covers_noteCovered (s : Nat) : w.noteCovered.Covers s ↔ w.Covers s := by
  rw [Covers, Covers, noteCovered_cover]

/-- Closing a stay covers its state if the requirements are met, and no other. -/
theorem covers_closeSpan (inRange : w.current < w.cover.length) (stop : Nat) (isLast : Bool)
    (s : Nat) : (w.closeSpan p kinds stop isLast).Covers s ↔ w.Covers s ∨ s = w.current ∧
      (matchSpan (p.tokens s) (eventsBetween kinds w.spanStart stop)).matched = true := by
  by_cases here : s = w.current
  · subst here
    by_cases matched : (matchSpan (p.tokens w.current)
        (eventsBetween kinds w.spanStart stop)).matched = true
    · have counted : (w.closeSpan p kinds stop isLast).Covers w.current := by
        simp [Covers, closeSpan, matched, List.getElem?_eq_getElem inRange]
      simp [counted, matched]
    · simp [Covers, closeSpan, matched]
  · have same : (w.closeSpan p kinds stop isLast).cover[s]? = w.cover[s]? := by
      simp only [closeSpan]
      split
      · exact List.getElem?_modify_ne _ _ (Ne.symm here)
      · rfl
    rw [Covers, Covers, same]
    simp [here]

theorem length_cover_closeSpan (stop : Nat) (isLast : Bool) :
    (w.closeSpan p kinds stop isLast).cover.length = w.cover.length := by
  simp only [closeSpan]
  split
  · exact List.length_modify _ _ _
  · rfl

theorem tells_enter {first : Nat} (markers : List Marker) :
    Tells p kinds [first] (enter p markers first) := by
  have nothing (s : Nat) :
      ¬ ∃ start stop, stop < 1 ∧ p.Fulfils [first] kinds s start stop := by
    rintro ⟨start, stop, none, fulfils⟩
    have := fulfils.stay.occupied
    omega
  by_cases starts : p.isInitial first = true
  · rw [enter, if_pos starts]
    refine ⟨rfl, .single first, ?_, by simp⟩
    intro s
    refine iff_of_false ?_ (nothing s)
    rw [Covers, List.getElem?_replicate]
    split <;> simp
  · rw [enter, if_neg starts]
    refine ⟨rfl, .single first, ?_, by simp [startOver]⟩
    intro s
    exact iff_of_false (covers_startOver s) (nothing s)

namespace Tells

theorem inRange (tells : Tells p kinds seen w) (inside : ∀ s ∈ seen, s < p.size) :
    w.current < w.cover.length := by
  rw [tells.size]
  exact inside _ (List.mem_of_getLast? tells.current)

/-- The last stay is fulfilled if its events meet the requirements. -/
theorem fulfils_last (tells : Tells p kinds seen w) {s start : Nat} :
    p.Fulfils seen kinds s start seen.length ↔ s = w.current ∧ start = w.spanStart ∧
      (matchSpan (p.tokens s) (eventsBetween kinds start seen.length)).matched = true := by
  constructor
  · rintro ⟨stay, matched, -⟩
    obtain ⟨state, begun⟩ := stay.eq_of_stop tells.stay
    exact ⟨state, begun, matched⟩
  · rintro ⟨rfl, rfl, matched⟩
    refine ⟨tells.stay, matched, ?_⟩
    intro i after below
    omega

/-- Closing the last stay covers what all stays fulfil. -/
theorem covers_closed (tells : Tells p kinds seen w) (inside : ∀ s ∈ seen, s < p.size)
    (isLast : Bool) (s : Nat) : (w.closeSpan p kinds seen.length isLast).Covers s ↔
      ∃ start stop, p.Fulfils seen kinds s start stop := by
  rw [covers_closeSpan (tells.inRange inside), tells.covers]
  constructor
  · rintro (⟨start, stop, -, fulfils⟩ | ⟨rfl, matched⟩)
    · exact ⟨start, stop, fulfils⟩
    · exact ⟨w.spanStart, seen.length, tells.fulfils_last.2 ⟨rfl, rfl, matched⟩⟩
  · rintro ⟨start, stop, fulfils⟩
    by_cases last : stop = seen.length
    · rw [last] at fulfils
      obtain ⟨state, rfl, matched⟩ := tells.fulfils_last.1 fulfils
      exact .inr ⟨state, matched⟩
    · have within := fulfils.stay.within
      exact .inl ⟨start, stop, by omega, fulfils⟩

/-- A stay is fulfilled along the path as it goes on if the step is valid and it was fulfilled, as
one that is over now. -/
theorem fulfilled_concat (tells : Tells p kinds seen w) (s : Nat) :
    (∃ start stop, stop < (seen ++ [next]).length ∧
      p.Fulfils (seen ++ [next]) kinds s start stop) ↔
    p.isValidStep w.current next = true ∧ ∃ start stop, stop ≤ seen.length ∧
      p.Fulfils seen kinds s start stop ∧ (stop = seen.length → next ≠ s) := by
  constructor
  · rintro ⟨start, stop, below, fulfils⟩
    rw [List.length_append, List.length_singleton, Nat.lt_succ_iff] at below
    obtain ⟨valid, before⟩ := (Pattern.fulfils_concat tells.current below).1 fulfils
    exact ⟨valid, start, stop, below, before⟩
  · rintro ⟨valid, start, stop, below, before⟩
    refine ⟨start, stop, ?_, (Pattern.fulfils_concat tells.current below).2 ⟨valid, before⟩⟩
    rw [List.length_append, List.length_singleton]
    exact Nat.lt_succ_of_le below

/-- What the walk has covered when it goes on, before it is known whether it may. -/
theorem covers_leave (tells : Tells p kinds seen w) (inside : ∀ s ∈ seen, s < p.size) (s : Nat) :
    (w.leave p kinds seen.length next).Covers s ↔ ∃ start stop, stop ≤ seen.length ∧
      p.Fulfils seen kinds s start stop ∧ (stop = seen.length → next ≠ s) := by
  by_cases stays : w.current = next
  · rw [leave_stay stays, tells.covers]
    constructor
    · rintro ⟨start, stop, before, fulfils⟩
      exact ⟨start, stop, by omega, fulfils, by omega⟩
    · rintro ⟨start, stop, within, fulfils, elsewhere⟩
      by_cases last : stop = seen.length
      · rw [last] at fulfils
        obtain ⟨rfl, -, -⟩ := tells.fulfils_last.1 fulfils
        exact absurd stays.symm (elsewhere last)
      · exact ⟨start, stop, by omega, fulfils⟩
  · rw [leave_elsewhere stays]
    apply (tells.covers_closed inside false s).trans
    constructor
    · rintro ⟨start, stop, fulfils⟩
      refine ⟨start, stop, fulfils.stay.within, fulfils, ?_⟩
      rintro rfl rfl
      exact stays (tells.fulfils_last.1 fulfils).1.symm
    · rintro ⟨start, stop, -, fulfils, -⟩
      exact ⟨start, stop, fulfils⟩

/-- The stay in which the walk is when it goes on. -/
theorem stay_leave (tells : Tells p kinds seen w) :
    IsStay (seen ++ [next]) next (w.leave p kinds seen.length next).spanStart
      (seen ++ [next]).length := by
  by_cases stays : w.current = next
  · rw [leave_stay stays, ← stays]
    exact tells.stay.prolong
  · rw [leave_elsewhere stays]
    exact tells.stay.begin stays

theorem size_leave (tells : Tells p kinds seen w) :
    (w.leave p kinds seen.length next).cover.length = p.size := by
  rw [← tells.size]
  by_cases stays : w.current = next
  · rw [leave_stay stays]
  · rw [leave_elsewhere stays]
    exact length_cover_closeSpan seen.length false

/-- What the walk tells, it tells one position further. -/
theorem arrive (tells : Tells p kinds seen w) (inside : ∀ s ∈ seen, s < p.size) :
    Tells p kinds (seen ++ [next]) (w.arrive p kinds seen.length next) := by
  have stay : IsStay (seen ++ [next]) next (w.leave p kinds seen.length next).spanStart
      (seen ++ [next]).length := tells.stay_leave
  by_cases valid : p.isValidStep w.current next = true
  · rw [arrive_valid valid]
    refine ⟨by simp, ?_, ?_, ?_⟩
    · rw [noteCovered_spanStart]
      exact stay
    · intro s
      rw [tells.fulfilled_concat, and_iff_right valid, ← tells.covers_leave inside]
      exact covers_noteCovered s
    · rw [noteCovered_cover]
      exact tells.size_leave
  · rw [arrive_invalid valid]
    refine ⟨by simp, stay, ?_, ?_⟩
    · intro s
      rw [tells.fulfilled_concat]
      exact iff_of_false (covers_startOver s) fun both => valid both.1
    · simp [startOver, tells.size_leave]

theorem step (tells : Tells p kinds seen w) (inside : ∀ s ∈ seen, s < p.size) :
    Tells p kinds (seen ++ [next]) (w.step p kinds seen.length next) := by
  have tells : Tells p kinds seen { w with visits := w.visits.modify next (· + 1) } :=
    ⟨tells.current, tells.stay, tells.covers, tells.size⟩
  rw [step_eq_arrive]
  exact tells.arrive inside

theorem steps (tells : Tells p kinds seen w) {rest : List Nat}
    (inside : ∀ s ∈ seen ++ rest, s < p.size) :
    Tells p kinds (seen ++ rest) (w.steps p kinds seen.length rest) := by
  induction rest generalizing seen w with
  | nil =>
    rw [List.append_nil]
    exact tells
  | cons next rest ih =>
    have further : Tells p kinds (seen ++ [next]) (w.step p kinds seen.length next) :=
      tells.step fun s member => inside s (List.mem_append_left _ member)
    have whole : seen ++ next :: rest = seen ++ [next] ++ rest := by simp
    rw [whole] at inside ⊢
    have after := ih further inside
    rwa [List.length_append, List.length_singleton] at after

end Tells

end Walk

namespace Pattern

variable {p : Pattern}

/-- The walk along a trail, before its last stay is closed, tells of the trail as a whole. -/
theorem walk?_tells (t : p.Trail) (previous : Option CheckResult) :
    ∃ w, Walk.Tells p t.kinds t.path w ∧ p.walk? t.path t.kinds previous =
      some (w.closeSpan p t.kinds t.path.length true).noteCovered := by
  obtain ⟨path, kinds, nonempty, inRange⟩ := t
  cases path with
  | nil => exact absurd rfl nonempty
  | cons first rest =>
    exact ⟨_, (Walk.tells_enter (p.markersAfter previous)).steps inRange, rfl⟩

/-- A trail ends in the final state of its report. -/
theorem finalState_report (t : p.Trail) (previous : Option CheckResult) :
    t.path.getLast? = some (p.report t previous).finalState := by
  obtain ⟨w, walked, read, -⟩ := report_isReadOff t previous
  obtain ⟨w', tells, walked'⟩ := walk?_tells t previous
  obtain rfl := Option.some.inj (walked.symm.trans walked')
  rw [read.finalState, Walk.noteCovered_current]
  exact tells.current

/-- A report says that a state is covered exactly if some stay in it is fulfilled. -/
theorem isCovered_report_iff (t : p.Trail) (previous : Option CheckResult) (s : Nat) :
    (p.report t previous).isCovered s = true ↔
      ∃ start stop, p.Fulfils t.path t.kinds s start stop := by
  obtain ⟨w, walked, read, -⟩ := report_isReadOff t previous
  obtain ⟨w', tells, walked'⟩ := walk?_tells t previous
  obtain rfl := Option.some.inj (walked.symm.trans walked')
  rw [CheckResult.isCovered, read.cover]
  exact (Walk.covers_noteCovered s).trans (tells.covers_closed t.inRange true s)

/-! ## How the path came to what it covers -/

/-- A path may come to position `start` in a state where gestures may start, or by a valid step. -/
def MayEnter (p : Pattern) (path : List Nat) (s start : Nat) : Prop :=
  p.isInitial s = true ∨
    ∃ i source, i + 1 = start ∧ path[i]? = some source ∧ p.isValidStep source s = true

variable {path : List Nat} {kinds : List EventKind} {s start stop : Nat}

/-- A stay may be entered exactly if its state is initial, or the path does not break there. -/
theorem mayEnter_iff (stay : IsStay path s start stop) :
    p.MayEnter path s start ↔ p.isInitial s = true ∨ p.breaksAt path start = false := by
  have here : path[start]? = some s := stay.holds start (Nat.le_refl _) stay.occupied
  cases start with
  | zero =>
    simp [MayEnter, breaksAt, here]
  | succ i =>
    have before : i < path.length := by
      have := stay.within
      have := stay.occupied
      omega
    obtain ⟨source, found⟩ : ∃ source, path[i]? = some source :=
      ⟨_, List.getElem?_eq_getElem before⟩
    simp [MayEnter, breaksAt, here, found]

/-- After the last break the path breaks nowhere. -/
theorem breaksAt_of_lastBreak? {b : Nat} (last : p.lastBreak? path = some b) :
    b < path.length ∧ p.breaksAt path b = true ∧
      ∀ i, b < i → i < path.length → p.breaksAt path i = false := by
  obtain ⟨earlier, all⟩ := List.getLast?_eq_some_iff.1 last
  have listed (i : Nat) :
      i ∈ earlier ++ [b] ↔ i < path.length ∧ p.breaksAt path i = true := by
    rw [← all, List.mem_filter, List.mem_range]
  obtain ⟨inside, breaks⟩ := (listed b).1 (by simp)
  refine ⟨inside, breaks, ?_⟩
  intro i after below
  by_contra other
  have increasing : (earlier ++ [b]).Pairwise (· < ·) := by
    rw [← all]
    exact List.pairwise_lt_range.filter _
  have member := (listed i).2 ⟨below, (Bool.not_eq_false _).mp other⟩
  rcases List.mem_append.1 member with before | same
  · have := (List.pairwise_append.1 increasing).2.2 i before b (by simp)
    omega
  · have := List.mem_singleton.1 same
    omega

/-- The last break is where the path breaks, and breaks nowhere after it. -/
theorem lastBreak?_eq_some_iff {b : Nat} : p.lastBreak? path = some b ↔
    b < path.length ∧ p.breaksAt path b = true ∧
      ∀ i, b < i → i < path.length → p.breaksAt path i = false := by
  refine ⟨breaksAt_of_lastBreak?, ?_⟩
  rintro ⟨inside, breaks, onward⟩
  cases last : p.lastBreak? path with
  | none =>
    rw [lastBreak?, List.getLast?_eq_none_iff, List.filter_eq_nil_iff] at last
    exact absurd breaks (last b (List.mem_range.2 inside))
  | some c =>
    obtain ⟨inside', breaks', onward'⟩ := breaksAt_of_lastBreak? last
    rcases Nat.lt_trichotomy b c with before | rfl | after
    · rw [onward c before inside'] at breaks'
      cases breaks'
    · rfl
    · rw [onward' b after inside] at breaks
      cases breaks

section Reflexive

variable (reflexive : ∀ s < p.size, p.isValidStep s s = true)

include reflexive

/-- Within a stay the path does not break. -/
theorem breaksAt_within {i : Nat} (stay : IsStay path s start stop) (inRange : s < p.size)
    (after : start < i) (below : i < stop) : p.breaksAt path i = false := by
  cases i with
  | zero => omega
  | succ i =>
    have source : path[i]? = some s := stay.holds i (by omega) (by omega)
    have target : path[i + 1]? = some s := stay.holds (i + 1) (by omega) below
    rw [breaksAt, source, target]
    simp [reflexive s inRange]

/-- A stay is fulfilled if its events meet the requirements and the path does not break after it
has begun. -/
theorem fulfils_iff (inRange : s < p.size) : p.Fulfils path kinds s start stop ↔
    IsStay path s start stop ∧
      (matchSpan (p.tokens s) (eventsBetween kinds start stop)).matched = true ∧
      ∀ i, start < i → i < path.length → p.breaksAt path i = false := by
  constructor
  · rintro ⟨stay, matched, onward⟩
    refine ⟨stay, matched, ?_⟩
    intro i after below
    by_cases within : i < stop
    · exact breaksAt_within reflexive stay inRange after within
    · exact onward i (Nat.not_lt.1 within) below
  · rintro ⟨stay, matched, onward⟩
    refine ⟨stay, matched, ?_⟩
    intro i after below
    exact onward i (Nat.lt_of_lt_of_le stay.occupied after) below

/-- A fulfilled stay to which the path comes without a break begins after all breaks. -/
theorem lt_of_fulfils {b : Nat} (fulfils : p.Fulfils path kinds s start stop)
    (inRange : s < p.size) (unbroken : p.breaksAt path start = false)
    (inside : b < path.length) (breaks : p.breaksAt path b = true) : b < start := by
  have onward := ((fulfils_iff reflexive inRange).1 fulfils).2.2
  rcases Nat.lt_trichotomy start b with before | rfl | after
  · rw [onward b before inside] at breaks
    cases breaks
  · rw [unbroken] at breaks
    cases breaks
  · exact after

/-- Every state that a report says is covered was entered as it may be, if that holds of the stay
that begins at the last break of the path, should its events meet the requirements: then its state
is initial, or a later stay in it meets them as well. -/
theorem entered_iff_of_reflexive (t : p.Trail) (previous : Option CheckResult) :
    (∀ s, (p.report t previous).isCovered s = true →
      ∃ start stop, p.Fulfils t.path t.kinds s start stop ∧ p.MayEnter t.path s start) ↔
    ∀ b s stop, p.lastBreak? t.path = some b → IsStay t.path s b stop →
      (matchSpan (p.tokens s) (eventsBetween t.kinds b stop)).matched = true →
      p.isInitial s = true ∨ ∃ start' stop', b < start' ∧ IsStay t.path s start' stop' ∧
        (matchSpan (p.tokens s) (eventsBetween t.kinds start' stop')).matched = true := by
  have inside {s start stop : Nat} (stay : IsStay t.path s start stop) : s < p.size :=
    t.inRange s (List.mem_of_getElem? (stay.holds start (Nat.le_refl _) stay.occupied))
  constructor
  · intro entered b s stop last stay matched
    obtain ⟨within, breaks, onward⟩ := breaksAt_of_lastBreak? last
    have fulfils := (fulfils_iff reflexive (inside stay)).2 ⟨stay, matched, onward⟩
    obtain ⟨start', stop', fulfils', enters⟩ :=
      entered s ((isCovered_report_iff t previous s).2 ⟨b, stop, fulfils⟩)
    rcases (mayEnter_iff fulfils'.stay).1 enters with initial | unbroken
    · exact .inl initial
    · have after := lt_of_fulfils reflexive fulfils' (inside stay) unbroken within breaks
      exact .inr ⟨start', stop', after, fulfils'.stay, fulfils'.matched⟩
  · intro legitimate s covered
    obtain ⟨start, stop, fulfils⟩ := (isCovered_report_iff t previous s).1 covered
    have stay := fulfils.stay
    obtain ⟨-, matched, onward⟩ := (fulfils_iff reflexive (inside stay)).1 fulfils
    cases breaks : p.breaksAt t.path start with
    | false => exact ⟨start, stop, fulfils, (mayEnter_iff stay).2 (.inr breaks)⟩
    | true =>
      have below := Nat.lt_of_lt_of_le stay.occupied stay.within
      have last : p.lastBreak? t.path = some start :=
        lastBreak?_eq_some_iff.2 ⟨below, breaks, onward⟩
      rcases legitimate start s stop last stay matched with
        initial | ⟨start', stop', after, stay', matched'⟩
      · exact ⟨start, stop, fulfils, .inl initial⟩
      · have onward' : ∀ i, start' < i → i < t.path.length → p.breaksAt t.path i = false :=
          fun i later => onward i (Nat.lt_trans after later)
        have below' := Nat.lt_of_lt_of_le stay'.occupied stay'.within
        exact ⟨start', stop', (fulfils_iff reflexive (inside stay)).2 ⟨stay', matched', onward'⟩,
          (mayEnter_iff stay').2 (.inr (onward start' after below'))⟩

end Reflexive

end Pattern

end TouchIntent
