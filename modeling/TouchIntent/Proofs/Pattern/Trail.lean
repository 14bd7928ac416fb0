import TouchIntent.Proofs.Pattern.Markers

/-!
# Trails and their reports

A *trail* is what a pattern can be checked on: a path that goes somewhere and stays in the pattern,
with the events that happened along it. Every trail has a report. What a report says of the trail
itself does not depend on the report before, which matters only for what is new since then.
-/

namespace TouchIntent

/-- A path that is not empty and stays in a pattern, with the events that happened along it. -/
structure Pattern.Trail (p : Pattern) where
  path : List Nat
  kinds : List EventKind
  nonempty : path ≠ []
  inRange : ∀ s ∈ path, s < p.size

namespace Pattern

variable {p : Pattern}

theorem isSome_check (t : p.Trail) (previous : Option CheckResult) :
    (p.check t.path t.kinds previous).isSome = true := by
  rw [Option.isSome_iff_ne_none]
  intro unchecked
  rcases check_eq_none_iff.1 unchecked with empty | ⟨s, member, outside⟩
  · exact t.nonempty empty
  · exact absurd (t.inRange s member) (Nat.not_lt.2 outside)

/-- The result of checking a trail. -/
def report (p : Pattern) (t : p.Trail) (previous : Option CheckResult) : CheckResult :=
  (p.check t.path t.kinds previous).get (isSome_check t previous)

theorem check_trail (t : p.Trail) (previous : Option CheckResult) :
    p.check t.path t.kinds previous = some (p.report t previous) :=
  (Option.some_get _).symm

/-- The results of checking one trail after another, each given the result of the one before. -/
def reports (p : Pattern) (previous : Option CheckResult) : List p.Trail → List CheckResult
  | [] => []
  | t :: later => p.report t previous :: p.reports (some (p.report t previous)) later

@[simp] theorem length_reports (previous : Option CheckResult) (trails : List p.Trail) :
    (p.reports previous trails).length = trails.length := by
  induction trails generalizing previous with
  | nil => rfl
  | cons t later ih => rw [reports, List.length_cons, List.length_cons, ih]

/-- A later report is given the one before it. -/
theorem getElem?_reports_succ {previous : Option CheckResult} {trails : List p.Trail} {n : Nat}
    {r : CheckResult} (before : (p.reports previous trails)[n]? = some r) :
    (p.reports previous trails)[n + 1]? =
      (trails[n + 1]?).map fun t => p.report t (some r) := by
  induction trails generalizing previous n with
  | nil => cases before
  | cons t later ih =>
    cases n with
    | zero =>
      obtain rfl := Option.some.inj before
      cases later with
      | nil => rfl
      | cons t' later => rfl
    | succ n => exact ih before

end Pattern

/-! ## What a report is read off -/

/-- The state in which the walk ends is covered, and by a single stay. -/
def Walk.endsCovered (w : Walk) : Bool := (w.cover[w.current]?).getD 0 == 1

/-- The report of a trail, as it is read off the walk along it. -/
structure CheckResult.IsReadOff {p : Pattern} (t : p.Trail) (previous : Option CheckResult)
    (w : Walk) (r : CheckResult) : Prop where
  cover : r.cover = w.cover
  finalState : r.finalState = w.current
  allCovered : r.allCovered = if p.size = 1 then w.endsCovered else w.allCovered
  endedReleased : r.endedReleased = (t.kinds[t.path.length - 1]? == some .up &&
    decide (0 < (w.cover[w.current]?).getD 0))
  endsInFinalState : r.endsInFinalState = p.isFinal w.current
  justCoveredNewState : r.justCoveredNewState = isNewlyCovered (p.tokens w.current) w.current
    t.path.length r.endedReleased w.endsCovered previous
  hasBeenCompleted : r.hasBeenCompleted =
    ((previous.any fun q => q.hasJustCompleted || q.hasBeenCompleted) && r.endsInFinalState ||
      r.hasJustCompleted)

namespace Pattern

variable {p : Pattern}

/-- Every report is read off the walk along its trail. -/
theorem report_isReadOff (t : p.Trail) (previous : Option CheckResult) :
    ∃ w, p.walk? t.path t.kinds previous = some w ∧ (p.report t previous).IsReadOff t previous w ∧
      (p.report t previous).markers = markStates w.visits w.current previous w.markers := by
  obtain ⟨path, kinds, nonempty, inRange⟩ := t
  have checked := check_trail ⟨path, kinds, nonempty, inRange⟩ previous
  obtain ⟨r, same⟩ : ∃ r, r = p.report ⟨path, kinds, nonempty, inRange⟩ previous := ⟨_, rfl⟩
  rw [← same] at checked ⊢
  cases path with
  | nil => exact absurd rfl nonempty
  | cons first rest =>
    have inside : ¬ (first :: rest).any (p.size ≤ ·) = true := by
      intro outside
      obtain ⟨s, member, beyond⟩ := List.any_eq_true.1 outside
      exact absurd (inRange s member) (Nat.not_lt.2 (of_decide_eq_true beyond))
    simp only [check, if_neg inside] at checked
    obtain rfl := Option.some.inj checked
    exact ⟨_, rfl, ⟨rfl, rfl, rfl, rfl, rfl, rfl, rfl⟩, rfl⟩

end Pattern

/-! ## Walks do not look at markers -/

namespace Walk

variable {p : Pattern} {kinds : List EventKind}

/-- Two walks that are the same apart from their markers. -/
def Alike (w w' : Walk) : Prop := ∃ markers, w' = { w with markers }

theorem Alike.current {w w' : Walk} (alike : w.Alike w') : w'.current = w.current := by
  obtain ⟨markers, rfl⟩ := alike
  rfl

theorem Alike.cover {w w' : Walk} (alike : w.Alike w') : w'.cover = w.cover := by
  obtain ⟨markers, rfl⟩ := alike
  rfl

theorem Alike.allCovered {w w' : Walk} (alike : w.Alike w') : w'.allCovered = w.allCovered := by
  obtain ⟨markers, rfl⟩ := alike
  rfl

theorem Alike.endsCovered {w w' : Walk} (alike : w.Alike w') :
    w'.endsCovered = w.endsCovered := by
  rw [Walk.endsCovered, Walk.endsCovered, alike.cover, alike.current]

theorem Alike.noteCovered {w w' : Walk} (alike : w.Alike w') :
    w.noteCovered.Alike w'.noteCovered := by
  obtain ⟨markers, rfl⟩ := alike
  by_cases covering : w.isCovering = true
  · have again : isCovering { w with markers } = true := covering
    rw [Walk.noteCovered, Walk.noteCovered, if_pos covering, if_pos again]
    exact ⟨markers, rfl⟩
  · have again : ¬ isCovering { w with markers } = true := covering
    rw [Walk.noteCovered, Walk.noteCovered, if_neg covering, if_neg again]
    exact ⟨markers, rfl⟩

theorem Alike.closeSpan {w w' : Walk} (alike : w.Alike w') (stop : Nat) (isLast : Bool) :
    (w.closeSpan p kinds stop isLast).Alike (w'.closeSpan p kinds stop isLast) := by
  obtain ⟨markers, rfl⟩ := alike
  exact ⟨_, rfl⟩

theorem Alike.leave {w w' : Walk} (alike : w.Alike w') (position next : Nat) :
    (w.leave p kinds position next).Alike (w'.leave p kinds position next) := by
  by_cases stays : w.current = next
  · rw [leave_stay stays, leave_stay (alike.current.trans stays)]
    exact alike
  · rw [leave_elsewhere stays, leave_elsewhere (alike.current ▸ stays)]
    have both : (w.closeSpan p kinds position false).Alike (w'.closeSpan p kinds position false) :=
      alike.closeSpan position false
    obtain ⟨markers, same⟩ := both
    rw [same]
    exact ⟨markers, rfl⟩

theorem Alike.arrive {w w' : Walk} (alike : w.Alike w') (position next : Nat) :
    (w.arrive p kinds position next).Alike (w'.arrive p kinds position next) := by
  have left : (w.leave p kinds position next).Alike (w'.leave p kinds position next) :=
    alike.leave position next
  by_cases valid : p.isValidStep w.current next = true
  · rw [arrive_valid valid, arrive_valid (by rw [alike.current]; exact valid)]
    obtain ⟨markers, same⟩ := left.noteCovered
    rw [same]
    exact ⟨markers, rfl⟩
  · rw [arrive_invalid valid, arrive_invalid (by rw [alike.current]; exact valid)]
    obtain ⟨markers, same⟩ := left
    rw [same]
    exact ⟨markers, rfl⟩

theorem Alike.step {w w' : Walk} (alike : w.Alike w') (position next : Nat) :
    (w.step p kinds position next).Alike (w'.step p kinds position next) := by
  obtain ⟨markers, rfl⟩ := alike
  rw [step_eq_arrive, step_eq_arrive]
  exact Alike.arrive ⟨markers, rfl⟩ position next

theorem Alike.steps {w w' : Walk} (alike : w.Alike w') (position : Nat) (rest : List Nat) :
    (w.steps p kinds position rest).Alike (w'.steps p kinds position rest) := by
  induction rest generalizing w w' position with
  | nil => exact alike
  | cons next rest ih => exact ih (alike.step position next) (position + 1)

theorem alike_enter (markers markers' : List Marker) (first : Nat) :
    (enter p markers first).Alike (enter p markers' first) := by
  by_cases starts : p.isInitial first = true
  · rw [enter, enter, if_pos starts, if_pos starts]
    exact ⟨markers', rfl⟩
  · rw [enter, enter, if_neg starts, if_neg starts]
    exact ⟨markers', rfl⟩

end Walk

namespace Pattern

variable {p : Pattern}

/-- The walk along a path is the same whatever the report before says, apart from its markers. -/
theorem alike_walk? {path : List Nat} {kinds : List EventKind}
    {previous previous' : Option CheckResult} {w w' : Walk}
    (walked : p.walk? path kinds previous = some w)
    (walked' : p.walk? path kinds previous' = some w') : w.Alike w' := by
  cases path with
  | nil => cases walked
  | cons first rest =>
    obtain rfl := Option.some.inj walked
    obtain rfl := Option.some.inj walked'
    exact (((Walk.alike_enter _ _ first).steps 1 rest).closeSpan _ true).noteCovered

end Pattern

end TouchIntent
