import TouchIntent.Proofs.Pattern.Walk

/-!
# Markers along checks

A check goes on from the markers of the check before it. It changes what is noted in them, and never
what they are attached to. So however many checks of one pattern follow each other, the markers are
those of the pattern in their order, and every state that a marker is attached to is one whose
visits the walk along the path counts.
-/

namespace TouchIntent

/-- What a marker is, apart from what is noted in it. -/
def Marker.identity (m : Marker) : Nat × MarkerTarget := (m.index, m.target)

namespace Pattern

variable (p : Pattern)

/-- The markers that a check goes on from: those of the check before, if there are as many. -/
def markersAfter : Option CheckResult → List Marker
  | some r => if r.markers.length = p.markers.length then r.markers else p.markers
  | none => p.markers

/-- The walk that a check takes along a path. -/
def walk? (path : List Nat) (kinds : List EventKind) (previous : Option CheckResult) :
    Option Walk :=
  match path with
  | [] => none
  | first :: rest =>
    some (((Walk.enter p (p.markersAfter previous) first).steps p kinds 1 rest).closeSpan p kinds
      (first :: rest).length true).noteCovered

/-- The results that checks of a pattern come to, each given such a result from before or none. What
rank the gesture has among others may be noted in a result afterwards. -/
inductive Reports : CheckResult → Prop
  | check {path : List Nat} {kinds : List EventKind} {previous : Option CheckResult}
      {r : CheckResult} (before : ∀ q, previous = some q → Reports q)
      (checked : p.check path kinds previous = some r) : Reports r
  | rank {r : CheckResult} (isMostLikely hasJustBecomeMostLikely : Bool) (reported : Reports r) :
      Reports { r with isMostLikely, hasJustBecomeMostLikely }

end Pattern

namespace Walk

/-- A walk goes on with the same markers, and counts visits of the same states. -/
structure Keeps (w w' : Walk) : Prop where
  markers : w'.markers.map Marker.identity = w.markers.map Marker.identity
  visits : w'.visits.length = w.visits.length

variable {w w' w'' : Walk} {p : Pattern} {kinds : List EventKind}

theorem Keeps.refl (w : Walk) : w.Keeps w := ⟨rfl, rfl⟩

theorem Keeps.trans (first : w.Keeps w') (second : w'.Keeps w'') : w.Keeps w'' :=
  ⟨second.markers.trans first.markers, second.visits.trans first.visits⟩

theorem map_identity_markEvents (state : Nat) (tallies : List Tally) (isLast : Bool)
    (markers : List Marker) :
    (markEvents state tallies isLast markers).map Marker.identity =
      markers.map Marker.identity := by
  rw [markEvents]
  split
  · rfl
  · rw [List.map_map]
    refine List.map_congr_left fun m _ => ?_
    simp only [Function.comp_apply]
    split
    · split <;> rfl
    · rfl

theorem keeps_closeSpan (w : Walk) (stop : Nat) (isLast : Bool) :
    w.Keeps (w.closeSpan p kinds stop isLast) :=
  ⟨map_identity_markEvents _ _ _ _, rfl⟩

theorem keeps_noteCovered (w : Walk) : w.Keeps w.noteCovered := by
  rw [noteCovered]
  split <;> exact ⟨rfl, rfl⟩

theorem keeps_startOver (w : Walk) : w.Keeps w.startOver := ⟨rfl, by simp [startOver]⟩

theorem keeps_arrive (w : Walk) (position next : Nat) :
    w.Keeps (w.arrive p kinds position next) := by
  have left : w.Keeps (w.leave p kinds position next) := by
    by_cases stays : w.current = next
    · rw [leave_stay stays]
      exact .refl w
    · rw [leave_elsewhere stays]
      exact ⟨(w.keeps_closeSpan position false).markers, rfl⟩
  apply left.trans
  by_cases valid : p.isValidStep w.current next = true
  · rw [arrive_valid valid]
    exact ⟨(keeps_noteCovered _).markers, (keeps_noteCovered _).visits⟩
  · rw [arrive_invalid valid]
    exact ⟨(keeps_startOver _).markers, (keeps_startOver _).visits⟩

theorem keeps_step (w : Walk) (position next : Nat) : w.Keeps (w.step p kinds position next) := by
  have counted : w.Keeps { w with visits := w.visits.modify next (· + 1) } :=
    ⟨rfl, List.length_modify _ _ _⟩
  rw [step_eq_arrive]
  exact counted.trans (keeps_arrive _ position next)

theorem keeps_steps (w : Walk) (position : Nat) (rest : List Nat) :
    w.Keeps (w.steps p kinds position rest) := by
  induction rest generalizing w position with
  | nil => exact .refl w
  | cons next rest ih => exact (w.keeps_step position next).trans (ih _ _)

/-- A walk begins with the given markers, and counts visits of every state of the pattern. -/
theorem enter_spec (p : Pattern) (markers : List Marker) (first : Nat) :
    (enter p markers first).markers = markers ∧ (enter p markers first).visits.length = p.size := by
  by_cases starts : p.isInitial first = true
  · simp [enter, starts]
  · simp [enter, starts, startOver]

end Walk

theorem map_identity_markStates (visits : List Nat) (finalState : Nat)
    (previous : Option CheckResult) (markers : List Marker) :
    (markStates visits finalState previous markers).map Marker.identity =
      markers.map Marker.identity := by
  rw [markStates, List.map_map]
  refine List.map_congr_left fun m _ => ?_
  simp only [Function.comp_apply]
  split <;> rfl

namespace Pattern

variable {p : Pattern} {path : List Nat} {kinds : List EventKind} {previous : Option CheckResult}

/-- The walk of a check has the markers that it goes on from, and counts visits of every state. -/
theorem walk?_spec {w : Walk} (walked : p.walk? path kinds previous = some w) :
    w.markers.map Marker.identity = (p.markersAfter previous).map Marker.identity ∧
      w.visits.length = p.size := by
  cases path with
  | nil => cases walked
  | cons first rest =>
    obtain rfl := Option.some.inj walked
    obtain ⟨markers, visits⟩ := Walk.enter_spec p (p.markersAfter previous) first
    have along : (Walk.enter p (p.markersAfter previous) first).Keeps
        (((Walk.enter p (p.markersAfter previous) first).steps p kinds 1 rest).closeSpan p kinds
          (first :: rest).length true).noteCovered :=
      ((Walk.keeps_steps _ 1 rest).trans (Walk.keeps_closeSpan _ _ true)).trans
        (Walk.keeps_noteCovered _)
    obtain ⟨kept, counted⟩ := along
    exact ⟨kept.trans (congrArg _ markers), counted.trans visits⟩

/-- A check has a result exactly for a path that is not empty and stays in the pattern. -/
theorem check_eq_none_iff : p.check path kinds previous = none ↔
    path = [] ∨ ∃ s ∈ path, p.size ≤ s := by
  cases path with
  | nil => simp [check]
  | cons first rest =>
    by_cases outside : (first :: rest).any (p.size ≤ ·) = true
    · simp only [check, if_pos outside]
      simpa using outside
    · simp only [check, if_neg outside]
      simpa using outside

/-- The result of a check has the markers of its walk. -/
theorem markers_of_check {r : CheckResult} (checked : p.check path kinds previous = some r) :
    ∃ w, p.walk? path kinds previous = some w ∧
      r.markers = markStates w.visits w.current previous w.markers := by
  cases path with
  | nil => cases checked
  | cons first rest =>
    by_cases outside : (first :: rest).any (p.size ≤ ·) = true
    · simp only [check, if_pos outside] at checked
      cases checked
    · simp only [check, if_neg outside] at checked
      obtain rfl := Option.some.inj checked
      exact ⟨_, rfl, rfl⟩

/-- A result has the markers that the check went on from. -/
theorem map_identity_of_check {r : CheckResult} (checked : p.check path kinds previous = some r) :
    r.markers.map Marker.identity = (p.markersAfter previous).map Marker.identity := by
  obtain ⟨w, walked, markers⟩ := markers_of_check checked
  rw [markers, map_identity_markStates]
  exact (walk?_spec walked).1

/-- Every result of a pattern has the markers of the pattern. -/
theorem Reports.map_identity {r : CheckResult} (reported : p.Reports r) :
    r.markers.map Marker.identity = p.markers.map Marker.identity := by
  induction reported with
  | @check path kinds previous r before checked ih =>
    rw [map_identity_of_check checked]
    cases previous with
    | none => rfl
    | some q =>
      rw [markersAfter]
      split
      · exact ih q rfl
      · rfl
  | rank _ _ _ ih => exact ih

end Pattern

end TouchIntent
