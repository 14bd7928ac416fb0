import TouchIntent.Proofs.Pattern.Trail

/-!
# Completion along checks

A report says that the gesture has just been completed, and that it has been completed before. The
second is carried from report to report: it holds as long as, since some report with a completion,
all gestures end in final states. The first is about what is new, so checking the same trail again
finds no completion, except for a trail of one sample: its first check has no report before that
could show what is new, so a state that requires events counts as newly covered in every check of
such a trail.
-/

namespace TouchIntent

namespace CheckResult

variable {p : Pattern} {t : p.Trail} {previous : Option CheckResult} {w : Walk} {r : CheckResult}

/-- A gesture that has just been completed ends in a final state. -/
theorem endsInFinalState_of_hasJustCompleted (completed : r.hasJustCompleted = true) :
    r.endsInFinalState = true := by
  rw [hasJustCompleted, Bool.and_eq_true, Bool.and_eq_true] at completed
  exact completed.2

theorem IsReadOff.hasBeenCompleted_of_hasJustCompleted (read : r.IsReadOff t previous w)
    (completed : r.hasJustCompleted = true) : r.hasBeenCompleted = true := by
  rw [read.hasBeenCompleted, completed, Bool.or_true]

/-- Without a report before, a gesture has been completed if it has just been. -/
theorem IsReadOff.hasBeenCompleted_first (read : r.IsReadOff t none w) :
    r.hasBeenCompleted = r.hasJustCompleted := by
  rw [read.hasBeenCompleted]
  rfl

/-- A gesture has been completed if it has just been, or was before and ends in a final state. -/
theorem IsReadOff.hasBeenCompleted_iff {q : CheckResult} (read : r.IsReadOff t (some q) w)
    (latched : q.hasJustCompleted = true → q.hasBeenCompleted = true) :
    r.hasBeenCompleted = true ↔
      r.hasJustCompleted = true ∨ q.hasBeenCompleted = true ∧ r.endsInFinalState = true := by
  have before : (q.hasJustCompleted || q.hasBeenCompleted) = q.hasBeenCompleted := by
    cases completed : q.hasJustCompleted with
    | true => rw [latched completed]; rfl
    | false => rfl
  rw [read.hasBeenCompleted, Option.any_some, before, Bool.or_eq_true, Bool.and_eq_true, or_comm]

end CheckResult

namespace Pattern

variable {p : Pattern}

theorem hasBeenCompleted_report_of_hasJustCompleted (t : p.Trail) (previous : Option CheckResult)
    (completed : (p.report t previous).hasJustCompleted = true) :
    (p.report t previous).hasBeenCompleted = true := by
  obtain ⟨w, -, read, -⟩ := report_isReadOff t previous
  exact read.hasBeenCompleted_of_hasJustCompleted completed

/-- Every report in a row of reports is one of a trail. -/
theorem exists_of_mem_reports {previous : Option CheckResult} {trails : List p.Trail}
    {r : CheckResult} (member : r ∈ p.reports previous trails) :
    ∃ t ∈ trails, ∃ before, r = p.report t before := by
  induction trails generalizing previous with
  | nil => cases member
  | cons t later ih =>
    rw [reports, List.mem_cons] at member
    rcases member with same | member
    · exact ⟨t, List.mem_cons_self, previous, same⟩
    · obtain ⟨t', inside, before, same⟩ := ih member
      exact ⟨t', List.mem_cons_of_mem t inside, before, same⟩

section Since

variable {trails : List p.Trail}

/-- The first report says that the gesture has been completed if it has just been. -/
theorem hasBeenCompleted_head (some : 0 < (p.reports none trails).length) :
    ((p.reports none trails).get ⟨0, some⟩).hasBeenCompleted =
      ((p.reports none trails).get ⟨0, some⟩).hasJustCompleted := by
  cases trails with
  | nil => cases some
  | cons t later =>
    obtain ⟨w, -, read, -⟩ := report_isReadOff t none
    exact read.hasBeenCompleted_first

/-- What a report says of completion before, by the report before it. -/
theorem hasBeenCompleted_succ {previous : Option CheckResult} {n : Nat}
    (below : n + 1 < (p.reports previous trails).length) :
    ((p.reports previous trails).get ⟨n + 1, below⟩).hasBeenCompleted = true ↔
      ((p.reports previous trails).get ⟨n + 1, below⟩).hasJustCompleted = true ∨
        ((p.reports previous trails).get ⟨n, Nat.lt_of_succ_lt below⟩).hasBeenCompleted = true ∧
          ((p.reports previous trails).get ⟨n + 1, below⟩).endsInFinalState = true := by
  obtain ⟨q, earlier⟩ : ∃ q, q = (p.reports previous trails).get ⟨n, Nat.lt_of_succ_lt below⟩ :=
    ⟨_, rfl⟩
  obtain ⟨r, here⟩ : ∃ r, r = (p.reports previous trails).get ⟨n + 1, below⟩ := ⟨_, rfl⟩
  have found : (p.reports previous trails)[n]? = some q := by
    rw [earlier]
    exact List.getElem?_eq_getElem _
  have next : (p.reports previous trails)[n + 1]? = some r := by
    rw [here]
    exact List.getElem?_eq_getElem _
  rw [getElem?_reports_succ found, Option.map_eq_some_iff] at next
  obtain ⟨t, -, again⟩ := next
  obtain ⟨t', -, before, same⟩ := exists_of_mem_reports (List.mem_of_getElem? found)
  obtain ⟨w, -, read, -⟩ := report_isReadOff t (some q)
  rw [again] at read
  rw [← earlier, ← here]
  refine read.hasBeenCompleted_iff fun completed => ?_
  rw [same] at completed ⊢
  exact hasBeenCompleted_report_of_hasJustCompleted t' before completed

/-- However many trails are checked one after another, a report says that the gesture has been
completed exactly if some report up to it says that the gesture has just been completed, and from
that one on every gesture ends in a final state. -/
theorem hasBeenCompleted_iff_since (p : Pattern) (trails : List p.Trail) :
    (p.reports none trails).length = trails.length ∧
      ∀ n : Fin (p.reports none trails).length,
        ((p.reports none trails).get n).hasBeenCompleted = true ↔
          ∃ j ≤ n, ((p.reports none trails).get j).hasJustCompleted = true ∧
            ∀ k, j ≤ k → k ≤ n → ((p.reports none trails).get k).endsInFinalState = true := by
  refine ⟨length_reports none trails, ?_⟩
  rintro ⟨n, inside⟩
  induction n with
  | zero =>
    rw [hasBeenCompleted_head inside]
    constructor
    · intro completed
      refine ⟨⟨0, inside⟩, Nat.le_refl _, completed, ?_⟩
      intro k _ last
      obtain rfl : k = ⟨0, inside⟩ := Fin.ext (Nat.le_zero.1 last)
      exact CheckResult.endsInFinalState_of_hasJustCompleted completed
    · rintro ⟨j, first, completed, -⟩
      obtain rfl : j = ⟨0, inside⟩ := Fin.ext (Nat.le_zero.1 first)
      exact completed
  | succ n ih =>
    rw [hasBeenCompleted_succ inside, ih (Nat.lt_of_succ_lt inside)]
    constructor
    · rintro (completed | ⟨⟨j, before, completed, final⟩, ends⟩)
      · refine ⟨⟨n + 1, inside⟩, Nat.le_refl _, completed, ?_⟩
        intro k after last
        obtain rfl : k = ⟨n + 1, inside⟩ := Fin.ext (Nat.le_antisymm last after)
        exact CheckResult.endsInFinalState_of_hasJustCompleted completed
      · refine ⟨j, Nat.le_succ_of_le before, completed, ?_⟩
        intro k after last
        by_cases here : k.val = n + 1
        · obtain rfl : k = ⟨n + 1, inside⟩ := Fin.ext here
          exact ends
        · have below : k.val ≤ n + 1 := last
          have earlier : k.val ≤ n := by omega
          exact final k after earlier
    · rintro ⟨j, before, completed, final⟩
      by_cases here : j.val = n + 1
      · obtain rfl : j = ⟨n + 1, inside⟩ := Fin.ext here
        exact .inl completed
      · have below : j.val ≤ n + 1 := before
        have earlier : j.val ≤ n := by omega
        refine .inr ⟨⟨j, earlier, completed, ?_⟩, final ⟨n + 1, inside⟩ before (Nat.le_refl _)⟩
        intro k after last
        exact final k after (Nat.le_succ_of_le last)

end Since

/-! ## Checking a trail again -/

/-- In a state that requires no event, a release is new once. -/
theorem isNewlyCovered_again_release {state pathLength : Nat} {endedReleased finalCovered : Bool}
    {r : CheckResult} (released : r.endedReleased = endedReleased) (same : r.finalState = state) :
    isNewlyCovered [] state pathLength endedReleased finalCovered (some r) = false := by
  rw [isNewlyCovered, if_pos List.isEmpty_nil, Option.any_some, released, same, beq_self_eq_true,
    Bool.and_true]
  exact Bool.and_not_self endedReleased

/-- A state that requires events is not new if it was covered before, unless the path is of one
sample. -/
theorem isNewlyCovered_again {tokens : List EventToken} {state pathLength : Nat}
    {endedReleased finalCovered : Bool} {r : CheckResult} (demanding : tokens ≠ [])
    (covered : ((r.cover[state]?).getD 0 == 1) = finalCovered) :
    isNewlyCovered tokens state pathLength endedReleased finalCovered (some r) =
      (pathLength == 1 && finalCovered) := by
  have before : (finalCovered && (r.cover[state]?).getD 0 == 0) = false := by
    rw [← covered]
    by_cases none : (r.cover[state]?).getD 0 = 0
    · rw [none]
      rfl
    · rw [beq_eq_false_iff_ne.2 none, Bool.and_false]
  rw [isNewlyCovered, if_neg (by simpa using demanding), Option.any_some, before, Bool.or_false]

/-- A path of one sample in a state that requires events covers it newly if it covers it. -/
theorem isNewlyCovered_single {tokens : List EventToken} {state : Nat}
    {endedReleased finalCovered : Bool} {previous : Option CheckResult} (demanding : tokens ≠ []) :
    isNewlyCovered tokens state 1 endedReleased finalCovered previous = finalCovered := by
  rw [isNewlyCovered, if_neg (by simpa using demanding)]
  cases finalCovered with
  | true => rfl
  | false => cases previous <;> rfl

/-- A gesture that has been completed ends in a final state. -/
theorem endsInFinalState_of_hasBeenCompleted {t : p.Trail} {previous : Option CheckResult}
    (completed : (p.report t previous).hasBeenCompleted = true) :
    (p.report t previous).endsInFinalState = true := by
  obtain ⟨w, -, read, -⟩ := report_isReadOff t previous
  rw [read.hasBeenCompleted, Bool.or_eq_true, Bool.and_eq_true] at completed
  rcases completed with ⟨-, ends⟩ | now
  · exact ends
  · exact CheckResult.endsInFinalState_of_hasJustCompleted now

section Again

variable (t : p.Trail) (previous : Option CheckResult)

/-- Checking a trail again finds the same of the trail itself. -/
theorem report_again :
    (p.report t (some (p.report t previous))).allCovered = (p.report t previous).allCovered ∧
      (p.report t (some (p.report t previous))).endsInFinalState =
        (p.report t previous).endsInFinalState := by
  obtain ⟨w, walked, read, -⟩ := report_isReadOff t previous
  obtain ⟨w', walked', read', -⟩ := report_isReadOff t (some (p.report t previous))
  have alike := alike_walk? walked walked'
  constructor
  · rw [read'.allCovered, read.allCovered, alike.endsCovered, alike.allCovered]
  · rw [read'.endsInFinalState, read.endsInFinalState, alike.current]

/-- Checking a trail again finds a new state only if the trail is a single sample in a state that
requires events, and then if the first check did. -/
theorem justCoveredNewState_again :
    (p.report t (some (p.report t previous))).justCoveredNewState = true ↔
      (p.report t previous).justCoveredNewState = true ∧ t.path.length = 1 ∧
        p.tokens (p.report t previous).finalState ≠ [] := by
  obtain ⟨r, first⟩ : ∃ r, r = p.report t previous := ⟨_, rfl⟩
  obtain ⟨w, walked, read, -⟩ := report_isReadOff t previous
  obtain ⟨w', walked', read', -⟩ := report_isReadOff t (some (p.report t previous))
  have alike := alike_walk? walked walked'
  rw [← first] at read read' ⊢
  have released : r.endedReleased = (p.report t (some r)).endedReleased := by
    rw [read'.endedReleased, read.endedReleased, alike.cover, alike.current]
  have covered : ((r.cover[w.current]?).getD 0 == 1) = w.endsCovered := by
    rw [read.cover, Walk.endsCovered]
  rw [read'.justCoveredNewState, read.justCoveredNewState, read.finalState, alike.current,
    alike.endsCovered]
  by_cases free : p.tokens w.current = []
  · rw [free, isNewlyCovered_again_release released read.finalState]
    simp
  · rw [isNewlyCovered_again free covered]
    by_cases single : t.path.length = 1
    · rw [single, isNewlyCovered_single free]
      simp [free]
    · simp [single]

end Again

/-- Checking a trail again, given its own report, finds that the gesture has just been completed
exactly if the report says so and the trail is a single sample in a state that requires events. And
it finds that the gesture has been completed exactly if the report says so. -/
theorem completed_again_iff (p : Pattern) (t : p.Trail) (previous : Option CheckResult) :
    let r := p.report t previous
    let r' := p.report t (some r)
    (r'.hasJustCompleted = true ↔
      r.hasJustCompleted = true ∧ t.path.length = 1 ∧ p.tokens r.finalState ≠ []) ∧
      r'.hasBeenCompleted = r.hasBeenCompleted := by
  intro r r'
  obtain ⟨allCovered, ends⟩ := report_again t previous
  have again : r'.hasJustCompleted = true ↔
      r.hasJustCompleted = true ∧ t.path.length = 1 ∧ p.tokens r.finalState ≠ [] := by
    simp only [CheckResult.hasJustCompleted, Bool.and_eq_true]
    rw [justCoveredNewState_again t previous, allCovered, ends]
    tauto
  refine ⟨again, ?_⟩
  obtain ⟨w, -, read, -⟩ := report_isReadOff t (some r)
  have latched := hasBeenCompleted_report_of_hasJustCompleted t previous
  rw [Bool.eq_iff_iff, read.hasBeenCompleted_iff latched]
  constructor
  · rintro (completed | ⟨completed, -⟩)
    · exact latched (again.1 completed).1
    · exact completed
  · intro completed
    have final : r'.endsInFinalState = true :=
      ends.trans (endsInFinalState_of_hasBeenCompleted completed)
    exact .inr ⟨completed, final⟩

/-- A press, in the only state there is. -/
def press : Pattern := ⟨[⟨true, true, [⟨.down, .once⟩]⟩], [[true]], []⟩

/-- A press completes the gesture, and completes it again when nothing has happened since. -/
theorem press_completed_twice :
    ∃ r r', press.check [0] [.down] none = some r ∧ press.check [0] [.down] (some r) = some r' ∧
      r.hasJustCompleted = true ∧ r'.hasJustCompleted = true := by
  let t : press.Trail := ⟨[0], [.down], by decide, by decide⟩
  refine ⟨press.report t none, press.report t (some (press.report t none)), check_trail t none,
    check_trail t _, ?_, ?_⟩
  · cbv
  · cbv

end Pattern

end TouchIntent
