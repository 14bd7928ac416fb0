import TouchIntent.Proofs.Pattern.Runs

/-!
# The completion check in one pass

The walk along a path knows, at every position, the runs that are closed, by how often they cover
each state, and where the run that is not closed yet began. At the end of the path it closes that
run, and has counted what there is to count in the path as a whole.
-/

namespace TouchIntent

/-- What the walk knows when it has come along the states seen. -/
structure Walk.Knows (p : Pattern) (kinds : List EventKind) (seen : List Nat) (w : Walk) :
    Prop where
  current : seen.getLast? = some w.current
  broken : w.broken = (p.lastBreak? seen).isSome
  /-- Some runs are closed, and the last one goes on. -/
  spans : ∃ closed, p.runs seen kinds = closed ++ [(seen.zip kinds).drop w.spanStart] ∧
    w.cover = (List.range p.size).map (p.timesCovered closed)
  begun : w.spanStart < seen.length
  held : ∀ e ∈ (seen.zip kinds).drop w.spanStart, e.1 = w.current
  latched : w.allCovered = true → w.isCovering = true

namespace Walk

variable {p : Pattern} {kinds : List EventKind} {seen : List Nat} {w : Walk}

/-- The events of the run that is not closed yet. -/
theorem events_eq (along : seen.length ≤ kinds.length) (start : Nat) :
    eventsBetween kinds start seen.length = ((seen.zip kinds).drop start).map Prod.snd := by
  have events : (seen.zip kinds).map Prod.snd = kinds.take seen.length := by
    rw [List.zip_eq_zip_take_min, Nat.min_eq_left along, List.take_length]
    refine List.map_snd_zip ?_
    rw [List.length_take]
    exact Nat.min_le_left _ _
  rw [eventsBetween, List.map_drop, events]

/-- A further run counts for the state that it stays in, if it meets the requirements. -/
theorem timesCovered_concat {closed : List (List (Nat × EventKind))}
    {run : List (Nat × EventKind)} {state : Nat} (some : run ≠ [])
    (held : ∀ e ∈ run, e.1 = state) (s : Nat) :
    p.timesCovered (closed ++ [run]) s = p.timesCovered closed s +
      if s = state ∧ (matchSpan (p.tokens state) (run.map Prod.snd)).matched then 1 else 0 := by
  rw [Pattern.timesCovered, List.countP_append, List.countP_singleton]
  by_cases same : s = state
  · subst same
    have stays : run.all (fun e => e.1 == s) = true := by
      rw [List.all_eq_true]
      intro e member
      rw [held e member, beq_self_eq_true]
    simp only [stays, Bool.true_and, true_and]
    rfl
  · obtain ⟨e, rest, rfl⟩ := List.exists_cons_of_ne_nil some
    have leaves : (e.1 == s) = false := by
      rw [held e List.mem_cons_self]
      exact beq_eq_false_iff_ne.2 (Ne.symm same)
    simp only [List.all_cons, leaves, Bool.false_and, same, false_and, if_false]
    rfl

/-- Closing a run counts it for its state, and for no other. -/
theorem cover_closeSpan {closed : List (List (Nat × EventKind))} {run : List (Nat × EventKind)}
    {stop : Nat} (some : run ≠ []) (held : ∀ e ∈ run, e.1 = w.current)
    (events : eventsBetween kinds w.spanStart stop = run.map Prod.snd)
    (cover : w.cover = (List.range p.size).map (p.timesCovered closed)) (isLast : Bool) :
    (w.closeSpan p kinds stop isLast).cover =
      (List.range p.size).map (p.timesCovered (closed ++ [run])) := by
  have counted (s : Nat) := @timesCovered_concat p closed run w.current some held s
  simp only [closeSpan, events, cover]
  refine List.ext_getElem ?_ fun s before after => ?_
  · split <;> simp
  · rw [List.getElem_map, List.getElem_range, counted]
    by_cases matched : (matchSpan (p.tokens w.current) (run.map Prod.snd)).matched = true
    · simp only [matched, if_true, and_true, List.getElem_modify, List.getElem_map,
        List.getElem_range, eq_comm]
      split <;> rfl
    · simp [matched]

/-- The step forgets what was known about covering, or notes it. -/
theorem latched_noteCovered (latched : w.allCovered = true → w.isCovering = true) :
    w.noteCovered.allCovered = true → w.noteCovered.isCovering = true := by
  rw [noteCovered]
  split
  · next covering => exact fun _ => covering
  · exact latched

@[simp] theorem noteCovered_cover : w.noteCovered.cover = w.cover := by
  rw [noteCovered]
  split <;> rfl

@[simp] theorem noteCovered_current : w.noteCovered.current = w.current := by
  rw [noteCovered]
  split <;> rfl

@[simp] theorem noteCovered_spanStart : w.noteCovered.spanStart = w.spanStart := by
  rw [noteCovered]
  split <;> rfl

@[simp] theorem noteCovered_broken : w.noteCovered.broken = w.broken := by
  rw [noteCovered]
  split <;> rfl

/-- Closing a run uncovers nothing. -/
theorem isCovering_closeSpan {stop : Nat} (isLast : Bool) (covering : w.isCovering = true) :
    (w.closeSpan p kinds stop isLast).isCovering = true := by
  rw [isCovering, List.all_eq_true] at covering ⊢
  intro c member
  simp only [closeSpan] at member
  split at member
  · obtain ⟨s, inRange, rfl⟩ := List.mem_iff_getElem.1 member
    rw [List.length_modify] at inRange
    have before := covering _ (List.getElem_mem inRange)
    rw [List.getElem_modify]
    split
    · simp
    · exact before
  · exact covering c member

theorem knows_enter {markers : List Marker} {first : Nat} {kind : EventKind}
    (happened : kinds[0]? = some kind) : Knows p kinds [first] (enter p markers first) := by
  obtain ⟨rest, rfl⟩ : ∃ rest, kinds = kind :: rest := by
    cases kinds with
    | nil => cases happened
    | cons k rest => exact ⟨rest, by simpa using happened⟩
  have live : (p.lastBreak? [first]).getD 0 = 0 := Nat.lt_one_iff.1 (Pattern.lastBreak_lt (by simp))
  have broken : (p.lastBreak? [first]).isSome = !p.isInitial first := by
    cases starts : p.isInitial first <;>
      simp [Pattern.lastBreak?, List.range_succ, Pattern.breaksAt, starts]
  have runs : p.runs [first] (kind :: rest) = [[(first, kind)]] := by
    rw [Pattern.runs, live]
    rfl
  have zeros : List.replicate p.size 0 = (List.range p.size).map (p.timesCovered []) := by
    refine List.ext_getElem (by simp) fun s before after => ?_
    simp [Pattern.timesCovered]
  by_cases starts : p.isInitial first = true
  · rw [enter, if_pos starts]
    exact ⟨rfl, by rw [broken, starts]; rfl, ⟨[], runs, zeros⟩, Nat.one_pos, by simp, by simp⟩
  · rw [enter, if_neg starts]
    refine ⟨rfl, by simp [broken, starts, startOver], ⟨[], runs, ?_⟩, Nat.one_pos,
      by simp [startOver], by simp [startOver]⟩
    rw [← zeros]
    simp [startOver]

/-- One step of the walk, apart from counting how often it was in each state. -/
def arrive (p : Pattern) (kinds : List EventKind) (w : Walk) (position next : Nat) : Walk :=
  let w' :=
    if w.current = next then w
    else { w.closeSpan p kinds position false with spanStart := position }
  let w' := if p.isValidStep w.current next then w'.noteCovered else w'.startOver
  { w' with current := next }

theorem step_eq_arrive (position next : Nat) :
    w.step p kinds position next =
      arrive p kinds { w with visits := w.visits.modify next (· + 1) } position next :=
  rfl

/-- The walk about to go on: its span is closed if it goes to another state. -/
def leave (p : Pattern) (kinds : List EventKind) (w : Walk) (position next : Nat) : Walk :=
  if w.current = next then w
  else { w.closeSpan p kinds position false with spanStart := position }

theorem leave_stay {position next : Nat} (stays : w.current = next) :
    w.leave p kinds position next = w :=
  if_pos stays

theorem leave_elsewhere {position next : Nat} (goes : w.current ≠ next) :
    w.leave p kinds position next =
      { w.closeSpan p kinds position false with spanStart := position } :=
  if_neg goes

theorem arrive_valid {position next : Nat} (valid : p.isValidStep w.current next = true) :
    w.arrive p kinds position next =
      { (w.leave p kinds position next).noteCovered with current := next } := by
  rw [arrive, if_pos valid]
  rfl

theorem arrive_invalid {position next : Nat} (invalid : ¬ p.isValidStep w.current next = true) :
    w.arrive p kinds position next =
      { (w.leave p kinds position next).startOver with current := next } := by
  rw [arrive, if_neg invalid]
  rfl

namespace Knows

variable {next : Nat} {kind : EventKind}

/-- What is new along a path that goes on. -/
theorem drop_zip_concat (happened : kinds[seen.length]? = some kind) :
    ((seen ++ [next]).zip kinds).drop seen.length = [(next, kind)] := by
  have along := (List.getElem?_eq_some_iff.1 happened).1.le
  rw [Pattern.zip_concat happened]
  apply List.drop_left'
  rw [List.length_zip, Nat.min_eq_left along]

/-- The run that is not closed yet is not empty. -/
theorem run_ne_nil (knows : Knows p kinds seen w) (along : seen.length ≤ kinds.length) :
    (seen.zip kinds).drop w.spanStart ≠ [] := by
  intro empty
  have length := List.drop_eq_nil_iff.1 empty
  rw [List.length_zip, Nat.min_eq_left along] at length
  exact absurd knows.begun (Nat.not_lt.2 length)

/-- Closing the run counts all runs of the states seen. -/
theorem closed (knows : Knows p kinds seen w) (along : seen.length ≤ kinds.length)
    (isLast : Bool) :
    (w.closeSpan p kinds seen.length isLast).cover =
      (List.range p.size).map (p.timesCovered (p.runs seen kinds)) := by
  obtain ⟨closed, split, cover⟩ := knows.spans
  rw [split]
  exact cover_closeSpan (knows.run_ne_nil along) knows.held (events_eq along _) cover isLast

/-- The walk that stays in its state. -/
theorem arrive_stay (knows : Knows p kinds seen w)
    (valid : p.isValidStep w.current w.current = true)
    (happened : kinds[seen.length]? = some kind) :
    Knows p kinds (seen ++ [w.current]) (w.arrive p kinds seen.length w.current) := by
  have before := (List.getElem?_eq_some_iff.1 happened).1
  have begun := knows.begun
  have zipped : ((seen ++ [w.current]).zip kinds).drop w.spanStart =
      (seen.zip kinds).drop w.spanStart ++ [(w.current, kind)] := by
    rw [Pattern.zip_concat happened]
    refine List.drop_append_of_le_length ?_
    rw [List.length_zip]
    omega
  obtain ⟨closed, split, cover⟩ := knows.spans
  have arrived : w.arrive p kinds seen.length w.current = w.noteCovered := by
    rw [arrive_valid valid, leave_stay rfl, noteCovered]
    split <;> rfl
  rw [arrived]
  refine ⟨by simp, ?_, ⟨closed, ?_, by rw [noteCovered_cover, cover]⟩, ?_, ?_,
    latched_noteCovered knows.latched⟩
  · rw [noteCovered_broken, Pattern.lastBreak?_concat knows.current, if_pos valid, knows.broken]
  · rw [noteCovered_spanStart, zipped]
    exact Pattern.runs_stay knows.current valid happened split knows.held
  · rw [noteCovered_spanStart, List.length_append]
    exact Nat.lt_add_right _ begun
  · rw [noteCovered_spanStart, noteCovered_current, zipped]
    intro e member
    rcases List.mem_append.1 member with earlier | new
    · exact knows.held e earlier
    · rw [List.mem_singleton.1 new]

/-- The walk that goes to another state by a valid step. -/
theorem arrive_leave (knows : Knows p kinds seen w) (differ : w.current ≠ next)
    (valid : p.isValidStep w.current next = true) (happened : kinds[seen.length]? = some kind) :
    Knows p kinds (seen ++ [next]) (w.arrive p kinds seen.length next) := by
  have along := (List.getElem?_eq_some_iff.1 happened).1.le
  have zipped : ((seen ++ [next]).zip kinds).drop seen.length = [(next, kind)] :=
    drop_zip_concat happened
  obtain ⟨w', closing⟩ : ∃ w', w' = { w.closeSpan p kinds seen.length false with
    spanStart := seen.length } := ⟨_, rfl⟩
  have latched : w'.allCovered = true → w'.isCovering = true := by
    rw [closing]
    exact fun covered => isCovering_closeSpan false (knows.latched covered)
  have arrived : w.arrive p kinds seen.length next = { w'.noteCovered with current := next } := by
    rw [arrive_valid valid, leave_elsewhere differ, closing]
  rw [arrived]
  refine ⟨by simp, ?_, ⟨p.runs seen kinds, ?_, ?_⟩, ?_, ?_, latched_noteCovered latched⟩
  · rw [Pattern.lastBreak?_concat knows.current, if_pos valid, noteCovered_broken, closing]
    exact knows.broken
  · rw [noteCovered_spanStart, closing, zipped]
    exact Pattern.runs_leave knows.current valid differ happened
  · rw [noteCovered_cover, closing]
    exact knows.closed along false
  · rw [noteCovered_spanStart, closing, List.length_append]
    exact Nat.lt_succ_self _
  · rw [noteCovered_spanStart, closing, zipped]
    intro e member
    rw [List.mem_singleton.1 member]

/-- The walk that takes a step that is not valid. -/
theorem arrive_break (knows : Knows p kinds seen w) (differ : w.current ≠ next)
    (invalid : p.isValidStep w.current next = false)
    (happened : kinds[seen.length]? = some kind) :
    Knows p kinds (seen ++ [next]) (w.arrive p kinds seen.length next) := by
  have along := (List.getElem?_eq_some_iff.1 happened).1.le
  have zipped : ((seen ++ [next]).zip kinds).drop seen.length = [(next, kind)] :=
    drop_zip_concat happened
  obtain ⟨w', closing⟩ : ∃ w', w' = { w.closeSpan p kinds seen.length false with
    spanStart := seen.length } := ⟨_, rfl⟩
  have arrived : w.arrive p kinds seen.length next = { w'.startOver with current := next } := by
    rw [arrive_invalid (by simp [invalid]), leave_elsewhere differ, closing]
  have cover : w'.startOver.cover = (List.range p.size).map (p.timesCovered []) := by
    have length : w'.cover.length = p.size := by
      rw [closing]
      exact (congrArg List.length (knows.closed along false)).trans (by simp)
    refine List.ext_getElem (by simp [startOver, length]) fun s before after => ?_
    simp [startOver, Pattern.timesCovered]
  rw [arrived]
  refine ⟨by simp, ?_, ⟨[], ?_, cover⟩, ?_, ?_, by simp [startOver]⟩
  · rw [Pattern.lastBreak?_concat knows.current, if_neg (by simp [invalid])]
    rfl
  · rw [closing]
    exact (Pattern.runs_break knows.current invalid happened).trans (by rw [← zipped]; rfl)
  · rw [closing, List.length_append]
    exact Nat.lt_succ_self _
  · rw [closing]
    show ∀ e ∈ ((seen ++ [next]).zip kinds).drop seen.length, e.1 = next
    intro e member
    rw [zipped] at member
    rw [List.mem_singleton.1 member]

/-- What the walk knows, it knows one position further. -/
theorem step (knows : Knows p kinds seen w)
    (reflexive : ∀ s < p.size, p.isValidStep s s = true) (inRange : next < p.size)
    (happened : kinds[seen.length]? = some kind) :
    Knows p kinds (seen ++ [next]) (w.step p kinds seen.length next) := by
  rw [step_eq_arrive]
  have knows : Knows p kinds seen { w with visits := w.visits.modify next (· + 1) } :=
    ⟨knows.current, knows.broken, knows.spans, knows.begun, knows.held, knows.latched⟩
  by_cases same : w.current = next
  · subst same
    exact knows.arrive_stay (reflexive _ inRange) happened
  · by_cases valid : p.isValidStep w.current next = true
    · exact knows.arrive_leave same valid happened
    · exact knows.arrive_break same (Bool.not_eq_true _ ▸ valid) happened

/-- At the end of a path the walk knows the whole path. -/
theorem steps (knows : Knows p kinds seen w)
    (reflexive : ∀ s < p.size, p.isValidStep s s = true) {rest : List Nat}
    (inRange : ∀ s ∈ rest, s < p.size) (along : (seen ++ rest).length ≤ kinds.length) :
    Knows p kinds (seen ++ rest) (w.steps p kinds seen.length rest) := by
  induction rest generalizing seen w with
  | nil =>
    rw [List.append_nil]
    exact knows
  | cons next rest ih =>
    have before : seen.length < kinds.length := by
      rw [List.length_append, List.length_cons] at along
      omega
    have further := knows.step reflexive (inRange next List.mem_cons_self)
      (List.getElem?_eq_getElem before)
    have whole : seen ++ next :: rest = seen ++ [next] ++ rest := by simp
    rw [whole] at along ⊢
    have after := ih further (fun s member => inRange s (List.mem_cons_of_mem _ member)) along
    rwa [List.length_append, List.length_singleton] at after

/-- Closing the last run and looking once more whether every state is covered. -/
theorem finish (knows : Knows p kinds seen w) (along : seen.length ≤ kinds.length) {w' : Walk}
    (finished : w' = (w.closeSpan p kinds seen.length true).noteCovered) :
    w'.cover = (List.range p.size).map (p.timesCovered (p.runs seen kinds)) ∧
      w'.broken = (p.lastBreak? seen).isSome ∧ seen.getLast? = some w'.current ∧
      (w'.allCovered = true ↔ w'.isCovering = true) := by
  have latched : (w.closeSpan p kinds seen.length true).allCovered = true →
      (w.closeSpan p kinds seen.length true).isCovering = true :=
    fun covered => isCovering_closeSpan true (knows.latched covered)
  subst finished
  refine ⟨?_, ?_, ?_, latched_noteCovered latched, fun covering => ?_⟩
  · rw [noteCovered_cover]
    exact knows.closed along true
  · rw [noteCovered_broken]
    exact knows.broken
  · rw [noteCovered_current]
    exact knows.current
  · rw [isCovering, noteCovered_cover] at covering
    rw [noteCovered, if_pos (show isCovering _ = true from covering)]

end Knows

end Walk

namespace Pattern

variable {p : Pattern} {path : List Nat} {kinds : List EventKind}

/-- What a check reads off the walk, once its last run is closed. -/
theorem check_reads {first : Nat} {rest : List Nat} (inRange : ∀ s ∈ first :: rest, s < p.size)
    (previous : Option CheckResult) :
    ∃ markers w r, w = (((Walk.enter p markers first).steps p kinds 1 rest).closeSpan p kinds
        (first :: rest).length true).noteCovered ∧
      p.check (first :: rest) kinds previous = some r ∧ r.cover = w.cover ∧
      r.broken = w.broken ∧ r.finalState = w.current ∧
      r.allCovered =
        (if p.size = 1 then (w.cover[w.current]?).getD 0 == 1 else w.allCovered) ∧
      r.endedReleased = (kinds[(first :: rest).length - 1]? == some .up &&
        decide (0 < (w.cover[w.current]?).getD 0)) := by
  have inside : ¬ (first :: rest).any (p.size ≤ ·) = true := by
    rw [List.any_eq_true]
    rintro ⟨s, member, outside⟩
    exact absurd (inRange s member) (Nat.not_lt.2 (of_decide_eq_true outside))
  simp only [check, if_neg inside]
  exact ⟨_, _, _, rfl, rfl, rfl, rfl, rfl, rfl, rfl⟩

/-- A path in a pattern of one state is one run. -/
theorem timesCovered_le_one (single : p.size = 1) (inRange : ∀ s ∈ path, s < p.size) (s : Nat) :
    p.timesCovered (p.runs path kinds) s ≤ 1 := by
  have still (e : Nat × EventKind) (member : e ∈ path.zip kinds) : e.1 = 0 := by
    have state := inRange e.1 (List.of_mem_zip (show (e.1, e.2) ∈ path.zip kinds from member)).1
    omega
  have length : (p.runs path kinds).length ≤ 1 := by
    rw [runs]
    by_cases empty : (path.zip kinds).drop ((p.lastBreak? path).getD 0) = []
    · rw [empty]
      simp
    · rw [List.splitBy_of_isChain empty]
      · simp
      · refine List.Pairwise.isChain (List.pairwise_of_forall_mem_list fun a ha b hb => ?_)
        rw [still a (List.mem_of_mem_drop ha), still b (List.mem_of_mem_drop hb)]
        rfl
  exact List.countP_le_length.trans length

/-- The completion check finds what there is to find in the path as a whole, whatever the check
before has found: how often the runs after the last break cover each state, whether there was a
break, whether every state is covered, where the path ends, and whether it ends in a release in a
covered state. -/
theorem check_spec (p : Pattern) (reflexive : ∀ s < p.size, p.isValidStep s s = true)
    {path : List Nat} (nonempty : path ≠ []) (inRange : ∀ s ∈ path, s < p.size)
    {kinds : List EventKind} (length : kinds.length = path.length)
    (previous : Option CheckResult) :
    ∃ r, p.check path kinds previous = some r ∧
      r.cover = (List.range p.size).map (p.timesCovered (p.runs path kinds)) ∧
      r.broken = (p.lastBreak? path).isSome ∧
      (r.allCovered = true ↔ ∀ s < p.size, 0 < p.timesCovered (p.runs path kinds) s) ∧
      path.getLast? = some r.finalState ∧
      (r.endedReleased = true ↔ kinds.getLast? = some .up ∧
        0 < p.timesCovered (p.runs path kinds) r.finalState) := by
  cases path with
  | nil => exact absurd rfl nonempty
  | cons first rest =>
    obtain ⟨markers, w, r, walked, checked, cover, broken, final, allCovered, released⟩ :=
      check_reads inRange previous
    obtain ⟨kind, happened⟩ : ∃ kind, kinds[0]? = some kind := by
      cases kinds with
      | nil => cases length
      | cons kind _ => exact ⟨kind, rfl⟩
    have entered : Walk.Knows p kinds [first] (Walk.enter p markers first) :=
      Walk.knows_enter happened
    have knows := entered.steps reflexive
      (fun s member => inRange s (List.mem_cons_of_mem _ member)) length.ge
    obtain ⟨counts, breaks, last, covering⟩ := knows.finish length.ge walked
    rw [List.singleton_append] at counts breaks last
    have current : w.current < p.size := inRange _ (List.mem_of_getLast? last)
    have finalCover : (w.cover[w.current]?).getD 0 =
        p.timesCovered (p.runs (first :: rest) kinds) w.current := by
      rw [counts, List.getElem?_map, List.getElem?_range current]
      rfl
    have each : w.isCovering = true ↔
        ∀ s < p.size, 0 < p.timesCovered (p.runs (first :: rest) kinds) s := by
      rw [Walk.isCovering, counts]
      simp
    refine ⟨r, checked, cover.trans counts, broken.trans breaks, ?_, final ▸ last, ?_⟩
    · rw [allCovered, ← each]
      by_cases single : p.size = 1
      · rw [if_pos single, finalCover, each, single]
        have most : p.timesCovered (p.runs (first :: rest) kinds) w.current ≤ 1 :=
          timesCovered_le_one single inRange w.current
        have only : w.current = 0 := by omega
        rw [only] at most ⊢
        rw [beq_iff_eq]
        constructor
        · intro once s first
          obtain rfl : s = 0 := by omega
          omega
        · intro covered
          have := covered 0 Nat.one_pos
          omega
      · rw [if_neg single, covering]
    · rw [released, finalCover, final, ← length, ← List.getLast?_eq_getElem?]
      simp

/-- A press in the first state and a release in the second; there is no way back. -/
def pressAndRelease : Pattern :=
  ⟨[⟨true, false, [⟨.down, .once⟩]⟩, ⟨false, true, [⟨.up, .once⟩]⟩],
    [[true, true], [false, true]], []⟩

theorem check_spec_pressAndRelease :
    pressAndRelease.lastBreak? [0, 1, 0, 1] = some 2 ∧
      ∃ r, pressAndRelease.check [0, 1, 0, 1] [.down, .up, .down, .up] none = some r ∧
        r.cover = (List.range pressAndRelease.size).map (pressAndRelease.timesCovered
          (pressAndRelease.runs [0, 1, 0, 1] [.down, .up, .down, .up])) ∧
        r.broken = (pressAndRelease.lastBreak? [0, 1, 0, 1]).isSome ∧
        (r.allCovered = true ↔ ∀ s < pressAndRelease.size, 0 < pressAndRelease.timesCovered
          (pressAndRelease.runs [0, 1, 0, 1] [.down, .up, .down, .up]) s) ∧
        [0, 1, 0, 1].getLast? = some r.finalState ∧
        (r.endedReleased = true ↔ [EventKind.down, .up, .down, .up].getLast? = some .up ∧
          0 < pressAndRelease.timesCovered
            (pressAndRelease.runs [0, 1, 0, 1] [.down, .up, .down, .up]) r.finalState) :=
  ⟨by decide, pressAndRelease.check_spec (by decide) (by decide) (by decide) rfl none⟩

end Pattern

end TouchIntent
