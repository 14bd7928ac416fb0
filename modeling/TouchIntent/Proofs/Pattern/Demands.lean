import TouchIntent.Proofs.Pattern.Language
import TouchIntent.Proofs.Pattern.Markers

/-!
# Requirements that can be met

A repeated event takes what it can and passes over the moves in between, and the matcher never goes
back. So a required event of the same kind, or a move, is out of reach if nothing but an optional
move stands between the two: the repeated event takes whatever was meant for it. That is the only
way in which a list of requirements cannot be met. Any other list is met by some span, and a state
of a compiled gesture can be covered exactly if its requirements can be met.
-/

namespace TouchIntent

/-- An event of the kind that repeats takes what is required next, whether at once or past moves
that need not happen. -/
def Swallows (kind : EventKind) (later : List EventToken) : Prop :=
  ∃ passed u rest, later = passed ++ u :: rest ∧ (∀ v ∈ passed, v = ⟨.move, .zeroOrMore⟩) ∧
    u.times ≠ .zeroOrMore ∧ (u.kind = kind ∨ u.kind = .move)

/-- Some repeated event takes what is required after it. -/
def Obstructed (tokens : List EventToken) : Prop :=
  ∃ before t later, tokens = before ++ t :: later ∧ t.times ≠ .once ∧ Swallows t.kind later

section Recursion

variable {kind : EventKind} {t u : EventToken} {later : List EventToken}

@[simp] theorem not_swallows_nil : ¬ Swallows kind [] := by
  rintro ⟨passed, u, rest, whole, -⟩
  exact List.append_ne_nil_of_right_ne_nil passed (List.cons_ne_nil u rest) whole.symm

theorem swallows_cons : Swallows kind (u :: later) ↔
    u.times ≠ .zeroOrMore ∧ (u.kind = kind ∨ u.kind = .move) ∨
      u = ⟨.move, .zeroOrMore⟩ ∧ Swallows kind later := by
  constructor
  · rintro ⟨passed, v, rest, whole, moves, required, taken⟩
    cases passed with
    | nil =>
      obtain ⟨rfl, -⟩ := List.cons.inj whole
      exact .inl ⟨required, taken⟩
    | cons m passed =>
      obtain ⟨rfl, rest⟩ := List.cons.inj whole
      rw [List.forall_mem_cons] at moves
      exact .inr ⟨moves.1, passed, v, _, rest, moves.2, required, taken⟩
  · rintro (⟨required, taken⟩ | ⟨rfl, passed, v, rest, rfl, moves, required, taken⟩)
    · exact ⟨[], u, later, rfl, by simp, required, taken⟩
    · exact ⟨_ :: passed, v, rest, rfl, List.forall_mem_cons.2 ⟨rfl, moves⟩, required, taken⟩

@[simp] theorem not_obstructed_nil : ¬ Obstructed [] := by
  rintro ⟨before, t, later, whole, -⟩
  exact List.append_ne_nil_of_right_ne_nil before (List.cons_ne_nil t later) whole.symm

theorem obstructed_cons : Obstructed (t :: later) ↔
    t.times ≠ .once ∧ Swallows t.kind later ∨ Obstructed later := by
  constructor
  · rintro ⟨before, r, after, whole, repeated, swallows⟩
    cases before with
    | nil =>
      obtain ⟨rfl, rfl⟩ := List.cons.inj whole
      exact .inl ⟨repeated, swallows⟩
    | cons b before => exact .inr ⟨before, r, after, (List.cons.inj whole).2, repeated, swallows⟩
  · rintro (⟨repeated, swallows⟩ | ⟨before, r, after, rfl, repeated, swallows⟩)
    · exact ⟨[], t, later, rfl, repeated, swallows⟩
    · exact ⟨t :: before, r, after, rfl, repeated, swallows⟩

instance Swallows.decidable (kind : EventKind) : DecidablePred (Swallows kind)
  | [] => isFalse not_swallows_nil
  | _ :: later =>
    have := decidable kind later
    decidable_of_iff _ swallows_cons.symm

instance Obstructed.decidable : DecidablePred Obstructed
  | [] => isFalse not_obstructed_nil
  | _ :: later =>
    have := decidable later
    decidable_of_iff _ obstructed_cons.symm

end Recursion

/-! ## What the matcher does with an event -/

section Matcher

variable {t : Tally} {later : List EventToken} {e : EventKind} {span : List EventKind}

/-- A repeated event takes an event of its kind and stays at hand. -/
theorem matchFrom_repeated (repeated : t.token.times ≠ .once) :
    matchFrom t later (t.token.kind :: span) =
      matchFrom { t with count := t.count + 1 } later span := by
  have noJitter : ¬ (t.token.kind = .move ∧ t.token.kind ≠ .move) := fun both => both.2 both.1
  rw [matchFrom.eq_def]
  exact (if_neg noJitter).trans ((if_pos rfl).trans (if_neg repeated))

/-- An event that happens once leaves what comes after it to the next requirement. -/
theorem matched_once {u : EventToken} (once : t.token.times = .once) :
    (matchFrom t (u :: later) (t.token.kind :: span)).matched =
      (matchFrom ⟨u, 0⟩ later span).matched := by
  have noJitter : ¬ (t.token.kind = .move ∧ t.token.kind ≠ .move) := fun both => both.2 both.1
  rw [matchFrom, if_neg noJitter, if_pos rfl, if_pos once]
  rfl

/-- An event that is neither taken nor passed over is met by the next requirement, if the one at
hand owes nothing any more. -/
theorem matched_other_iff (fresh : t.token.times = .once → t.count = 0)
    (differs : t.token.kind ≠ e) (still : e ≠ .move) :
    (matchFrom t later (e :: span)).matched = true ↔ t.owed.times = .zeroOrMore ∧
      ∃ u others, later = u :: others ∧ (matchFrom ⟨u, 0⟩ others (e :: span)).matched = true := by
  have passed : matchFrom t later (e :: span) =
      if t.token.times = .once ∨ ¬ t.isMet then
        ⟨false, t :: later.map fun token => ⟨token, 0⟩⟩
      else
        match later with
        | [] => ⟨false, [t]⟩
        | next :: others => (matchFrom ⟨next, 0⟩ others (e :: span)).push t := by
    rw [matchFrom.eq_def]
    exact (if_neg fun jitter => still jitter.1).trans (if_neg differs)
  rw [passed]
  by_cases optional : t.owed.times = .zeroOrMore
  · have repeated : ¬ t.token.times = .once := by
      rw [← Tally.owed_repeated fresh, optional]
      decide
    have met : t.isMet = true := Tally.isMet_iff.2 optional
    rw [if_neg (by simp [repeated, met])]
    cases later with
    | nil => simp
    | cons u others => simp [optional]
  · have unmet : ¬ t.isMet = true := fun met => optional (Tally.isMet_iff.1 met)
    rw [if_pos (.inr unmet)]
    simp [optional]

end Matcher

/-! ## What is met is not obstructed -/

section Sound

variable {kind e : EventKind} {u : EventToken} {later : List EventToken}

/-- Where nothing has to happen, nothing is swallowed. -/
theorem not_swallows_of_optional (optional : ∀ v ∈ later, v.times = .zeroOrMore) :
    ¬ Swallows kind later := by
  rintro ⟨passed, v, rest, rfl, -, required, -⟩
  exact required (optional v (by simp))

theorem not_obstructed_of_optional (optional : ∀ v ∈ later, v.times = .zeroOrMore) :
    ¬ Obstructed later := by
  rintro ⟨before, t, after, rfl, -, swallows⟩
  exact not_swallows_of_optional (fun v member => optional v (by simp [member])) swallows

/-- An event that is neither of the kind nor a move is not taken together with the kind. -/
theorem kind_ne_of_taken (taken : u.kind = kind ∨ u.kind = .move) (differs : e ≠ kind)
    (still : e ≠ .move) : u.kind ≠ e := by
  rintro rfl
  exact taken.elim differs still

/-- Requirements that are met from an event on that is neither of the kind nor a move do not go on
with anything that the kind swallows. -/
theorem not_swallows_of_matched {span : List EventKind} (differs : e ≠ kind) (still : e ≠ .move)
    (matched : (matchFrom ⟨u, 0⟩ later (e :: span)).matched = true) :
    ¬ Swallows kind (u :: later) := by
  have optional_or (v : EventToken) (others : List EventToken) (other : v.kind ≠ e)
      (met : (matchFrom ⟨v, 0⟩ others (e :: span)).matched = true) :=
    (matched_other_iff (fun _ => rfl) other still).1 met
  induction later generalizing u with
  | nil =>
    rw [swallows_cons]
    rintro (⟨required, taken⟩ | ⟨-, nothing⟩)
    · exact required (optional_or u [] (kind_ne_of_taken taken differs still) matched).1
    · exact not_swallows_nil nothing
  | cons v others ih =>
    rw [swallows_cons]
    rintro (⟨required, taken⟩ | ⟨rfl, swallows⟩)
    · exact required (optional_or u _ (kind_ne_of_taken taken differs still) matched).1
    · obtain ⟨-, w, rest, next, onward⟩ := optional_or _ _ (Ne.symm still) matched
      obtain ⟨rfl, rfl⟩ := List.cons.inj next
      exact ih onward swallows

/-- Requirements that some span meets are not obstructed. -/
theorem not_obstructed_of_matched (current : Tally) (later : List EventToken)
    (span : List EventKind) (matched : (matchFrom current later span).matched = true) :
    ¬ Obstructed (current.token :: later) := by
  fun_induction matchFrom current later span with
  | case1 current later =>
    simp only [Bool.and_eq_true, List.all_eq_true, List.mem_map] at matched
    have optional : ∀ v ∈ later, v.times = .zeroOrMore := fun v member => by
      have met := Tally.isMet_iff.1 (matched.2 ⟨v, 0⟩ ⟨v, member, rfl⟩)
      rwa [Tally.owed_new] at met
    rw [obstructed_cons]
    exact not_or.2 ⟨fun swallowed => not_swallows_of_optional optional swallowed.2,
      not_obstructed_of_optional optional⟩
  | case2 current later event rest jitter ih => exact ih matched
  | case3 current rest taken once _ => simp [obstructed_cons, once]
  | case4 current rest taken once next others _ ih =>
    rw [obstructed_cons]
    exact not_or.2 ⟨fun swallowed => swallowed.1 once, ih matched⟩
  | case5 current later rest taken repeated _ ih => exact ih matched
  | case6 current later event rest jitter differs unmet => cases matched
  | case7 current event rest jitter differs met => cases matched
  | case8 current event rest jitter differs met next others ih =>
    have still := ne_move_of_not_taken jitter differs
    rw [obstructed_cons]
    exact not_or.2 ⟨fun swallowed =>
      not_swallows_of_matched (Ne.symm differs) still matched swallowed.2, ih matched⟩

end Sound

/-! ## What is not obstructed is met -/

/-- Requirements that nothing has happened for yet are met by a span that begins with the event. -/
def BeginsWith (e : EventKind) (tokens : List EventToken) : Prop :=
  ∃ t later span, tokens = t :: later ∧ (matchFrom ⟨t, 0⟩ later (e :: span)).matched = true

section Complete

variable {kind e : EventKind} {t u : EventToken} {later : List EventToken}

/-- Requirements that follow an event which repeats can be met once it has happened: nothing else
has to happen, or they go on with something that it does not take. -/
def CanFollow (kind : EventKind) (later : List EventToken) : Prop :=
  (∀ v ∈ later, v.times = .zeroOrMore) ∨ ∃ e, e ≠ kind ∧ e ≠ .move ∧ BeginsWith e later

/-- An optional event of another kind is passed over. -/
theorem BeginsWith.pass (begins : BeginsWith e later) (optional : u.times = .zeroOrMore)
    (differs : u.kind ≠ e) (still : e ≠ .move) : BeginsWith e (u :: later) := by
  obtain ⟨t, others, span, rfl, matched⟩ := begins
  refine ⟨u, t :: others, span, rfl, (matched_other_iff (fun _ => rfl) differs still).2 ?_⟩
  exact ⟨optional, t, others, rfl, matched⟩

theorem CanFollow.pass (follows : CanFollow kind later) (optional : u.times = .zeroOrMore)
    (passed : u.kind = kind ∨ u.kind = .move) : CanFollow kind (u :: later) := by
  rcases follows with all | ⟨e, differs, still, begins⟩
  · exact .inl (List.forall_mem_cons.2 ⟨optional, all⟩)
  · have other := kind_ne_of_taken passed differs still
    exact .inr ⟨e, differs, still, begins.pass optional other still⟩

/-- An event that happens once, and then the requirements after it. -/
theorem beginsWith_once (once : t.times = .once)
    (next : later = [] ∨ ∃ e, BeginsWith e later) : BeginsWith t.kind (t :: later) := by
  rcases next with rfl | ⟨e, u, others, span, rfl, matched⟩
  · refine ⟨t, [], [], rfl, ?_⟩
    simp [matchFrom, once]
  · exact ⟨t, u :: others, e :: span, rfl, (matched_once (t := ⟨t, 0⟩) once).trans matched⟩

/-- An event that repeats happens once, and then the requirements after it. -/
theorem beginsWith_repeated (repeated : t.times ≠ .once) (follows : CanFollow t.kind later) :
    BeginsWith t.kind (t :: later) := by
  rcases follows with all | ⟨e, differs, still, u, others, span, rfl, matched⟩
  · refine ⟨t, later, [], rfl, ?_⟩
    rw [matchFrom_repeated (t := ⟨t, 0⟩) repeated, matchFrom]
    simpa [Tally.isMet_iff, EventToken.further] using all
  · refine ⟨t, u :: others, e :: span, rfl, ?_⟩
    rw [matchFrom_repeated (t := ⟨t, 0⟩) repeated]
    refine (matched_other_iff (fun once => absurd once repeated) (Ne.symm differs) still).2 ?_
    exact ⟨rfl, u, others, rfl, matched⟩

/-- Requirements that are not obstructed can be met, also after an event that swallows none of
them. -/
theorem met_of_not_obstructed {tokens : List EventToken} (clear : ¬ Obstructed tokens) :
    (∀ t later, tokens = t :: later → BeginsWith t.kind tokens) ∧
      ∀ kind, ¬ Swallows kind tokens → CanFollow kind tokens := by
  induction tokens with
  | nil => exact ⟨fun t later none => absurd none (by simp), fun _ _ => .inl (by simp)⟩
  | cons t later ih =>
    rw [obstructed_cons, not_or, not_and] at clear
    obtain ⟨fresh, follows⟩ := ih clear.2
    have begins : BeginsWith t.kind (t :: later) := by
      by_cases once : t.times = .once
      · refine beginsWith_once once ?_
        cases later with
        | nil => exact .inl rfl
        | cons u others => exact .inr ⟨u.kind, fresh u others rfl⟩
      · exact beginsWith_repeated once (follows t.kind (clear.1 once))
    refine ⟨fun u others same => ?_, fun kind free => ?_⟩
    · obtain ⟨rfl, -⟩ := List.cons.inj same
      exact begins
    · rw [swallows_cons, not_or, not_and, not_and] at free
      by_cases optional : t.times = .zeroOrMore
      · by_cases move : t.kind = .move
        · have jitter : t = ⟨.move, .zeroOrMore⟩ := by
            rw [← move, ← optional]
          exact (follows kind (free.2 jitter)).pass optional (.inr move)
        · by_cases same : t.kind = kind
          · have repeated : t.times ≠ .once := by simp [optional]
            exact (follows kind (same ▸ clear.1 repeated)).pass optional (.inl same)
          · exact .inr ⟨t.kind, same, move, begins⟩
      · obtain ⟨differs, still⟩ := not_or.1 (free.1 optional)
        exact .inr ⟨t.kind, differs, still, begins⟩

end Complete

theorem not_obstructed_of_matchSpan {tokens : List EventToken} {span : List EventKind}
    (matched : (matchSpan tokens span).matched = true) : ¬ Obstructed tokens := by
  cases tokens with
  | nil => exact not_obstructed_nil
  | cons t later =>
    cases span with
    | nil => cases matched
    | cons e rest => exact not_obstructed_of_matched ⟨t, 0⟩ later (e :: rest) matched

/-- Requirements can be met by a span exactly if they are not obstructed. -/
theorem exists_matched_iff (tokens : List EventToken) :
    (∃ span, span ≠ [] ∧ (matchSpan tokens span).matched = true) ↔ ¬ Obstructed tokens := by
  constructor
  · rintro ⟨span, -, matched⟩
    exact not_obstructed_of_matchSpan matched
  · intro clear
    cases tokens with
    | nil => exact ⟨[.down], List.cons_ne_nil _ _, rfl⟩
    | cons t later =>
      obtain ⟨u, others, span, same, matched⟩ := (met_of_not_obstructed clear).1 t later rfl
      obtain ⟨rfl, rfl⟩ := List.cons.inj same
      exact ⟨t.kind :: span, List.cons_ne_nil _ _, matched⟩

/-! ## States that can be covered -/

namespace Walk

variable {p : Pattern} {kinds : List EventKind} {w : Walk}

/-- No state whose requirements are obstructed counts as covered. -/
def IsEarned (p : Pattern) (w : Walk) : Prop :=
  ∀ s, w.cover[s]?.any (0 < ·) = true → ¬ Obstructed (p.tokens s)

theorem isEarned_of_zeros (zeros : ∀ n ∈ w.cover, n = 0) : w.IsEarned p := by
  intro s covered
  obtain ⟨n, found, positive⟩ := (Option.any_eq_true _ _).1 covered
  have none := zeros n (List.mem_of_getElem? found)
  simp [none] at positive

theorem isEarned_startOver (w : Walk) : w.startOver.IsEarned p :=
  isEarned_of_zeros (by simp [startOver])

theorem isEarned_enter (markers : List Marker) (first : Nat) :
    (enter p markers first).IsEarned p := by
  rw [enter]
  split
  · exact isEarned_of_zeros fun n member => (List.mem_replicate.1 member).2
  · exact isEarned_startOver _

theorem IsEarned.noteCovered (earned : w.IsEarned p) : w.noteCovered.IsEarned p := by
  rw [IsEarned, noteCovered_cover]
  exact earned

/-- A run that is closed covers its state only if its events meet the requirements. -/
theorem IsEarned.closeSpan (earned : w.IsEarned p) (stop : Nat) (isLast : Bool) :
    (w.closeSpan p kinds stop isLast).IsEarned p := by
  intro s covered
  by_cases matched : (matchSpan (p.tokens w.current)
      (eventsBetween kinds w.spanStart stop)).matched = true
  · by_cases same : w.current = s
    · exact same ▸ not_obstructed_of_matchSpan matched
    · simp only [Walk.closeSpan, matched, if_true, List.getElem?_modify, if_neg same] at covered
      refine earned s ?_
      simpa using covered
  · simp only [Walk.closeSpan, if_neg matched] at covered
    exact earned s covered

theorem IsEarned.step (earned : w.IsEarned p) (position next : Nat) :
    (w.step p kinds position next).IsEarned p := by
  obtain ⟨left, leaving⟩ : ∃ left : Walk, left = if w.current = next then
      { w with visits := w.visits.modify next (· + 1) }
      else { Walk.closeSpan { w with visits := w.visits.modify next (· + 1) } p kinds position false
        with spanStart := position } := ⟨_, rfl⟩
  have closed : left.IsEarned p := by
    rw [leaving]
    split
    · exact earned
    · exact IsEarned.closeSpan (w := { w with visits := w.visits.modify next (· + 1) }) earned
        position false
  simp only [Walk.step, ← leaving]
  split
  · exact closed.noteCovered
  · exact left.isEarned_startOver

theorem IsEarned.steps (earned : w.IsEarned p) (position : Nat) (rest : List Nat) :
    (w.steps p kinds position rest).IsEarned p := by
  induction rest generalizing w position with
  | nil => exact earned
  | cons next rest ih => exact ih (earned.step position next) (position + 1)

/-- A walk that stays in its state goes on with the same run, and covers what it covered. -/
theorem steps_replicate (valid : p.isValidStep w.current w.current = true)
    (kinds : List EventKind) (position n : Nat) :
    let w' := w.steps p kinds position (List.replicate n w.current)
    w'.current = w.current ∧ w'.spanStart = w.spanStart ∧ w'.cover = w.cover := by
  induction n generalizing w position with
  | zero => exact ⟨rfl, rfl, rfl⟩
  | succ n ih =>
    obtain ⟨next, stepped⟩ : ∃ next, next = w.step p kinds position w.current := ⟨_, rfl⟩
    have stays : next.current = w.current ∧ next.spanStart = w.spanStart ∧
        next.cover = w.cover := by
      rw [stepped]
      simp [Walk.step, valid]
    obtain ⟨current, spanStart, cover⟩ := stays
    obtain ⟨last, begun, covered⟩ := ih (w := next) (by rw [current]; exact valid) (position + 1)
    rw [current] at last begun covered
    simp only [List.replicate_succ, Walk.steps, ← stepped]
    exact ⟨last, begun.trans spanStart, covered.trans cover⟩

end Walk

namespace Pattern

variable {p : Pattern} {s : Nat}

/-- A check covers no state whose requirements are obstructed. -/
theorem not_obstructed_of_isCovered {path : List Nat} {kinds : List EventKind}
    {previous : Option CheckResult} {r : CheckResult}
    (checked : p.check path kinds previous = some r) (covered : r.isCovered s = true) :
    ¬ Obstructed (p.tokens s) := by
  cases path with
  | nil => cases checked
  | cons first rest =>
    have inRange : ∀ t ∈ first :: rest, t < p.size := by
      intro t member
      by_contra outside
      have none : p.check (first :: rest) kinds previous = none :=
        check_eq_none_iff.2 (.inr ⟨t, member, Nat.not_lt.1 outside⟩)
      rw [checked] at none
      cases none
    obtain ⟨markers, w, r', walked, again, cover, -⟩ :=
      @check_reads p kinds first rest inRange previous
    obtain rfl : r' = r := Option.some.inj (again.symm.trans checked)
    have earned : w.IsEarned p := by
      rw [walked]
      exact (((Walk.isEarned_enter markers first).steps 1 rest).closeSpan _ true).noteCovered
    refine earned s ?_
    rw [← cover]
    exact covered

/-- A gesture that stays in one state covers it, if what happens there meets its requirements. -/
theorem exists_isCovered_of_matched (inRange : s < p.size) (valid : p.isValidStep s s = true)
    {span : List EventKind} (nonempty : span ≠ [])
    (matched : (matchSpan (p.tokens s) span).matched = true) :
    ∃ r, p.check (List.replicate span.length s) span none = some r ∧ r.isCovered s = true := by
  obtain ⟨e, others, rfl⟩ := List.exists_cons_of_ne_nil nonempty
  have inside : ∀ t ∈ s :: List.replicate others.length s, t < p.size := by
    intro t member
    rw [← List.replicate_succ] at member
    rw [List.eq_of_mem_replicate member]
    exact inRange
  obtain ⟨markers, w, r, walked, checked, cover, -⟩ :=
    @check_reads p (e :: others) s (List.replicate others.length s) inside none
  obtain ⟨entered, enters⟩ : ∃ entered, entered = Walk.enter p markers s := ⟨_, rfl⟩
  have begun : entered.current = s ∧ entered.spanStart = 0 ∧ entered.cover.length = p.size := by
    rw [enters, Walk.enter]
    split <;> simp [Walk.startOver]
  obtain ⟨rfl, start, length⟩ := begun
  obtain ⟨current, spanStart, covers⟩ :=
    Walk.steps_replicate valid (e :: others) 1 others.length
  refine ⟨r, checked, ?_⟩
  have whole : eventsBetween (e :: others) 0 (entered.current ::
      List.replicate others.length entered.current).length = e :: others := by
    simp [eventsBetween]
  rw [CheckResult.isCovered, cover, walked, Walk.noteCovered_cover, ← enters]
  simp only [Walk.closeSpan, current, spanStart, start, covers, whole, matched, if_true]
  rw [List.getElem?_modify_eq, List.getElem?_eq_getElem (by rw [length]; exact inRange)]
  simp

/-- A state that a gesture may stay in can be covered exactly if its requirements are not
obstructed. -/
theorem exists_isCovered_iff (inRange : s < p.size) (valid : p.isValidStep s s = true) :
    (∃ path kinds previous r, p.check path kinds previous = some r ∧ r.isCovered s = true) ↔
      ¬ Obstructed (p.tokens s) := by
  constructor
  · rintro ⟨path, kinds, previous, r, checked, covered⟩
    exact not_obstructed_of_isCovered checked covered
  · intro clear
    obtain ⟨span, nonempty, matched⟩ := (exists_matched_iff _).2 clear
    obtain ⟨r, checked, covered⟩ := exists_isCovered_of_matched inRange valid nonempty matched
    exact ⟨_, _, _, r, checked, covered⟩

end Pattern

end TouchIntent
