import Mathlib.Data.List.Forall2
import TouchIntent.Pattern.Match

/-!
# The spans that a state accepts

The matcher takes a repeated event as long as it can, passes over moves that nothing asks for, and
never goes back. Nothing is lost by that as long as a list of requirements is *unambiguous*: what a
repeated event takes could not have been meant for a requirement that may come next. Then the
matcher accepts a span exactly if it can be cut into one part for each requirement, and moves at the
end.
-/

namespace TouchIntent

/-- The part of a span is one that the requirement may take. A press or a release may have moves
before it, or among its repetitions; a move that is required once takes nothing else. -/
def EventToken.Spells (t : EventToken) (part : List EventKind) : Prop :=
  match t.times with
  | .once => ∃ jitter, part = jitter ++ [t.kind] ∧ (∀ e ∈ jitter, e = .move) ∧
      (t.kind = .move → jitter = [])
  | .oneOrMore => (∀ e ∈ part, e = t.kind ∨ e = .move) ∧ t.kind ∈ part
  | .zeroOrMore => ∀ e ∈ part, e = t.kind ∨ e = .move

/-- Wherever a repeated event may be followed, past events that need not happen, by another one,
that is of another kind, and it is no move. -/
def Unambiguous (tokens : List EventToken) : Prop :=
  ∀ i j : Fin tokens.length, i < j → (tokens.get i).times ≠ .once →
    (∀ k : Fin tokens.length, i < k → k < j → (tokens.get k).times = .zeroOrMore) →
      (tokens.get j).kind ≠ (tokens.get i).kind ∧
        ((tokens.get i).kind ≠ .move → (tokens.get j).kind ≠ .move)

instance : DecidablePred Unambiguous := fun tokens =>
  inferInstanceAs (Decidable (∀ i j : Fin tokens.length, i < j → (tokens.get i).times ≠ .once →
    (∀ k : Fin tokens.length, i < k → k < j → (tokens.get k).times = .zeroOrMore) →
      (tokens.get j).kind ≠ (tokens.get i).kind ∧
        ((tokens.get i).kind ≠ .move → (tokens.get j).kind ≠ .move)))

namespace EventToken

variable {t : EventToken} {part : List EventKind} {e : EventKind}

theorem Spells.of_cons (spells : t.Spells (e :: part)) : e = t.kind ∨ e = .move := by
  rw [Spells] at spells
  cases times : t.times with
  | once =>
    rw [times] at spells
    obtain ⟨jitter, whole, moves, -⟩ := spells
    cases jitter with
    | nil => exact .inl (List.cons.inj whole).1
    | cons m jitter =>
      obtain ⟨rfl, -⟩ := List.cons.inj whole
      exact .inr (moves e List.mem_cons_self)
  | oneOrMore =>
    rw [times] at spells
    exact spells.1 e List.mem_cons_self
  | zeroOrMore =>
    rw [times] at spells
    exact spells e List.mem_cons_self

/-- Only an event that need not happen takes nothing. -/
theorem spells_nil : t.Spells [] ↔ t.times = .zeroOrMore := by
  rw [Spells]
  cases t.times <;> simp

/-- A move before a press or a release is passed over. -/
theorem spells_jitter (still : t.kind ≠ .move) : t.Spells (.move :: part) ↔ t.Spells part := by
  rw [Spells, Spells]
  cases t.times with
  | once =>
    constructor
    · rintro ⟨jitter, whole, moves, -⟩
      cases jitter with
      | nil => exact absurd (List.cons.inj whole).1.symm still
      | cons m jitter =>
        exact ⟨jitter, (List.cons.inj whole).2,
          fun e member => moves e (List.mem_cons_of_mem _ member), fun move => absurd move still⟩
    · rintro ⟨jitter, rfl, moves, -⟩
      exact ⟨.move :: jitter, rfl, by simpa using moves, fun move => absurd move still⟩
  | oneOrMore => simp [still]
  | zeroOrMore => simp

/-- An event that happens once takes nothing after it. -/
theorem spells_once (once : t.times = .once) : t.Spells (t.kind :: part) ↔ part = [] := by
  rw [Spells, once]
  constructor
  · rintro ⟨jitter, whole, moves, none⟩
    cases jitter with
    | nil => exact (List.cons.inj whole).2
    | cons m jitter =>
      obtain ⟨kind, -⟩ := List.cons.inj whole
      exact absurd (none (kind.trans (moves m List.mem_cons_self))) (List.cons_ne_nil _ _)
  · rintro rfl
    exact ⟨[], rfl, by simp, fun _ => rfl⟩

/-- The requirement that is left of a repeated event after it has happened. -/
def further (t : EventToken) : EventToken := { t with times := .zeroOrMore }

/-- A repeated event may happen any number of times once it has happened. -/
theorem spells_repeated (repeated : t.times ≠ .once) :
    t.Spells (t.kind :: part) ↔ t.further.Spells part := by
  rw [Spells, Spells, further]
  cases times : t.times with
  | once => exact absurd times repeated
  | oneOrMore => simp
  | zeroOrMore => simp

end EventToken

/-- The span is spelled by the requirements, one after another, and by moves at its end; there are
none after a move that is required last. -/
def SpelledBefore (last : EventToken) : List EventToken → List EventKind → Prop
  | [], span => (∀ e ∈ span, e = .move) ∧ (last.kind = .move → span = [])
  | t :: later, span => ∃ part rest, span = part ++ rest ∧ t.Spells part ∧
      SpelledBefore last later rest

/-- What comes first among the requirements that may be up next is no move, and of another kind. -/
def Clear (kind : EventKind) : List EventToken → Prop
  | [] => True
  | u :: later => u.kind ≠ kind ∧ u.kind ≠ .move ∧ (u.times = .zeroOrMore → Clear kind later)

/-- No repeated event takes what may be meant for a later one. -/
def Separated : List EventToken → Prop
  | [] => True
  | t :: later => (t.times ≠ .once → Clear t.kind later) ∧ Separated later

namespace Unambiguous

variable {t : EventToken} {later : List EventToken}

theorem tail (unambiguous : Unambiguous (t :: later)) : Unambiguous later := by
  intro i j before repeated skipped
  refine unambiguous i.succ j.succ (Fin.succ_lt_succ_iff.2 before) repeated ?_
  intro k after below
  cases k using Fin.cases with
  | zero => exact absurd after (Fin.not_lt_zero _)
  | succ k => exact skipped k (Fin.succ_lt_succ_iff.1 after) (Fin.succ_lt_succ_iff.1 below)

theorem clear_of_reached {kind : EventKind} (reached : ∀ j : Fin later.length,
    (∀ k < j, (later.get k).times = .zeroOrMore) →
      (later.get j).kind ≠ kind ∧ (kind ≠ .move → (later.get j).kind ≠ .move)) :
    Clear kind later := by
  induction later with
  | nil => trivial
  | cons u later ih =>
    obtain ⟨differs, still⟩ :=
      reached ⟨0, Nat.succ_pos _⟩ fun k below => absurd below (Nat.not_lt_zero _)
    refine ⟨differs, fun move => ?_, fun skipped => ih fun j before => ?_⟩
    · by_cases same : kind = .move
      · exact differs (move.trans same.symm)
      · exact still same move
    · refine reached j.succ fun k below => ?_
      cases k using Fin.cases with
      | zero => exact skipped
      | succ k => exact before k (Fin.succ_lt_succ_iff.1 below)

theorem clear (unambiguous : Unambiguous (t :: later)) (repeated : t.times ≠ .once) :
    Clear t.kind later := by
  refine clear_of_reached fun j before => ?_
  refine unambiguous ⟨0, Nat.succ_pos _⟩ j.succ (Fin.succ_pos j) repeated fun k after below => ?_
  cases k using Fin.cases with
  | zero => exact absurd after (Nat.lt_irrefl _)
  | succ k => exact before k (Fin.succ_lt_succ_iff.1 below)

theorem separated {tokens : List EventToken} (unambiguous : Unambiguous tokens) :
    Separated tokens := by
  induction tokens with
  | nil => trivial
  | cons t later ih => exact ⟨unambiguous.clear, ih unambiguous.tail⟩

end Unambiguous

section Spelled

variable {last t : EventToken} {later : List EventToken} {span : List EventKind}

/-- An empty span lacks nothing exactly if nothing has to happen. -/
theorem spelledBefore_nil {tokens : List EventToken} :
    SpelledBefore last tokens [] ↔ ∀ t ∈ tokens, t.times = .zeroOrMore := by
  induction tokens with
  | nil => simp [SpelledBefore]
  | cons t later ih =>
    rw [List.forall_mem_cons, ← ih, ← EventToken.spells_nil, SpelledBefore]
    constructor
    · rintro ⟨part, rest, whole, spells, spelled⟩
      obtain ⟨rfl, rfl⟩ := List.append_eq_nil_iff.1 whole.symm
      exact ⟨spells, spelled⟩
    · rintro ⟨spells, spelled⟩
      exact ⟨[], [], rfl, spells, spelled⟩

/-- A span that does not begin with anything the first requirement takes is left to the others. -/
theorem spelledBefore_cons {e : EventKind} : SpelledBefore last (t :: later) (e :: span) ↔
    (t.times = .zeroOrMore ∧ SpelledBefore last later (e :: span)) ∨
      ∃ part rest, span = part ++ rest ∧ t.Spells (e :: part) ∧ SpelledBefore last later rest := by
  rw [SpelledBefore]
  constructor
  · rintro ⟨part, rest, whole, spells, spelled⟩
    cases part with
    | nil =>
      obtain rfl : e :: span = rest := whole
      exact .inl ⟨EventToken.spells_nil.1 spells, spelled⟩
    | cons a part =>
      obtain ⟨rfl, rfl⟩ := List.cons.inj whole
      exact .inr ⟨part, rest, rfl, spells, spelled⟩
  · rintro (⟨optional, spelled⟩ | ⟨part, rest, rfl, spells, spelled⟩)
    · exact ⟨[], e :: span, rfl, EventToken.spells_nil.2 optional, spelled⟩
    · exact ⟨e :: part, rest, rfl, spells, spelled⟩

/-- What a repeated event can take is not needed later: it is a move, and may be left out. -/
theorem SpelledBefore.drop {kind e : EventKind} (clear : Clear kind later)
    (taken : e = kind ∨ e = .move) (spelled : SpelledBefore last later (e :: span)) :
    e = .move ∧ SpelledBefore last later span := by
  induction later with
  | nil =>
    obtain ⟨moves, none⟩ := spelled
    refine ⟨moves e List.mem_cons_self, fun a member => moves a (List.mem_cons_of_mem _ member), ?_⟩
    intro move
    exact absurd (none move) (List.cons_ne_nil _ _)
  | cons u later ih =>
    obtain ⟨differs, still, next⟩ := clear
    rcases spelledBefore_cons.1 spelled with ⟨optional, left⟩ | ⟨part, rest, rfl, spells, others⟩
    · obtain ⟨move, dropped⟩ := ih (next optional) left
      exact ⟨move, [], span, rfl, EventToken.spells_nil.2 optional, dropped⟩
    · have move : e = .move := by
        rcases spells.of_cons with same | move
        · rcases taken with again | move
          · exact absurd (same.symm.trans again) differs
          · exact move
        · exact move
      subst move
      exact ⟨rfl, part, rest, rfl, (EventToken.spells_jitter still).1 spells, others⟩

/-- A move that nothing asks for may be left out of a span. -/
theorem spelledBefore_jitter (still : t.kind ≠ .move)
    (clear : t.times ≠ .once → Clear t.kind later) :
    SpelledBefore last (t :: later) (.move :: span) ↔ SpelledBefore last (t :: later) span := by
  rw [spelledBefore_cons]
  constructor
  · rintro (⟨optional, spelled⟩ | ⟨part, rest, rfl, spells, spelled⟩)
    · have repeated : t.times ≠ .once := by simp [optional]
      exact ⟨[], span, rfl, EventToken.spells_nil.2 optional,
        (spelled.drop (clear repeated) (.inr rfl)).2⟩
    · exact ⟨part, rest, rfl, (EventToken.spells_jitter still).1 spells, spelled⟩
  · rintro ⟨part, rest, rfl, spells, spelled⟩
    exact .inr ⟨part, rest, rfl, (EventToken.spells_jitter still).2 spells, spelled⟩

/-- An event that happens once leaves the rest of the span to the later requirements. -/
theorem spelledBefore_once (once : t.times = .once) :
    SpelledBefore last (t :: later) (t.kind :: span) ↔ SpelledBefore last later span := by
  rw [spelledBefore_cons]
  constructor
  · rintro (⟨optional, -⟩ | ⟨part, rest, rfl, spells, spelled⟩)
    · rw [once] at optional
      cases optional
    · rwa [(EventToken.spells_once once).1 spells, List.nil_append]
  · intro spelled
    exact .inr ⟨[], span, rfl, (EventToken.spells_once once).2 rfl, spelled⟩

/-- A repeated event that happens may happen again. -/
theorem spelledBefore_repeated (repeated : t.times ≠ .once) (clear : Clear t.kind later) :
    SpelledBefore last (t :: later) (t.kind :: span) ↔
      SpelledBefore last (t.further :: later) span := by
  rw [spelledBefore_cons]
  constructor
  · rintro (⟨-, spelled⟩ | ⟨part, rest, rfl, spells, spelled⟩)
    · exact ⟨[], span, rfl, EventToken.spells_nil.2 rfl, (spelled.drop clear (.inl rfl)).2⟩
    · exact ⟨part, rest, rfl, (EventToken.spells_repeated repeated).1 spells, spelled⟩
  · rintro ⟨part, rest, rfl, spells, spelled⟩
    exact .inr ⟨part, rest, rfl, (EventToken.spells_repeated repeated).2 spells, spelled⟩

/-- An event that the requirement at hand does not take is left to the later ones. -/
theorem spelledBefore_other {e : EventKind} (differs : t.kind ≠ e) (still : e ≠ .move) :
    SpelledBefore last (t :: later) (e :: span) ↔
      t.times = .zeroOrMore ∧ SpelledBefore last later (e :: span) := by
  rw [spelledBefore_cons, or_iff_left_iff_imp]
  rintro ⟨part, rest, -, spells, -⟩
  rcases spells.of_cons with same | move
  · exact absurd same.symm differs
  · exact absurd move still

/-- A span is spelled if it can be cut into a part for each requirement, and moves at the end. -/
theorem spelledBefore_iff_parts {tokens : List EventToken} : SpelledBefore last tokens span ↔
    ∃ parts rest, span = parts.flatten ++ rest ∧ List.Forall₂ EventToken.Spells tokens parts ∧
      (∀ e ∈ rest, e = .move) ∧ (last.kind = .move → rest = []) := by
  induction tokens generalizing span with
  | nil =>
    constructor
    · rintro ⟨moves, none⟩
      exact ⟨[], span, rfl, .nil, moves, none⟩
    · rintro ⟨parts, rest, rfl, spells, moves, none⟩
      cases spells
      exact ⟨moves, none⟩
  | cons t later ih =>
    constructor
    · rintro ⟨part, rest, rfl, spells, spelled⟩
      obtain ⟨parts, rest, rfl, others, trailing⟩ := ih.1 spelled
      exact ⟨part :: parts, rest, by simp, .cons spells others, trailing⟩
    · rintro ⟨parts, rest, rfl, spells, trailing⟩
      cases spells with
      | @cons _ part _ parts spells others =>
        exact ⟨part, parts.flatten ++ rest, by simp, spells,
          ih.2 ⟨parts, rest, rfl, others, trailing⟩⟩

end Spelled

/-- What is still required of an event after it has happened as often as tallied. -/
def Tally.owed (t : Tally) : EventToken := if 0 < t.count then t.token.further else t.token

namespace Tally

variable {t : Tally}

@[simp] theorem owed_kind : t.owed.kind = t.token.kind := by
  rw [owed]
  split <;> rfl

@[simp] theorem owed_new (token : EventToken) : Tally.owed ⟨token, 0⟩ = token := rfl

@[simp] theorem owed_taken (token : EventToken) (count : Nat) :
    Tally.owed ⟨token, count + 1⟩ = token.further := if_pos (Nat.succ_pos count)

@[simp] theorem owed_further : t.owed.further = t.token.further := by
  rw [owed]
  split <;> rfl

theorem owed_of_new (new : t.count = 0) : t.owed = t.token := by
  rw [owed, if_neg (by omega)]

/-- What has happened is not owed once more. -/
theorem owed_repeated (fresh : t.token.times = .once → t.count = 0) :
    t.owed.times = .once ↔ t.token.times = .once := by
  by_cases happened : 0 < t.count
  · have repeated : t.token.times ≠ .once := fun once => by
      have := fresh once
      omega
    simp [owed, happened, EventToken.further, repeated]
  · rw [owed, if_neg happened]

theorem isMet_iff : t.isMet = true ↔ t.owed.times = .zeroOrMore := by
  by_cases happened : 0 < t.count
  · simp [isMet, owed, happened, EventToken.further]
  · rw [isMet, owed, if_neg happened, decide_eq_false happened, Bool.or_false]
    cases t.token.times <;> simp [Repeat.isRequired]

end Tally

@[simp] theorem MatchOutcome.push_matched (tally : Tally) (o : MatchOutcome) :
    (o.push tally).matched = o.matched := rfl

/-- An event that is neither passed over nor taken is no move. -/
theorem ne_move_of_not_taken {kind event : EventKind} (jitter : ¬ (event = .move ∧ kind ≠ .move))
    (differs : ¬ kind = event) : event ≠ .move :=
  fun move => jitter ⟨move, fun same => differs (same.trans move.symm)⟩

/-- The greedy matcher loses nothing: from the requirement at hand on, it accepts what the
requirements spell. -/
theorem matchFrom_matched_iff {last : EventToken} (current : Tally) (later : List EventToken)
    (span : List EventKind) (final : (current.token :: later).getLast? = some last)
    (fresh : current.token.times = .once → current.count = 0)
    (separated : Separated (current.token :: later)) :
    (matchFrom current later span).matched = true ↔
      SpelledBefore last (current.owed :: later) span := by
  fun_induction matchFrom current later span with
  | case1 current later =>
    rw [spelledBefore_nil, List.forall_mem_cons, ← Tally.isMet_iff]
    simp [Tally.isMet_iff]
  | case2 current later event rest jitter ih =>
    obtain ⟨rfl, still⟩ := jitter
    rw [ih final fresh separated, spelledBefore_jitter (by simpa using still)]
    rw [Ne, Tally.owed_repeated fresh, Tally.owed_kind]
    exact separated.1
  | case3 current rest taken once _ =>
    obtain rfl : current.token = last := by simpa using final
    rw [Tally.owed_of_new (fresh once), spelledBefore_once once, SpelledBefore]
    simp [or_iff_not_imp_right]
  | case4 current rest taken once next others _ ih =>
    rw [List.getLast?_cons_cons] at final
    rw [MatchOutcome.push_matched, ih final (fun _ => rfl) separated.2, Tally.owed_new,
      Tally.owed_of_new (fresh once), spelledBefore_once once]
  | case5 current later rest taken repeated _ ih =>
    have again : SpelledBefore last (current.owed :: later) (current.owed.kind :: rest) ↔
        SpelledBefore last (current.owed.further :: later) rest :=
      spelledBefore_repeated (mt (Tally.owed_repeated fresh).1 repeated)
        (by simpa using separated.1 repeated)
    rw [Tally.owed_kind, Tally.owed_further] at again
    rw [ih final (fun once => absurd once repeated) separated, Tally.owed_taken, again]
  | case6 current later event rest jitter differs unmet =>
    have still := ne_move_of_not_taken jitter differs
    have required : current.owed.times ≠ .zeroOrMore := by
      rcases unmet with once | unmet
      · rw [(Tally.owed_repeated fresh).2 once]
        decide
      · exact mt Tally.isMet_iff.2 unmet
    rw [spelledBefore_other (by simpa using differs) still]
    simp [required]
  | case7 current event rest jitter differs met =>
    have still := ne_move_of_not_taken jitter differs
    rw [spelledBefore_other (by simpa using differs) still]
    simp [SpelledBefore, still]
  | case8 current event rest jitter differs met next others ih =>
    have still := ne_move_of_not_taken jitter differs
    have optional : current.owed.times = .zeroOrMore := by
      rw [not_or, not_not] at met
      exact Tally.isMet_iff.1 met.2
    rw [List.getLast?_cons_cons] at final
    rw [MatchOutcome.push_matched, ih final (fun _ => rfl) separated.2, Tally.owed_new,
      spelledBefore_other (t := current.owed) (by simpa using differs) still]
    simp [optional]

/-- The matcher accepts a span exactly if the requirements spell it: if it can be cut into one part
for each of them, and moves at the end, of which there are none if the last requirement is a move.
A list of requirements must be unambiguous for that. An empty span meets no requirements. -/
theorem matchSpan_matched_iff {tokens : List EventToken} (required : tokens ≠ [])
    (unambiguous : Unambiguous tokens) {span : List EventKind} (nonempty : span ≠ []) :
    (matchSpan tokens span).matched = true ↔
      ∃ parts rest, span = parts.flatten ++ rest ∧ List.Forall₂ EventToken.Spells tokens parts ∧
        (∀ e ∈ rest, e = .move) ∧ (∀ last ∈ tokens.getLast?, last.kind = .move → rest = []) := by
  cases tokens with
  | nil => exact absurd rfl required
  | cons first later =>
    obtain ⟨last, final⟩ : ∃ last, (first :: later).getLast? = some last :=
      ⟨_, List.getLast?_eq_getLast_of_ne_nil required⟩
    have greedy : (matchSpan (first :: later) span).matched =
        (matchFrom ⟨first, 0⟩ later span).matched := by
      cases span with
      | nil => exact absurd rfl nonempty
      | cons e span => rfl
    rw [greedy, matchFrom_matched_iff ⟨first, 0⟩ later span final (fun _ => rfl)
      unambiguous.separated, Tally.owed_new, spelledBefore_iff_parts, final]
    simp

/-- A press, any number of moves, and a release that may bounce. -/
def dragTokens : List EventToken := [⟨.down, .once⟩, ⟨.move, .zeroOrMore⟩, ⟨.up, .oneOrMore⟩]

theorem matchSpan_matched_iff_drag :
    dragTokens ≠ [] ∧ Unambiguous dragTokens ∧
      [EventKind.move, .down, .move, .up, .move, .up] ≠ [] ∧
      ((matchSpan dragTokens [.move, .down, .move, .up, .move, .up]).matched = true ↔
        ∃ parts rest, [EventKind.move, .down, .move, .up, .move, .up] = parts.flatten ++ rest ∧
          List.Forall₂ EventToken.Spells dragTokens parts ∧ (∀ e ∈ rest, e = .move) ∧
          (∀ last ∈ dragTokens.getLast?, last.kind = .move → rest = [])) :=
  ⟨by decide, by decide, by decide, matchSpan_matched_iff (by decide) (by decide) (by decide)⟩

/-- Two presses are a press or more and one press, but the matcher gives both to the first. -/
example : (matchSpan [⟨.down, .oneOrMore⟩, ⟨.down, .once⟩] [.down, .down]).matched = false := by
  cbv

end TouchIntent
