import Mathlib
import TouchIntent.Proofs.Fallible
import TouchIntent.Proofs.Rule.Words
import TouchIntent.Replay.Trace

/-!
# Traces line by line

Every line of a trace is read by itself, and all that is known of its place is the number that a
fault is reported with. So a trace can be cut at any line break: it is read as its first part, and
then as its second part with the lines counted on. Lines that hold no row only count as lines.
-/

namespace TouchIntent

namespace Text

theorem lines_break (a b : List Char) : lines (a ++ '\n' :: b) = lines a ++ lines b :=
  pieces_append a b (by decide)

/-- A text has one line more than it has line breaks. -/
theorem length_lines (s : List Char) : (lines s).length = s.count '\n' + 1 := by
  induction s with
  | nil => rfl
  | cons c rest ih =>
    by_cases breaks : c = '\n'
    · subst breaks
      have cut : lines ('\n' :: rest) = [[]] ++ lines rest := lines_break [] rest
      rw [cut, List.count_cons_self, List.length_append, ih, List.length_singleton]
      omega
    · rw [List.count_cons_of_ne breaks, ← ih, lines, lines, pieces,
        if_neg (by simpa using breaks)]
      cases shown : pieces (· == '\n') rest with
      | nil => exact absurd shown (pieces_ne_nil _ _)
      | cons first others => rfl

/-- The first piece of a text ends before the first separator. -/
theorem head?_pieces (isSeparator : Char → Bool) (s : List Char) :
    (pieces isSeparator s).head? = some (s.takeWhile fun c => !isSeparator c) := by
  fun_induction pieces isSeparator s with
  | case1 => rfl
  | case2 c rest separates ih => simp [separates]
  | case3 c rest other none ih => exact absurd none (pieces_ne_nil _ _)
  | case4 c rest other first others shown ih =>
    rw [shown] at ih
    obtain rfl := Option.some.inj ih
    rw [List.takeWhile_cons_of_pos (by simpa using other)]
    rfl

end Text

namespace TraceRow

/-- What stands on a line before the first comma. -/
def firstColumn (line : List Char) : List Char :=
  Text.trim ((Text.trim line).takeWhile fun c => c != ',')

/-- A line that is blank, a comment or a heading, or that belongs to something else than a trace. -/
def IsSkipped (line : List Char) : Prop :=
  Text.trim line = [] ∨ (Text.trim line).head? = some '#' ∨ Text.trim line ∈ headings ∨
    firstColumn line ≠ tag

instance (line : List Char) : Decidable (IsSkipped line) :=
  inferInstanceAs (Decidable (_ ∨ _ ∨ _ ∨ _))

variable {R : Type} [Scalar R]

theorem ofLine_of_isSkipped {line : List Char} (skipped : IsSkipped line) :
    (ofLine line : Except TraceFault (Option (TraceRow R))) = .ok none := by
  have column : ((Text.pieces (· == ',') (Text.trim line)).map Text.trim).head? =
      some (firstColumn line) := by
    rw [List.head?_map, Text.head?_pieces]
    rfl
  unfold ofLine
  simp only
  rw [if_pos]
  rw [column, List.isEmpty_iff, ne_eq, Option.some.injEq]
  exact skipped

end TraceRow

variable {R : Type} [Scalar R]

/-! ## One line after the other -/

theorem readRows_nil (first : Nat) :
    (readRows first [] : Except TraceError (List (TraceRow R))) = .ok [] := rfl

theorem readRows_cons (first : Nat) (line : List Char) (rest : List (List Char)) :
    (readRows first (line :: rest) : Except TraceError (List (TraceRow R))) = do
      let row ← (TraceRow.ofLine line).mapError fun fault => (⟨first, fault⟩ : TraceError)
      let rows ← readRows (first + 1) rest
      return row.toList ++ rows := by
  simp only [readRows, List.zipIdx_cons, List.mapM_cons]
  cases (TraceRow.ofLine (R := R) line).mapError fun fault => (⟨first, fault⟩ : TraceError) with
  | error error => rfl
  | ok row =>
    cases ((rest.zipIdx (first + 1)).mapM fun entry => (TraceRow.ofLine entry.1 :
        Except TraceFault (Option (TraceRow R))).mapError fun fault =>
          (⟨entry.2, fault⟩ : TraceError)) with
    | error error => rfl
    | ok rows => cases row <;> rfl

/-- Lines that are read after others are counted on. -/
theorem readRows_append (first : Nat) (lines later : List (List Char)) :
    (readRows first (lines ++ later) : Except TraceError (List (TraceRow R))) = do
      let rows ← readRows first lines
      let others ← readRows (first + lines.length) later
      return rows ++ others := by
  induction lines generalizing first with
  | nil =>
    rw [readRows_nil]
    show readRows first later = readRows first later >>= fun others => pure ([] ++ others)
    cases (readRows first later : Except TraceError (List (TraceRow R))) <;> rfl
  | cons line rest ih =>
    have count : first + (line :: rest).length = first + 1 + rest.length := by
      rw [List.length_cons]
      omega
    rw [List.cons_append, readRows_cons, readRows_cons, ih, count]
    simp only [bind_assoc, pure_bind, List.append_assoc]

/-- The error with the lines counted on. -/
def TraceError.countOn (e : TraceError) (lines : Nat) : TraceError :=
  { e with line := e.line + lines }

/-- Where the lines are counted from does not matter to the rows. -/
theorem readRows_countOn (first count : Nat) (lines : List (List Char)) :
    (readRows (first + count) lines : Except TraceError (List (TraceRow R))) =
      (readRows first lines).mapError fun e => e.countOn count := by
  induction lines generalizing first with
  | nil => rfl
  | cons line rest ih =>
    have next : first + count + 1 = first + 1 + count := by omega
    rw [readRows_cons, readRows_cons, next, ih, mapError_bind]
    cases TraceRow.ofLine (R := R) line with
    | error fault => rfl
    | ok row =>
      simp only [Except.mapError, bind, Except.bind]
      cases (readRows (first + 1) rest : Except TraceError (List (TraceRow R))) <;> rfl

/-- The lines of a text that are not skipped. -/
def keptLines (text : String) : List (List Char) :=
  (Text.lines text.toList).filter fun line => !decide (TraceRow.IsSkipped line)

/-- Skipped lines change neither the rows nor what is wrong with the first line that cannot be
read. -/
theorem fault_readRows_filter (first first' : Nat) (lines : List (List Char)) :
    (readRows first lines : Except TraceError (List (TraceRow R))).mapError TraceError.fault =
      (readRows first' (lines.filter fun line => !decide (TraceRow.IsSkipped line))).mapError
        TraceError.fault := by
  induction lines generalizing first first' with
  | nil => rfl
  | cons line rest ih =>
    by_cases skipped : TraceRow.IsSkipped line
    · rw [List.filter_cons_of_neg (by simp [skipped]), readRows_cons,
        TraceRow.ofLine_of_isSkipped skipped, ← ih (first + 1)]
      show Except.mapError _ (readRows (first + 1) rest >>= fun rows => pure ([] ++ rows)) = _
      simp only [List.nil_append, bind_pure]
    · rw [List.filter_cons_of_pos (by simp [skipped]), readRows_cons, readRows_cons]
      cases TraceRow.ofLine (R := R) line with
      | error fault => rfl
      | ok row =>
        show Except.mapError _ (readRows (first + 1) rest >>= fun rows => pure (row.toList ++ rows))
          = Except.mapError _ (readRows (first' + 1) _ >>= fun rows => pure (row.toList ++ rows))
        rw [mapError_bind, mapError_bind, ih (first + 1) (first' + 1)]

/-- A trace in two parts, with a line break between them, is read if both parts are, and has the
rows of the first and then those of the second. Otherwise the error is that of the first part; or if
this part is read, that of the second with the lines counted on. So traces that differ in blank
lines, comments, headings and lines with another first column only have the same rows, or the same
fault. -/
theorem readTrace_lines :
    (∀ a b : String, (readTrace (a ++ "\n" ++ b) : Except TraceError (List (TraceRow R))) = do
      let rows ← readTrace a
      let others ← (readTrace b).mapError fun e => e.countOn (a.toList.count '\n' + 1)
      return rows ++ others) ∧
    ∀ a b : String, keptLines a = keptLines b →
      (readTrace a : Except TraceError (List (TraceRow R))).mapError TraceError.fault =
        (readTrace b).mapError TraceError.fault := by
  refine ⟨fun a b => ?_, fun a b same => ?_⟩
  · have cut : Text.lines (a ++ "\n" ++ b).toList =
        Text.lines a.toList ++ Text.lines b.toList := by
      rw [String.toList_append, String.toList_append, List.append_assoc]
      exact Text.lines_break a.toList b.toList
    rw [readTrace, cut, readRows_append, readRows_countOn, Text.length_lines]
    rfl
  · rw [readTrace, readTrace, fault_readRows_filter 1 1, fault_readRows_filter 1 1 (Text.lines _)]
    exact congrArg (fun lines => (readRows 1 lines).mapError TraceError.fault) same

/-- A trace of one row, with a heading and a comment before it and a blank line behind it. -/
theorem readTrace_lines_heading :
    let row := "touch_trace,0,down,0,1,2"
    let file := "touch_trace,ms,kind,pointer,x,y\n# tap\n" ++ row ++ "\n  "
    keptLines file = keptLines row ∧
      (readTrace file : Except TraceError (List (TraceRow Float))).mapError TraceError.fault =
        (readTrace row).mapError TraceError.fault := by
  have same : keptLines ("touch_trace,ms,kind,pointer,x,y\n# tap\n" ++
      "touch_trace,0,down,0,1,2" ++ "\n  ") = keptLines "touch_trace,0,down,0,1,2" := by
    decide +kernel
  exact ⟨same, readTrace_lines.2 _ _ same⟩

end TouchIntent
