import Mathlib.Data.List.SplitBy
import TouchIntent.Pattern.Check

/-!
# The runs of a path

What a completion check is about, said of the path as a whole. A path *breaks* where it starts in a
state that is not initial, and where it takes a step that is not valid. What comes after its last
break falls into *runs*, the longest stretches in which the state does not change. A state is
covered as often as there are runs that stay in it and whose events meet its requirements.
-/

namespace TouchIntent

namespace Pattern

/-- The path may not come to its state at the given position. -/
def breaksAt (p : Pattern) (path : List Nat) : Nat → Bool
  | 0 => path[0]?.any fun first => !p.isInitial first
  | i + 1 => path[i]?.any fun source => path[i + 1]?.any fun target => !p.isValidStep source target

/-- The last position at which the path breaks. -/
def lastBreak? (p : Pattern) (path : List Nat) : Option Nat :=
  ((List.range path.length).filter (p.breaksAt path)).getLast?

/-- The runs of the path from its last break on, with the events that happened along them. -/
def runs (p : Pattern) (path : List Nat) (kinds : List EventKind) :
    List (List (Nat × EventKind)) :=
  ((path.zip kinds).drop ((p.lastBreak? path).getD 0)).splitBy fun a b => a.1 == b.1

/-- How many of the runs stay in a state and meet its requirements. -/
def timesCovered (p : Pattern) (runs : List (List (Nat × EventKind))) (state : Nat) : Nat :=
  runs.countP fun run =>
    run.all (fun e => e.1 == state) && (matchSpan (p.tokens state) (run.map Prod.snd)).matched

variable {p : Pattern}

/-- Going on does not change where the path has broken. -/
theorem breaksAt_concat {seen : List Nat} {i : Nat} (before : i < seen.length) (next : Nat) :
    p.breaksAt (seen ++ [next]) i = p.breaksAt seen i := by
  cases i with
  | zero => rw [breaksAt, breaksAt, List.getElem?_append_left before]
  | succ i =>
    rw [breaksAt, breaksAt, List.getElem?_append_left before,
      List.getElem?_append_left (Nat.lt_of_succ_lt before)]

/-- The path breaks at its next state exactly if the step is not valid. -/
theorem breaksAt_length {seen : List Nat} {current : Nat} (last : seen.getLast? = some current)
    (next : Nat) : p.breaksAt (seen ++ [next]) seen.length = !p.isValidStep current next := by
  cases seen with
  | nil => cases last
  | cons first rest =>
    rw [List.getLast?_eq_getElem?, List.length_cons, Nat.add_sub_cancel] at last
    have source : (first :: rest ++ [next])[rest.length]? = some current := by
      rw [List.getElem?_append_left (by simp), last]
    have target : (first :: rest ++ [next])[rest.length + 1]? = some next := by simp
    rw [List.length_cons, breaksAt, source, target]
    rfl

theorem lastBreak?_concat {seen : List Nat} {current : Nat}
    (last : seen.getLast? = some current) (next : Nat) :
    p.lastBreak? (seen ++ [next]) =
      if p.isValidStep current next then p.lastBreak? seen else some seen.length := by
  have earlier : (List.range seen.length).filter (p.breaksAt (seen ++ [next])) =
      (List.range seen.length).filter (p.breaksAt seen) :=
    List.filter_congr fun i before => breaksAt_concat (List.mem_range.1 before) next
  rw [lastBreak?, List.length_append, List.length_singleton, List.range_succ, List.filter_append,
    earlier]
  by_cases valid : p.isValidStep current next
  · rw [if_pos valid, List.filter_cons_of_neg (by simp [breaksAt_length last, valid])]
    simp [lastBreak?]
  · rw [if_neg valid, List.filter_cons_of_pos (by simp [breaksAt_length last, valid])]
    simp

theorem lastBreak?_lt {path : List Nat} {i : Nat} (last : p.lastBreak? path = some i) :
    i < path.length := by
  have member := List.mem_of_getLast? last
  exact List.mem_range.1 (List.mem_filter.1 member).1

/-- A path that has come to a state has something after its last break. -/
theorem lastBreak_lt {path : List Nat} (some : path ≠ []) :
    (p.lastBreak? path).getD 0 < path.length := by
  cases last : p.lastBreak? path with
  | none => exact List.length_pos_iff.2 some
  | some i => exact lastBreak?_lt last

/-- A path and its events, one position further. -/
theorem zip_concat {seen : List Nat} {kinds : List EventKind} {kind : EventKind}
    (happened : kinds[seen.length]? = some kind) (next : Nat) :
    (seen ++ [next]).zip kinds = seen.zip kinds ++ [(next, kind)] := by
  induction seen generalizing kinds with
  | nil =>
    cases kinds with
    | nil => cases happened
    | cons first rest =>
      obtain rfl : first = kind := by simpa using happened
      rfl
  | cons first rest ih =>
    cases kinds with
    | nil => cases happened
    | cons k ks =>
      rw [List.length_cons, List.getElem?_cons_succ] at happened
      rw [List.cons_append, List.zip_cons_cons, List.zip_cons_cons, ih happened, List.cons_append]

/-- A state that goes on makes the last run longer. -/
theorem splitBy_concat_stay {α : Type} {r : α → α → Bool} {xs : List α} {closed : List (List α)}
    {run : List α} {x : α} (split : xs.splitBy r = closed ++ [run])
    (stays : ∀ y ∈ run.getLast?, r y x = true) :
    (xs ++ [x]).splitBy r = closed ++ [run ++ [x]] := by
  obtain ⟨whole, occupied, chains, bounds⟩ := List.splitBy_eq_iff.1 split
  have nonempty : run ≠ [] := fun empty => occupied (by simp [empty])
  refine List.splitBy_eq_iff.2 ⟨by simp [whole], ?_, ?_, ?_⟩
  · simp only [List.mem_append, List.mem_singleton, not_or] at occupied ⊢
    exact ⟨occupied.1, by simp⟩
  · intro m member
    rcases List.mem_append.1 member with earlier | last
    · exact chains m (List.mem_append_left _ earlier)
    · rw [List.mem_singleton.1 last]
      refine (chains run (by simp)).append (List.isChain_singleton x) ?_
      intro y last z head
      obtain rfl : x = z := by simpa using head
      exact stays y last
  · rw [List.isChain_append] at bounds ⊢
    refine ⟨bounds.1, List.isChain_singleton _, ?_⟩
    intro a last b head
    obtain rfl : run ++ [x] = b := by simpa using head
    obtain ⟨left, right, differ⟩ := bounds.2.2 a last run rfl
    refine ⟨left, by simp, ?_⟩
    rw [List.head_append_of_ne_nil right]
    exact differ

section Concat

variable {seen : List Nat} {kinds : List EventKind} {current next : Nat} {kind : EventKind}
  {closed : List (List (Nat × EventKind))} {run : List (Nat × EventKind)}

/-- A path that is still in its state is still in the same run. -/
theorem runs_stay (last : seen.getLast? = some current)
    (valid : p.isValidStep current current = true)
    (happened : kinds[seen.length]? = some kind) (split : p.runs seen kinds = closed ++ [run])
    (held : ∀ e ∈ run, e.1 = current) :
    p.runs (seen ++ [current]) kinds = closed ++ [run ++ [(current, kind)]] := by
  have begun : seen ≠ [] := by
    rintro rfl
    cases last
  have live : (p.lastBreak? seen).getD 0 ≤ (seen.zip kinds).length := by
    rw [List.length_zip]
    have before := (List.getElem?_eq_some_iff.1 happened).1
    have := lastBreak_lt (p := p) begun
    omega
  rw [runs, lastBreak?_concat last, if_pos valid, zip_concat happened,
    List.drop_append_of_le_length live]
  refine splitBy_concat_stay split fun e last => ?_
  simp [held e (List.mem_of_getLast? last)]

/-- A valid step to another state begins a run. -/
theorem runs_leave (last : seen.getLast? = some current)
    (valid : p.isValidStep current next = true) (differ : current ≠ next)
    (happened : kinds[seen.length]? = some kind) :
    p.runs (seen ++ [next]) kinds = p.runs seen kinds ++ [[(next, kind)]] := by
  have begun : seen ≠ [] := by
    rintro rfl
    cases last
  have before := (List.getElem?_eq_some_iff.1 happened).1
  have live : (p.lastBreak? seen).getD 0 ≤ (seen.zip kinds).length := by
    rw [List.length_zip]
    have := lastBreak_lt (p := p) begun
    omega
  rw [runs, lastBreak?_concat last, if_pos valid, zip_concat happened,
    List.drop_append_of_le_length live, List.splitBy_append_cons]
  · rfl
  · intro e final
    have final : (seen.zip kinds).getLast? = some e := by
      rw [List.getLast?_drop] at final
      split at final
      · cases final
      · exact final
    have state : some e.1 = some current := by
      rw [← last, ← List.map_fst_zip before.le, List.getLast?_map, final]
      rfl
    simp [Option.some.inj state, differ]

/-- A step that is not valid begins the only run. -/
theorem runs_break (last : seen.getLast? = some current)
    (invalid : p.isValidStep current next = false) (happened : kinds[seen.length]? = some kind) :
    p.runs (seen ++ [next]) kinds = [[(next, kind)]] := by
  have before := (List.getElem?_eq_some_iff.1 happened).1
  have length : (seen.zip kinds).length = seen.length := by
    rw [List.length_zip]
    omega
  rw [runs, lastBreak?_concat last, if_neg (by simp [invalid]), zip_concat happened,
    Option.getD_some, ← length, List.drop_left]
  rfl

end Concat

end Pattern

end TouchIntent
