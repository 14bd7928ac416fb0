import Mathlib.Data.List.Basic
import TouchIntent.Text.Blank

/-!
# Trimming

A text is trimmed if it neither begins nor ends with a blank. Trimming makes it so, and leaves alone
what is trimmed.
-/

namespace TouchIntent.Text

variable {s : List Char} {c : Char}

/-- The text neither begins nor ends with a blank. -/
def IsTrimmed (s : List Char) : Prop :=
  (∀ c ∈ s.head?, isBlank c = false) ∧ ∀ c ∈ s.getLast?, isBlank c = false

theorem trimStart_eq_self (first : ∀ c ∈ s.head?, isBlank c = false) : trimStart s = s := by
  cases s with
  | nil => rfl
  | cons c rest => rw [trimStart, List.dropWhile_cons_of_neg (by simp [first c rfl])]

theorem trimEnd_eq_self (last : ∀ c ∈ s.getLast?, isBlank c = false) : trimEnd s = s := by
  have reversed : trimStart s.reverse = s.reverse :=
    trimStart_eq_self (by rwa [List.head?_reverse])
  rw [trimEnd, ← trimStart, reversed, List.reverse_reverse]

theorem head_trimStart : ∀ c ∈ (trimStart s).head?, isBlank c = false := by
  intro c first
  rw [trimStart] at first
  have unblank := List.head?_dropWhile_not isBlank s
  rw [first] at unblank
  simpa using unblank

theorem getLast_trimEnd : ∀ c ∈ (trimEnd s).getLast?, isBlank c = false := by
  rw [trimEnd, List.getLast?_reverse]
  exact head_trimStart

theorem prefix_trimEnd : trimEnd s <+: s := by
  rw [trimEnd, ← List.reverse_suffix, List.reverse_reverse]
  exact List.dropWhile_suffix _

/-- What is left after trimming is trimmed. -/
theorem isTrimmed_trim (s : List Char) : IsTrimmed (trim s) := by
  refine ⟨fun c first => ?_, getLast_trimEnd⟩
  obtain ⟨more, whole⟩ := prefix_trimEnd (s := trimStart s)
  refine head_trimStart (s := s) c ?_
  rw [← whole, List.head?_append, show (trimEnd (trimStart s)).head? = some c from first]
  rfl

theorem trim_eq_self (trimmed : IsTrimmed s) : trim s = s := by
  rw [trim, trimStart_eq_self trimmed.1, trimEnd_eq_self trimmed.2]

theorem mem_of_mem_trim (member : c ∈ trim s) : c ∈ s :=
  (List.dropWhile_suffix _).subset (prefix_trimEnd.subset member)

/-- Blanks at the end are not in front of what is no blank. -/
theorem trimEnd_append (a b : List Char) (unblank : isBlank c = false) :
    trimEnd (a ++ c :: b) = a ++ c :: trimEnd b := by
  rw [trimEnd, trimEnd, List.reverse_append, List.reverse_cons, List.append_assoc,
    List.dropWhile_append]
  split
  · next empty =>
    rw [List.isEmpty_iff.1 empty]
    simp [unblank]
  · simp

end TouchIntent.Text
