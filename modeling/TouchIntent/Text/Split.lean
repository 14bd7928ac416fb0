import TouchIntent.Text.Blank

/-!
# Cutting texts

A text cut at every separator, at its blanks, or at the first occurrence of a character.
-/

namespace TouchIntent.Text

/-- The pieces of a text between the separators; there is one more of them than of separators. -/
def pieces (isSeparator : Char → Bool) : List Char → List (List Char)
  | [] => [[]]
  | c :: rest =>
    if isSeparator c then [] :: pieces isSeparator rest
    else match pieces isSeparator rest with
      | [] => [[c]]
      | piece :: others => (c :: piece) :: others

/-- What stands before and after the first separator. -/
def cut? (sep : Char) : List Char → Option (List Char × List Char)
  | [] => none
  | c :: rest =>
    if c = sep then some ([], rest)
    else (cut? sep rest).map fun (before, after) => (c :: before, after)

/-- The lines of a text. The end of a line may still hold a carriage return. -/
def lines (s : List Char) : List (List Char) := pieces (· == '\n') s

/-- The words of a text: what stands between its blanks. -/
def words (s : List Char) : List (List Char) := (pieces isBlank s).filter fun w => !w.isEmpty

/-- The text after `start`, if it starts so. -/
def dropStart? (start s : List Char) : Option (List Char) :=
  if start.isPrefixOf s then some (s.drop start.length) else none

/-- A text holds at least one piece. -/
theorem pieces_ne_nil (isSeparator : Char → Bool) (s : List Char) : pieces isSeparator s ≠ [] := by
  fun_induction pieces isSeparator s <;> simp

/-- A cut at the first separator loses nothing. -/
theorem eq_of_cut? {sep : Char} {s before after : List Char}
    (h : cut? sep s = some (before, after)) : s = before ++ sep :: after := by
  induction s generalizing before with
  | nil => simp [cut?] at h
  | cons c rest ih =>
    simp only [cut?] at h
    split at h
    · next hc => simp_all
    · obtain ⟨⟨b, a⟩, hb, he⟩ := Option.map_eq_some_iff.1 h
      simp only [Prod.mk.injEq] at he
      obtain ⟨rfl, rfl⟩ := he
      simp [← ih hb]

end TouchIntent.Text
