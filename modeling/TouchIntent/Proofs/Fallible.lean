import Mathlib.Data.List.Forall2

/-!
# Computations that may fail

What is known of the parts of a computation that has succeeded.
-/

namespace TouchIntent

variable {ε α β : Type}

/-- A sequence of two steps succeeds if both do. -/
theorem exists_of_bind_eq_ok {x : Except ε α} {f : α → Except ε β} {b : β}
    (ok : x >>= f = .ok b) : ∃ a, x = .ok a ∧ f a = .ok b := by
  cases x with
  | error => cases ok
  | ok a => exact ⟨a, rfl, ok⟩

/-- A sequence of two steps fails if one of them does. -/
theorem error_of_bind_eq_error {x : Except ε α} {f : α → Except ε β} {e : ε}
    (failed : x >>= f = .error e) : x = .error e ∨ ∃ a, x = .ok a ∧ f a = .error e := by
  cases x with
  | error e' => exact .inl (congrArg _ (Except.error.inj failed))
  | ok a => exact .inr ⟨a, rfl, failed⟩

/-- A sequence of two steps fails as the step that fails. -/
theorem mapError_bind {ε' : Type} (g : ε → ε') (x : Except ε α) (f : α → Except ε β) :
    (x >>= f).mapError g = x.mapError g >>= fun a => (f a).mapError g := by
  cases x <;> rfl

/-- What each step carries over from what was done before it to what is done with it holds of all
that is done. -/
theorem of_foldlM_eq_ok_done (holds : List α → β → Prop) {f : β → α → Except ε β}
    (step : ∀ done b a b', holds done b → f b a = .ok b' → holds (done ++ [a]) b') {xs : List α}
    {start finish : β} (first : holds [] start) (ok : xs.foldlM f start = .ok finish) :
    holds xs finish := by
  suffices later : ∀ (rest done : List α) (b : β), holds done b → rest.foldlM f b = .ok finish →
      holds (done ++ rest) finish by
    exact later xs [] start first ok
  intro rest
  induction rest with
  | nil =>
    intro done b now ok
    obtain rfl := Except.ok.inj ok
    rw [List.append_nil]
    exact now
  | cons x rest ih =>
    intro done b now ok
    rw [List.foldlM_cons] at ok
    obtain ⟨next, taken, others⟩ := exists_of_bind_eq_ok ok
    rw [List.append_cons]
    exact ih (done ++ [x]) next (step done b x next now taken) others

/-- What every step keeps, a whole sequence of steps keeps. -/
theorem of_foldlM_eq_ok (keeps : β → Prop) {f : β → α → Except ε β}
    (step : ∀ b a b', keeps b → f b a = .ok b' → keeps b') {xs : List α} {start finish : β}
    (holds : keeps start) (ok : xs.foldlM f start = .ok finish) : keeps finish :=
  of_foldlM_eq_ok_done (fun _ => keeps) (fun _ => step) holds ok

/-- What holds of every result of a step holds of all results of a sequence of them. -/
theorem of_mapM_eq_ok {holds : β → Prop} {f : α → Except ε β} {xs : List α} {ys : List β}
    (step : ∀ x ∈ xs, ∀ y, f x = .ok y → holds y) (ok : xs.mapM f = .ok ys) :
    ∀ y ∈ ys, holds y := by
  induction xs generalizing ys with
  | nil =>
    obtain rfl := Except.ok.inj ok
    exact List.forall_mem_nil holds
  | cons x rest ih =>
    rw [List.mapM_cons] at ok
    obtain ⟨y, first, ok⟩ := exists_of_bind_eq_ok ok
    obtain ⟨others, later, same⟩ := exists_of_bind_eq_ok ok
    obtain rfl := Except.ok.inj same
    refine List.forall_mem_cons.2 ⟨step x List.mem_cons_self y first, ih ?_ later⟩
    exact fun x member => step x (List.mem_cons_of_mem _ member)

/-- A step that succeeds for every entry of a list succeeds for the list. -/
theorem mapM_eq_ok_of_forall₂ {f : α → Except ε β} {xs : List α} {ys : List β}
    (steps : List.Forall₂ (fun x y => f x = .ok y) xs ys) : xs.mapM f = .ok ys := by
  induction steps with
  | nil => rfl
  | cons first _ ih =>
    rw [List.mapM_cons, first, ih]
    rfl

/-- A step fails for a list as it fails for the first entry that it fails for. -/
theorem mapM_eq_error_of_first {f : α → Except ε β} {before after : List α} {x : α} {ys : List β}
    {e : ε} (steps : List.Forall₂ (fun x y => f x = .ok y) before ys) (failed : f x = .error e) :
    (before ++ x :: after).mapM f = .error e := by
  rw [List.mapM_append, mapM_eq_ok_of_forall₂ steps, List.mapM_cons, failed]
  rfl

/-- Either a step succeeds for every entry of a list, or there is a first entry for which it
fails. -/
theorem forall₂_ok_or_first_error (f : α → Except ε β) (xs : List α) :
    (∃ ys, List.Forall₂ (fun x y => f x = .ok y) xs ys) ∨
      ∃ before x after ys e, xs = before ++ x :: after ∧
        List.Forall₂ (fun x y => f x = .ok y) before ys ∧ f x = .error e := by
  induction xs with
  | nil => exact .inl ⟨[], .nil⟩
  | cons x rest ih =>
    cases first : f x with
    | error e => exact .inr ⟨[], x, rest, [], e, rfl, .nil, first⟩
    | ok y =>
      rcases ih with ⟨ys, steps⟩ | ⟨before, x', after, ys, e, rfl, steps, failed⟩
      · exact .inl ⟨y :: ys, .cons first steps⟩
      · exact .inr ⟨x :: before, x', after, y :: ys, e, rfl, .cons first steps, failed⟩

end TouchIntent
