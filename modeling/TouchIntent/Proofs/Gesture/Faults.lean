import TouchIntent.Proofs.Gesture.Slices

/-!
# What a text is found fault with

Compiling looks at the boxes of the surface and of the element before it looks at the text. Whatever
it finds fault with after that is in the text, or in the model that the text describes.
-/

namespace TouchIntent

open Scalar

/-- The fault lies in the size of a box, whatever the text may be. -/
def GestureFault.isSize : GestureFault → Bool
  | surfaceSize | elementSize => true
  | _ => false

variable {R : Type} [Scalar R]

/-- A detail is found fault with for how it is written. -/
theorem Detail.textual_read {entry : List Char} {fault : GestureFault}
    (rejected : (Detail.read entry : Except GestureFault (Detail R)) = .error fault) :
    fault.isSize = false := by
  unfold Detail.read at rejected
  simp only at rejected
  split at rejected
  · cases rejected
    rfl
  · split at rejected
    · cases rejected
      rfl
    · split at rejected
      · split at rejected <;> cases rejected
        rfl
      · cases rejected
        rfl

/-- A block of details is found fault with for one of its details. -/
theorem Detail.textual_readBlock {content : List Char} {fault : GestureFault}
    (rejected : (Detail.readBlock content : Except GestureFault (List (Detail R))) = .error fault) :
    fault.isSize = false := by
  rcases forall₂_ok_or_first_error (Detail.read (R := R)) (Text.pieces (· == ',') content) with
    ⟨details, read⟩ | ⟨before, entry, after, details, first, cut, read, failed⟩
  · rw [Detail.readBlock, mapM_eq_ok_of_forall₂ read] at rejected
    cases rejected
  · rw [Detail.readBlock, cut, mapM_eq_error_of_first read failed] at rejected
    cases rejected
    exact Detail.textual_read failed

/-- What a token finds fault with is in the text. -/
structure RouteToken.Textual (t : RouteToken R) : Prop where
  fault : ∀ fault, t = .fault fault → fault.isSize = false
  details : ∀ fault, t = .details (.error fault) → fault.isSize = false

omit [Scalar R] in
theorem RouteToken.textual_fault {fault : GestureFault} (textual : fault.isSize = false) :
    (RouteToken.fault fault : RouteToken R).Textual :=
  ⟨by simpa using textual, by simp⟩

omit [Scalar R] in
theorem RouteToken.textual_arrow (a : Arrow) : (RouteToken.arrow a : RouteToken R).Textual :=
  ⟨by simp, by simp⟩

omit [Scalar R] in
theorem RouteToken.textual_single? {c : Char} {token : RouteToken R}
    (found : single? c = some token) : token.Textual := by
  unfold single? at found
  split at found
  case h_8 =>
    obtain ⟨heading, -, rfl⟩ := Option.map_eq_some_iff.1 found
    exact ⟨by simp, by simp⟩
  all_goals
    cases found
    exact ⟨by simp, by simp⟩

theorem RouteToken.textual_scan (offset : Nat) (text : List Char) :
    ∀ t ∈ (scan offset text : List (PlacedToken R)), t.token.Textual := by
  induction offset, text using scan.induct (R := R) with
  | case1 =>
    rw [scan_nil]
    exact List.forall_mem_nil _
  | case2 offset rest ih =>
    rw [scan_oneWay, List.forall_mem_cons]
    exact ⟨textual_arrow _, ih⟩
  | case3 offset rest ih =>
    rw [scan_twoWay, List.forall_mem_cons]
    exact ⟨textual_arrow _, ih⟩
  | case4 offset rest unterminated =>
    rw [scan_unterminated unterminated, List.forall_mem_singleton]
    exact ⟨by simp, by simp [GestureFault.isSize]⟩
  | case5 offset rest content after found ih =>
    rw [scan_details found, List.forall_mem_cons]
    refine ⟨⟨by simp, fun fault same => ?_⟩, ih⟩
    exact Detail.textual_readBlock (RouteToken.details.inj same)
  | case6 offset c rest oneWay twoWay bracket blank ih =>
    rw [scan_other oneWay twoWay bracket, if_pos blank]
    exact ih
  | case7 offset c rest oneWay twoWay bracket blank malformed =>
    rw [scan_malformed malformed oneWay twoWay, List.forall_mem_singleton]
    exact textual_fault rfl
  | case8 offset c rest oneWay twoWay bracket blank other token found ih =>
    obtain ⟨dash, angle⟩ := not_or.1 other
    rw [scan_plain dash angle bracket, if_neg blank, found, Option.elim_some, List.forall_mem_cons]
    exact ⟨textual_single? found, ih⟩
  | case9 offset c rest oneWay twoWay bracket blank other found =>
    obtain ⟨dash, angle⟩ := not_or.1 other
    rw [scan_plain dash angle bracket, if_neg blank, found, Option.elim_none,
      List.forall_mem_singleton]
    exact textual_fault rfl

namespace Draft

variable {d : Draft R} {density : R} {element : Bounds R} {t : PlacedToken R} {fault : LocatedFault}

theorem textual_add (textual : t.token.Textual)
    (rejected : d.add density element t = .error fault) : fault.fault.isSize = false := by
  unfold add at rejected
  cases token : t.token with
  | heading _ | final | event _ | arrow _ =>
    rw [token] at rejected
    cases rejected
  | details block =>
    rw [token] at rejected
    simp only at rejected
    split at rejected
    · cases rejected
      rfl
    · cases block with
      | ok details => cases rejected
      | error inner =>
        cases rejected
        exact textual.details inner token
  | times times =>
    rw [token] at rejected
    simp only at rejected
    split at rejected <;> cases rejected
    rfl
  | marker =>
    rw [token] at rejected
    simp only at rejected
    split at rejected <;> cases rejected
  | fault inner =>
    rw [token] at rejected
    cases rejected
    exact textual.fault inner token

theorem textual_finish (rejected : d.finish density element = .error fault) :
    fault.fault.isSize = false := by
  unfold finish at rejected
  simp only at rejected
  split at rejected
  · cases rejected
    rfl
  · split at rejected <;> cases rejected
    rfl

end Draft

theorem Route.textual_readFrom {density : R} {missing atEnd fault : LocatedFault}
    {element : Bounds R} {d : Draft R} {ts : List (PlacedToken R)}
    (first : missing.fault.isSize = false) (last : atEnd.fault.isSize = false)
    (textual : ∀ t ∈ ts, t.token.Textual)
    (rejected : readFrom density missing atEnd element d ts = .error fault) :
    fault.fault.isSize = false := by
  induction ts generalizing d element missing with
  | nil =>
    rw [readFrom] at rejected
    cases started : d.start with
    | none =>
      rw [started] at rejected
      exact Except.error.inj rejected ▸ first
    | some start =>
      rw [started] at rejected
      rcases error_of_bind_eq_error rejected with rejected | ⟨stop, -, never⟩
      · exact Draft.textual_finish rejected
      · cases never
  | cons t ts ih =>
    obtain ⟨here, others⟩ := List.forall_mem_cons.1 textual
    by_cases arrow : ∃ arrow, t.token = .arrow arrow
    · obtain ⟨arrow, token⟩ := arrow
      rw [readFrom_arrow token] at rejected
      split at rejected
      · cases rejected
        rfl
      · rcases error_of_bind_eq_error rejected with rejected | ⟨stop, -, rejected⟩
        · exact Draft.textual_finish rejected
        · rcases error_of_bind_eq_error rejected with rejected | ⟨route, -, never⟩
          · exact ih last others rejected
          · cases never
    · rw [readFrom_add (not_exists.1 arrow)] at rejected
      rcases error_of_bind_eq_error rejected with rejected | ⟨⟨d', element'⟩, -, rejected⟩
      · exact Draft.textual_add here rejected
      · exact ih first others rejected

/-- With boxes of positive size, compiling finds fault with the text or with its model. -/
theorem Compiler.textual_compile {c : Compiler R} {source : String} {element : Bounds R}
    {rejection : GestureError} (surface : zero < c.surface.width ∧ zero < c.surface.height)
    (area : zero < element.width ∧ zero < element.height)
    (rejected : c.compile source element = .error rejection) : rejection.fault.isSize = false := by
  unfold compile at rejected
  simp only [surface, area, and_self, not_true_eq_false, if_false] at rejected
  split at rejected
  · next fault unreadable =>
    cases rejected
    exact Route.textual_readFrom rfl rfl (RouteToken.textual_scan _ _) unreadable
  · split at rejected <;> cases rejected
    rfl

end TouchIntent
