import Mathlib
import TouchIntent.Proofs.Gesture.Compiled

/-!
# Offsets of rejections

A gesture text is rejected at an offset: that of a token, of the character after the first token of
a stop, or of the end of the text. If the text is moved, by a label before it, it is rejected for
the same reason and the offset moves along. And every offset is a boundary between characters of the
text.
-/

namespace TouchIntent

open Scalar

namespace Text

theorem utf8Size_eq (s : List Char) : utf8Size s = (String.ofList s).utf8ByteSize := by
  have counted : utf8Size s = String.utf8Len s := by
    induction s with
    | nil => rfl
    | cons c rest ih => rw [utf8Size, ih, String.utf8Len_cons, Nat.add_comm]
  rw [counted, String.utf8ByteSize_ofList]

theorem utf8Size_append (s t : List Char) : utf8Size (s ++ t) = utf8Size s + utf8Size t := by
  rw [utf8Size_eq, String.ofList_append, String.utf8ByteSize_append, ← utf8Size_eq, ← utf8Size_eq]

/-- A position between two characters of a text, or at one of its ends. -/
def IsBoundary (s : List Char) (position : Nat) : Prop :=
  ∃ before after, s = before ++ after ∧ position = utf8Size before

theorem isBoundary_zero (s : List Char) : IsBoundary s 0 := ⟨[], s, rfl, rfl⟩

/-- The boundaries of a text are the valid positions of the string. -/
theorem isBoundary_iff_isValid {s : String} {position : Nat} :
    IsBoundary s.toList position ↔ String.Pos.Raw.IsValid s ⟨position⟩ := by
  rw [String.Pos.Raw.isValid_iff_exists_append]
  constructor
  · rintro ⟨before, after, cut, rfl⟩
    refine ⟨String.ofList before, String.ofList after, ?_, ?_⟩
    · rw [← String.ofList_append, ← cut, String.ofList_toList]
    · rw [utf8Size_eq]
      rfl
  · rintro ⟨before, after, rfl, same⟩
    refine ⟨before.toList, after.toList, String.toList_append, ?_⟩
    rw [utf8Size_eq, String.ofList_toList]
    exact congrArg String.Pos.Raw.byteIdx same

/-- What stands in a text from a position on. -/
def StandsAt (s : List Char) (position : Nat) (rest : List Char) : Prop :=
  ∃ before, s = before ++ rest ∧ position = utf8Size before

variable {s rest : List Char} {position : Nat}

theorem StandsAt.isBoundary (stands : StandsAt s position rest) : IsBoundary s position := by
  obtain ⟨before, cut, same⟩ := stands
  exact ⟨before, rest, cut, same⟩

theorem StandsAt.append {start : List Char} (stands : StandsAt s position (start ++ rest)) :
    StandsAt s (position + utf8Size start) rest := by
  obtain ⟨before, cut, rfl⟩ := stands
  exact ⟨before ++ start, by rw [cut, List.append_assoc], (utf8Size_append before start).symm⟩

theorem StandsAt.tail {c : Char} (stands : StandsAt s position (c :: rest)) :
    StandsAt s (position + c.utf8Size) rest :=
  StandsAt.append (show StandsAt s position ([c] ++ rest) from stands)

/-- What stands after a block of details. -/
theorem StandsAt.after_block {content after : List Char}
    (stands : StandsAt s position ('[' :: rest)) (found : cut? ']' rest = some (content, after)) :
    StandsAt s (position + utf8Size content + 2) after := by
  have inside := stands.tail
  rw [eq_of_cut? found] at inside
  have one : '['.utf8Size = 1 ∧ ']'.utf8Size = 1 := by decide
  have there : position + '['.utf8Size + utf8Size content + ']'.utf8Size =
      position + utf8Size content + 2 := by omega
  exact there ▸ inside.append.tail

end Text

/-! ## Moving a text -/

def LocatedFault.shift (distance : Nat) (f : LocatedFault) : LocatedFault :=
  { f with offset := f.offset + distance }

variable {R : Type}

def PlacedToken.shift (distance : Nat) (t : PlacedToken R) : PlacedToken R :=
  { t with offset := t.offset + distance }

def Draft.shift (distance : Nat) (d : Draft R) : Draft R :=
  { d with start := d.start.map (· + distance) }

variable [Scalar R] (distance : Nat)

/-- The tokens of a text move with the text. -/
theorem RouteToken.scan_shift (offset : Nat) (text : List Char) :
    (scan (offset + distance) text : List (PlacedToken R)) =
      (scan offset text).map (PlacedToken.shift distance) := by
  induction offset, text using scan.induct (R := R) with
  | case1 => rw [scan_nil, scan_nil, List.map_nil]
  | case2 offset rest ih =>
    rw [scan_oneWay, scan_oneWay, List.map_cons, Nat.add_right_comm, ih]
    rfl
  | case3 offset rest ih =>
    rw [scan_twoWay, scan_twoWay, List.map_cons, Nat.add_right_comm, ih]
    rfl
  | case4 offset rest unterminated =>
    rw [scan_unterminated unterminated, scan_unterminated unterminated]
    rfl
  | case5 offset rest content after found ih =>
    have moved : offset + distance + Text.utf8Size content + 2 =
        offset + Text.utf8Size content + 2 + distance := by omega
    rw [scan_details found, scan_details found, List.map_cons, moved, ih]
    rfl
  | case6 offset c rest oneWay twoWay bracket blank ih =>
    rw [scan_other oneWay twoWay bracket, scan_other oneWay twoWay bracket, if_pos blank,
      if_pos blank, Nat.add_right_comm, ih]
  | case7 offset c rest oneWay twoWay bracket blank malformed =>
    rw [scan_malformed malformed oneWay twoWay, scan_malformed malformed oneWay twoWay]
    rfl
  | case8 offset c rest oneWay twoWay bracket blank other token found ih =>
    obtain ⟨dash, angle⟩ := not_or.1 other
    rw [scan_plain dash angle bracket, scan_plain dash angle bracket, if_neg blank, if_neg blank,
      found, Option.elim_some, Option.elim_some, List.map_cons, Nat.add_right_comm, ih]
    rfl
  | case9 offset c rest oneWay twoWay bracket blank other found =>
    obtain ⟨dash, angle⟩ := not_or.1 other
    rw [scan_plain dash angle bracket, scan_plain dash angle bracket, if_neg blank, if_neg blank,
      found]
    rfl

namespace Draft

variable (d : Draft R) (density : R) (element : Bounds R)

omit [Scalar R] in
theorem begin_shift (offset : Nat) :
    (d.shift distance).begin (offset + distance) = (d.begin offset).shift distance := by
  cases started : d.start <;> simp [begin, shift, started, Nat.add_right_comm]

theorem add_shift (t : PlacedToken R) :
    (d.shift distance).add density element (t.shift distance) =
      ((d.add density element t).mapError (LocatedFault.shift distance)).map
        fun (d', element') => (d'.shift distance, element') := by
  obtain ⟨offset, token⟩ := t
  simp only [add, PlacedToken.shift, begin_shift]
  cases token with
  | heading _ | final | event _ | arrow _ | fault _ => rfl
  | details block =>
    cases placed : d.headings.isEmpty with
    | true =>
      simp only [shift, placed, if_true]
      rfl
    | false =>
      simp only [shift, placed, Bool.false_eq_true, if_false]
      cases block <;> rfl
  | times times =>
    simp only [shift]
    cases d.events <;> rfl
  | marker =>
    have after : (d.begin offset).afterEvent = d.afterEvent := rfl
    have events : (d.begin offset).events = d.events := rfl
    simp only [shift, after, events]
    cases d.afterEvent <;> cases d.events <;> rfl

theorem finish_shift {d : Draft R} (started : d.start.isSome = true) :
    (d.shift distance).finish density element =
      (d.finish density element).mapError (LocatedFault.shift distance) := by
  obtain ⟨start, known⟩ := Option.isSome_iff_exists.1 started
  simp only [finish, shift, known, Option.map_some, Option.getD_some]
  split
  · rfl
  · split <;> rfl

end Draft

namespace Route

variable {density : R} {missing atEnd : LocatedFault} {element : Bounds R} {d : Draft R}
  {t : PlacedToken R} {ts : List (PlacedToken R)}

theorem readFrom_arrow {arrow : Arrow} (token : t.token = .arrow arrow) :
    readFrom density missing atEnd element d (t :: ts) =
      if d.headings.isEmpty then .error ⟨t.offset, .arrowWithoutSource⟩
      else do
        let stop ← d.finish density element
        let others ← readFrom density atEnd atEnd element {} ts
        return ⟨stop, (arrow, others.first) :: others.rest, others.element⟩ := by
  rw [readFrom, token]
  simp only
  split <;> rfl

theorem readFrom_add (plain : ∀ arrow, t.token ≠ .arrow arrow) :
    readFrom density missing atEnd element d (t :: ts) =
      d.add density element t >>= fun (d', element') =>
        readFrom density missing atEnd element' d' ts := by
  rw [readFrom]
  split
  · next arrow token => exact absurd token (plain arrow)
  · rfl

variable (missing atEnd) in
/-- Where a text stands matters to where it is rejected, and to nothing else. -/
theorem readFrom_shift (begun : d.Begun) :
    readFrom density (missing.shift distance) (atEnd.shift distance) element (d.shift distance)
        (ts.map (PlacedToken.shift distance)) =
      (readFrom density missing atEnd element d ts).mapError (LocatedFault.shift distance) := by
  induction ts generalizing d element missing with
  | nil =>
    rw [List.map_nil, readFrom, readFrom]
    cases started : d.start with
    | none =>
      simp only [Draft.shift, started]
      rfl
    | some start =>
      have some_start : d.start.isSome = true := by rw [started]; rfl
      rw [Draft.finish_shift distance density element some_start]
      simp only [Draft.shift, started]
      rw [mapError_bind]
      rfl
  | cons t ts ih =>
    rw [List.map_cons]
    by_cases arrow : ∃ arrow, t.token = .arrow arrow
    · obtain ⟨arrow, token⟩ := arrow
      have moved : (t.shift distance).token = .arrow arrow := token
      rw [readFrom_arrow token, readFrom_arrow moved]
      cases placed : d.headings.isEmpty with
      | true =>
        simp only [Draft.shift, placed, if_true]
        rfl
      | false =>
        have some_start : d.start.isSome = true := begun (by simpa using placed)
        have empty : ({} : Draft R).Begun := fun headings => absurd rfl headings
        have later : readFrom density (atEnd.shift distance) (atEnd.shift distance) element {}
              (ts.map (PlacedToken.shift distance)) =
            (readFrom density atEnd atEnd element {} ts).mapError (LocatedFault.shift distance) :=
          ih atEnd empty
        rw [Draft.finish_shift distance density element some_start, later]
        simp only [Draft.shift, placed, Bool.false_eq_true, if_false, mapError_bind]
        rfl
    · have plain := not_exists.1 arrow
      have plain' : ∀ arrow, (t.shift distance).token ≠ .arrow arrow := plain
      rw [readFrom_add plain, readFrom_add plain', Draft.add_shift]
      cases added : d.add density element t with
      | error fault => rfl
      | ok next => exact ih missing ((Draft.added_of_add added).begun begun)

/-- A body is read in the same way wherever it stands; only the offset of a fault moves. -/
theorem read_shift (density : R) (element : Bounds R) (offset : Nat) (body : List Char) :
    read density element (offset + distance) body =
      (read density element offset body).mapError (LocatedFault.shift distance) := by
  have empty : ({} : Draft R).Begun := fun headings => absurd rfl headings
  have ends : offset + distance + Text.utf8Size body = offset + Text.utf8Size body + distance := by
    omega
  have fresh : ({} : Draft R) = ({} : Draft R).shift distance := rfl
  rw [read, read, RouteToken.scan_shift, ends]
  nth_rewrite 1 [fresh]
  exact readFrom_shift distance ⟨offset, .noStates⟩
    ⟨offset + Text.utf8Size body, .arrowWithoutTarget⟩ empty

end Route

/-- A text without a separator is cut at the one that follows it. -/
theorem Text.cut?_of_notMem {sep : Char} {before : List Char} (plain : sep ∉ before)
    (after : List Char) : cut? sep (before ++ sep :: after) = some (before, after) := by
  induction before with
  | nil => rw [List.nil_append, cut?, if_pos rfl]
  | cons c rest ih =>
    rw [List.mem_cons, not_or] at plain
    rw [List.cons_append, cut?, if_neg (Ne.symm plain.1), ih plain.2]
    rfl

/-- A label before a text moves it, and does nothing else. -/
theorem GestureText.route_labelled {density : R} {element : Bounds R} {label body : List Char}
    (plain : ':' ∉ label) (plain' : ':' ∉ body) :
    route density element (label ++ ':' :: body) =
      (route density element body).mapError (LocatedFault.shift (Text.utf8Size label + 1)) := by
  have offset : (ofChars (label ++ ':' :: body)).offset = 0 + (Text.utf8Size label + 1) := by
    rw [ofChars, Text.cut?_of_notMem plain, Nat.zero_add]
  have rest : (ofChars (label ++ ':' :: body)).body = body := by
    rw [ofChars, Text.cut?_of_notMem plain]
  rw [route, route_of_plain plain', offset, rest]
  exact Route.read_shift _ density element 0 body

/-! ## Boundaries -/

section Boundaries

variable {source : List Char}

omit [Scalar R] in
/-- The tokens that consist of a single character take one byte. -/
theorem RouteToken.utf8Size_of_single? {c : Char} {token : RouteToken R}
    (found : single? c = some token) : c.utf8Size = 1 := by
  unfold single? at found
  split at found
  case h_8 =>
    obtain ⟨heading, known, -⟩ := Option.map_eq_some_iff.1 found
    obtain ⟨before, after, whole, -⟩ := List.lookup_eq_some_iff.1 known
    have small : ∀ p ∈ Heading.letters, p.1.utf8Size = 1 := by decide
    exact small (c, heading) (by simp [whole])
  all_goals rfl

/-- Every token stands at a boundary, and so does what comes after its first byte, unless the token
is a fault. -/
structure PlacedToken.Bounded (source : List Char) (t : PlacedToken R) : Prop where
  here : Text.IsBoundary source t.offset
  next : (∀ fault, t.token ≠ .fault fault) → Text.IsBoundary source (t.offset + 1)

theorem RouteToken.bounded_scan {offset : Nat} {text : List Char}
    (stands : Text.StandsAt source offset text) :
    ∀ t ∈ (scan offset text : List (PlacedToken R)), t.Bounded source := by
  induction offset, text using scan.induct (R := R) with
  | case1 =>
    rw [scan_nil]
    exact List.forall_mem_nil _
  | case2 offset rest ih =>
    rw [scan_oneWay, List.forall_mem_cons]
    exact ⟨⟨stands.isBoundary, fun _ => stands.tail.isBoundary⟩, ih stands.tail.tail⟩
  | case3 offset rest ih =>
    rw [scan_twoWay, List.forall_mem_cons]
    exact ⟨⟨stands.isBoundary, fun _ => stands.tail.isBoundary⟩, ih stands.tail.tail.tail⟩
  | case4 offset rest unterminated =>
    rw [scan_unterminated unterminated, List.forall_mem_singleton]
    exact ⟨stands.isBoundary, fun _ => stands.tail.isBoundary⟩
  | case5 offset rest content after found ih =>
    rw [scan_details found, List.forall_mem_cons]
    exact ⟨⟨stands.isBoundary, fun _ => stands.tail.isBoundary⟩, ih (stands.after_block found)⟩
  | case6 offset c rest oneWay twoWay bracket blank ih =>
    rw [scan_other oneWay twoWay bracket, if_pos blank]
    exact ih stands.tail
  | case7 offset c rest oneWay twoWay bracket blank malformed =>
    rw [scan_malformed malformed oneWay twoWay, List.forall_mem_singleton]
    exact ⟨stands.isBoundary, fun sound => absurd rfl (sound _)⟩
  | case8 offset c rest oneWay twoWay bracket blank other token found ih =>
    obtain ⟨dash, angle⟩ := not_or.1 other
    rw [scan_plain dash angle bracket, if_neg blank, found, Option.elim_some, List.forall_mem_cons]
    refine ⟨⟨stands.isBoundary, fun _ => ?_⟩, ih stands.tail⟩
    exact utf8Size_of_single? found ▸ stands.tail.isBoundary
  | case9 offset c rest oneWay twoWay bracket blank other found =>
    obtain ⟨dash, angle⟩ := not_or.1 other
    rw [scan_plain dash angle bracket, if_neg blank, found, Option.elim_none,
      List.forall_mem_singleton]
    exact ⟨stands.isBoundary, fun sound => absurd rfl (sound _)⟩

namespace Draft

/-- If the stop has started, it starts at a boundary. -/
def Bounded (source : List Char) (d : Draft R) : Prop :=
  ∀ start, d.start = some start → Text.IsBoundary source start

variable {d d' : Draft R} {density : R} {element element' : Bounds R} {t : PlacedToken R}
  {fault : LocatedFault}

omit [Scalar R] in
theorem Bounded.begin (bounded : d.Bounded source) {offset : Nat}
    (next : Text.IsBoundary source (offset + 1)) : (d.begin offset).Bounded source := by
  intro start started
  cases known : d.start with
  | none =>
    simp only [Draft.begin, known] at started
    exact Option.some.inj started ▸ next
  | some first =>
    simp only [Draft.begin, known] at started
    exact bounded start (known.trans started)

theorem Bounded.add (bounded : d.Bounded source) (placed : t.Bounded source)
    (added : d.add density element t = .ok (d', element')) : d'.Bounded source := by
  have begins : (∀ fault, t.token ≠ .fault fault) → (d.begin t.offset).Bounded source :=
    fun sound => bounded.begin (placed.next sound)
  unfold Draft.add at added
  cases token : t.token with
  | heading heading | final | event kind =>
    rw [token] at added
    cases added
    exact begins (by simp [token])
  | details block =>
    rw [token] at added
    simp only at added
    split at added
    · cases added
    · cases block <;> cases added
      exact bounded
  | times times =>
    rw [token] at added
    simp only at added
    split at added <;> cases added
    exact bounded
  | marker =>
    rw [token] at added
    simp only at added
    split at added <;> cases added <;> exact begins (by simp [token])
  | arrow arrow =>
    rw [token] at added
    cases added
    exact bounded
  | fault fault =>
    rw [token] at added
    cases added

/-- A token is rejected where it stands. -/
theorem offset_of_add (rejected : d.add density element t = .error fault) :
    fault.offset = t.offset := by
  unfold add at rejected
  cases token : t.token with
  | heading _ | final | event _ | arrow _ =>
    rw [token] at rejected
    cases rejected
  | details block =>
    rw [token] at rejected
    simp only at rejected
    split at rejected
    · cases rejected
      rfl
    · cases block <;> cases rejected
      rfl
  | times times =>
    rw [token] at rejected
    simp only at rejected
    split at rejected <;> cases rejected
    rfl
  | marker =>
    rw [token] at rejected
    simp only at rejected
    split at rejected <;> cases rejected
  | fault fault =>
    rw [token] at rejected
    cases rejected
    rfl

/-- A stop is rejected where it starts. -/
theorem Bounded.finish (bounded : d.Bounded source)
    (rejected : d.finish density element = .error fault) : Text.IsBoundary source fault.offset := by
  have start : Text.IsBoundary source (d.start.getD 0) := by
    cases started : d.start with
    | none => exact Text.isBoundary_zero source
    | some start => exact bounded start started
  unfold Draft.finish at rejected
  simp only at rejected
  split at rejected
  · exact Except.error.inj rejected ▸ start
  · split at rejected
    · exact Except.error.inj rejected ▸ start
    · cases rejected

end Draft

/-- Every text is rejected at a boundary. -/
theorem Route.bounded_readFrom {density : R} {missing atEnd fault : LocatedFault}
    {element : Bounds R} {d : Draft R} {ts : List (PlacedToken R)}
    (first : Text.IsBoundary source missing.offset) (last : Text.IsBoundary source atEnd.offset)
    (bounded : d.Bounded source) (placed : ∀ t ∈ ts, t.Bounded source)
    (rejected : readFrom density missing atEnd element d ts = .error fault) :
    Text.IsBoundary source fault.offset := by
  induction ts generalizing d element missing with
  | nil =>
    rw [readFrom] at rejected
    cases started : d.start with
    | none =>
      rw [started] at rejected
      exact Except.error.inj rejected ▸ first
    | some start =>
      rw [started] at rejected
      rcases error_of_bind_eq_error rejected with rejected | ⟨stop, -, never⟩
      · exact bounded.finish rejected
      · cases never
  | cons t ts ih =>
    obtain ⟨here, others⟩ := List.forall_mem_cons.1 placed
    by_cases arrow : ∃ arrow, t.token = .arrow arrow
    · obtain ⟨arrow, token⟩ := arrow
      rw [readFrom_arrow token] at rejected
      split at rejected
      · exact Except.error.inj rejected ▸ here.here
      · rcases error_of_bind_eq_error rejected with rejected | ⟨stop, -, rejected⟩
        · exact bounded.finish rejected
        · rcases error_of_bind_eq_error rejected with rejected | ⟨route, -, never⟩
          · exact ih last (fun start started => by cases started) others rejected
          · cases never
    · rw [readFrom_add (not_exists.1 arrow)] at rejected
      rcases error_of_bind_eq_error rejected with rejected | ⟨⟨d', element'⟩, added, rejected⟩
      · exact Draft.offset_of_add rejected ▸ here.here
      · exact ih first (bounded.add here added) others rejected

/-- Every body is rejected at a boundary of the text that it stands in. -/
theorem Route.bounded_read {density : R} {element : Bounds R} {offset : Nat} {body : List Char}
    (stands : Text.StandsAt source offset body) {fault : LocatedFault}
    (rejected : read density element offset body = .error fault) :
    Text.IsBoundary source fault.offset := by
  have ends : Text.StandsAt source (offset + Text.utf8Size body) [] :=
    Text.StandsAt.append (by rwa [List.append_nil])
  have empty : ({} : Draft R).Bounded source := fun start started => by cases started
  exact bounded_readFrom stands.isBoundary ends.isBoundary empty
    (RouteToken.bounded_scan stands) rejected

end Boundaries

end TouchIntent
