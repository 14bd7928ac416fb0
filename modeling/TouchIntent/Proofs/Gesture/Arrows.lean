import Mathlib
import TouchIntent.Proofs.Gesture.Chain

/-!
# The arrows of a gesture text

The arrows that are written in a text outside its details, read off its characters alone. The route
of an accepted text has exactly these arrows, in this order.
-/

namespace TouchIntent

/-- The arrows written in a text outside details, given whether it starts inside some. -/
def Arrow.writtenIn : Bool → List Char → List Arrow
  | false, '-' :: '>' :: rest => oneWay :: writtenIn false rest
  | false, '<' :: '-' :: '>' :: rest => twoWay :: writtenIn false rest
  | inside, c :: rest => writtenIn (if inside then c != ']' else c == '[') rest
  | _, [] => []

/-- The arrows written in a gesture text, after its label. -/
def GestureText.arrows (source : List Char) : List Arrow :=
  Arrow.writtenIn false (GestureText.ofChars source).body

namespace Arrow

variable {c : Char} {rest content after : List Char}

theorem writtenIn_oneWay :
    writtenIn false ('-' :: '>' :: rest) = .oneWay :: writtenIn false rest := by
  rw [writtenIn]

theorem writtenIn_twoWay :
    writtenIn false ('<' :: '-' :: '>' :: rest) = .twoWay :: writtenIn false rest := by
  rw [writtenIn]

/-- A character that starts no arrow. -/
theorem writtenIn_other (oneWay : ∀ after, c = '-' → rest ≠ '>' :: after)
    (twoWay : ∀ after, c = '<' → rest ≠ '-' :: '>' :: after) :
    writtenIn false (c :: rest) = writtenIn (c == '[') rest := by
  rw [writtenIn.eq_def]
  split
  · next same => cases same; exact absurd rfl (oneWay _ rfl)
  · next same => cases same; exact absurd rfl (twoWay _ rfl)
  · next same _ _ =>
    cases same
    rfl
  · next empty => cases empty

theorem writtenIn_inside : writtenIn true (c :: rest) = writtenIn (c != ']') rest := by
  rw [writtenIn.eq_def]
  rfl

/-- Nothing written inside details is an arrow. -/
theorem writtenIn_details (found : Text.cut? ']' rest = some (content, after)) :
    writtenIn true rest = writtenIn false after := by
  induction rest generalizing content with
  | nil => cases found
  | cons c rest ih =>
    rw [Text.cut?] at found
    rw [writtenIn_inside]
    split at found
    · next same =>
      cases found
      simp [same]
    · next differs =>
      obtain ⟨⟨content', after'⟩, cut, same⟩ := Option.map_eq_some_iff.1 found
      cases same
      rw [bne_iff_ne.2 differs]
      exact ih cut

end Arrow

namespace RouteToken

variable {R : Type}

/-- The arrow that a token is, if it is one. -/
def arrow? : RouteToken R → Option Arrow
  | .arrow written => some written
  | _ => none

variable [Scalar R]

/-- The arrows among the tokens of a text are those that are written in it. -/
theorem arrows_ofText {text : List Char} (sound : AllSound (ofText text : List (RouteToken R))) :
    (ofText text : List (RouteToken R)).filterMap arrow? = Arrow.writtenIn false text := by
  generalize start : (0 : Nat) = offset
  clear start
  induction offset, text using scan.induct (R := R) with
  | case1 =>
    rw [ofText_nil]
    rfl
  | case2 offset rest ih =>
    rw [ofText_oneWay] at sound ⊢
    rw [Arrow.writtenIn_oneWay, ← ih sound.tail]
    rfl
  | case3 offset rest ih =>
    rw [ofText_twoWay] at sound ⊢
    rw [Arrow.writtenIn_twoWay, ← ih sound.tail]
    rfl
  | case4 offset rest unterminated =>
    rw [ofText_unterminated unterminated] at sound
    cases sound.head
  | case5 offset rest content after found ih =>
    rw [ofText_details found] at sound ⊢
    have bracket : Arrow.writtenIn false ('[' :: rest) = Arrow.writtenIn true rest :=
      Arrow.writtenIn_other (by simp) (by simp)
    rw [bracket, Arrow.writtenIn_details found, ← ih sound.tail]
    rfl
  | case6 offset c rest oneWay twoWay bracket blank ih =>
    rw [ofText_blank blank] at sound ⊢
    rw [Arrow.writtenIn_other oneWay twoWay, beq_false_of_ne bracket, ih sound]
  | case7 offset c rest oneWay twoWay bracket blank malformed =>
    rw [ofText_malformed malformed oneWay twoWay] at sound
    cases sound.head
  | case8 offset c rest oneWay twoWay bracket blank other token found ih =>
    rw [ofText_single blank found] at sound ⊢
    have plain : arrow? token = none := by
      cases token with
      | arrow arrow => exact absurd found (single?_ne_arrow c arrow)
      | _ => rfl
    rw [Arrow.writtenIn_other oneWay twoWay, beq_false_of_ne bracket, ← ih sound.tail,
      List.filterMap_cons_none plain]
  | case9 offset c rest oneWay twoWay bracket blank other found =>
    obtain ⟨dash, angle⟩ := not_or.1 other
    rw [ofText_unexpected dash angle bracket blank found] at sound
    cases sound.head

end RouteToken

namespace Route

variable {R : Type} [Scalar R] {density : R} {missing atEnd : LocatedFault}
  {element : Bounds R} {d : Draft R} {ts : List (PlacedToken R)} {r : Route R}

/-- Every arrow token becomes an arrow of the route, and nothing else does. -/
theorem arrows_of_readFrom (read : readFrom density missing atEnd element d ts = .ok r) :
    r.arrows = (ts.map PlacedToken.token).filterMap RouteToken.arrow? := by
  induction ts generalizing d element missing atEnd r with
  | nil =>
    obtain ⟨-, stop, -, rfl⟩ := readFrom_nil_eq_ok.1 read
    rfl
  | cons t ts ih =>
    rw [List.map_cons]
    by_cases arrow : ∃ arrow, t.token = .arrow arrow
    · obtain ⟨arrow, isArrow⟩ := arrow
      obtain ⟨stop, others, -, later, rfl⟩ := (readFrom_arrow_eq_ok isArrow).1 read
      have head : (t.token).arrow? = some arrow := by rw [isArrow]; rfl
      rw [List.filterMap_cons_some head, ← ih later]
      rfl
    · have plain := not_exists.1 arrow
      obtain ⟨d', element', -, later⟩ := (readFrom_add_eq_ok plain).1 read
      have head : (t.token).arrow? = none := by
        cases token : t.token with
        | arrow arrow => exact absurd token (plain arrow)
        | _ => rfl
      rw [List.filterMap_cons_none head]
      exact ih later

/-- The route of a text has the arrows that are written in the text. -/
theorem arrows_of_read {offset : Nat} {body : List Char}
    (read : Route.read density element offset body = .ok r) :
    r.arrows = Arrow.writtenIn false body := by
  have sound := allSound_of_read read
  rw [← RouteToken.arrows_ofText sound, ← RouteToken.map_token_scan offset body]
  exact arrows_of_readFrom read

end Route

end TouchIntent
