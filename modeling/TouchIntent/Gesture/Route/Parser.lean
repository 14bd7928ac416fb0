import TouchIntent.Gesture.Route.Token

/-!
# Reading gesture texts

The stops of a route are read one after another. The tokens up to an arrow, or up to the end of the
text, are collected in a draft, and the draft is then placed on the surface. Nothing but the box of
the element is carried from one stop to the next: a stop that is placed at the origin of the element
may resize that box for the stops after it.
-/

namespace TouchIntent

/-- What has been read of a stop. -/
structure Draft (R : Type) where
  headings : List Heading := []
  details : List (Detail R) := []
  isFinal : Bool := false
  hasMarker : Bool := false
  /-- The events of the stop, the latest first. -/
  events : List RouteEvent := []
  /-- The offset after the first token of the stop. -/
  start : Option Nat := none
  /-- The last token was an event, so a marker belongs to it. -/
  afterEvent : Bool := false

variable {R : Type} [Scalar R]

namespace Draft

/-- Notes where the stop starts, when its first token is read. -/
def begin (d : Draft R) (offset : Nat) : Draft R :=
  { d with start := d.start <|> some (offset + 1) }

/-- Details change the box of the element if the stop is placed at its origin and nowhere else. -/
def resizeElement (d : Draft R) (density : R) (element : Bounds R) (details : List (Detail R)) :
    Bounds R :=
  if d.headings = [.origin] then details.foldl (Bounds.resize density) element else element

/-- Adds a token other than an arrow to a stop, and resizes the element. -/
def add (density : R) (element : Bounds R) (d : Draft R) (t : PlacedToken R) :
    Except LocatedFault (Draft R × Bounds R) :=
  match t.token with
  | .heading heading =>
    let d := d.begin t.offset
    .ok ({ d with headings := d.headings ++ [heading], afterEvent := false }, element)
  | .details block =>
    if d.headings.isEmpty then .error ⟨t.offset, .detailsWithoutLocation⟩
    else match block with
      | .error fault => .error ⟨t.offset, fault⟩
      | .ok details =>
        .ok ({ d with details := d.details ++ details, afterEvent := false },
          d.resizeElement density element details)
  | .final => .ok ({ d.begin t.offset with isFinal := true, afterEvent := false }, element)
  | .event kind =>
    let d := d.begin t.offset
    .ok ({ d with events := ⟨⟨kind, .once⟩, false⟩ :: d.events, afterEvent := true }, element)
  | .times times =>
    match d.events with
    | [] => .error ⟨t.offset, .timesWithoutEvent times⟩
    | event :: others =>
      let event := { event with token := { event.token with times } }
      .ok ({ d with events := event :: others, afterEvent := true }, element)
  | .marker =>
    let d := d.begin t.offset
    match d.afterEvent, d.events with
    | true, event :: others =>
      let event := { event with hasMarker := true }
      .ok ({ d with events := event :: others, afterEvent := false }, element)
    | _, _ => .ok ({ d with hasMarker := true, afterEvent := false }, element)
  | .arrow _ => .ok (d, element)
  | .fault fault => .error ⟨t.offset, fault⟩

/-- The stop that a draft describes. -/
def finish (d : Draft R) (density : R) (element : Bounds R) : Except LocatedFault (Stop R) :=
  let start := d.start.getD 0
  if d.headings.isEmpty then .error ⟨start, .noLocation⟩
  else
    let region := Region.place element density d.headings d.details
    if region.width ≤ Scalar.zero ∨ region.height ≤ Scalar.zero then .error ⟨start, .noArea⟩
    else .ok {
      region
      isRelative := d.headings.contains .origin
      isFinal := d.isFinal
      hasMarker := d.hasMarker
      events := d.events.reverse }

end Draft

/-- Reads a stop and all that follows it. `missing` is the fault if there is no stop to read. -/
def Route.readFrom (density : R) (missing atEnd : LocatedFault) (element : Bounds R) (d : Draft R) :
    List (PlacedToken R) → Except LocatedFault (Route R)
  | [] =>
    match d.start with
    | none => .error missing
    | some _ => do
      let stop ← d.finish density element
      return ⟨stop, [], element⟩
  | t :: rest =>
    match t.token with
    | .arrow arrow => do
      if d.headings.isEmpty then throw ⟨t.offset, .arrowWithoutSource⟩
      let stop ← d.finish density element
      let others ← readFrom density atEnd atEnd element {} rest
      return ⟨stop, (arrow, others.first) :: others.rest, others.element⟩
    | _ => do
      let (d, element) ← d.add density element t
      readFrom density missing atEnd element d rest

/-- Reads the body of a gesture text, which starts at the given offset of the text. -/
def Route.read (density : R) (element : Bounds R) (offset : Nat) (body : List Char) :
    Except LocatedFault (Route R) :=
  readFrom density ⟨offset, .noStates⟩ ⟨offset + Text.utf8Size body, .arrowWithoutTarget⟩ element {}
    (RouteToken.scan offset body)

/-- A gesture text: its label, if it has one, and the offset and text of its body. -/
structure GestureText where
  label : Option String
  offset : Nat
  body : List Char

/-- A label stands before the first colon; a blank one is none. -/
def GestureText.ofChars (source : List Char) : GestureText :=
  match Text.cut? ':' source with
  | none => ⟨none, 0, source⟩
  | some (before, body) =>
    let label := Text.trim before
    ⟨if label.isEmpty then none else some (String.ofList label), Text.utf8Size before + 1, body⟩

end TouchIntent
