import TouchIntent.Pattern.Basic

/-!
# Matching the events of a state

The events that happen while a gesture is in one state are matched against the events that the state
requires. The matcher is greedy and looks at each event once: a repeated event takes what it can,
and a move is passed over where no move is required, because fingers jitter.
-/

namespace TouchIntent

/-- A required event and how often it has happened. -/
structure Tally where
  token : EventToken
  count : Nat
  deriving DecidableEq

/-- What matching has found: whether the requirements are met, and the tally of each of them. -/
structure MatchOutcome where
  matched : Bool
  tallies : List Tally

namespace MatchOutcome

/-- An outcome with one more tally in front. -/
def push (tally : Tally) (o : MatchOutcome) : MatchOutcome := ⟨o.matched, tally :: o.tallies⟩

end MatchOutcome

/-- The requirement is met by what has happened. -/
def Tally.isMet (t : Tally) : Bool := !t.token.times.isRequired || decide (0 < t.count)

/-- Matches the rest of a span. `current` is the requirement at hand with what it has taken so far,
`later` are the requirements after it. -/
def matchFrom (current : Tally) (later : List EventToken) : List EventKind → MatchOutcome
  | [] =>
    let untouched := later.map fun token => (⟨token, 0⟩ : Tally)
    ⟨current.isMet && untouched.all Tally.isMet, current :: untouched⟩
  | event :: rest =>
    if event = .move ∧ current.token.kind ≠ .move then matchFrom current later rest
    else if current.token.kind = event then
      let taken : Tally := { current with count := current.count + 1 }
      if current.token.times = .once then
        match later with
        | [] => ⟨rest.all (· == .move) && (rest.isEmpty || event != .move), [taken]⟩
        | next :: others => (matchFrom ⟨next, 0⟩ others rest).push taken
      else matchFrom taken later rest
    else if current.token.times = .once ∨ ¬ current.isMet then
      ⟨false, current :: later.map fun token => ⟨token, 0⟩⟩
    else
      match later with
      | [] => ⟨false, [current]⟩
      | next :: others => (matchFrom ⟨next, 0⟩ others (event :: rest)).push current
  termination_by events => (events.length, later.length)

/-- Matches the events of a span against a list of requirements. A state that requires nothing is
satisfied by any span, and an empty span satisfies nothing else. -/
def matchSpan (tokens : List EventToken) (span : List EventKind) : MatchOutcome :=
  match tokens, span with
  | [], _ => ⟨true, []⟩
  | _, [] => ⟨false, []⟩
  | first :: later, _ => matchFrom ⟨first, 0⟩ later span

end TouchIntent
