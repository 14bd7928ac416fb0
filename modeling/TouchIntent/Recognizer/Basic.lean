import TouchIntent.Gesture.Compile
import TouchIntent.Recognizer.View
import TouchIntent.Recognizer.Window

/-!
# Recognizers

A recognizer follows one behaviour online. Each sample goes into the window, and the likelihood and
the most likely path of every pointer are worked out anew from the samples that the window holds.
Mean pressure and contact size are those of all samples since the last reset, including samples that
have left the window.

A behaviour that may start anywhere is anchored at the first press: its model is moved so that the
centre of the element comes to lie there.
-/

namespace TouchIntent

open Scalar

/-- What is known of one pointer. -/
structure Track (R : Type) where
  pointer : PointerId
  logLikelihood : R
  path : List Nat
  meanPressure : R
  meanSize : R
  /-- How many samples the means are taken over. -/
  count : Nat

structure Recognizer (R : Type) where
  label : String
  model : Model R
  pattern : Pattern
  window : Window R
  tracks : List (Track R)
  /-- The greatest likelihood over the pointers, `-∞` before any sample. -/
  logLikelihood : R
  /-- The first pointer of greatest likelihood. -/
  dominantPointer : PointerId
  firstTime : Option Millis
  lastTime : Millis
  /-- The centre of the element, for a behaviour that may start anywhere. -/
  origin : Option (Vec2 R)
  /-- The behaviour was moved to where the gesture started. -/
  isAnchored : Bool
  logPosterior : R
  isMostLikely : Bool

/-- An observation of a kind that a behaviour does not look at. -/
structure WrongModality where
  behavior : String
  modality : Modality
  deriving DecidableEq

def WrongModality.message (e : WrongModality) : String :=
  s!"behavior `{e.behavior}` only observes touch samples, got {e.modality.name}"

variable {R : Type} [Scalar R]

namespace Track

def empty (pointer : PointerId) : Track R := ⟨pointer, zero, [], zero, zero, 0⟩

/-- The means with one more sample. -/
def fold (t : Track R) (sample : Sample R) : Track R :=
  let n : R := ofNat t.count
  { t with
    meanPressure := (t.meanPressure * n + sample.pressure) / (n + one)
    meanSize := (t.meanSize * n + sample.majorAxis) / (n + one)
    count := t.count + 1 }

/-- Likelihood and path of a pointer from the samples in the window. -/
def decode (model : Model R) (samples : List (Sample R)) (t : Track R) : Track R :=
  if samples.isEmpty then { t with logLikelihood := negInfinity, path := [] }
  else { t with
    logLikelihood := model.logLikelihood samples
    path := (model.mostLikelyPath samples).map Fin.val }

/-- The tracks with a sample folded into the first track of its pointer. -/
def foldInto (sample : Sample R) : List (Track R) → List (Track R)
  | [] => []
  | t :: others =>
    if t.pointer = sample.pointer then t.fold sample :: others else t :: foldInto sample others

/-- The greatest likelihood and the first pointer that has it; `first` if none is above `-∞`. -/
def dominant (first : PointerId) (tracks : List (Track R)) : R × PointerId :=
  tracks.foldl (fun best t =>
    if best.1 < t.logLikelihood then (t.logLikelihood, t.pointer) else best) (negInfinity, first)

end Track

namespace Recognizer

def ofBehavior (b : Behavior R) (maxObservations : Nat) : Recognizer R where
  label := b.label
  model := b.model
  pattern := b.pattern
  window := Window.empty b.pointers maxObservations
  tracks := b.pointers.map Track.empty
  logLikelihood := negInfinity
  dominantPointer := b.pointers.headD 0
  firstTime := none
  lastTime := 0
  origin := b.origin
  isAnchored := false
  logPosterior := negInfinity
  isMostLikely := false

variable (r : Recognizer R)

def accepts (pointer : PointerId) : Bool := r.window.accepts pointer

/-- The pointer that is dominant as long as no pointer has been observed. -/
def defaultPointer : PointerId := (r.tracks.head?.map Track.pointer).getD 0

def translate (d : Vec2 R) : Recognizer R :=
  { r with model := r.model.translate d, origin := r.origin.map fun o => o.add d }

/-- Moves a behaviour that may start anywhere to a press, once in a gesture. -/
def anchor (sample : Sample R) : Recognizer R :=
  match r.origin with
  | none => r
  | some origin =>
    if !r.isAnchored && sample.kind == .down then
      { r.translate (sample.position.sub origin) with isAnchored := true }
    else r

/-- Works out the likelihood and the path of every pointer from the window. -/
def decode : Recognizer R :=
  let tracks := r.tracks.map fun t => t.decode r.model (r.window.samples t.pointer)
  let (logLikelihood, dominantPointer) :=
    Track.dominant r.defaultPointer
      (tracks.filter fun t => !(r.window.samples t.pointer).isEmpty)
  { r with tracks, logLikelihood, dominantPointer }

/-- Takes in a sample. A sample of a pointer that the behaviour does not listen to changes
nothing. -/
def observeTouch (sample : Sample R) : Recognizer R :=
  if r.accepts sample.pointer then
    let r := { r with
      firstTime := r.firstTime <|> some sample.time
      lastTime := sample.time }
    let r := r.anchor sample
    let r := { r with window := r.window.push sample }.decode
    { r with tracks := Track.foldInto sample r.tracks }
  else r

/-- Takes in an observation, and says whether it concerned the behaviour. -/
def observe : Observation R → Recognizer R × Except WrongModality Bool
  | .touch sample => (r.observeTouch sample, .ok (r.accepts sample.pointer))
  | .multiTouch frame => (r, .error ⟨r.label, (Observation.multiTouch frame).modality⟩)

/-- Forgets all samples. A behaviour that may start anywhere stays where it is until the next
press. -/
def reset : Recognizer R :=
  { r with
    window := r.window.clear
    tracks := r.tracks.map fun t => Track.empty t.pointer
    logLikelihood := negInfinity
    dominantPointer := r.defaultPointer
    firstTime := none
    lastTime := 0
    isAnchored := false }

def track? (pointer : PointerId) : Option (Track R) := r.tracks.find? fun t => t.pointer == pointer

/-- The likelihood of one pointer, if it has been observed. -/
def pointerLogLikelihood? (pointer : PointerId) : Option R :=
  if (r.window.samples pointer).isEmpty then none
  else (r.track? pointer).map Track.logLikelihood

def path (pointer : PointerId) : List Nat := ((r.track? pointer).map Track.path).getD []

def eventKinds (pointer : PointerId) : List EventKind := r.window.eventKinds pointer

def meanPressure (pointer : PointerId) : R :=
  ((r.track? pointer).map Track.meanPressure).getD zero

def meanSize (pointer : PointerId) : R := ((r.track? pointer).map Track.meanSize).getD zero

/-- The time from the first to the last sample; a clock that runs backwards takes none. -/
def timeTaken : Millis :=
  match r.firstTime with
  | none => 0
  | some first => r.lastTime - first

def observationCount : Nat := r.window.observationCount

def observedPointerCount : Nat := r.window.observedPointerCount

def probability : R := exp r.logPosterior

def view : BehaviorView R where
  label := r.label
  logLikelihood := r.logLikelihood
  path := r.path r.dominantPointer
  eventKinds := r.eventKinds r.dominantPointer
  isMostLikely := r.isMostLikely
  timeTaken := r.timeTaken
  meanPressure := r.meanPressure r.dominantPointer
  meanSize := r.meanSize r.dominantPointer
  observedPointerCount := r.observedPointerCount
  pattern := r.pattern

end Recognizer

end TouchIntent
