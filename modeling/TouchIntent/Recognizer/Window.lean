import TouchIntent.Touch

/-!
# Observation windows

The recent samples of each pointer that a behaviour listens to. A window holds a bounded number of
samples of each pointer, and the pointers age together: when a sample goes into a full lane, every
lane gives up its oldest sample. A pointer that has been lifted thus fades out while another one
moves on.
-/

namespace TouchIntent

/-- How many samples of each pointer a window holds unless told otherwise. -/
def defaultMaxObservations : Nat := 50

/-- The recent samples of one pointer, the oldest first. -/
structure Lane (R : Type) where
  pointer : PointerId
  samples : List (Sample R)

structure Window (R : Type) where
  lanes : List (Lane R)
  /-- How many samples a lane holds. -/
  capacity : Nat

namespace Window

variable {R : Type}

/-- The empty window over the given pointers; it holds at least one sample of each. -/
def empty (pointers : List PointerId) (capacity : Nat) : Window R :=
  ⟨pointers.map fun pointer => ⟨pointer, []⟩, max capacity 1⟩

variable (w : Window R)

def accepts (pointer : PointerId) : Bool := w.lanes.any fun lane => lane.pointer == pointer

/-- The samples of a pointer, none if the window does not listen to it. -/
def samples (pointer : PointerId) : List (Sample R) :=
  ((w.lanes.find? fun lane => lane.pointer == pointer).map Lane.samples).getD []

def eventKinds (pointer : PointerId) : List EventKind := (w.samples pointer).map Sample.kind

/-- The lanes with a sample added to the first lane of its pointer. -/
def addTo (sample : Sample R) : List (Lane R) → List (Lane R)
  | [] => []
  | lane :: others =>
    if lane.pointer = sample.pointer then
      { lane with samples := lane.samples ++ [sample] } :: others
    else lane :: addTo sample others

/-- The window with a sample added. A sample of another pointer leaves the window as it is. -/
def push (sample : Sample R) : Window R :=
  let excess := (w.samples sample.pointer).length + 1 - w.capacity
  if w.accepts sample.pointer then
    { w with
      lanes := (addTo sample w.lanes).map fun lane =>
        { lane with samples := lane.samples.drop excess } }
  else w

/-- The length of the longest lane. -/
def observationCount : Nat := (w.lanes.map fun lane => lane.samples.length).foldl max 0

/-- How many lanes hold a sample. -/
def observedPointerCount : Nat := (w.lanes.filter fun lane => !lane.samples.isEmpty).length

def isEmpty : Bool := w.lanes.all fun lane => lane.samples.isEmpty

def clear : Window R := { w with lanes := w.lanes.map fun lane => { lane with samples := [] } }

end Window

end TouchIntent
