import Mathlib.Data.List.Induction
import TouchIntent.Recognizer.Basic

/-!
# Runs of a recognizer

What a host can do with a recognizer and with its model, and what each operation does to the window
and to the tracks. The pointers that a recognizer listens to, its pattern and the states of its
model stay the same in every run. A sample that is taken in has every track decoded anew; a sample
of another pointer, and a frame, do nothing.
-/

namespace TouchIntent

variable {R : Type}

namespace Window

variable {w : Window R} {s : Sample R} {p : PointerId}

/-- The pointers that a window listens to. -/
def pointers (w : Window R) : List PointerId := w.lanes.map Lane.pointer

theorem accepts_iff : w.accepts p = true ↔ p ∈ w.pointers := by
  simp [accepts, pointers]

theorem samples_eq_nil (ignored : p ∉ w.pointers) : w.samples p = [] := by
  have none : w.lanes.find? (fun lane => lane.pointer == p) = none := by
    rw [List.find?_eq_none]
    intro lane member same
    exact ignored (List.mem_map.2 ⟨lane, member, beq_iff_eq.1 same⟩)
  rw [samples, none]
  rfl

theorem map_pointer_addTo (s : Sample R) (lanes : List (Lane R)) :
    (addTo s lanes).map Lane.pointer = lanes.map Lane.pointer := by
  induction lanes with
  | nil => rfl
  | cons lane others ih =>
    rw [addTo]
    split
    · rfl
    · rw [List.map_cons, List.map_cons, ih]

/-- Adding a sample changes the first lane of its pointer, and no other that is the first of its
own. -/
theorem find?_addTo (s : Sample R) (lanes : List (Lane R)) (p : PointerId) :
    (addTo s lanes).find? (fun lane => lane.pointer == p) =
      (lanes.find? fun lane => lane.pointer == p).map fun lane =>
        if p = s.pointer then { lane with samples := lane.samples ++ [s] } else lane := by
  induction lanes with
  | nil => rfl
  | cons lane others ih =>
    rw [addTo]
    by_cases own : lane.pointer = s.pointer
    · rw [if_pos own]
      by_cases asked : lane.pointer = p
      · simp [asked, own.symm.trans asked]
      · have other : p ≠ s.pointer := fun same => asked (own.trans same.symm)
        simp [asked, other]
    · rw [if_neg own]
      by_cases asked : lane.pointer = p
      · have other : p ≠ s.pointer := fun same => own (asked.trans same)
        simp [asked, other]
      · simp [asked, ih]

@[simp] theorem pointers_push : (w.push s).pointers = w.pointers := by
  rw [push]
  split
  · simp [pointers, Function.comp_def, map_pointer_addTo s w.lanes]
  · rfl

@[simp] theorem capacity_push : (w.push s).capacity = w.capacity := by
  rw [push]
  split <;> rfl

/-- A sample goes to the end of its lane; every lane gives up as many samples as make room. -/
theorem samples_push (accepted : s.pointer ∈ w.pointers) (p : PointerId) :
    (w.push s).samples p =
      (if p = s.pointer then w.samples p ++ [s] else w.samples p).drop
        ((w.samples s.pointer).length + 1 - w.capacity) := by
  rw [push, if_pos (accepts_iff.2 accepted), samples, List.find?_map]
  simp only [Function.comp_def, find?_addTo]
  generalize (w.samples s.pointer).length + 1 - w.capacity = excess
  cases found : w.lanes.find? (fun lane => lane.pointer == p) with
  | none =>
    have ignored : p ≠ s.pointer := by
      rintro rfl
      obtain ⟨lane, member, same⟩ := List.mem_map.1 accepted
      exact absurd (beq_iff_eq.2 same) (List.find?_eq_none.1 found lane member)
    simp [samples, found, ignored]
  | some lane =>
    have lane_samples : w.samples p = lane.samples := by
      rw [samples, found]
      rfl
    by_cases own : p = s.pointer
    · simp [own, ← lane_samples]
    · simp [own, lane_samples]

/-- A window that holds anything holds the latest sample. -/
theorem samples_push_ne_nil (accepted : s.pointer ∈ w.pointers) (room : 0 < w.capacity) :
    (w.push s).samples s.pointer ≠ [] := by
  rw [samples_push accepted, if_pos rfl, Ne, List.drop_eq_nil_iff, List.length_append,
    List.length_singleton]
  omega

@[simp] theorem pointers_clear : w.clear.pointers = w.pointers := by
  simp [clear, pointers, Function.comp_def]

@[simp] theorem samples_clear : w.clear.samples p = [] := by
  rw [samples, clear, List.find?_map]
  cases List.find? _ w.lanes <;> rfl

@[simp] theorem pointers_empty (pointers : List PointerId) (capacity : Nat) :
    (Window.empty pointers capacity : Window R).pointers = pointers := by
  simp [Window.empty, Window.pointers, Function.comp_def]

@[simp] theorem samples_empty (pointers : List PointerId) (capacity : Nat) :
    (Window.empty pointers capacity : Window R).samples p = [] := by
  rw [samples, Window.empty, List.find?_map]
  cases List.find? _ pointers <;> rfl

end Window

/-- An operation of the host on a recognizer, or on the model of it. -/
inductive RecognizerOp (R : Type) where
  | observe (observation : Observation R)
  | reset
  | translate (d : Vec2 R)
  | translateModel (d : Vec2 R)
  | moveModel (p : Vec2 R)
  | setEmission (emission : Emission)
  | fit (state : Nat) (samples : List (Sample R)) (weights : List R)
  | fitUniform (state : Nat) (samples : List (Sample R))

variable [Scalar R]

namespace Track

variable {s : Sample R}

@[simp] theorem fold_pointer (t : Track R) : (t.fold s).pointer = t.pointer := rfl

@[simp] theorem fold_path (t : Track R) : (t.fold s).path = t.path := rfl

@[simp] theorem fold_logLikelihood (t : Track R) :
    (t.fold s).logLikelihood = t.logLikelihood := rfl

section Decode

variable (t : Track R) (model : Model R) (samples : List (Sample R))

@[simp] theorem decode_pointer : (t.decode model samples).pointer = t.pointer := by
  rw [decode]
  split <;> rfl

@[simp] theorem decode_count : (t.decode model samples).count = t.count := by
  rw [decode]
  split <;> rfl

@[simp] theorem decode_meanPressure :
    (t.decode model samples).meanPressure = t.meanPressure := by
  rw [decode]
  split <;> rfl

@[simp] theorem decode_meanSize : (t.decode model samples).meanSize = t.meanSize := by
  rw [decode]
  split <;> rfl

/-- No path leads through an empty sequence, and none is likely. -/
@[simp] theorem decode_logLikelihood :
    (t.decode model samples).logLikelihood = model.logLikelihood samples := by
  cases samples <;> rfl

@[simp] theorem decode_path :
    (t.decode model samples).path = (model.mostLikelyPath samples).map Fin.val := by
  cases samples <;> rfl

end Decode

theorem map_pointer_foldInto (s : Sample R) (tracks : List (Track R)) :
    (foldInto s tracks).map Track.pointer = tracks.map Track.pointer := by
  induction tracks with
  | nil => rfl
  | cons t others ih =>
    rw [foldInto]
    split
    · rfl
    · rw [List.map_cons, List.map_cons, ih]

theorem find?_foldInto (s : Sample R) (tracks : List (Track R)) (p : PointerId) :
    (foldInto s tracks).find? (fun t => t.pointer == p) =
      (tracks.find? fun t => t.pointer == p).map fun t =>
        if p = s.pointer then t.fold s else t := by
  induction tracks with
  | nil => rfl
  | cons t others ih =>
    rw [foldInto]
    by_cases own : t.pointer = s.pointer
    · rw [if_pos own]
      by_cases asked : t.pointer = p
      · simp [asked, own.symm.trans asked]
      · have other : p ≠ s.pointer := fun same => asked (own.trans same.symm)
        simp [asked, other]
    · rw [if_neg own]
      by_cases asked : t.pointer = p
      · have other : p ≠ s.pointer := fun same => own (asked.trans same)
        simp [asked, other]
      · simp [asked, ih]

end Track

namespace Recognizer

/-- The recognizer after an operation. What is refused does nothing. -/
def perform (r : Recognizer R) : RecognizerOp R → Recognizer R
  | .observe observation => (r.observe observation).1
  | .reset => r.reset
  | .translate d => r.translate d
  | .translateModel d => { r with model := r.model.translate d }
  | .moveModel p => { r with model := r.model.moveTo p }
  | .setEmission emission => { r with model := r.model.withEmission emission }
  | .fit state samples weights => { r with model := (r.model.fit state samples weights).1 }
  | .fitUniform state samples => { r with model := (r.model.fitUniform state samples).1 }

/-- The recognizer after operations, one after the other. -/
def performAll (r : Recognizer R) (ops : List (RecognizerOp R)) : Recognizer R :=
  ops.foldl perform r

variable (r : Recognizer R) (s : Sample R)

@[simp] theorem perform_touch : r.perform (.observe (.touch s)) = r.observeTouch s := rfl

@[simp] theorem performAll_concat (ops : List (RecognizerOp R)) (op : RecognizerOp R) :
    r.performAll (ops ++ [op]) = (r.performAll ops).perform op := by
  rw [performAll, List.foldl_append]
  rfl

omit [Scalar R] in
theorem defaultPointer_eq (r : Recognizer R) :
    r.defaultPointer = (r.tracks.map Track.pointer).headD 0 := by
  rw [defaultPointer]
  cases r.tracks <;> rfl

/-- Anchoring moves the recognizer, or does nothing. -/
theorem anchor_cases :
    r.anchor s = r ∨ ∃ d, r.anchor s = { r.translate d with isAnchored := true } := by
  rw [anchor]
  split
  · exact .inl rfl
  · split
    · exact .inr ⟨_, rfl⟩
    · exact .inl rfl

@[simp] theorem anchor_tracks : (r.anchor s).tracks = r.tracks := by
  rcases r.anchor_cases s with same | ⟨d, moved⟩
  · rw [same]
  · rw [moved]
    rfl

@[simp] theorem anchor_pattern : (r.anchor s).pattern = r.pattern := by
  rcases r.anchor_cases s with same | ⟨d, moved⟩
  · rw [same]
  · rw [moved]
    rfl

@[simp] theorem anchor_size : (r.anchor s).model.size = r.model.size := by
  rcases r.anchor_cases s with same | ⟨d, moved⟩
  · rw [same]
  · rw [moved]
    rfl

/-- The recognizer with a sample in its window, before anything is worked out from it. -/
def takeIn : Recognizer R :=
  { r.anchor s with
    firstTime := r.firstTime <|> some s.time
    lastTime := s.time
    window := r.window.push s }

variable {r s}

theorem observeTouch_of_ignored (ignored : s.pointer ∉ r.window.pointers) :
    r.observeTouch s = r := by
  rw [observeTouch, if_neg]
  rw [accepts, Window.accepts_iff]
  exact ignored

/-- What is worked out from a sample that is taken in. -/
theorem observeTouch_eq (accepted : s.pointer ∈ r.window.pointers) :
    r.observeTouch s = { (r.takeIn s).decode with
      tracks := Track.foldInto s (r.takeIn s).decode.tracks } := by
  have whole : { Recognizer.anchor { r with
      firstTime := r.firstTime <|> some s.time
      lastTime := s.time } s with
      window := (Recognizer.anchor { r with
        firstTime := r.firstTime <|> some s.time
        lastTime := s.time } s).window.push s } = r.takeIn s := by
    cases origin : r.origin with
    | none => simp [takeIn, anchor, origin]
    | some o =>
      cases press : !r.isAnchored && s.kind == .down <;>
        simp [takeIn, anchor, origin, press, translate]
  have taken : r.accepts s.pointer = true := Window.accepts_iff.2 accepted
  rw [observeTouch, if_pos taken, ← whole]

/-- The window ignores the samples that the recognizer ignores. -/
theorem observeTouch_window : (r.observeTouch s).window = r.window.push s := by
  by_cases accepted : s.pointer ∈ r.window.pointers
  · rw [observeTouch_eq accepted]
    rfl
  · rw [observeTouch_of_ignored accepted, Window.push, if_neg]
    rw [Window.accepts_iff]
    exact accepted

section Accepted

variable (accepted : s.pointer ∈ r.window.pointers)
include accepted

theorem observeTouch_model : (r.observeTouch s).model = (r.anchor s).model := by
  rw [observeTouch_eq accepted]
  rfl

theorem observeTouch_pattern : (r.observeTouch s).pattern = r.pattern := by
  rw [observeTouch_eq accepted]
  exact r.anchor_pattern s

theorem observeTouch_firstTime :
    (r.observeTouch s).firstTime = (r.firstTime <|> some s.time) := by
  rw [observeTouch_eq accepted]
  rfl

theorem observeTouch_lastTime : (r.observeTouch s).lastTime = s.time := by
  rw [observeTouch_eq accepted]
  rfl

/-- Every track is decoded anew, and the sample is folded into the track of its pointer. -/
theorem observeTouch_tracks : (r.observeTouch s).tracks =
    Track.foldInto s (r.tracks.map fun t =>
      t.decode (r.anchor s).model ((r.window.push s).samples t.pointer)) := by
  rw [observeTouch_eq accepted]
  show Track.foldInto s ((r.anchor s).tracks.map fun t =>
      t.decode (r.anchor s).model ((r.window.push s).samples t.pointer)) = _
  rw [anchor_tracks]

/-- The likelihood of the behaviour and its dominant pointer are those of the lanes that are not
empty. -/
theorem observeTouch_dominant :
    ((r.observeTouch s).logLikelihood, (r.observeTouch s).dominantPointer) =
      Track.dominant r.defaultPointer ((r.tracks.map fun t =>
        t.decode (r.anchor s).model ((r.window.push s).samples t.pointer)).filter
          fun t => !((r.window.push s).samples t.pointer).isEmpty) := by
  rw [observeTouch_eq accepted]
  show Track.dominant (r.takeIn s).defaultPointer (((r.anchor s).tracks.map fun t =>
      t.decode (r.anchor s).model ((r.window.push s).samples t.pointer)).filter
        fun t => !((r.window.push s).samples t.pointer).isEmpty) = _
  have first : (r.takeIn s).defaultPointer = r.defaultPointer := by
    rw [defaultPointer, defaultPointer, ← r.anchor_tracks s]
    rfl
  rw [first, anchor_tracks]

theorem observeTouch_track? (p : PointerId) : (r.observeTouch s).track? p =
    (r.track? p).map fun t =>
      let decoded := t.decode (r.anchor s).model ((r.window.push s).samples p)
      if p = s.pointer then decoded.fold s else decoded := by
  rw [track?, observeTouch_tracks accepted, Track.find?_foldInto, List.find?_map]
  simp only [Function.comp_def, Track.decode_pointer, track?]
  cases found : r.tracks.find? fun t => t.pointer == p with
  | none => rfl
  | some t =>
    have own : t.pointer = p := by simpa using List.find?_some found
    simp [own]

/-- The track of any pointer holds likelihood and path of its lane. -/
theorem observeTouch_decoded {p : PointerId} {t : Track R}
    (found : (r.observeTouch s).track? p = some t) :
    t.logLikelihood =
        (r.observeTouch s).model.logLikelihood ((r.observeTouch s).window.samples p) ∧
      t.path = ((r.observeTouch s).model.mostLikelyPath
        ((r.observeTouch s).window.samples p)).map Fin.val := by
  rw [observeTouch_track? accepted] at found
  obtain ⟨u, -, rfl⟩ := Option.map_eq_some_iff.1 found
  rw [observeTouch_window, observeTouch_model accepted]
  by_cases own : p = s.pointer
  · simp [own]
  · simp [own]

end Accepted

/-- Two recognizers of one gesture, which listen to the same pointers. -/
structure SameGesture (r r' : Recognizer R) : Prop where
  pattern : r'.pattern = r.pattern
  size : r'.model.size = r.model.size
  pointers : r'.window.pointers = r.window.pointers
  capacity : r'.window.capacity = r.window.capacity
  tracked : r'.tracks.map Track.pointer = r.tracks.map Track.pointer

namespace SameGesture

omit [Scalar R] in
theorem refl (r : Recognizer R) : r.SameGesture r := ⟨rfl, rfl, rfl, rfl, rfl⟩

omit [Scalar R] in
theorem trans {r r' r'' : Recognizer R} (first : r.SameGesture r') (second : r'.SameGesture r'') :
    r.SameGesture r'' where
  pattern := second.pattern.trans first.pattern
  size := second.size.trans first.size
  pointers := second.pointers.trans first.pointers
  capacity := second.capacity.trans first.capacity
  tracked := second.tracked.trans first.tracked

end SameGesture

theorem sameGesture_observeTouch (r : Recognizer R) (s : Sample R) :
    r.SameGesture (r.observeTouch s) := by
  by_cases accepted : s.pointer ∈ r.window.pointers
  · constructor
    · exact observeTouch_pattern accepted
    · rw [observeTouch_model accepted, anchor_size]
    · rw [observeTouch_window, Window.pointers_push]
    · rw [observeTouch_window, Window.capacity_push]
    · rw [observeTouch_tracks accepted, Track.map_pointer_foldInto]
      simp [Function.comp_def]
  · rw [observeTouch_of_ignored accepted]
    exact .refl r

theorem size_fit (m : Model R) (state : Nat) (samples : List (Sample R)) (weights : List R) :
    (m.fit state samples weights).1.size = m.size := by
  unfold Model.fit
  split
  · split
    · rfl
    · split
      · rfl
      · simp only
        split <;> rfl
  · rfl

/-- No operation changes what gesture is followed, or on which pointers. -/
theorem sameGesture_perform (r : Recognizer R) (op : RecognizerOp R) :
    r.SameGesture (r.perform op) := by
  cases op with
  | observe observation =>
    cases observation with
    | touch s => exact r.sameGesture_observeTouch s
    | multiTouch frame => exact .refl r
  | reset =>
    refine ⟨rfl, rfl, Window.pointers_clear, rfl, ?_⟩
    simp [perform, reset, Track.empty, Function.comp_def]
  | translate d => exact ⟨rfl, rfl, rfl, rfl, rfl⟩
  | translateModel d => exact ⟨rfl, rfl, rfl, rfl, rfl⟩
  | moveModel p => exact ⟨rfl, rfl, rfl, rfl, rfl⟩
  | setEmission emission => exact ⟨rfl, rfl, rfl, rfl, rfl⟩
  | fit state samples weights => exact ⟨rfl, size_fit _ _ _ _, rfl, rfl, rfl⟩
  | fitUniform state samples => exact ⟨rfl, size_fit _ _ _ _, rfl, rfl, rfl⟩

theorem sameGesture_performAll (r : Recognizer R) (ops : List (RecognizerOp R)) :
    r.SameGesture (r.performAll ops) := by
  induction ops using List.reverseRecOn with
  | nil => exact .refl r
  | append_singleton ops op ih =>
    rw [performAll_concat]
    exact ih.trans (sameGesture_perform _ op)

@[simp] theorem pointers_ofBehavior (b : Behavior R) (capacity : Nat) :
    (ofBehavior b capacity).window.pointers = b.pointers := Window.pointers_empty _ _

@[simp] theorem tracked_ofBehavior (b : Behavior R) (capacity : Nat) :
    (ofBehavior b capacity).tracks.map Track.pointer = b.pointers := by
  simp [ofBehavior, Track.empty, Function.comp_def]

end Recognizer

end TouchIntent
