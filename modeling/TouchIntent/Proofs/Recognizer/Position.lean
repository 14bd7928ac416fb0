import Mathlib
import TouchIntent.Proofs.Gesture.Origin
import TouchIntent.Proofs.Recognizer.Run

/-!
# Gestures that may start anywhere

Where such a gesture is performed does not matter. A reset leaves nothing of a run but how far it
has moved the recognizer (`reset_performAll`). The first press moves the recognizer to where the
press is, from wherever it was (`observeTouch_translate`). And from then on a recognizer that is
moved along with its samples does as the one that stays (`observeTouch_displace`).
-/

namespace TouchIntent

open Scalar

/-- The lane with all samples somewhere else. -/
def Lane.displace {R : Type} [Scalar R] (lane : Lane R) (d : Vec2 R) : Lane R :=
  { lane with samples := lane.samples.map fun s => s.displace d }

namespace Window

variable {R : Type} (w : Window R)

theorem clear_eq : w.clear = ⟨w.pointers.map fun p => ⟨p, []⟩, w.capacity⟩ := by
  simp [clear, pointers, Function.comp_def]

@[simp] theorem clear_push (s : Sample R) : (w.push s).clear = w.clear := by
  rw [clear_eq, clear_eq, pointers_push, capacity_push]

@[simp] theorem clear_clear : w.clear.clear = w.clear := by
  rw [clear_eq w.clear, clear_eq w, pointers]
  simp [Function.comp_def]

@[simp] theorem clear_empty (pointers : List PointerId) (capacity : Nat) :
    (Window.empty pointers capacity : Window R).clear = Window.empty pointers capacity := by
  rw [clear_eq, pointers_empty]
  rfl

variable [Scalar R] (d : Vec2 R)

/-- The window with all samples somewhere else. -/
def displace : Window R := { w with lanes := w.lanes.map fun lane => lane.displace d }

@[simp] theorem pointers_displace : (w.displace d).pointers = w.pointers := by
  simp [displace, pointers, Lane.displace, Function.comp_def]

@[simp] theorem samples_displace (p : PointerId) :
    (w.displace d).samples p = (w.samples p).map fun s => s.displace d := by
  rw [samples, displace, List.find?_map, samples]
  simp only [Function.comp_def, Lane.displace]
  cases w.lanes.find? fun lane => lane.pointer == p <;> rfl

@[simp] theorem displace_empty (pointers : List PointerId) (capacity : Nat) :
    (Window.empty pointers capacity : Window R).displace d = Window.empty pointers capacity := by
  simp [Window.empty, displace, Lane.displace]

theorem addTo_displace (s : Sample R) (lanes : List (Lane R)) :
    addTo (s.displace d) (lanes.map fun lane => lane.displace d) =
      (addTo s lanes).map fun lane => lane.displace d := by
  induction lanes with
  | nil => rfl
  | cons lane others ih =>
    rw [List.map_cons, addTo, addTo]
    by_cases own : lane.pointer = s.pointer
    · rw [if_pos own, if_pos (by exact own), List.map_cons]
      simp [Lane.displace]
    · rw [if_neg own, if_neg (by exact own), List.map_cons, ih]

theorem push_displace (s : Sample R) :
    (w.displace d).push (s.displace d) = (w.push s).displace d := by
  by_cases accepted : s.pointer ∈ w.pointers
  · have there : (s.displace d).pointer ∈ (w.displace d).pointers := by
      rw [pointers_displace]
      exact accepted
    rw [push, push, if_pos (accepts_iff.2 there), if_pos (accepts_iff.2 accepted)]
    have length : ((w.displace d).samples (s.displace d).pointer).length =
        (w.samples s.pointer).length := by
      rw [samples_displace, List.length_map]
      rfl
    rw [length]
    simp only [displace, addTo_displace, List.map_map, Function.comp_def]
    simp only [Lane.displace, List.map_drop]
  · have there : (s.displace d).pointer ∉ (w.displace d).pointers := by
      rw [pointers_displace]
      exact accepted
    rw [push, push, if_neg (mt accepts_iff.1 there), if_neg (mt accepts_iff.1 accepted)]

end Window

theorem Track.foldInto_displace {R : Type} [Scalar R] (s : Sample R) (d : Vec2 R)
    (tracks : List (Track R)) : foldInto (s.displace d) tracks = foldInto s tracks := by
  induction tracks with
  | nil => rfl
  | cons t others ih =>
    rw [foldInto, foldInto, ih]
    rfl

/-- The operation observes, resets, or moves the recognizer as a whole, by real numbers. -/
def RecognizerOp.IsRigid : RecognizerOp EReal → Prop
  | .observe (.touch s) => s.position.IsFinite
  | .observe (.multiTouch _) => True
  | .reset => True
  | .translate d => d.IsFinite
  | _ => False

/-- Samples as the host reports them. -/
def RecognizerOp.touches {R : Type} (samples : List (Sample R)) : List (RecognizerOp R) :=
  samples.map fun s => .observe (.touch s)

namespace Recognizer

/-! ## What a reset leaves -/

section Reset

variable {R : Type} [Scalar R]

theorem reset_eq (r : Recognizer R) : r.reset = { r with
    window := r.window.clear
    tracks := (r.tracks.map Track.pointer).map Track.empty
    logLikelihood := negInfinity
    dominantPointer := (r.tracks.map Track.pointer).headD 0
    firstTime := none
    lastTime := 0
    isAnchored := false } := by
  rw [reset, defaultPointer_eq, List.map_map]
  rfl

@[simp] theorem reset_reset (r : Recognizer R) : r.reset.reset = r.reset := by
  have tracked : r.reset.tracks.map Track.pointer = r.tracks.map Track.pointer := by
    simp [reset, Track.empty, Function.comp_def]
  rw [reset_eq r.reset, tracked, reset_eq r, Window.clear_clear]

@[simp] theorem reset_ofBehavior (b : Behavior R) (capacity : Nat) :
    (ofBehavior b capacity).reset = ofBehavior b capacity := by
  rw [reset_eq, tracked_ofBehavior]
  simp only [ofBehavior, Window.clear_empty]

/-- A reset forgets the sample, but not that it has moved the recognizer. -/
theorem reset_observeTouch {r : Recognizer R} {s : Sample R}
    (accepted : s.pointer ∈ r.window.pointers) : (r.observeTouch s).reset = (r.anchor s).reset := by
  have tracked : (r.observeTouch s).tracks.map Track.pointer =
      (r.anchor s).tracks.map Track.pointer := by
    rw [anchor_tracks]
    exact (r.sameGesture_observeTouch s).tracked
  have window : (r.anchor s).window = r.window := by
    rcases r.anchor_cases s with same | ⟨d, moved⟩
    · rw [same]
    · rw [moved]
      rfl
  rw [reset_eq, reset_eq (r.anchor s), tracked, observeTouch_window, Window.clear_push,
    window, observeTouch_eq accepted]
  rfl

end Reset

variable {r : Recognizer EReal} {s : Sample EReal} {d : Vec2 EReal}

@[simp] theorem translate_zero (r : Recognizer EReal) : r.translate ⟨0, 0⟩ = r := by
  simp [translate]

theorem translate_translate (r : Recognizer EReal) (d e : Vec2 EReal) :
    (r.translate d).translate e = r.translate (d.add e) := by
  simp [translate, Model.translate_translate, Function.comp_def, Vec2.exact_add_assoc]

/-- Anchoring moves a recognizer by real numbers. -/
theorem reset_anchor (position : s.position.IsFinite) (placed : ∀ o ∈ r.origin, o.IsFinite) :
    ∃ e : Vec2 EReal, e.IsFinite ∧ (r.anchor s).reset = r.reset.translate e := by
  cases origin : r.origin with
  | none => exact ⟨⟨0, 0⟩, Vec2.isFinite_zero, by simp [anchor, origin]⟩
  | some o =>
    cases press : !r.isAnchored && s.kind == .down with
    | false => exact ⟨⟨0, 0⟩, Vec2.isFinite_zero, by simp [anchor, origin, press]⟩
    | true =>
      refine ⟨s.position.sub o, position.sub (placed o origin), ?_⟩
      simp only [anchor, origin, press, if_true]
      rfl

/-- Every operation leaves a recognizer that differs, once reset, by how far it has been moved. -/
theorem reset_perform {op : RecognizerOp EReal} (rigid : op.IsRigid)
    (placed : ∀ o ∈ r.origin, o.IsFinite) :
    ∃ e : Vec2 EReal, e.IsFinite ∧ (r.perform op).reset = r.reset.translate e := by
  cases op with
  | observe observation =>
    cases observation with
    | touch s =>
      rw [perform_touch]
      by_cases accepted : s.pointer ∈ r.window.pointers
      · rw [reset_observeTouch accepted]
        exact reset_anchor rigid placed
      · rw [observeTouch_of_ignored accepted]
        exact ⟨⟨0, 0⟩, Vec2.isFinite_zero, (translate_zero _).symm⟩
    | multiTouch frame => exact ⟨⟨0, 0⟩, Vec2.isFinite_zero, (translate_zero _).symm⟩
  | reset => exact ⟨⟨0, 0⟩, Vec2.isFinite_zero, by simp [perform]⟩
  | translate d => exact ⟨d, rigid, rfl⟩
  | translateModel | moveModel | setEmission | fit | fitUniform => exact rigid.elim

/-- Of a run a reset leaves only how far it has moved the recognizer. -/
theorem reset_performAll {ops : List (RecognizerOp EReal)} (rigid : ∀ op ∈ ops, op.IsRigid)
    (placed : ∀ o ∈ r.origin, o.IsFinite) :
    ∃ d : Vec2 EReal, d.IsFinite ∧ (r.performAll ops).reset = r.reset.translate d := by
  induction ops using List.reverseRecOn with
  | nil => exact ⟨⟨0, 0⟩, Vec2.isFinite_zero, (translate_zero _).symm⟩
  | append_singleton ops op ih =>
    obtain ⟨d, finite, moved⟩ := ih fun op member => rigid op (List.mem_append_left _ member)
    have placed' : ∀ o ∈ (r.performAll ops).origin, o.IsFinite := by
      intro o centred
      have origin : (r.performAll ops).origin = r.origin.map fun o => o.add d :=
        congrArg Recognizer.origin moved
      rw [origin] at centred
      obtain ⟨o', before, rfl⟩ := Option.map_eq_some_iff.1 centred
      exact (placed o' before).add finite
    obtain ⟨e, finite', further⟩ := reset_perform (rigid op (by simp)) placed'
    rw [performAll_concat, further, moved, translate_translate]
    exact ⟨d.add e, finite.add finite', rfl⟩

/-! ## The first press -/

/-- A press brings a recognizer to the same place, wherever it was. -/
theorem anchor_translate {o : Vec2 EReal} (fresh : r.isAnchored = false)
    (centred : r.origin = some o) (press : s.kind = .down) (finite : d.IsFinite) :
    (r.translate d).anchor s = r.anchor s := by
  have moved : (r.translate d).origin = some (o.add d) := by
    rw [translate, centred]
    rfl
  have fresh' : (r.translate d).isAnchored = false := fresh
  simp only [anchor, moved, centred, fresh, fresh', press, translate_translate,
    Vec2.exact_add_sub_add_cancel finite]
  rfl

theorem observeTouch_translate {o : Vec2 EReal} (fresh : r.isAnchored = false)
    (centred : r.origin = some o) (accepted : s.pointer ∈ r.window.pointers)
    (press : s.kind = .down) (finite : d.IsFinite) :
    (r.translate d).observeTouch s = r.observeTouch s := by
  have same : (r.translate d).takeIn s = r.takeIn s := by
    rw [takeIn, anchor_translate fresh centred press finite]
    rfl
  rw [observeTouch_eq accepted, observeTouch_eq (by exact accepted), same]

/-- After the press the centre of the gesture is where the press is. -/
theorem observeTouch_press {o : Vec2 EReal} (fresh : r.isAnchored = false)
    (centred : r.origin = some o) (accepted : s.pointer ∈ r.window.pointers)
    (press : s.kind = .down) (finite : o.IsFinite) :
    (r.observeTouch s).isAnchored = true ∧ (r.observeTouch s).origin = some s.position := by
  have moved : r.anchor s =
      { r.translate (s.position.sub o) with isAnchored := true } := by
    simp only [anchor, centred, fresh, press]
    rfl
  have origin : (r.translate (s.position.sub o)).origin = some s.position := by
    rw [translate, centred, Option.map_some, Vec2.exact_add_sub_cancel finite]
  rw [observeTouch_eq accepted, takeIn, moved]
  exact ⟨rfl, origin⟩

/-- Nothing moves a gesture that has started. -/
theorem observeTouch_anchored (anchored : r.isAnchored = true) (s : Sample EReal) :
    (r.observeTouch s).isAnchored = true ∧ (r.observeTouch s).origin = r.origin := by
  by_cases accepted : s.pointer ∈ r.window.pointers
  · have still : r.anchor s = r := by
      rw [anchor]
      split
      · rfl
      · simp [anchored]
    rw [observeTouch_eq accepted, takeIn, still]
    exact ⟨anchored, rfl⟩
  · rw [observeTouch_of_ignored accepted]
    exact ⟨anchored, rfl⟩

/-! ## Moving along -/

/-- The recognizer and all that it has seen somewhere else. -/
def displace {R : Type} [Scalar R] (r : Recognizer R) (d : Vec2 R) : Recognizer R :=
  { r.translate d with window := r.window.displace d }

theorem anchor_displace (finite : d.IsFinite) (r : Recognizer EReal) (s : Sample EReal) :
    (r.displace d).anchor (s.displace d) = (r.anchor s).displace d := by
  cases origin : r.origin with
  | none => simp [anchor, displace, translate, origin]
  | some o =>
    have moved : (r.displace d).origin = some (o.add d) := by
      rw [displace, translate, origin]
      rfl
    have way : (s.displace d).position.sub (o.add d) = s.position.sub o :=
      Vec2.exact_add_sub_add_right finite
    have order (e : Vec2 EReal) : (r.translate d).translate e = (r.translate e).translate d := by
      rw [translate_translate, translate_translate, Vec2.exact_add_comm]
    cases press : !r.isAnchored && s.kind == .down with
    | false =>
      have press' : (!(r.displace d).isAnchored && (s.displace d).kind == .down) = false := press
      simp only [anchor, moved, origin, press, press']
      rfl
    | true =>
      have press' : (!(r.displace d).isAnchored && (s.displace d).kind == .down) = true := press
      simp only [anchor, moved, origin, press, press', way, if_true]
      show { (r.translate d).translate (s.position.sub o) with
        window := r.window.displace d, isAnchored := true } = _
      rw [order]
      rfl

theorem takeIn_displace (finite : d.IsFinite) (r : Recognizer EReal) (s : Sample EReal) :
    (r.displace d).takeIn (s.displace d) = (r.takeIn s).displace d := by
  have pushed : (r.displace d).window.push (s.displace d) = (r.window.push s).displace d :=
    r.window.push_displace d s
  rw [takeIn, anchor_displace finite, pushed]
  rfl

/-- What is worked out from the window does not depend on where all of it lies. -/
theorem decode_displace (finite : d.IsFinite) (r : Recognizer EReal) :
    (r.displace d).decode = r.decode.displace d := by
  have tracks : (r.displace d).tracks.map (fun t =>
      t.decode (r.displace d).model ((r.displace d).window.samples t.pointer)) =
      r.tracks.map fun t => t.decode r.model (r.window.samples t.pointer) := by
    refine List.map_congr_left fun t _ => ?_
    show t.decode (r.model.translate d) ((r.window.displace d).samples t.pointer) = _
    rw [Window.samples_displace, Track.decode, Track.decode, List.isEmpty_map,
      Model.logLikelihood_translate _ finite, Model.mostLikelyPath_translate _ finite]
    rfl
  have held : (fun t : Track EReal => !((r.displace d).window.samples t.pointer).isEmpty) =
      fun t => !(r.window.samples t.pointer).isEmpty := by
    funext t
    show (!((r.window.displace d).samples t.pointer).isEmpty) = _
    rw [Window.samples_displace, List.isEmpty_map]
  rw [decode, decode, tracks, held]
  rfl

/-- A recognizer that is moved along with its samples does as the one that stays. -/
theorem observeTouch_displace (finite : d.IsFinite) (r : Recognizer EReal) (s : Sample EReal) :
    (r.displace d).observeTouch (s.displace d) = (r.observeTouch s).displace d := by
  by_cases accepted : s.pointer ∈ r.window.pointers
  · have there : (s.displace d).pointer ∈ (r.displace d).window.pointers := by
      show s.pointer ∈ (r.window.displace d).pointers
      rw [Window.pointers_displace]
      exact accepted
    rw [observeTouch_eq there, observeTouch_eq accepted, takeIn_displace finite,
      decode_displace finite, Track.foldInto_displace]
    rfl
  · have there : (s.displace d).pointer ∉ (r.displace d).window.pointers := by
      show s.pointer ∉ (r.window.displace d).pointers
      rw [Window.pointers_displace]
      exact accepted
    rw [observeTouch_of_ignored there, observeTouch_of_ignored accepted]

@[simp] theorem pointerLogLikelihood?_displace {R : Type} [Scalar R] (r : Recognizer R)
    (d : Vec2 R) (p : PointerId) :
    (r.displace d).pointerLogLikelihood? p = r.pointerLogLikelihood? p := by
  show (if ((r.window.displace d).samples p).isEmpty then none
    else (r.track? p).map Track.logLikelihood) = _
  rw [Window.samples_displace, List.isEmpty_map]
  rfl

/-! ## Sequences of samples -/

section Fed

variable {samples : List (Sample EReal)} {first : Sample EReal}

theorem foldl_ignored (ignored : ∀ s ∈ samples, s.pointer ∉ r.window.pointers) :
    samples.foldl observeTouch r = r := by
  induction samples with
  | nil => rfl
  | cons s rest ih =>
    obtain ⟨here, later⟩ := List.forall_mem_cons.1 ignored
    rw [List.foldl_cons, observeTouch_of_ignored here]
    exact ih later

theorem foldl_displace (finite : d.IsFinite) (r : Recognizer EReal) :
    (samples.map fun s => s.displace d).foldl observeTouch (r.displace d) =
      (samples.foldl observeTouch r).displace d := by
  induction samples generalizing r with
  | nil => rfl
  | cons s rest ih =>
    rw [List.map_cons, List.foldl_cons, List.foldl_cons, observeTouch_displace finite, ih]

theorem foldl_anchored (anchored : r.isAnchored = true) :
    (samples.foldl observeTouch r).origin = r.origin := by
  induction samples generalizing r with
  | nil => rfl
  | cons s rest ih =>
    obtain ⟨still, origin⟩ := observeTouch_anchored anchored s
    rw [List.foldl_cons, ih still, origin]

variable {o : Vec2 EReal} (fresh : r.isAnchored = false) (centred : r.origin = some o)
  (found : samples.find? (fun s => s.pointer ∈ r.window.pointers) = some first)
  (press : first.kind = .down)
include fresh centred found press

/-- A gesture that starts with a press does not depend on where the recognizer was before. -/
theorem foldl_translate (finite : d.IsFinite) :
    samples.foldl observeTouch (r.translate d) = samples.foldl observeTouch r := by
  induction samples with
  | nil => cases found
  | cons s rest ih =>
    rw [List.foldl_cons, List.foldl_cons]
    by_cases accepted : s.pointer ∈ r.window.pointers
    · rw [List.find?_cons_of_pos (by simpa using accepted)] at found
      obtain rfl := Option.some.inj found
      rw [observeTouch_translate fresh centred accepted press finite]
    · rw [List.find?_cons_of_neg (by simpa using accepted)] at found
      rw [observeTouch_of_ignored accepted, observeTouch_of_ignored (by exact accepted)]
      exact ih found

/-- A gesture that starts with a press is centred there. -/
theorem foldl_origin (finite : o.IsFinite) :
    (samples.foldl observeTouch r).origin = some first.position := by
  induction samples with
  | nil => cases found
  | cons s rest ih =>
    rw [List.foldl_cons]
    by_cases accepted : s.pointer ∈ r.window.pointers
    · rw [List.find?_cons_of_pos (by simpa using accepted)] at found
      obtain rfl := Option.some.inj found
      obtain ⟨anchored, origin⟩ := observeTouch_press fresh centred accepted press finite
      rw [foldl_anchored anchored, origin]
    · rw [List.find?_cons_of_neg (by simpa using accepted)] at found
      rw [observeTouch_of_ignored accepted]
      exact ih found

/-- A gesture that is performed somewhere else, and on a recognizer that was somewhere else, ends
with the recognizer somewhere else. -/
theorem foldl_elsewhere {d' offset : Vec2 EReal}
    (unseen : r.window.displace offset = r.window) (finite : d.IsFinite) (finite' : d'.IsFinite)
    (real : offset.IsFinite) :
    (samples.map fun s => s.displace offset).foldl observeTouch (r.translate d') =
      (samples.foldl observeTouch (r.translate d)).displace offset := by
  have there : (samples.map fun s => s.displace offset).find?
      (fun s => s.pointer ∈ r.window.pointers) = some (first.displace offset) := by
    rw [List.find?_map, Function.comp_def]
    exact congrArg (Option.map fun s => s.displace offset) found
  have carried : r.displace offset = r.translate offset := by
    rw [displace, unseen]
    rfl
  have anywhere {e : Vec2 EReal} (move : e.IsFinite) :
      (samples.map fun s => s.displace offset).foldl observeTouch (r.translate e) =
        (samples.map fun s => s.displace offset).foldl observeTouch r :=
    foldl_translate fresh centred there press move
  calc (samples.map fun s => s.displace offset).foldl observeTouch (r.translate d')
      = (samples.map fun s => s.displace offset).foldl observeTouch (r.displace offset) := by
        rw [anywhere finite', carried, anywhere real]
    _ = (samples.foldl observeTouch r).displace offset := foldl_displace real r
    _ = (samples.foldl observeTouch (r.translate d)).displace offset := by
        rw [foldl_translate fresh centred found press finite]

end Fed

/-- A run that resets the recognizer, and goes on with samples alone, is one of a recognizer that
has only been moved. -/
theorem performAll_touches {b : Behavior EReal} (placed : ∀ o ∈ b.origin, o.IsFinite)
    (capacity : Nat) {ops : List (RecognizerOp EReal)} (rigid : ∀ op ∈ ops, op.IsRigid) :
    ∃ d : Vec2 EReal, d.IsFinite ∧ ∀ samples : List (Sample EReal),
      (ofBehavior b capacity).performAll (ops ++ .reset :: RecognizerOp.touches samples) =
        samples.foldl observeTouch ((ofBehavior b capacity).translate d) := by
  obtain ⟨d, finite, moved⟩ := reset_performAll (r := ofBehavior b capacity) rigid placed
  rw [reset_ofBehavior] at moved
  refine ⟨d, finite, fun samples => ?_⟩
  rw [performAll, List.foldl_append, List.foldl_cons, RecognizerOp.touches, List.foldl_map]
  show samples.foldl observeTouch ((ofBehavior b capacity).performAll ops).reset = _
  rw [moved]

/-- A gesture that may start anywhere, compiled for whatever surface, density, element and emission,
is recognized alike wherever it is performed. Two recognizers of it may have observed, been reset
and been moved as one likes before a last reset. After every part of a sequence of samples whose
first accepted one is a press, and of the same sequence at another place, the likelihoods and paths
of all pointers, the likelihood of the gesture and its dominant pointer are the same, and each is
centred on the press. -/
theorem position_independent {c : Compiler EReal} (real : c.IsFinite) {element : Bounds EReal}
    (box : element.IsFinite) {source : String} {b : Behavior EReal}
    (ok : c.compile source element = .ok b) (relative : b.origin.isSome = true) (capacity : Nat)
    {ops ops' : List (RecognizerOp EReal)} (rigid : ∀ op ∈ ops, op.IsRigid)
    (rigid' : ∀ op ∈ ops', op.IsRigid) {offset : Vec2 EReal} (finite : offset.IsFinite)
    {fed seen : List (Sample EReal)}
    (press : ∀ first ∈ fed.find? (fun s => s.pointer ∈ b.pointers), first.kind = .down)
    (part : seen <+: fed) :
    let r := (ofBehavior b capacity).performAll (ops ++ .reset :: RecognizerOp.touches seen)
    let r' := (ofBehavior b capacity).performAll
      (ops' ++ .reset :: RecognizerOp.touches (seen.map fun s => s.displace offset))
    (∀ p, r'.pointerLogLikelihood? p = r.pointerLogLikelihood? p ∧ r'.path p = r.path p) ∧
      r'.logLikelihood = r.logLikelihood ∧ r'.dominantPointer = r.dominantPointer ∧
      ∀ first ∈ seen.find? (fun s => s.pointer ∈ b.pointers),
        r.origin = some first.position ∧ r'.origin = some (first.position.add offset) := by
  obtain ⟨o, centred⟩ := Option.isSome_iff_exists.1 relative
  have placed : ∀ o ∈ b.origin, o.IsFinite := fun _ => Compiler.isFinite_origin real box ok
  obtain ⟨d, moved, run⟩ := performAll_touches placed capacity rigid
  obtain ⟨d', moved', run'⟩ := performAll_touches placed capacity rigid'
  have pointers : (ofBehavior b capacity).window.pointers = b.pointers :=
    pointers_ofBehavior b capacity
  have unseen : (ofBehavior b capacity).window.displace offset = (ofBehavior b capacity).window :=
    Window.displace_empty offset b.pointers capacity
  rw [run, run', ← pointers]
  rw [← pointers] at press
  intro r r'
  cases found : seen.find? fun s => s.pointer ∈ (ofBehavior b capacity).window.pointers with
  | none =>
    have ignored : ∀ s ∈ seen, s.pointer ∉ (ofBehavior b capacity).window.pointers := by
      simpa using List.find?_eq_none.1 found
    have kept : r = (ofBehavior b capacity).translate d := foldl_ignored ignored
    have kept' : r' = (ofBehavior b capacity).translate d' := by
      refine foldl_ignored fun s member => ?_
      obtain ⟨s, listed, rfl⟩ := List.mem_map.1 member
      exact ignored s listed
    rw [kept, kept']
    exact ⟨fun p => ⟨rfl, rfl⟩, rfl, rfl, fun first absent => by cases absent⟩
  | some first =>
    have down : first.kind = .down := by
      obtain ⟨more, rfl⟩ := part
      refine press first ?_
      rw [List.find?_append, found]
      rfl
    have elsewhere : r' = r.displace offset :=
      foldl_elsewhere rfl centred found down unseen moved moved' finite
    have origin : r.origin = some first.position := by
      have still : r = seen.foldl observeTouch (ofBehavior b capacity) :=
        foldl_translate rfl centred found down moved
      rw [still]
      exact foldl_origin rfl centred found down (placed o centred)
    rw [elsewhere]
    refine ⟨fun p => ⟨pointerLogLikelihood?_displace r offset p, rfl⟩, rfl, rfl, ?_⟩
    intro other same
    obtain rfl : first = other := Option.some.inj same
    refine ⟨origin, ?_⟩
    show r.origin.map (fun o => o.add offset) = _
    rw [origin]
    rfl

/-- A touch of the size of the surface, at a given place. -/
noncomputable def touchAt (kind : EventKind) (p : PointerId) (position : Vec2 EReal) :
    Sample EReal :=
  ⟨kind, p, 0, position, 1, 1, 1, 0, position⟩

/-- The text `O` on two recognizers. The first is anchored by a press and then moved, before the
reset. -/
theorem position_independent_anywhere :
    let ops : List (RecognizerOp EReal) := [.observe (.touch (touchAt .down 0 ⟨5, 5⟩)),
      .observe (.multiTouch ⟨0, []⟩), .translate ⟨1, 2⟩]
    let fed := [touchAt .move 7 ⟨0, 0⟩, touchAt .down 0 ⟨1, 1⟩, touchAt .up 0 ⟨2, 1⟩]
    let offset : Vec2 EReal := ⟨3, 4⟩
    ∃ b, (⟨⟨1, 1⟩, 1, .bhattacharyya⟩ : Compiler EReal).compile "O" ⟨0, 0, 1, 1⟩ = .ok b ∧
      b.origin.isSome = true ∧ (∀ op ∈ ops, op.IsRigid) ∧ offset.IsFinite ∧
      fed.find? (fun s => s.pointer ∈ b.pointers) = some (touchAt .down 0 ⟨1, 1⟩) ∧
      let r := (ofBehavior b 2).performAll (ops ++ .reset :: RecognizerOp.touches fed)
      let r' := (ofBehavior b 2).performAll
        ([] ++ .reset :: RecognizerOp.touches (fed.map fun s => s.displace offset))
      (∀ p, r'.pointerLogLikelihood? p = r.pointerLogLikelihood? p ∧ r'.path p = r.path p) ∧
        r'.logLikelihood = r.logLikelihood ∧ r'.dominantPointer = r.dominantPointer ∧
        ∀ first ∈ fed.find? (fun s => s.pointer ∈ b.pointers),
          r.origin = some first.position ∧ r'.origin = some (first.position.add offset) := by
  intro ops fed offset
  have real (n : Nat) : Scalar.isFinite (n : EReal) = true := exact_isFinite_coe n
  obtain ⟨b, ok, relative, pointers⟩ := Compiler.exists_compile_anywhere .bhattacharyya
  have rigid : ∀ op ∈ ops, op.IsRigid := by
    simp only [ops, List.forall_mem_cons]
    exact ⟨⟨real 5, real 5⟩, trivial, ⟨real 1, real 2⟩, List.forall_mem_nil _⟩
  have finite : offset.IsFinite := ⟨real 3, real 4⟩
  have press : fed.find? (fun s => s.pointer ∈ b.pointers) =
      some (touchAt .down 0 ⟨1, 1⟩) := by
    rw [pointers]
    rfl
  refine ⟨b, ok, relative, rigid, finite, press, ?_⟩
  refine position_independent ⟨real 1, real 1, real 1⟩ ⟨real 0, real 0, real 1, real 1⟩ ok relative
    2 rigid (List.forall_mem_nil _) finite ?_ (List.prefix_refl fed)
  intro first same
  rw [press] at same
  obtain rfl := Option.some.inj same
  rfl

end Recognizer

end TouchIntent
