import Mathlib
import TouchIntent.Proofs.Gesture.Compiled
import TouchIntent.Proofs.Gesture.Progress
import TouchIntent.Proofs.Pattern.Markers
import TouchIntent.Proofs.Recognizer.Run

/-!
# Decoded paths fit the pattern

However a host uses a recognizer, and even if it moves or refits the model in between, every track
holds a path with one state for each sample in its lane, and the states are those of the model. A
compiled gesture has as many states in its model as in its pattern. So a completion check always
finds a path that it can follow, and fails only where there is nothing to follow.
-/

namespace TouchIntent

variable {R : Type} [Scalar R]

/-- A path has a state for each sample. -/
theorem Model.length_mostLikelyPath (m : Model R) (samples : List (Sample R)) :
    (m.mostLikelyPath samples).length = samples.length :=
  m.trellis.length_bestPath m.inhabited m.logEmission samples

/-- Folding a sample into a track changes neither its pointer nor its path. -/
theorem Track.exists_of_mem_foldInto {s : Sample R} {tracks : List (Track R)} {t : Track R}
    (member : t ∈ foldInto s tracks) : ∃ u ∈ tracks, t.pointer = u.pointer ∧ t.path = u.path := by
  induction tracks with
  | nil => cases member
  | cons u others ih =>
    rw [foldInto] at member
    split at member
    · rcases List.mem_cons.1 member with rfl | member
      · exact ⟨u, List.mem_cons_self, rfl, rfl⟩
      · exact ⟨t, List.mem_cons_of_mem _ member, rfl, rfl⟩
    · rcases List.mem_cons.1 member with rfl | member
      · exact ⟨t, List.mem_cons_self, rfl, rfl⟩
      · obtain ⟨v, source, same⟩ := ih member
        exact ⟨v, List.mem_cons_of_mem _ source, same⟩

/-- The model of a compiled gesture has the states of its pattern. -/
theorem Compiler.size_of_compile {c : Compiler R} {source : String} {element : Bounds R}
    {b : Behavior R} (ok : c.compile source element = .ok b) : b.model.size = b.pattern.size := by
  obtain ⟨route, -, modelled, same⟩ := compile_eq_ok ok
  rw [size_of_model modelled, same, route.size_pattern]

namespace Recognizer

/-- Every track holds a path of states of the model, one for each sample in its lane. -/
structure Decoded (r : Recognizer R) : Prop where
  tracked : r.tracks.map Track.pointer = r.window.pointers
  paths : ∀ t ∈ r.tracks, t.path.length = (r.window.samples t.pointer).length ∧
    ∀ i ∈ t.path, i < r.model.size

namespace Decoded

variable {r r' : Recognizer R}

theorem ofBehavior (b : Behavior R) (capacity : Nat) :
    (Recognizer.ofBehavior b capacity).Decoded := by
  refine ⟨?_, fun t member => ?_⟩
  · rw [tracked_ofBehavior, pointers_ofBehavior]
  · obtain ⟨p, -, rfl⟩ := List.mem_map.1 member
    refine ⟨?_, by simp [Track.empty]⟩
    exact (congrArg List.length (Window.samples_empty b.pointers capacity)).symm

omit [Scalar R] in
/-- An operation that leaves the window and the tracks leaves the paths. -/
theorem of_eq (decoded : r.Decoded) (tracks : r'.tracks = r.tracks) (window : r'.window = r.window)
    (size : r'.model.size = r.model.size) : r'.Decoded := by
  refine ⟨by rw [tracks, window, decoded.tracked], ?_⟩
  rw [tracks, window, size]
  exact decoded.paths

theorem observeTouch (decoded : r.Decoded) (s : Sample R) : (r.observeTouch s).Decoded := by
  have same := r.sameGesture_observeTouch s
  refine ⟨by rw [same.tracked, same.pointers, decoded.tracked], fun t member => ?_⟩
  by_cases accepted : s.pointer ∈ r.window.pointers
  · rw [observeTouch_tracks accepted] at member
    obtain ⟨u, source, pointer, path⟩ := Track.exists_of_mem_foldInto member
    obtain ⟨v, -, rfl⟩ := List.mem_map.1 source
    rw [Track.decode_pointer] at pointer
    rw [Track.decode_path] at path
    rw [observeTouch_window, pointer, path]
    refine ⟨?_, fun i inside => ?_⟩
    · rw [List.length_map, Model.length_mostLikelyPath]
    · obtain ⟨j, -, rfl⟩ := List.mem_map.1 inside
      rw [same.size, ← r.anchor_size s]
      exact j.isLt
  · rw [observeTouch_of_ignored accepted] at member ⊢
    exact decoded.paths t member

theorem reset (decoded : r.Decoded) : r.reset.Decoded := by
  have same := r.sameGesture_perform .reset
  refine ⟨same.tracked.trans (decoded.tracked.trans same.pointers.symm), fun t member => ?_⟩
  obtain ⟨u, -, rfl⟩ := List.mem_map.1 member
  exact ⟨(congrArg List.length (Window.samples_clear (w := r.window))).symm, by simp [Track.empty]⟩

theorem perform (decoded : r.Decoded) (op : RecognizerOp R) : (r.perform op).Decoded := by
  have size := (r.sameGesture_perform op).size
  cases op with
  | observe observation =>
    cases observation with
    | touch s => exact decoded.observeTouch s
    | multiTouch frame => exact decoded
  | reset => exact decoded.reset
  | translate d => exact decoded.of_eq rfl rfl size
  | translateModel d => exact decoded.of_eq rfl rfl size
  | moveModel p => exact decoded.of_eq rfl rfl size
  | setEmission emission => exact decoded.of_eq rfl rfl size
  | fit state samples weights => exact decoded.of_eq rfl rfl size
  | fitUniform state samples => exact decoded.of_eq rfl rfl size

theorem performAll (decoded : r.Decoded) (ops : List (RecognizerOp R)) :
    (r.performAll ops).Decoded := by
  induction ops using List.reverseRecOn with
  | nil => exact decoded
  | append_singleton ops op ih =>
    rw [performAll_concat]
    exact ih.perform op

omit [Scalar R] in
/-- The path of any pointer has a state for each sample in its lane. -/
theorem path (decoded : r.Decoded) (p : PointerId) :
    (r.path p).length = (r.window.samples p).length ∧ ∀ i ∈ r.path p, i < r.model.size := by
  rw [Recognizer.path, track?]
  cases found : r.tracks.find? (fun t => t.pointer == p) with
  | none =>
    have ignored : p ∉ r.window.pointers := by
      rw [← decoded.tracked]
      intro listed
      obtain ⟨t, member, same⟩ := List.mem_map.1 listed
      exact List.find?_eq_none.1 found t member (beq_iff_eq.2 same)
    rw [Window.samples_eq_nil ignored]
    exact ⟨rfl, by simp⟩
  | some t =>
    have own : t.pointer = p := by simpa using List.find?_some found
    rw [← own]
    exact decoded.paths t (List.mem_of_find?_eq_some found)

end Decoded

/-- A completion check of what the dominant pointer does, given a result from before or none, finds
what it looks for: the path stays in the pattern, there is a result exactly if there is a path, the
result has the markers of the pattern, and wherever the check looks up how often the state of a
marker was visited, the state is one whose visits were counted. -/
structure Checkable (r : Recognizer R) (previous : Option CheckResult) : Prop where
  inside : ∀ i ∈ r.view.path, i < r.pattern.size
  check_eq_none_iff : r.view.check previous = none ↔ r.window.samples r.dominantPointer = []
  markers : ∀ result, r.view.check previous = some result →
    result.markers.map Marker.identity = r.pattern.markers.map Marker.identity
  counted : ∀ result, r.view.check previous = some result →
    ∃ w, r.pattern.walk? r.view.path r.view.eventKinds previous = some w ∧
      result.markers = markStates w.visits w.current previous w.markers ∧
      ∀ m ∈ w.markers, ∀ state, m.target = .state state → state < w.visits.length

/-- A check can rely on paths that are decoded with as many states as the pattern has. -/
theorem Decoded.checkable {r : Recognizer R} (decoded : r.Decoded)
    (size : r.model.size = r.pattern.size)
    (inRange : ∀ m ∈ r.pattern.markers, m.target.InRange r.pattern) {previous : Option CheckResult}
    (before : ∀ q, previous = some q → r.pattern.Reports q) : r.Checkable previous := by
  obtain ⟨length, states⟩ := decoded.path r.dominantPointer
  have inside : ∀ i ∈ r.view.path, i < r.pattern.size := by
    rw [← size]
    exact states
  have empty : r.view.path = [] ↔ r.window.samples r.dominantPointer = [] := by
    rw [← List.length_eq_zero_iff, ← List.length_eq_zero_iff, ← length]
    rfl
  refine ⟨inside, ?_, fun result checked => ?_, fun result checked => ?_⟩
  · rw [BehaviorView.check, Pattern.check_eq_none_iff, empty, or_iff_left]
    rintro ⟨i, member, outside⟩
    exact absurd (inside i member) (Nat.not_lt.2 outside)
  · exact (Pattern.Reports.check before checked).map_identity
  · obtain ⟨w, walked, markers⟩ := Pattern.markers_of_check checked
    refine ⟨w, walked, markers, fun m member state attached => ?_⟩
    have same : w.markers.map Marker.identity = r.pattern.markers.map Marker.identity := by
      rw [← (Pattern.Reports.check before checked).map_identity, markers, map_identity_markStates]
    have listed : m.identity ∈ r.pattern.markers.map Marker.identity :=
      same ▸ List.mem_map_of_mem member
    obtain ⟨m', original, identity⟩ := List.mem_map.1 listed
    have target : m'.target = .state state := (congrArg Prod.snd identity).trans attached
    rw [(Pattern.walk?_spec walked).2]
    have within := inRange m' original
    rwa [target] at within

/-- Whatever a host does with the recognizer of a compiled gesture and with its model: the path of
each pointer is as long as its lane, and has only states of the model and of the pattern. So a chain
of completion checks of this pattern can rely on what the recognizer shows it. -/
theorem decoded_paths_fit {c : Compiler R} {source : String} {element : Bounds R} {b : Behavior R}
    (ok : c.compile source element = .ok b) (capacity : Nat) (ops : List (RecognizerOp R)) :
    let r := (ofBehavior b capacity).performAll ops
    r.pattern = b.pattern ∧
      (∀ p ∈ b.pointers, (r.path p).length = (r.window.samples p).length ∧
        (r.path p).length = (r.eventKinds p).length ∧
        ∀ i ∈ r.path p, i < r.model.size ∧ i < r.pattern.size) ∧
      ∀ previous, (∀ q, previous = some q → b.pattern.Reports q) → r.Checkable previous := by
  intro r
  have same := (ofBehavior b capacity).sameGesture_performAll ops
  have decoded : r.Decoded := (Decoded.ofBehavior b capacity).performAll ops
  have pattern : r.pattern = b.pattern := same.pattern
  have size : r.model.size = r.pattern.size := by
    rw [pattern]
    exact same.size.trans (Compiler.size_of_compile ok)
  obtain ⟨route, -, -, built⟩ := Compiler.compile_eq_ok ok
  have fits : r.pattern.Fits route.arrows := by
    rw [pattern, built]
    exact route.fits_pattern
  refine ⟨pattern, fun p _ => ?_, fun previous before => ?_⟩
  · obtain ⟨length, states⟩ := decoded.path p
    refine ⟨length, ?_, fun i member => ⟨states i member, size ▸ states i member⟩⟩
    rw [length, eventKinds, Window.eventKinds, List.length_map]
  · exact decoded.checkable size fits.inRange (pattern ▸ before)

/-- The gesture text `C->Cd$`, of two states and a marker, in a window that holds two samples: when
the finger is lifted the press has left the window, and the model has been moved away. The check
goes on from a result in which the marker was reached. -/
theorem decoded_paths_fit_overflowing :
    let c : Compiler EReal := ⟨⟨1, 1⟩, 1, .gaussian⟩
    let sample : EventKind → Sample EReal := fun kind => ⟨kind, 0, 0, ⟨0, 0⟩, 0, 0, 0, 0, ⟨0, 0⟩⟩
    let ops : List (RecognizerOp EReal) := [.observe (.touch (sample .down)),
      .observe (.touch (sample .move)), .moveModel ⟨1, 1⟩, .observe (.touch (sample .up))]
    ∃ b, c.compile "C->Cd$" ⟨0, 0, 1, 1⟩ = .ok b ∧ b.pattern.size = 2 ∧
      ∃ q, b.pattern.check [0, 1] [.move, .down] none = some q ∧
        q.markers = [⟨0, .event 1 0, true, true⟩] ∧
        let r := (ofBehavior b 2).performAll ops
        r.eventKinds 0 = [.move, .up] ∧
          r.pattern = b.pattern ∧
          (∀ p ∈ b.pointers, (r.path p).length = (r.window.samples p).length ∧
            (r.path p).length = (r.eventKinds p).length ∧
            ∀ i ∈ r.path p, i < r.model.size ∧ i < r.pattern.size) ∧
          r.Checkable (some q) := by
  intro c sample ops
  obtain ⟨b, ok, same⟩ := exists_compile_markedPress
  obtain ⟨q, checked, reached⟩ : ∃ q, b.pattern.check [0, 1] [.move, .down] none = some q ∧
      q.markers = [⟨0, .event 1 0, true, true⟩] := by
    rw [same]
    let t : markedPress.Trail := ⟨[0, 1], [.move, .down], by decide, by decide⟩
    exact ⟨markedPress.report t none, Pattern.check_trail t none, by cbv⟩
  have start : (ofBehavior b 2).window = Window.empty [0, 1] 2 := by
    obtain ⟨route, m, -, -, rfl⟩ := Compiler.exists_route_of_compile ok
    rfl
  have moved (r : Recognizer EReal) (p : Vec2 EReal) :
      (r.perform (.moveModel p)).window = r.window := rfl
  have window : ((ofBehavior b 2).performAll ops).window =
      (((Window.empty [0, 1] 2).push (sample .down)).push (sample .move)).push (sample .up) := by
    simp [ops, sample, performAll, observeTouch_window, moved, start]
  have left : ((ofBehavior b 2).performAll ops).eventKinds 0 = [.move, .up] := by
    rw [eventKinds, window]
    rfl
  obtain ⟨pattern, paths, checkable⟩ := decoded_paths_fit ok 2 ops
  refine ⟨b, ok, same ▸ rfl, q, checked, reached, left, pattern, paths, checkable (some q) ?_⟩
  intro q' given
  obtain rfl := Option.some.inj given
  exact .check (by simp) checked

end Recognizer

end TouchIntent
