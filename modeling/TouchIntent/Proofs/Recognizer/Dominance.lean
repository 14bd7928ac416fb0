import Mathlib
import TouchIntent.Proofs.Gesture.Vanishing
import TouchIntent.Proofs.Recognizer.Likelihood
import TouchIntent.Proofs.Recognizer.Shapes

/-!
# The dominant pointer

Rules see of a behaviour what its dominant pointer did. The dominant pointer is found by going
through the pointers that have been observed, in the order in which they are declared, and keeping
the first one of greatest likelihood. The search starts from `-∞` and the first declared pointer,
observed or not, and only something that is more likely replaces it: if nothing that was observed is
possible at all, then the first declared pointer stays dominant, and rules see an empty path unless
that pointer happens to have been observed.

In exact arithmetic this is the only case in which the dominant pointer is not the first one of
greatest likelihood. It takes contact ellipses that are compared and have no area.
-/

namespace TouchIntent

open Scalar

/-- A reset, or a sample of real numbers. -/
def RecognizerOp.IsTouch : RecognizerOp EReal → Prop
  | .observe (.touch s) => s.IsFinite
  | .reset => True
  | _ => False

namespace Recognizer

section Decoded

variable {R : Type} [Scalar R]

/-! ## What a recognizer has worked out -/

/-- The greatest score among pointers and the first pointer that has it; `first` if none is above
`-∞`. -/
def elect (score : PointerId → R) (first : PointerId) (pointers : List PointerId) :
    R × PointerId :=
  pointers.foldl (fun best p => if best.1 < score p then (score p, p) else best)
    (negInfinity, first)

/-- The pointers that have a sample in the window. -/
def observedPointers (r : Recognizer R) : List PointerId :=
  r.window.pointers.filter fun p => !(r.window.samples p).isEmpty

/-- How likely the samples of a pointer are that the window holds. -/
def laneLikelihood (r : Recognizer R) (p : PointerId) : R :=
  r.model.logLikelihood (r.window.samples p)

/-- Tracks, likelihood and dominant pointer are what the model makes of the window. -/
structure IsDecoded (r : Recognizer R) : Prop where
  tracked : r.tracks.map Track.pointer = r.window.pointers
  likelihood : ∀ p, r.pointerLogLikelihood? p =
    if r.window.samples p = [] then none else some (r.laneLikelihood p)
  path : ∀ p, r.path p = (r.model.mostLikelyPath (r.window.samples p)).map Fin.val
  elected : (r.logLikelihood, r.dominantPointer) =
    elect r.laneLikelihood r.defaultPointer r.observedPointers

/-- The dominant pointer has been observed, it is the first one of greatest likelihood, and rules
see where it went. -/
structure IsLed (r : Recognizer R) : Prop where
  observed : r.window.samples r.dominantPointer ≠ []
  attained : r.pointerLogLikelihood? r.dominantPointer = some r.logLikelihood
  greatest : ∀ p l, r.pointerLogLikelihood? p = some l → l ≤ r.logLikelihood
  first : ∀ p ∈ r.window.pointers.takeWhile (· ≠ r.dominantPointer),
    r.pointerLogLikelihood? p ≠ some r.logLikelihood
  path : r.view.path ≠ []

variable {r : Recognizer R} {s : Sample R} {p : PointerId}

omit [Scalar R] in
theorem mem_pointers_of_observed (observed : r.window.samples p ≠ []) : p ∈ r.window.pointers :=
  Classical.byContradiction fun ignored => observed (Window.samples_eq_nil ignored)

omit [Scalar R] in
theorem defaultPointer_of_tracked (tracked : r.tracks.map Track.pointer = r.window.pointers) :
    r.defaultPointer = r.window.pointers.headD 0 := by
  rw [defaultPointer_eq, tracked]

/-- A recognizer that has seen nothing has worked out nothing. -/
theorem isDecoded_of_unseen (tracked : r.tracks.map Track.pointer = r.window.pointers)
    (nothing : ∀ p, r.window.samples p = []) (nowhere : ∀ t ∈ r.tracks, t.path = [])
    (none : (r.logLikelihood, r.dominantPointer) = (negInfinity, r.defaultPointer)) :
    r.IsDecoded where
  tracked := tracked
  likelihood p := by simp [Recognizer.pointerLogLikelihood?, nothing]
  path p := by
    rw [nothing, Recognizer.path]
    cases found : r.track? p with
    | none => rfl
    | some t => exact nowhere t (List.mem_of_find?_eq_some found)
  elected := by
    have nobody : r.observedPointers = [] := by simp [observedPointers, nothing]
    rw [nobody, none]
    rfl

namespace IsDecoded

theorem ofBehavior (b : Behavior R) (capacity : Nat) : (ofBehavior b capacity).IsDecoded := by
  have tracked : (Recognizer.ofBehavior b capacity).tracks.map Track.pointer =
      (Recognizer.ofBehavior b capacity).window.pointers := by
    rw [tracked_ofBehavior, pointers_ofBehavior]
  refine isDecoded_of_unseen tracked (fun p => Window.samples_empty b.pointers capacity) ?_ ?_
  · intro t member
    obtain ⟨p, -, rfl⟩ := List.mem_map.1 member
    rfl
  · rw [defaultPointer_of_tracked tracked, pointers_ofBehavior]
    rfl

theorem reset (decoded : r.IsDecoded) : r.reset.IsDecoded := by
  have same := r.sameGesture_perform .reset
  have tracked : r.reset.tracks.map Track.pointer = r.reset.window.pointers :=
    same.tracked.trans (decoded.tracked.trans same.pointers.symm)
  refine isDecoded_of_unseen tracked (fun p => Window.samples_clear) ?_ ?_
  · intro t member
    obtain ⟨u, -, rfl⟩ := List.mem_map.1 member
    rfl
  · have pointers : r.reset.window.pointers = r.window.pointers := same.pointers
    rw [defaultPointer_of_tracked tracked, pointers, ← defaultPointer_of_tracked decoded.tracked]
    rfl

/-- A sample that is taken in has everything worked out anew; any other sample does nothing. -/
theorem observeTouch (decoded : r.IsDecoded) (s : Sample R) : (r.observeTouch s).IsDecoded := by
  by_cases accepted : s.pointer ∈ r.window.pointers
  swap
  · rw [observeTouch_of_ignored accepted]
    exact decoded
  have same := r.sameGesture_observeTouch s
  have tracked : (r.observeTouch s).tracks.map Track.pointer = (r.observeTouch s).window.pointers :=
    same.tracked.trans (decoded.tracked.trans same.pointers.symm)
  have tracks (p : PointerId) (listed : p ∈ (r.observeTouch s).window.pointers) :
      ∃ t, (r.observeTouch s).track? p = some t := by
    rw [← tracked] at listed
    obtain ⟨t, found, -⟩ := Remembers.exists_track listed
    exact ⟨t, found⟩
  refine ⟨tracked, fun p => ?_, fun p => ?_, ?_⟩
  · by_cases unseen : (r.observeTouch s).window.samples p = []
    · simp [Recognizer.pointerLogLikelihood?, unseen]
    · obtain ⟨t, found⟩ := tracks p (mem_pointers_of_observed unseen)
      have likelihood := (observeTouch_decoded accepted found).1
      simp [Recognizer.pointerLogLikelihood?, unseen, found, likelihood, laneLikelihood]
  · rw [Recognizer.path]
    cases found : (r.observeTouch s).track? p with
    | some t => exact (observeTouch_decoded accepted found).2
    | none =>
      have unseen : (r.observeTouch s).window.samples p = [] :=
        Window.samples_eq_nil fun listed => by
          obtain ⟨t, found'⟩ := tracks p listed
          rw [found] at found'
          cases found'
      rw [unseen]
      rfl
  · have first : (r.observeTouch s).defaultPointer = r.defaultPointer := by
      rw [defaultPointer_of_tracked tracked, defaultPointer_of_tracked decoded.tracked,
        same.pointers]
    rw [observeTouch_dominant accepted, first, observedPointers, same.pointers, ← decoded.tracked,
      Track.dominant, elect, List.filter_map, List.filter_map, List.foldl_map, List.foldl_map]
    simp [Function.comp_def, laneLikelihood, observeTouch_window,
      observeTouch_model accepted]

/-- Rules see as many states as the dominant pointer has samples. -/
theorem length_path (decoded : r.IsDecoded) :
    r.view.path.length = (r.window.samples r.dominantPointer).length := by
  have shown : r.view.path = r.path r.dominantPointer := rfl
  rw [shown, decoded.path, List.length_map, Model.length_mostLikelyPath]

end IsDecoded

end Decoded

/-! ## The election -/

theorem takeWhile_ne {before after : List PointerId} {p : PointerId} (new : p ∉ before) :
    (before ++ p :: after).takeWhile (· ≠ p) = before := by
  have others : ∀ q ∈ before, decide (q ≠ p) = true := fun q member =>
    decide_eq_true fun same => new (same ▸ member)
  rw [List.takeWhile_append_of_pos others, List.takeWhile_cons_of_neg (by simp), List.append_nil]

/-- Either nobody has a score above `-∞`, and `first` is elected, or someone is elected whom nobody
beats, and who beats everyone before. -/
theorem elect_cases (score : PointerId → EReal) (first : PointerId) (pointers : List PointerId) :
    ((∀ p ∈ pointers, score p = ⊥) ∧ elect score first pointers = (⊥, first)) ∨
    ∃ p ∈ pointers, elect score first pointers = (score p, p) ∧ score p ≠ ⊥ ∧
      (∀ q ∈ pointers, score q ≤ score p) ∧
      ∀ q ∈ pointers.takeWhile (· ≠ p), score q < score p := by
  induction pointers using List.reverseRecOn with
  | nil => exact .inl ⟨fun p member => absurd member List.not_mem_nil, by simp [elect]⟩
  | append_singleton pointers q ih =>
    have next : elect score first (pointers ++ [q]) =
        if (elect score first pointers).1 < score q then (score q, q)
        else elect score first pointers := by
      rw [elect, List.foldl_concat, ← elect]
    -- whoever was elected before, nobody before has a greater score
    have bound : ∀ p ∈ pointers, score p ≤ (elect score first pointers).1 := by
      rcases ih with ⟨nobody, elected⟩ | ⟨p, -, elected, -, greatest, -⟩
      · exact fun p member => (nobody p member).le.trans bot_le
      · rw [elected]
        exact greatest
    rw [next]
    by_cases beats : (elect score first pointers).1 < score q
    · rw [if_pos beats]
      refine .inr ⟨q, List.mem_concat_self, rfl, (bot_le.trans_lt beats).ne', ?_, ?_⟩
      · refine List.forall_mem_append.2 ⟨fun p member => ?_, by simp⟩
        exact (bound p member).trans beats.le
      · intro p before
        have other : p ≠ q := by simpa using List.mem_takeWhile_imp before
        have member := (List.takeWhile_sublist _).subset before
        have earlier : p ∈ pointers := by simpa [other] using member
        exact (bound p earlier).trans_lt beats
    · rw [if_neg beats]
      rcases ih with ⟨nobody, elected⟩ | ⟨p, member, elected, possible, greatest, beaten⟩
      · rw [elected, bot_lt_iff_ne_bot, not_not] at beats
        refine .inl ⟨List.forall_mem_append.2 ⟨nobody, by simpa using beats⟩, elected⟩
      · rw [elected, not_lt] at beats
        refine .inr ⟨p, List.mem_append_left _ member, elected, possible,
          List.forall_mem_append.2 ⟨greatest, by simpa using beats⟩, ?_⟩
        obtain ⟨before, after, rfl, new⟩ := List.eq_append_cons_of_mem member
        rw [takeWhile_ne new] at beaten
        rw [List.append_assoc, List.cons_append, takeWhile_ne new]
        exact beaten

/-! ## When the dominant pointer leads -/

/-- The pointers before an observed one, of those that have been observed. -/
theorem mem_takeWhile_observedPointers {R : Type} [Scalar R] {r : Recognizer R}
    {p q : PointerId} (observed : r.window.samples p ≠ [])
    (before : q ∈ r.window.pointers.takeWhile (· ≠ p)) (observed' : r.window.samples q ≠ []) :
    q ∈ r.observedPointers.takeWhile (· ≠ p) := by
  have same : (fun a => !(!(r.window.samples a).isEmpty) || decide (a ≠ p)) =
      fun a => decide (a ≠ p) := by
    funext a
    by_cases own : a = p <;> simp [own, observed]
  rw [observedPointers, List.takeWhile_filter, same]
  exact List.mem_filter.2 ⟨before, by simpa using observed'⟩

theorem mem_observedPointers {R : Type} {r : Recognizer R} {p : PointerId} :
    p ∈ r.observedPointers ↔ r.window.samples p ≠ [] := by
  rw [observedPointers, List.mem_filter]
  constructor
  · rintro ⟨-, observed⟩
    simpa using observed
  · intro observed
    exact ⟨mem_pointers_of_observed observed, by simpa using observed⟩

variable {r : Recognizer EReal}

/-- No observed pointer comes before the first declared one. -/
theorem takeWhile_defaultPointer (decoded : r.IsDecoded)
    (observed : r.window.samples r.defaultPointer ≠ []) :
    r.observedPointers.takeWhile (· ≠ r.defaultPointer) = [] := by
  have listed := mem_pointers_of_observed observed
  have head := defaultPointer_of_tracked decoded.tracked
  rw [observedPointers]
  cases pointers : r.window.pointers with
  | nil =>
    rw [pointers] at listed
    cases listed
  | cons p others =>
    rw [pointers] at head
    obtain rfl : r.defaultPointer = p := head
    rw [List.filter_cons_of_pos (by simpa using observed)]
    exact List.takeWhile_cons_of_neg (by simp)

theorem IsDecoded.isLed (decoded : r.IsDecoded)
    (observed : r.window.samples r.dominantPointer ≠ [])
    (attained : r.laneLikelihood r.dominantPointer = r.logLikelihood)
    (greatest : ∀ p ∈ r.observedPointers, r.laneLikelihood p ≤ r.logLikelihood)
    (first : ∀ p ∈ r.observedPointers.takeWhile (· ≠ r.dominantPointer),
      r.laneLikelihood p ≠ r.logLikelihood) : r.IsLed where
  observed := observed
  attained := by rw [decoded.likelihood, if_neg observed, attained]
  greatest := by
    intro p l likelihood
    rw [decoded.likelihood] at likelihood
    split at likelihood
    · cases likelihood
    · next observed' =>
      obtain rfl := Option.some.inj likelihood
      exact greatest p (mem_observedPointers.2 observed')
  first := by
    intro p before likelihood
    rw [decoded.likelihood] at likelihood
    split at likelihood
    · cases likelihood
    · next observed' =>
      exact first p (mem_takeWhile_observedPointers observed before observed')
        (Option.some.inj likelihood)
  path := by
    rw [Ne, ← List.length_eq_zero_iff, decoded.length_path, List.length_eq_zero_iff]
    exact observed

/-- The dominant pointer leads unless nothing that has been observed is possible, and the first
declared pointer has not been observed. -/
theorem isLed_iff (decoded : r.IsDecoded) :
    r.IsLed ↔ r.window.samples r.defaultPointer ≠ [] ∨
      ∃ p, r.window.samples p ≠ [] ∧ r.laneLikelihood p ≠ ⊥ := by
  have elected := decoded.elected
  rcases elect_cases r.laneLikelihood r.defaultPointer r.observedPointers with
    ⟨nobody, result⟩ | ⟨p, member, result, possible, greatest, beaten⟩
  · obtain ⟨low, dominant⟩ := Prod.mk.inj (elected.trans result)
    constructor
    · intro led
      rw [← dominant]
      exact .inl led.observed
    · rintro (observed | ⟨p, observed, possible⟩)
      · have member := mem_observedPointers.2 observed
        refine decoded.isLed (dominant ▸ observed) ?_ (fun p observed' => ?_) fun p before => ?_
        · rw [dominant, low, nobody _ member]
        · rw [low, nobody p observed']
        · rw [dominant, takeWhile_defaultPointer decoded observed] at before
          cases before
      · exact absurd (nobody p (mem_observedPointers.2 observed)) possible
  · obtain ⟨likelihood, dominant⟩ := Prod.mk.inj (elected.trans result)
    have observed := mem_observedPointers.1 member
    refine iff_of_true (decoded.isLed (dominant ▸ observed) ?_ ?_ ?_) (.inr ⟨p, observed, possible⟩)
    · rw [dominant, likelihood]
    · rw [likelihood]
      exact greatest
    · rw [dominant, likelihood]
      exact fun q before => (beaten q before).ne

/-! ## Runs of touches -/

/-- A recognizer of a gesture text that has only seen touches. -/
structure IsTouched (mode : Emission) (r : Recognizer EReal) : Prop where
  sound : r.IsSound
  decoded : r.IsDecoded
  free : r.model.IsOpen
  emission : r.model.emission = mode

variable {mode : Emission}

theorem IsSound.reset (sound : r.IsSound) : r.reset.IsSound where
  model := sound.model
  origin := sound.origin
  seen := by
    intro p s member
    have nothing : r.reset.window.samples p = [] := Window.samples_clear
    rw [nothing] at member
    cases member
  bounded := by simp [Recognizer.reset]

theorem model_observeTouch_cases (r : Recognizer EReal) (s : Sample EReal) :
    (r.observeTouch s).model = r.model ∨ ∃ d, (r.observeTouch s).model = r.model.translate d := by
  by_cases accepted : s.pointer ∈ r.window.pointers
  · rw [observeTouch_model accepted]
    rcases r.anchor_cases s with still | ⟨d, moved⟩
    · rw [still]
      exact .inl rfl
    · rw [moved]
      exact .inr ⟨d, rfl⟩
  · rw [observeTouch_of_ignored accepted]
    exact .inl rfl

theorem IsTouched.perform (touched : r.IsTouched mode) {op : RecognizerOp EReal}
    (touch : op.IsTouch) : (r.perform op).IsTouched mode := by
  cases op with
  | observe observation =>
    cases observation with
    | touch s =>
      refine ⟨touched.sound.observeTouch touch, touched.decoded.observeTouch s, ?_, ?_⟩ <;>
        rw [perform_touch] <;> rcases r.model_observeTouch_cases s with still | ⟨d, moved⟩
      · exact still ▸ touched.free
      · exact moved ▸ touched.free.translate d
      · exact still ▸ touched.emission
      · exact moved ▸ touched.emission
    | multiTouch frame => cases touch
  | reset => exact ⟨touched.sound.reset, touched.decoded.reset, touched.free, touched.emission⟩
  | translate d | translateModel d | moveModel p | setEmission emission
  | fit state samples weights | fitUniform state samples => cases touch

theorem IsTouched.performAll (touched : r.IsTouched mode) {run : List (RecognizerOp EReal)}
    (touches : ∀ op ∈ run, op.IsTouch) : (r.performAll run).IsTouched mode := by
  induction run using List.reverseRecOn with
  | nil => exact touched
  | append_singleton run op ih =>
    obtain ⟨earlier, last⟩ := List.forall_mem_append.1 touches
    rw [performAll_concat]
    exact (ih earlier).perform (last op (List.mem_singleton_self op))

theorem isTouched_compile {c : Compiler EReal} (finite : c.IsFinite) {element : Bounds EReal}
    (box : element.IsFinite) {source : String} {b : Behavior EReal}
    (ok : c.compile source element = .ok b) (capacity : Nat) :
    (ofBehavior b capacity).IsTouched c.emission where
  sound := isSound_compile finite box ok capacity
  decoded := .ofBehavior b capacity
  free := Compiler.isOpen_compile ok
  emission := Compiler.emission_of_compile ok

theorem IsTouched.isLed_iff (touched : r.IsTouched mode) (held : ∃ p, r.window.samples p ≠ []) :
    r.IsLed ↔ mode = .gaussian ∨ r.window.samples r.defaultPointer ≠ [] ∨
      ∃ p, r.window.samples p ≠ [] ∧ ∀ s ∈ r.window.samples p, ¬ s.IsFlat := by
  have impossible (p : PointerId) (observed : r.window.samples p ≠ []) :
      r.laneLikelihood p = ⊥ ↔ mode = .bhattacharyya ∧ ∃ s ∈ r.window.samples p, s.IsFlat := by
    rw [← touched.emission]
    exact touched.free.logLikelihood_eq_bot_iff touched.sound.model.toWellFormed observed
      (touched.sound.seen p)
  rw [Recognizer.isLed_iff touched.decoded]
  cases mode with
  | gaussian =>
    obtain ⟨p, observed⟩ := held
    refine iff_of_true (.inr ⟨p, observed, fun low => ?_⟩) (.inl rfl)
    cases ((impossible p observed).1 low).1
  | bhattacharyya =>
    rw [or_iff_right (a := Emission.bhattacharyya = .gaussian) Emission.noConfusion]
    refine or_congr_right (exists_congr fun p => and_congr_right fun observed => ?_)
    rw [Ne, impossible p observed]
    simp

/-- In any run of touches of a gesture text, a sample that is taken in is held. While any sample is
held, the dominant pointer leads, except where contact ellipses are compared, one of each observed
pointer has no area, and the first declared pointer has not been observed. -/
theorem dominant_leads_iff {c : Compiler EReal} (finite : c.IsFinite) {element : Bounds EReal}
    (box : element.IsFinite) {source : String} {b : Behavior EReal}
    (ok : c.compile source element = .ok b) (capacity : Nat) {run : List (RecognizerOp EReal)}
    (touches : ∀ op ∈ run, op.IsTouch) :
    let r := (ofBehavior b capacity).performAll run
    (∀ earlier s, run = earlier ++ [.observe (.touch s)] → s.pointer ∈ b.pointers →
      r.window.samples s.pointer ≠ []) ∧
    ((∃ p, r.window.samples p ≠ []) →
      (r.IsLed ↔ c.emission = .gaussian ∨ r.window.samples r.defaultPointer ≠ [] ∨
        ∃ p, r.window.samples p ≠ [] ∧ ∀ s ∈ r.window.samples p, ¬ s.IsFlat)) := by
  intro r
  refine ⟨?_, ((isTouched_compile finite box ok capacity).performAll touches).isLed_iff⟩
  rintro earlier s same listens
  have gesture := (ofBehavior b capacity).sameGesture_performAll earlier
  have accepted : s.pointer ∈ ((ofBehavior b capacity).performAll earlier).window.pointers := by
    rw [gesture.pointers, pointers_ofBehavior]
    exact listens
  have room : 0 < ((ofBehavior b capacity).performAll earlier).window.capacity := by
    rw [gesture.capacity]
    exact Nat.lt_of_lt_of_le Nat.one_pos (Nat.le_max_right capacity 1)
  show ((ofBehavior b capacity).performAll run).window.samples s.pointer ≠ []
  rw [same, performAll_concat, perform_touch, observeTouch_window]
  exact Window.samples_push_ne_nil accepted room

/-- A press of the second pointer that is reported without a contact area. -/
noncomputable def pointPress : List (RecognizerOp EReal) := [.observe (.touch (press 1 1))]

theorem isTouch_pointPress : ∀ op ∈ pointPress, op.IsTouch := by
  have zero : Scalar.isFinite (0 : EReal) = true := exact_isFinite_coe 0
  exact List.forall_mem_singleton.2 ⟨zero, zero, zero, zero, zero⟩

theorem samples_pointPress {b : Behavior EReal} (pointers : b.pointers = defaultPointers)
    (p : PointerId) : ((ofBehavior b 50).performAll pointPress).window.samples p =
      if p = 1 then [press 1 1] else [] := by
  have nothing (q : PointerId) : (ofBehavior b 50).window.samples q = [] :=
    Window.samples_empty b.pointers 50
  have accepted : (press 1 1).pointer ∈ (ofBehavior b 50).window.pointers := by
    rw [pointers_ofBehavior, pointers]
    decide
  show ((ofBehavior b 50).observeTouch (press 1 1)).window.samples p = _
  rw [observeTouch_window, Window.samples_push accepted, nothing, nothing]
  rfl

theorem dominant_leads_iff_pointPress : ∃ b,
    (⟨⟨1, 1⟩, 1, .bhattacharyya⟩ : Compiler EReal).compile "O" ⟨0, 0, 1, 1⟩ = .ok b ∧
      (∀ op ∈ pointPress, op.IsTouch) ∧
      let r := (ofBehavior b 50).performAll pointPress
      (∀ earlier s, pointPress = earlier ++ [.observe (.touch s)] → s.pointer ∈ b.pointers →
        r.window.samples s.pointer ≠ []) ∧
      (∃ p, r.window.samples p ≠ []) ∧
      (r.IsLed ↔ Emission.bhattacharyya = .gaussian ∨
        r.window.samples r.defaultPointer ≠ [] ∨
          ∃ p, r.window.samples p ≠ [] ∧ ∀ s ∈ r.window.samples p, ¬ s.IsFlat) := by
  have real (n : Nat) : Scalar.isFinite (n : EReal) = true := exact_isFinite_coe n
  obtain ⟨b, ok, -, pointers⟩ := Compiler.exists_compile_anywhere .bhattacharyya
  have held : ∃ p, ((ofBehavior b 50).performAll pointPress).window.samples p ≠ [] :=
    ⟨1, by simp [samples_pointPress pointers]⟩
  obtain ⟨taken, leads⟩ := dominant_leads_iff ⟨real 1, real 1, real 1⟩
    ⟨real 0, real 0, real 1, real 1⟩ ok 50 isTouch_pointPress
  exact ⟨b, ok, isTouch_pointPress, taken, held, leads held⟩

/-- The only pointer that has been observed is not the dominant one, and rules see an empty path. -/
theorem unobserved_pointer_dominates : ∃ b,
    (⟨⟨1, 1⟩, 1, .bhattacharyya⟩ : Compiler EReal).compile "O" ⟨0, 0, 1, 1⟩ = .ok b ∧
      let r := (ofBehavior b 50).performAll pointPress
      r.window.samples 1 ≠ [] ∧ r.dominantPointer = 0 ∧ r.window.samples r.dominantPointer = [] ∧
        r.pointerLogLikelihood? r.dominantPointer ≠ some r.logLikelihood ∧ r.view.path = [] := by
  have real (n : Nat) : Scalar.isFinite (n : EReal) = true := exact_isFinite_coe n
  obtain ⟨b, ok, -, pointers⟩ := Compiler.exists_compile_anywhere .bhattacharyya
  have touched := (isTouched_compile ⟨real 1, real 1, real 1⟩ ⟨real 0, real 0, real 1, real 1⟩ ok
    50).performAll isTouch_pointPress
  have samples := samples_pointPress pointers
  have listed := ((ofBehavior b 50).sameGesture_performAll pointPress).pointers
  refine ⟨b, ok, ?_⟩
  dsimp only
  generalize (ofBehavior b 50).performAll pointPress = r at touched samples listed ⊢
  rw [pointers_ofBehavior, pointers] at listed
  have observed : r.window.samples 1 = [press 1 1] := samples 1
  have low : r.laneLikelihood 1 = ⊥ := by
    refine (touched.free.logLikelihood_eq_bot_iff touched.sound.model.toWellFormed ?_
      (touched.sound.seen 1)).2 ⟨touched.emission, press 1 1, ?_, .inl rfl⟩ <;> simp [observed]
  have alone : r.observedPointers = [1] := by
    rw [observedPointers, listed, defaultPointers]
    simp [samples]
  have first : r.defaultPointer = 0 := by
    rw [defaultPointer_of_tracked touched.decoded.tracked, listed]
    rfl
  obtain ⟨likelihood, dominant⟩ : r.logLikelihood = ⊥ ∧ r.dominantPointer = 0 := by
    have elected := touched.decoded.elected
    rw [alone, first] at elected
    simpa [elect, low] using elected
  have unseen : r.window.samples 0 = [] := samples 0
  refine ⟨by simp [observed], dominant, by rw [dominant, unseen], ?_, ?_⟩
  · rw [dominant, touched.decoded.likelihood, if_pos unseen]
    exact (Option.some_ne_none _).symm
  · rw [← List.length_eq_zero_iff, touched.decoded.length_path, dominant, unseen]
    rfl

end Recognizer

end TouchIntent
