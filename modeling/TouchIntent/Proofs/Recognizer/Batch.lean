import Mathlib
import TouchIntent.Proofs.Gesture.SingleState
import TouchIntent.Proofs.Numeric.LogTotal
import TouchIntent.Proofs.Recognizer.Run

/-!
# Online and batch recognition

A recognizer works online: it is shown one sample after another and keeps a window, means and times.
In exact arithmetic what it knows after a sample is what would be computed at once from the whole
run: likelihood and path of each pointer from the lane that the window holds, means and times from
all samples since the last reset. What the behaviour does not listen to might as well not have
happened.
-/

namespace TouchIntent

open Scalar

/-- The arithmetic mean, zero for the empty list. -/
def Scalar.mean {R : Type} [Scalar R] (xs : List R) : R := sum xs / ofNat xs.length

/-- A mean is kept up to date with the number of terms that it is taken over. -/
theorem exact_mean_concat (xs : List EReal) (x : EReal) :
    (mean xs * ofNat xs.length + x) / (ofNat xs.length + one) = mean (xs ++ [x]) := by
  have total : mean xs * ofNat xs.length = sum xs := by
    cases xs with
    | nil => simp [mean, sum]
    | cons y rest =>
      rw [mean, exact_ofNat]
      refine EReal.div_mul_cancel (EReal.coe_ne_bot _) (EReal.coe_ne_top _) ?_
      rw [Ne, EReal.coe_eq_zero, Nat.cast_eq_zero]
      exact Nat.succ_ne_zero _
  have count : (ofNat xs.length + one : EReal) = ofNat (xs ++ [x]).length := by
    rw [exact_one, exact_ofNat, exact_ofNat, List.length_append, List.length_singleton]
    push_cast
    rfl
  rw [total, count, mean]
  simp [sum]

namespace RecognizerOp

variable {R : Type}

def isReset : RecognizerOp R → Bool
  | .reset => true
  | _ => false

/-- The sample that an operation shows. -/
def sample? : RecognizerOp R → Option (Sample R)
  | .observe (.touch s) => some s
  | _ => none

/-- The operation is no frame, and no sample of a pointer that is not listened to. -/
def concerns (pointers : List PointerId) : RecognizerOp R → Bool
  | .observe (.touch s) => pointers.contains s.pointer
  | .observe (.multiTouch _) => false
  | _ => true

/-- The samples of the given pointers since the last reset. -/
def heard (pointers : List PointerId) (ops : List (RecognizerOp R)) : List (Sample R) :=
  ((ops.rtakeWhile fun op => !op.isReset).filterMap sample?).filter fun s =>
    pointers.contains s.pointer

variable (pointers : List PointerId) (ops : List (RecognizerOp R))

@[simp] theorem heard_reset : heard pointers (ops ++ [.reset]) = [] := by
  rw [heard, List.rtakeWhile_concat_neg _ _ _ (by simp [isReset])]
  rfl

theorem heard_concat {op : RecognizerOp R} (goesOn : op.isReset = false) :
    heard pointers (ops ++ [op]) = heard pointers ops ++
      op.sample?.toList.filter fun s => pointers.contains s.pointer := by
  rw [heard, List.rtakeWhile_concat_pos _ _ _ (by simp [goesOn]), List.filterMap_append,
    List.filter_append, heard]
  cases sample : op.sample? <;> simp [sample]

/-- An operation that shows no sample leaves what was heard. -/
theorem heard_silent {op : RecognizerOp R} (goesOn : op.isReset = false)
    (silent : op.sample? = none) : heard pointers (ops ++ [op]) = heard pointers ops := by
  rw [heard_concat pointers ops goesOn, silent]
  exact List.append_nil _

variable {pointers} {s : Sample R}

theorem heard_accepted (accepted : s.pointer ∈ pointers) :
    heard pointers (ops ++ [.observe (.touch s)]) = heard pointers ops ++ [s] := by
  rw [heard_concat pointers ops rfl]
  simp [sample?, accepted]

theorem heard_ignored (ignored : s.pointer ∉ pointers) :
    heard pointers (ops ++ [.observe (.touch s)]) = heard pointers ops := by
  rw [heard_concat pointers ops rfl]
  simp [sample?, ignored]

end RecognizerOp

open RecognizerOp (heard)

/-- The samples of one pointer. -/
def samplesOf {R : Type} (p : PointerId) (samples : List (Sample R)) : List (Sample R) :=
  samples.filter fun s => s.pointer == p

/-- A track holds the means over these samples. -/
structure Track.Averages (t : Track EReal) (samples : List (Sample EReal)) : Prop where
  count : t.count = samples.length
  meanPressure : t.meanPressure = mean (samples.map Sample.pressure)
  meanSize : t.meanSize = mean (samples.map Sample.majorAxis)

namespace Track.Averages

variable {t : Track EReal} {samples : List (Sample EReal)}

theorem empty (p : PointerId) : (Track.empty p).Averages [] :=
  ⟨rfl, by simp [Track.empty, mean, sum], by simp [Track.empty, mean, sum]⟩

theorem decode (averages : t.Averages samples) (model : Model EReal)
    (lane : List (Sample EReal)) : (t.decode model lane).Averages samples :=
  ⟨by simpa using averages.count, by simpa using averages.meanPressure,
    by simpa using averages.meanSize⟩

/-- The means take one more sample in. -/
theorem fold (averages : t.Averages samples) (s : Sample EReal) :
    (t.fold s).Averages (samples ++ [s]) where
  count := by
    rw [List.length_append, ← averages.count]
    rfl
  meanPressure := by
    have next := exact_mean_concat (samples.map Sample.pressure) s.pressure
    rw [List.length_map, ← averages.count, ← averages.meanPressure] at next
    rw [List.map_append]
    exact next
  meanSize := by
    have next := exact_mean_concat (samples.map Sample.majorAxis) s.majorAxis
    rw [List.length_map, ← averages.count, ← averages.meanSize] at next
    rw [List.map_append]
    exact next

end Track.Averages

/-- The likelihood that dominates is the greatest. -/
theorem Track.dominant_fst {R : Type} [Scalar R] (first : PointerId) (tracks : List (Track R)) :
    (dominant first tracks).1 = greatest (tracks.map Track.logLikelihood) := by
  have folded (best : R × PointerId) :
      (tracks.foldl (fun best t =>
        if best.1 < t.logLikelihood then (t.logLikelihood, t.pointer) else best) best).1 =
      (tracks.map Track.logLikelihood).foldl maximum best.1 := by
    induction tracks generalizing best with
    | nil => rfl
    | cons t others ih =>
      rw [List.foldl_cons, List.map_cons, List.foldl_cons, ih, maximum]
      split <;> rfl
  exact folded (negInfinity, first)

namespace Recognizer

/-- A recognizer remembers these samples: when the first one came in, and the means of each
pointer. -/
structure Remembers (r : Recognizer EReal) (samples : List (Sample EReal)) : Prop where
  firstTime : r.firstTime = samples.head?.map Sample.time
  tracks : ∀ p ∈ r.window.pointers, ∃ t, r.track? p = some t ∧ t.Averages (samplesOf p samples)

namespace Remembers

variable {r r' : Recognizer EReal} {samples : List (Sample EReal)}

theorem exists_track {R : Type} {tracks : List (Track R)} {p : PointerId}
    (tracked : p ∈ tracks.map Track.pointer) :
    ∃ t, tracks.find? (fun t => t.pointer == p) = some t ∧ t.pointer = p := by
  obtain ⟨t, member, same⟩ := List.mem_map.1 tracked
  have found : (tracks.find? fun t => t.pointer == p).isSome :=
    List.find?_isSome.2 ⟨t, member, beq_iff_eq.2 same⟩
  obtain ⟨u, first⟩ := Option.isSome_iff_exists.1 found
  exact ⟨u, first, by simpa using List.find?_some first⟩

theorem ofBehavior (b : Behavior EReal) (capacity : Nat) :
    (Recognizer.ofBehavior b capacity).Remembers [] := by
  refine ⟨rfl, fun p listed => ?_⟩
  rw [pointers_ofBehavior, ← tracked_ofBehavior b capacity] at listed
  obtain ⟨t, found, own⟩ := exists_track listed
  obtain ⟨q, -, rfl⟩ := List.mem_map.1 (List.mem_of_find?_eq_some found)
  exact ⟨_, found, .empty q⟩

theorem reset (remembers : r.Remembers samples) : r.reset.Remembers [] := by
  refine ⟨rfl, fun p listed => ?_⟩
  have listed : p ∈ r.window.pointers := (r.sameGesture_perform .reset).pointers ▸ listed
  obtain ⟨t, found, -⟩ := remembers.tracks p listed
  refine ⟨.empty t.pointer, ?_, .empty _⟩
  rw [track?] at found
  simp [track?, Recognizer.reset, List.find?_map, Track.empty, found]

/-- What leaves the tracks and the time leaves what is remembered. -/
theorem of_eq (remembers : r.Remembers samples) (firstTime : r'.firstTime = r.firstTime)
    (tracks : r'.tracks = r.tracks) (window : r'.window = r.window) : r'.Remembers samples := by
  refine ⟨firstTime.trans remembers.firstTime, ?_⟩
  simp only [track?, tracks, window]
  exact remembers.tracks

/-- A sample that is taken in is remembered. -/
theorem observeTouch (remembers : r.Remembers samples) {s : Sample EReal}
    (accepted : s.pointer ∈ r.window.pointers) :
    (r.observeTouch s).Remembers (samples ++ [s]) := by
  refine ⟨?_, fun p listed => ?_⟩
  · rw [observeTouch_firstTime accepted, remembers.firstTime]
    cases samples <;> rfl
  · rw [(r.sameGesture_observeTouch s).pointers] at listed
    obtain ⟨t, found, averages⟩ := remembers.tracks p listed
    rw [observeTouch_track? accepted, found]
    have decoded := averages.decode (r.anchor s).model ((r.window.push s).samples p)
    by_cases own : p = s.pointer
    · refine ⟨_, rfl, ?_⟩
      simpa [own, samplesOf] using decoded.fold s
    · refine ⟨_, rfl, ?_⟩
      simpa [own, Ne.symm own, samplesOf] using decoded

end Remembers

/-- After any run the recognizer remembers what its pointers did since the last reset. -/
theorem remembers_performAll (b : Behavior EReal) (capacity : Nat)
    (ops : List (RecognizerOp EReal)) :
    ((ofBehavior b capacity).performAll ops).Remembers (heard b.pointers ops) := by
  induction ops using List.reverseRecOn with
  | nil => exact .ofBehavior b capacity
  | append_singleton ops op ih =>
    have pointers : ((ofBehavior b capacity).performAll ops).window.pointers = b.pointers :=
      (sameGesture_performAll _ ops).pointers.trans (pointers_ofBehavior b capacity)
    rw [performAll_concat]
    cases op with
    | observe observation =>
      cases observation with
      | touch s =>
        rw [perform_touch]
        by_cases accepted : s.pointer ∈ b.pointers
        · rw [RecognizerOp.heard_accepted ops accepted]
          exact ih.observeTouch (pointers ▸ accepted)
        · rw [RecognizerOp.heard_ignored ops accepted,
            observeTouch_of_ignored (pointers ▸ accepted)]
          exact ih
      | multiTouch frame =>
        rw [RecognizerOp.heard_silent b.pointers ops rfl rfl]
        exact ih
    | reset =>
      rw [RecognizerOp.heard_reset]
      exact ih.reset
    | translate d | translateModel d | moveModel p | setEmission emission
    | fit state samples weights | fitUniform state samples =>
      rw [RecognizerOp.heard_silent b.pointers ops rfl rfl]
      exact ih.of_eq rfl rfl rfl

/-- Frames, and samples of pointers that a behaviour does not listen to, may be left out of a
run. -/
theorem performAll_filter {r : Recognizer EReal} {pointers : List PointerId}
    (listens : r.window.pointers = pointers) (ops : List (RecognizerOp EReal)) :
    r.performAll (ops.filter (RecognizerOp.concerns pointers)) = r.performAll ops := by
  induction ops generalizing r with
  | nil => rfl
  | cons op ops ih =>
    have next : (r.perform op).window.pointers = pointers :=
      (r.sameGesture_perform op).pointers.trans listens
    by_cases concerned : op.concerns pointers = true
    · rw [List.filter_cons_of_pos concerned]
      exact ih next
    · rw [List.filter_cons_of_neg concerned, ih listens]
      have nothing : r.perform op = r := by
        cases op with
        | observe observation =>
          cases observation with
          | touch s =>
            rw [perform_touch, observeTouch_of_ignored]
            simpa [RecognizerOp.concerns, listens] using concerned
          | multiTouch frame => rfl
        | _ => exact absurd rfl concerned
      show r.performAll ops = (r.perform op).performAll ops
      rw [nothing]

/-- What a recognizer works out from a sample that it takes in: the likelihood of the behaviour is
the greatest of those of the lanes that are not empty. -/
theorem isGreatest_observeTouch {r : Recognizer EReal} {s : Sample EReal}
    (accepted : s.pointer ∈ r.window.pointers) (room : 0 < r.window.capacity)
    (tracked : r.tracks.map Track.pointer = r.window.pointers) :
    IsGreatest {l | ∃ p ∈ r.window.pointers, (r.observeTouch s).window.samples p ≠ [] ∧
        l = (r.observeTouch s).model.logLikelihood ((r.observeTouch s).window.samples p)}
      (r.observeTouch s).logLikelihood := by
  rw [observeTouch_window, observeTouch_model accepted]
  have greatest_eq := congrArg Prod.fst (observeTouch_dominant accepted)
  rw [Track.dominant_fst] at greatest_eq
  obtain ⟨likelihoods, listed⟩ : ∃ ls, ls = (((r.tracks.map fun t =>
      t.decode (r.anchor s).model ((r.window.push s).samples t.pointer)).filter
        fun t => !((r.window.push s).samples t.pointer).isEmpty).map Track.logLikelihood) :=
    ⟨_, rfl⟩
  have mem_iff (l : EReal) : l ∈ likelihoods ↔ ∃ p ∈ r.window.pointers,
      (r.window.push s).samples p ≠ [] ∧
        l = (r.anchor s).model.logLikelihood ((r.window.push s).samples p) := by
    rw [listed]
    constructor
    · intro member
      obtain ⟨t, kept, rfl⟩ := List.mem_map.1 member
      obtain ⟨source, nonempty⟩ := List.mem_filter.1 kept
      obtain ⟨u, original, rfl⟩ := List.mem_map.1 source
      rw [Track.decode_pointer] at nonempty
      refine ⟨u.pointer, tracked ▸ List.mem_map_of_mem original, by simpa using nonempty, ?_⟩
      rw [Track.decode_logLikelihood]
    · rintro ⟨p, listens, nonempty, rfl⟩
      rw [← tracked] at listens
      obtain ⟨u, original, rfl⟩ := List.mem_map.1 listens
      refine List.mem_map.2 ⟨_, List.mem_filter.2 ⟨List.mem_map_of_mem original, ?_⟩,
        Track.decode_logLikelihood _ _ _⟩
      simpa using nonempty
  rw [← listed] at greatest_eq
  obtain ⟨attained, bound⟩ := greatest_spec likelihoods
  rw [← greatest_eq] at attained bound
  refine ⟨?_, fun l member => bound l ((mem_iff l).2 member)⟩
  rcases attained with low | member
  · -- Nothing is likely at all, so the lane of the sample attains `-∞`.
    have own := (mem_iff _).2 ⟨s.pointer, accepted, Window.samples_push_ne_nil accepted room, rfl⟩
    have lowest := bound _ own
    refine ⟨s.pointer, accepted, Window.samples_push_ne_nil accepted room, ?_⟩
    rw [low] at lowest
    exact low.trans (le_bot_iff.1 lowest).symm
  · exact (mem_iff _).1 member

/-- What a recognizer knows after a sample that it takes in, whatever happened before, is what would
be computed at once: for each pointer, likelihood and path of the samples in its lane by the current
model, and the means of all its samples since the last reset; the greatest likelihood among the
lanes that are not empty; the times of the first and of the last sample since the last reset.
Frames, and samples of other pointers, might as well not have happened. -/
theorem observe_eq_batch (b : Behavior EReal) (capacity : Nat) (ops : List (RecognizerOp EReal))
    {s : Sample EReal} (accepted : s.pointer ∈ b.pointers) :
    let run := ops ++ [.observe (.touch s)]
    let r := (ofBehavior b capacity).performAll run
    (∀ p ∈ b.pointers, ∃ t, r.track? p = some t ∧
        t.logLikelihood = r.model.logLikelihood (r.window.samples p) ∧
        t.path = (r.model.mostLikelyPath (r.window.samples p)).map Fin.val ∧
        t.meanPressure = mean ((samplesOf p (heard b.pointers run)).map Sample.pressure) ∧
        t.meanSize = mean ((samplesOf p (heard b.pointers run)).map Sample.majorAxis)) ∧
      IsGreatest {l | ∃ p ∈ b.pointers, r.window.samples p ≠ [] ∧
        l = r.model.logLikelihood (r.window.samples p)} r.logLikelihood ∧
      r.firstTime = (heard b.pointers run).head?.map Sample.time ∧
      some r.lastTime = (heard b.pointers run).getLast?.map Sample.time ∧
      (ofBehavior b capacity).performAll (run.filter (RecognizerOp.concerns b.pointers)) = r := by
  intro run r
  have same := (ofBehavior b capacity).sameGesture_performAll ops
  have listens : ((ofBehavior b capacity).performAll ops).window.pointers = b.pointers :=
    same.pointers.trans (pointers_ofBehavior b capacity)
  obtain ⟨before, earlier⟩ : ∃ q, q = (ofBehavior b capacity).performAll ops := ⟨_, rfl⟩
  rw [← earlier] at same listens
  have last : r = before.observeTouch s := by
    rw [earlier]
    exact performAll_concat _ ops _
  have taken : s.pointer ∈ before.window.pointers := listens ▸ accepted
  have remembers := remembers_performAll b capacity run
  refine ⟨fun p listed => ?_, ?_, remembers.firstTime, ?_, ?_⟩
  · have listed : p ∈ r.window.pointers := by
      rw [last, (before.sameGesture_observeTouch s).pointers, listens]
      exact listed
    obtain ⟨t, found, averages⟩ := remembers.tracks p listed
    have decoded : t.logLikelihood = r.model.logLikelihood (r.window.samples p) ∧
        t.path = (r.model.mostLikelyPath (r.window.samples p)).map Fin.val := by
      have found : r.track? p = some t := found
      rw [last] at found ⊢
      exact observeTouch_decoded taken found
    exact ⟨t, found, decoded.1, decoded.2, averages.meanPressure, averages.meanSize⟩
  · rw [last, ← listens]
    refine isGreatest_observeTouch taken ?_ ?_
    · rw [same.capacity]
      exact Nat.lt_of_lt_of_le Nat.one_pos (Nat.le_max_right capacity 1)
    · rw [same.tracked, tracked_ofBehavior, listens]
  · rw [RecognizerOp.heard_accepted ops accepted, List.getLast?_concat, last,
      observeTouch_lastTime taken]
    rfl
  · exact performAll_filter (pointers_ofBehavior b capacity) run

/-- A gesture of one stop around the origin, for two pointers. -/
noncomputable def tapAtOrigin : Behavior EReal where
  label := "C"
  model := .single ⟨⟨0, 0⟩, ⟨⟨1, 0⟩, ⟨0, 1⟩⟩⟩
  pattern := ⟨[⟨true, true, []⟩], [[true]], []⟩
  origin := some ⟨0, 0⟩
  pointers := [0, 1]

/-- A press of a finger at the origin. -/
noncomputable def press (p : PointerId) (pressure : Nat) : Sample EReal :=
  ⟨.down, p, 0, ⟨0, 0⟩, ofNat pressure, 0, 0, 0, ⟨0, 0⟩⟩

/-- Two pointers whose lanes hold one sample: after a reset, the second press has the first one
leave the window, a frame and a third pointer do nothing. -/
noncomputable def pressesAfterReset : List (RecognizerOp EReal) :=
  [.observe (.touch (press 1 1)), .reset, .observe (.touch (press 0 2)),
    .observe (.touch (press 0 3)), .observe (.multiTouch ⟨0, []⟩), .observe (.touch (press 7 4))]

/-- The other pointer is then heard for the first time since the reset. -/
theorem observe_eq_batch_twoPointers :
    let run := pressesAfterReset ++ [.observe (.touch (press 1 5))]
    let r := (ofBehavior tapAtOrigin 1).performAll run
    (press 1 5).pointer ∈ tapAtOrigin.pointers ∧
      (∀ p ∈ tapAtOrigin.pointers, ∃ t, r.track? p = some t ∧
        t.logLikelihood = r.model.logLikelihood (r.window.samples p) ∧
        t.path = (r.model.mostLikelyPath (r.window.samples p)).map Fin.val ∧
        t.meanPressure =
          mean ((samplesOf p (heard tapAtOrigin.pointers run)).map Sample.pressure) ∧
        t.meanSize = mean ((samplesOf p (heard tapAtOrigin.pointers run)).map Sample.majorAxis)) ∧
      IsGreatest {l | ∃ p ∈ tapAtOrigin.pointers, r.window.samples p ≠ [] ∧
        l = r.model.logLikelihood (r.window.samples p)} r.logLikelihood ∧
      r.firstTime = (heard tapAtOrigin.pointers run).head?.map Sample.time ∧
      some r.lastTime = (heard tapAtOrigin.pointers run).getLast?.map Sample.time ∧
      (ofBehavior tapAtOrigin 1).performAll
        (run.filter (RecognizerOp.concerns tapAtOrigin.pointers)) = r := by
  have listens : (press 1 5).pointer ∈ tapAtOrigin.pointers :=
    List.mem_cons_of_mem _ (List.mem_singleton.2 rfl)
  exact ⟨listens, observe_eq_batch tapAtOrigin 1 pressesAfterReset listens⟩

end Recognizer

end TouchIntent
