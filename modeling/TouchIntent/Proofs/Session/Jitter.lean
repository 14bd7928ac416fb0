import Mathlib
import TouchIntent.Proofs.Gesture.Translation
import TouchIntent.Proofs.Recognizer.Batch
import TouchIntent.Proofs.Session.Dormant
import TouchIntent.Proofs.Session.Host

/-!
# Dropped samples

A session drops a move that hardly differs from the sample in the same place of the last batch of
which a sample was shown to the interactors. That batch is remembered as a whole, with the samples
of it that were dropped, so a pointer that rides along with another one can drift further from its
last shown sample with every batch, and if the batches list the pointers in a new order, places are
compared that belong to different pointers.

What holds is proved here: a dropped sample is near its place in the remembered batch. If the
batches line up, a pointer drifts by one threshold at most with every batch that is shown without
it, and not at all as long as it is shown with each of them: its samples are then only dropped
within one threshold.
-/

namespace TouchIntent

open Scalar

/-- The batch that an operation takes in. -/
def SessionOp.batch? {R : Type} : SessionOp R → Option (List (Sample R))
  | handle batch => some batch
  | handleEvent primary second =>
    some (primary :: if primary.kind = .move then second.toList else [])
  | mediate | advance _ | selfExcludeAfter _ _ | resetAll => none

/-- The samples that an operation takes in are at finite positions. -/
def SessionOp.IsFinite (op : SessionOp EReal) : Prop :=
  ∀ batch ∈ op.batch?, ∀ x ∈ batch, x.position.IsFinite

/-! ## Distances -/

/-- Between finite places the distance is that of the plane. -/
theorem Vec2.exact_distance (a b c d : ℝ) :
    (⟨a, b⟩ : Vec2 EReal).distance ⟨c, d⟩ = (dist (⟨a, b⟩ : ℂ) ⟨c, d⟩ : EReal) := by
  have square : ((a : EReal) - c) * (a - c) + (b - d) * (b - d) =
      (((a - c) ^ 2 + (b - d) ^ 2 : ℝ) : EReal) := by
    push_cast [sq]
    rfl
  rw [Complex.dist_eq_re_im]
  show ((√(((a : EReal) - c) * (a - c) + (b - d) * (b - d)).toReal : ℝ) : EReal) = _
  rw [square, EReal.toReal_coe]

theorem Vec2.IsFinite.exists_eq {v : Vec2 EReal} (finite : v.IsFinite) :
    ∃ a b : ℝ, v = ⟨a, b⟩ := by
  obtain ⟨x, y⟩ := v
  obtain ⟨a, rfl⟩ := exact_real_of_isFinite finite.x
  obtain ⟨b, rfl⟩ := exact_real_of_isFinite finite.y
  exact ⟨a, b, rfl⟩

theorem Vec2.IsFinite.distance_self {v : Vec2 EReal} (finite : v.IsFinite) :
    v.distance v = 0 := by
  obtain ⟨a, b, rfl⟩ := finite.exists_eq
  rw [Vec2.exact_distance, dist_self, EReal.coe_zero]

theorem Vec2.distance_triangle {u v w : Vec2 EReal} (hu : u.IsFinite) (hv : v.IsFinite)
    (hw : w.IsFinite) : u.distance w ≤ u.distance v + v.distance w := by
  obtain ⟨a, b, rfl⟩ := hu.exists_eq
  obtain ⟨c, d, rfl⟩ := hv.exists_eq
  obtain ⟨e, f, rfl⟩ := hw.exists_eq
  rw [Vec2.exact_distance, Vec2.exact_distance, Vec2.exact_distance, ← EReal.coe_add]
  exact EReal.coe_le_coe (dist_triangle _ _ _)

namespace Session

section Takings

variable {R ν : Type} [Scalar R]

/-! ## What is shown -/

/-- The samples that an operation shows to the interactors. -/
def taken (s : Session R ν) (op : SessionOp R) : List (Sample R) :=
  op.batch?.elim [] s.worthwhile

/-- The samples that a run shows to the interactors, operation by operation. -/
def takings (s : Session R ν) : List (SessionOp R) → List (List (Sample R))
  | [] => []
  | op :: ops => s.taken op :: (s.perform op).takings ops

/-- The samples that a run shows to the interactors. -/
def shown (s : Session R ν) (ops : List (SessionOp R)) : List (Sample R) := (s.takings ops).flatten

/-- The samples of a batch that are shown before it comes to a place. -/
def shownBefore (s : Session R ν) (batch : List (Sample R)) (place : Nat) : List (Sample R) :=
  ((batch.take place).zipIdx.filter fun (x, i) => !s.isJitter batch.length i x).map Prod.fst

/-- The last batch of which a run showed a sample. -/
def LastShown (s : Session R ν) (ops : List (SessionOp R)) (batch : List (Sample R)) : Prop :=
  ∃ earlier op later, ops = earlier ++ op :: later ∧ op.batch? = some batch ∧
    (s.performAll earlier).taken op ≠ [] ∧ (s.performAll (earlier ++ [op])).shown later = []

/-- The number of batches that were shown in part since a sample of the pointer was shown. -/
def staleness (s : Session R ν) (p : PointerId) (ops : List (SessionOp R)) : Nat :=
  (((s.takings ops).filter fun taken => !taken.isEmpty).rtakeWhile fun taken =>
    (samplesOf p taken).isEmpty).length

/-- A batch of as many samples as the remembered one lists the same pointers in the same order,
each of them once. -/
def Aligned (s : Session R ν) (batch : List (Sample R)) : Prop :=
  batch.length = s.previousBatch.length →
    batch.map Sample.pointer = s.previousBatch.map Sample.pointer ∧
      (batch.map Sample.pointer).Nodup

/-- Every batch of a run is aligned with the batch remembered. -/
def LinesUp (s : Session R ν) : List (SessionOp R) → Prop
  | [] => True
  | op :: ops => (∀ batch ∈ op.batch?, s.Aligned batch) ∧ (s.perform op).LinesUp ops

variable (s : Session R ν) (ops : List (SessionOp R)) (op : SessionOp R)

theorem takings_append (later : List (SessionOp R)) :
    s.takings (ops ++ later) = s.takings ops ++ (s.performAll ops).takings later := by
  induction ops generalizing s with
  | nil => rfl
  | cons op ops ih => exact congrArg (s.taken op :: ·) (ih (s.perform op))

theorem takings_concat :
    s.takings (ops ++ [op]) = s.takings ops ++ [(s.performAll ops).taken op] :=
  s.takings_append ops [op]

@[simp] theorem shown_concat :
    s.shown (ops ++ [op]) = s.shown ops ++ (s.performAll ops).taken op := by
  simp [shown, takings_concat]

theorem linesUp_concat : s.LinesUp (ops ++ [op]) ↔
    s.LinesUp ops ∧ ∀ batch ∈ op.batch?, (s.performAll ops).Aligned batch := by
  induction ops generalizing s with
  | nil => exact ⟨fun ⟨aligned, _⟩ => ⟨trivial, aligned⟩, fun ⟨_, aligned⟩ => ⟨aligned, trivial⟩⟩
  | cons first ops ih => exact (and_congr_right fun _ => ih (s.perform first)).trans and_assoc.symm

variable {s ops op} {p : PointerId}

theorem staleness_concat_nothing (nothing : (s.performAll ops).taken op = []) :
    s.staleness p (ops ++ [op]) = s.staleness p ops := by
  simp [staleness, takings_concat, nothing]

theorem staleness_concat_other (some : (s.performAll ops).taken op ≠ [])
    (other : samplesOf p ((s.performAll ops).taken op) = []) :
    s.staleness p (ops ++ [op]) = s.staleness p ops + 1 := by
  simp [staleness, takings_concat, some, other, List.rtakeWhile_concat_pos]

theorem staleness_concat_own (own : samplesOf p ((s.performAll ops).taken op) ≠ []) :
    s.staleness p (ops ++ [op]) = 0 := by
  have some : (s.performAll ops).taken op ≠ [] := fun nothing => own (by rw [nothing]; rfl)
  simp [staleness, takings_concat, some, own, List.rtakeWhile_concat_neg]

/-! ## What is remembered -/

theorem taken_of_batch {batch : List (Sample R)} (shows : op.batch? = some batch) :
    s.taken op = s.worthwhile batch := by
  rw [taken, shows]
  rfl

/-- Only batches show samples. -/
theorem exists_batch_of_taken (shown : s.taken op ≠ []) : ∃ batch, op.batch? = some batch := by
  refine Option.ne_none_iff_exists'.1 fun none => shown ?_
  rw [taken, none]
  rfl

theorem perform_of_batch {batch : List (Sample R)} (shows : op.batch? = some batch) :
    s.perform op = (s.handle batch).session := by
  cases op <;> cases shows <;> rfl

/-- A batch of which a sample is shown is remembered. -/
theorem previousBatch_of_taken {batch : List (Sample R)} (shows : op.batch? = some batch)
    (some : s.taken op ≠ []) : (s.perform op).previousBatch = batch := by
  rw [taken_of_batch shows] at some
  rw [perform_of_batch shows, handle_eq, if_neg (by simpa using some)]
  split
  · rfl
  · rw [mediate_previousBatch]
    rfl

/-- Without a sample shown, what was remembered stays, or is forgotten in a reset. -/
theorem previousBatch_of_nothing (nothing : s.taken op = []) :
    (s.perform op).previousBatch = s.previousBatch ∨ (s.perform op).previousBatch = [] := by
  have handles (batch : List (Sample R)) (dropped : s.worthwhile batch = []) :
      (s.handle batch).session.previousBatch = s.previousBatch := by
    rw [handle_eq, if_pos (by simp [dropped])]
  cases op with
  | handle batch => exact .inl (handles batch nothing)
  | handleEvent primary second => exact .inl (handles _ nothing)
  | mediate => exact .inl s.mediate_previousBatch
  | advance now =>
    obtain ⟨interactors, timedOut⟩ := s.exists_timeOut now
    rw [perform, advance_eq, timedOut]
    split
    · exact .inl rfl
    · rw [mediate_previousBatch]
      exact .inl rfl
  | selfExcludeAfter id delay =>
    rw [perform, selfExcludeAfter]
    cases s.interactor? id <;> exact .inl rfl
  | resetAll => exact .inr rfl

@[simp] theorem performAll_jitterThreshold :
    (s.performAll ops).jitterThreshold = s.jitterThreshold := by
  induction ops generalizing s with
  | nil => rfl
  | cons op ops ih => exact (ih (s := s.perform op)).trans (s.perform_jitterThreshold op)

/-- A remembered batch is the last one of which a sample was shown. -/
theorem lastShown_previousBatch (fresh : s.previousBatch = []) (ops : List (SessionOp R)) :
    (s.performAll ops).previousBatch = [] ∨ s.LastShown ops (s.performAll ops).previousBatch := by
  induction ops using List.reverseRecOn with
  | nil => exact .inl fresh
  | append_singleton ops op ih =>
    rw [performAll_concat]
    by_cases nothing : (s.performAll ops).taken op = []
    · rcases previousBatch_of_nothing nothing with same | forgotten
      · rw [same]
        refine ih.imp_right ?_
        rintro ⟨earlier, shower, later, rfl, shows, some, quiet⟩
        refine ⟨earlier, shower, later ++ [op], by simp, shows, some, ?_⟩
        rw [shown_concat, quiet]
        simpa [performAll] using nothing
      · exact .inl forgotten
    · obtain ⟨batch, shows⟩ := exists_batch_of_taken nothing
      rw [previousBatch_of_taken shows nothing]
      exact .inr ⟨ops, op, [], rfl, shows, nothing, rfl⟩

/-- What a dropped sample says of the batch that is remembered. -/
theorem isJitter_iff {size place : Nat} {x : Sample R} :
    s.isJitter size place x = true ↔ x.kind = .move ∧ size = s.previousBatch.length ∧
      ∃ y, s.previousBatch[place]? = some y ∧
        x.position.distance y.position ≤ s.jitterThreshold := by
  simp [isJitter, and_assoc, Option.any_eq_true]

theorem mem_worthwhile {batch : List (Sample R)} {x : Sample R} : x ∈ s.worthwhile batch ↔
    ∃ place, batch[place]? = some x ∧ s.isJitter batch.length place x = false := by
  simp [worthwhile, List.mem_zipIdx_iff_getElem?]

/-! ## Batches of distinct pointers -/

omit [Scalar R] in
theorem samplesOf_append (p : PointerId) (xs ys : List (Sample R)) :
    samplesOf p (xs ++ ys) = samplesOf p xs ++ samplesOf p ys :=
  List.filter_append xs ys

omit [Scalar R] in
/-- A batch of distinct pointers has one sample of each. -/
theorem place_unique {batch : List (Sample R)} (distinct : (batch.map Sample.pointer).Nodup)
    {i j : Nat} {x y : Sample R} (first : batch[i]? = some x) (second : batch[j]? = some y)
    (same : x.pointer = y.pointer) : i = j := by
  have within : i < (batch.map Sample.pointer).length := by
    rw [List.length_map]
    exact (List.getElem?_eq_some_iff.1 first).1
  refine (List.getElem?_inj within distinct).1 ?_
  rw [List.getElem?_map, List.getElem?_map, first, second, Option.map_some, Option.map_some, same]

/-- If the sample of a pointer is dropped, then none of that pointer is shown. -/
theorem samplesOf_worthwhile_dropped {batch : List (Sample R)} {i : Nat} {x : Sample R}
    (distinct : (batch.map Sample.pointer).Nodup) (place : batch[i]? = some x)
    (dropped : s.isJitter batch.length i x = true) :
    samplesOf x.pointer (s.worthwhile batch) = [] := by
  refine List.filter_eq_nil_iff.2 fun y shown same => ?_
  obtain ⟨j, there, kept⟩ := mem_worthwhile.1 shown
  obtain rfl := place_unique distinct place there (beq_iff_eq.1 same).symm
  obtain rfl := Option.some.inj (place.symm.trans there)
  rw [dropped] at kept
  cases kept

/-- If the sample of a pointer is shown, then it is the only one. -/
theorem samplesOf_worthwhile_shown {batch : List (Sample R)} {i : Nat} {x : Sample R}
    (distinct : (batch.map Sample.pointer).Nodup) (place : batch[i]? = some x)
    (kept : s.isJitter batch.length i x = false) :
    (samplesOf x.pointer (s.worthwhile batch)).getLast? = some x := by
  have own : x ∈ samplesOf x.pointer (s.worthwhile batch) :=
    List.mem_filter.2 ⟨mem_worthwhile.2 ⟨i, place, kept⟩, beq_self_eq_true _⟩
  have some := List.ne_nil_of_mem own
  have last := List.getLast_mem some
  obtain ⟨shown, same⟩ := List.mem_filter.1 last
  obtain ⟨j, there, -⟩ := mem_worthwhile.1 shown
  obtain rfl := place_unique distinct place there (beq_iff_eq.1 same).symm
  rw [List.getLast?_eq_some_getLast some]
  exact congrArg Option.some (Option.some.inj (there.symm.trans place))

/-- Before the place of a pointer a batch of distinct pointers shows no sample of it. -/
theorem samplesOf_shownBefore {batch : List (Sample R)} {i : Nat} {x : Sample R}
    (distinct : (batch.map Sample.pointer).Nodup) (place : batch[i]? = some x) :
    samplesOf x.pointer (s.shownBefore batch i) = [] := by
  refine List.filter_eq_nil_iff.2 fun y shown same => ?_
  obtain ⟨⟨y, j⟩, source, rfl⟩ := List.mem_map.1 shown
  have there := List.mem_zipIdx_iff_getElem?.1 (List.mem_filter.1 source).1
  obtain ⟨earlier, there⟩ : j < i ∧ batch[j]? = some y := by
    simpa [List.getElem?_take] using there
  exact absurd (place_unique distinct there place (beq_iff_eq.1 same)) earlier.ne

end Takings

/-! ## Drift -/

section Drift

variable {ν : Type} {s : Session EReal ν}

/-- A sample is within so many thresholds of the last shown sample of its pointer. -/
def Follows (s : Session EReal ν) (ops : List (SessionOp EReal)) (count : Nat)
    (x : Sample EReal) : Prop :=
  ∃ q, (samplesOf x.pointer (s.shown ops)).getLast? = some q ∧ q.position.IsFinite ∧
    x.position.distance q.position ≤ count • s.jitterThreshold

/-- A sample that is dropped drifts by one threshold more than the one remembered in its place. -/
theorem follows_of_dropped {ops : List (SessionOp EReal)} {batch : List (Sample EReal)} {i : Nat}
    {x : Sample EReal} (place : batch[i]? = some x) (finite : x.position.IsFinite)
    (aligned : (s.performAll ops).Aligned batch)
    (dropped : (s.performAll ops).isJitter batch.length i x = true)
    (remembered : ((s.performAll ops).previousBatch.map Sample.pointer).Nodup →
      ∀ y, (s.performAll ops).previousBatch[i]? = some y →
        y.position.IsFinite ∧ s.Follows ops (s.staleness y.pointer ops) y) :
    s.Follows ops (s.staleness x.pointer ops + 1) x := by
  obtain ⟨-, size, y, there, near⟩ := isJitter_iff.1 dropped
  obtain ⟨pointers, distinct⟩ := aligned size
  have same : y.pointer = x.pointer := by
    have entry := congrArg (·[i]?) pointers
    simpa [place, there] using entry.symm
  obtain ⟨finite', q, lastShown, placed, near'⟩ := remembered (pointers ▸ distinct) y there
  rw [same] at lastShown near'
  rw [performAll_jitterThreshold] at near
  refine ⟨q, lastShown, placed, ?_⟩
  calc x.position.distance q.position
      ≤ x.position.distance y.position + y.position.distance q.position :=
        Vec2.distance_triangle finite finite' placed
    _ ≤ s.jitterThreshold + s.staleness x.pointer ops • s.jitterThreshold := add_le_add near near'
    _ = (s.staleness x.pointer ops + 1) • s.jitterThreshold := (succ_nsmul' _ _).symm

/-- A sample that is shown is the last one of its pointer. -/
theorem follows_of_shown {ops : List (SessionOp EReal)} {op : SessionOp EReal}
    {batch : List (Sample EReal)} {i : Nat} {x : Sample EReal} (shows : op.batch? = some batch)
    (distinct : (batch.map Sample.pointer).Nodup) (place : batch[i]? = some x)
    (finite : x.position.IsFinite)
    (kept : (s.performAll ops).isJitter batch.length i x = false) :
    s.Follows (ops ++ [op]) (s.staleness x.pointer (ops ++ [op])) x := by
  have own := samplesOf_worthwhile_shown distinct place kept
  rw [← taken_of_batch shows] at own
  have some : samplesOf x.pointer ((s.performAll ops).taken op) ≠ [] := fun none => by
    rw [none] at own
    cases own
  refine ⟨x, ?_, finite, ?_⟩
  · rw [shown_concat, samplesOf_append, List.getLast?_append, own]
    rfl
  · rw [staleness_concat_own some, zero_nsmul, finite.distance_self]

/-- In a run that lines up, a remembered sample is as near to the last shown sample of its pointer
as the batches since then allow. -/
theorem follows_previousBatch (fresh : s.previousBatch = []) {ops : List (SessionOp EReal)}
    (finite : ∀ op ∈ ops, op.IsFinite) (aligned : s.LinesUp ops)
    (distinct : ((s.performAll ops).previousBatch.map Sample.pointer).Nodup) {i : Nat}
    {x : Sample EReal} (place : (s.performAll ops).previousBatch[i]? = some x) :
    x.position.IsFinite ∧ s.Follows ops (s.staleness x.pointer ops) x := by
  induction ops using List.reverseRecOn generalizing i x with
  | nil =>
    rw [show (s.performAll []).previousBatch = [] from fresh] at place
    cases place
  | append_singleton ops op ih =>
    obtain ⟨before, last⟩ := List.forall_mem_append.1 finite
    obtain ⟨aligned', lined⟩ := s.linesUp_concat ops op |>.1 aligned
    specialize ih before aligned'
    rw [performAll_concat] at distinct place
    by_cases nothing : (s.performAll ops).taken op = []
    · -- what was remembered stays, and the last shown samples with it
      rcases previousBatch_of_nothing nothing with same | forgotten
      · rw [same] at distinct place
        rw [Follows, shown_concat, nothing, List.append_nil, staleness_concat_nothing nothing]
        exact ih distinct place
      · rw [forgotten] at place
        cases place
    · obtain ⟨batch, shows⟩ := exists_batch_of_taken nothing
      rw [previousBatch_of_taken shows nothing] at distinct place
      have finite' : x.position.IsFinite :=
        last op (List.mem_singleton_self op) batch shows x (List.mem_of_getElem? place)
      refine ⟨finite', ?_⟩
      cases dropped : (s.performAll ops).isJitter batch.length i x with
      | false => exact follows_of_shown shows distinct place finite' dropped
      | true =>
        have other := samplesOf_worthwhile_dropped distinct place dropped
        rw [← taken_of_batch shows] at other
        rw [Follows, shown_concat, samplesOf_append, other, List.append_nil,
          staleness_concat_other nothing other]
        exact follows_of_dropped place finite' (lined batch shows) dropped
          fun distinct' y there => ih distinct' there

/-- A dropped sample is a move near the sample in its place of the last batch of which a sample was
shown. If the batches line up, then it is near the last shown sample of its pointer: within one
threshold, and one more for every batch that was shown in part since then. -/
theorem dropped_near_shown (fresh : s.previousBatch = []) {ops : List (SessionOp EReal)}
    {batch : List (Sample EReal)} {i : Nat} {x : Sample EReal} (place : batch[i]? = some x)
    (dropped : (s.performAll ops).isJitter batch.length i x = true) :
    x.kind = .move ∧
    (∃ last y, s.LastShown ops last ∧ last.length = batch.length ∧ last[i]? = some y ∧
      x.position.distance y.position ≤ s.jitterThreshold) ∧
    ((∀ op ∈ ops ++ [.handle batch], op.IsFinite) → s.LinesUp (ops ++ [.handle batch]) →
      ∃ q, (samplesOf x.pointer
          (s.shown ops ++ (s.performAll ops).shownBefore batch i)).getLast? = some q ∧
        x.position.distance q.position ≤
          (s.staleness x.pointer ops + 1) • s.jitterThreshold) := by
  obtain ⟨move, size, y, there, near⟩ := isJitter_iff.1 dropped
  rw [performAll_jitterThreshold] at near
  refine ⟨move, ?_, fun finite aligned => ?_⟩
  · rcases lastShown_previousBatch fresh ops with nothing | last
    · rw [nothing] at there
      cases there
    · exact ⟨_, y, last, size.symm, there, near⟩
  · obtain ⟨before, last⟩ := List.forall_mem_append.1 finite
    obtain ⟨aligned', lined⟩ := s.linesUp_concat ops _ |>.1 aligned
    have aligned'' := lined batch rfl
    have finite' : x.position.IsFinite :=
      last _ (List.mem_singleton_self _) batch rfl x (List.mem_of_getElem? place)
    obtain ⟨q, lastShown, -, near'⟩ := follows_of_dropped place finite' aligned'' dropped
      fun distinct y there => follows_previousBatch fresh before aligned' distinct there
    refine ⟨q, ?_, near'⟩
    rw [samplesOf_append, samplesOf_shownBefore (aligned'' size).2 place, List.append_nil]
    exact lastShown

end Drift

end Session

/-! ## A pointer that is carried along -/

namespace Drift

/-- A touch on the lower edge, so many hundredths of the width to the right. -/
noncomputable def touch (kind : EventKind) (pointer : PointerId) (hundredths : Nat) :
    Sample EReal :=
  { Twins.tap with kind, pointer, position := ⟨ratio hundredths 100, zero⟩ }

/-- Two pointers come down; the first one moves on, the second one hardly. -/
noncomputable def begun : List (SessionOp EReal) :=
  [.handle [touch .down 0 0, touch .down 1 50], .handle [touch .move 0 10, touch .move 1 51]]

/-- The pointers move on in the same way. -/
noncomputable def next : List (Sample EReal) := [touch .move 0 20, touch .move 1 52]

/-- Two pointers come down. -/
noncomputable def pressed : List (SessionOp EReal) :=
  [.handle [touch .down 0 0, touch .down 1 50]]

/-- The pointers have changed places. -/
noncomputable def crossed : List (Sample EReal) := [touch .move 1 0, touch .move 0 50]

variable {k k' : EventKind} {p p' : PointerId} {m n : Nat}

theorem exact_position (k : EventKind) (p : PointerId) (n : Nat) :
    (touch k p n).position = ⟨((n / 100 : ℝ) : EReal), ((0 : ℝ) : EReal)⟩ := by
  rw [touch, exact_ratio]
  simp

theorem isFinite_touch (k : EventKind) (p : PointerId) (n : Nat) :
    (touch k p n).position.IsFinite := by
  rw [exact_position]
  exact ⟨exact_isFinite_coe _, exact_isFinite_coe _⟩

theorem distance_touch : (touch k p m).position.distance (touch k' p' n).position =
    ((|(m : ℝ) - n| / 100 : ℝ) : EReal) := by
  have level : dist (⟨m / 100, 0⟩ : ℂ) ⟨n / 100, 0⟩ = |(m / 100 - n / 100 : ℝ)| :=
    Complex.dist_of_im_eq rfl
  rw [exact_position, exact_position, Vec2.exact_distance, level, ← sub_div, abs_div,
    abs_of_pos (show (0 : ℝ) < 100 by norm_num)]

/-- The default threshold is more than one hundredth, and less than two. -/
theorem near_iff : (touch k p m).position.distance (touch k' p' n).position ≤ ratio 1 80 ↔
    m ≤ n + 1 ∧ n ≤ m + 1 := by
  rw [distance_touch, exact_ratio, EReal.coe_le_coe_iff]
  constructor
  · intro near
    obtain ⟨above, below⟩ := abs_le.1 (show |(m : ℝ) - n| ≤ 5 / 4 by linarith)
    constructor <;> by_contra far
    · have apart : (n + 2 : ℝ) ≤ m := by exact_mod_cast Nat.not_le.1 far
      linarith
    · have apart : (m + 2 : ℝ) ≤ n := by exact_mod_cast Nat.not_le.1 far
      linarith
  · rintro ⟨above, below⟩
    have above' : (m : ℝ) ≤ n + 1 := by exact_mod_cast above
    have below' : (n : ℝ) ≤ m + 1 := by exact_mod_cast below
    have close := abs_le.2 ⟨show -1 ≤ (m : ℝ) - n by linarith, by linarith⟩
    linarith

/-- Whether a touch is dropped, by its place in the remembered batch. -/
theorem isJitter_touch {ν : Type} {s : Session EReal ν} (threshold : s.jitterThreshold = ratio 1 80)
    {i size : Nat} (there : s.previousBatch[i]? = some (touch k' p' n)) :
    s.isJitter size i (touch .move p m) =
      decide (size = s.previousBatch.length ∧ m ≤ n + 1 ∧ n ≤ m + 1) := by
  rw [Bool.eq_iff_iff, Session.isJitter_iff, decide_eq_true_eq, there, threshold]
  simp only [Option.some.injEq, exists_eq_left', near_iff]
  exact and_iff_right rfl

section Runs

variable {ν : Type} {s : Session EReal ν}

/-- Two pointers come down, and both are shown. -/
theorem perform_pressed (fresh : s.previousBatch = []) (x y : Sample EReal) :
    s.taken (.handle [x, y]) = [x, y] ∧ (s.perform (.handle [x, y])).previousBatch = [x, y] := by
  have shown : s.taken (.handle [x, y]) = [x, y] := by
    simp [Session.taken, SessionOp.batch?, Session.worthwhile, Session.isJitter, fresh]
  exact ⟨shown, Session.previousBatch_of_taken rfl (by simp [shown])⟩

/-- The second pointer is carried along by the first one. -/
theorem performAll_begun (fresh : s.previousBatch = [])
    (threshold : s.jitterThreshold = ratio 1 80) :
    s.takings begun = [[touch .down 0 0, touch .down 1 50], [touch .move 0 10]] ∧
      (s.performAll begun).previousBatch = [touch .move 0 10, touch .move 1 51] := by
  obtain ⟨shown, remembered⟩ := perform_pressed fresh (touch .down 0 0) (touch .down 1 50)
  obtain ⟨t, reached⟩ : ∃ t, t = s.perform (.handle [touch .down 0 0, touch .down 1 50]) :=
    ⟨_, rfl⟩
  rw [← reached] at remembered
  have threshold' : t.jitterThreshold = ratio 1 80 := by
    rw [reached, Session.perform_jitterThreshold, threshold]
  have first : t.isJitter 2 0 (touch .move 0 10) = false := by
    rw [isJitter_touch threshold' (by rw [remembered]; rfl), remembered]
    decide
  have second : t.isJitter 2 1 (touch .move 1 51) = true := by
    rw [isJitter_touch threshold' (by rw [remembered]; rfl), remembered]
    decide
  have moved : t.taken (.handle [touch .move 0 10, touch .move 1 51]) = [touch .move 0 10] := by
    simp [Session.taken, SessionOp.batch?, Session.worthwhile, first, second]
  refine ⟨?_, ?_⟩
  · rw [begun, Session.takings, Session.takings, shown, ← reached, moved]
    rfl
  · rw [begun, Session.performAll, List.foldl_cons, List.foldl_cons, List.foldl_nil, ← reached]
    exact Session.previousBatch_of_taken rfl (by simp [moved])

theorem isJitter_next (fresh : s.previousBatch = []) (threshold : s.jitterThreshold = ratio 1 80) :
    (s.performAll begun).isJitter next.length 1 (touch .move 1 52) = true := by
  have remembered := (performAll_begun fresh threshold).2
  rw [isJitter_touch (Session.performAll_jitterThreshold.trans threshold)
    (by rw [remembered]; rfl), remembered]
  decide

theorem isJitter_crossed (fresh : s.previousBatch = [])
    (threshold : s.jitterThreshold = ratio 1 80) :
    (s.performAll pressed).isJitter crossed.length 0 (touch .move 1 0) = true := by
  have remembered := (perform_pressed fresh (touch .down 0 0) (touch .down 1 50)).2
  rw [isJitter_touch (Session.performAll_jitterThreshold.trans threshold)
    (by rw [pressed, Session.performAll, List.foldl_cons, List.foldl_nil, remembered]; rfl),
    pressed, Session.performAll, List.foldl_cons, List.foldl_nil, remembered]
  decide

theorem lastShown_next (fresh : s.previousBatch = [])
    (threshold : s.jitterThreshold = ratio 1 80) :
    (samplesOf 1 (s.shown begun ++ (s.performAll begun).shownBefore next 1)).getLast? =
      some (touch .down 1 50) := by
  have before : samplesOf 1 ((s.performAll begun).shownBefore next 1) = [] :=
    Session.samplesOf_shownBefore (x := touch .move 1 52) (by decide) rfl
  rw [Session.samplesOf_append, before, Session.shown, (performAll_begun fresh threshold).1]
  rfl

theorem lastShown_crossed (fresh : s.previousBatch = []) :
    (samplesOf 1 (s.shown pressed ++ (s.performAll pressed).shownBefore crossed 0)).getLast? =
      some (touch .down 1 50) := by
  rw [Session.shown, pressed, Session.takings, Session.takings,
    (perform_pressed fresh (touch .down 0 0) (touch .down 1 50)).1]
  rfl

theorem linesUp_next (fresh : s.previousBatch = [])
    (threshold : s.jitterThreshold = ratio 1 80) : s.LinesUp (begun ++ [.handle next]) := by
  refine (s.linesUp_concat begun _).2 ⟨⟨?_, ?_, trivial⟩, ?_⟩
  · rintro batch ⟨⟩ size
    rw [fresh] at size
    cases size
  · rintro batch ⟨⟩ -
    rw [(perform_pressed fresh _ _).2]
    exact ⟨rfl, by decide⟩
  · rintro batch ⟨⟩ -
    rw [(performAll_begun fresh threshold).2]
    exact ⟨rfl, by decide⟩

theorem isFinite_next : ∀ op ∈ begun ++ [.handle next], op.IsFinite := by
  simp [begun, next, SessionOp.IsFinite, SessionOp.batch?, isFinite_touch]

/-- A session of the scene before its first batch. -/
theorem exists_fresh {ν : Type} : ∃ s : Session EReal ν,
    Session.ofScene .default Twins.alone = .ok s ∧ s.previousBatch = [] ∧
      s.jitterThreshold = ratio 1 80 := by
  obtain ⟨s, -, built, -⟩ := @Twins.ofScene_alone ν
  have bare := (Session.ofScene_interactors built).1
  refine ⟨s, built, ?_, ?_⟩ <;> rw [bare] <;> rfl

end Runs

end Drift

theorem dropped_near_shown_next : ∃ s : Session EReal Unit,
    Session.ofScene .default Twins.alone = .ok s ∧ s.previousBatch = [] ∧
      ∃ x, Drift.next[1]? = some x ∧
        (s.performAll Drift.begun).isJitter Drift.next.length 1 x = true ∧ x.kind = .move ∧
        (∃ last y, s.LastShown Drift.begun last ∧ last.length = Drift.next.length ∧
          last[1]? = some y ∧ x.position.distance y.position ≤ s.jitterThreshold) ∧
        (∀ op ∈ Drift.begun ++ [.handle Drift.next], op.IsFinite) ∧
        s.LinesUp (Drift.begun ++ [.handle Drift.next]) ∧
        ∃ q, (samplesOf x.pointer (s.shown Drift.begun ++
            (s.performAll Drift.begun).shownBefore Drift.next 1)).getLast? = some q ∧
          x.position.distance q.position ≤
            (s.staleness x.pointer Drift.begun + 1) • s.jitterThreshold := by
  obtain ⟨s, built, fresh, threshold⟩ := @Drift.exists_fresh Unit
  have dropped := Drift.isJitter_next fresh threshold
  have aligned := Drift.linesUp_next fresh threshold
  obtain ⟨move, last, near⟩ := Session.dropped_near_shown fresh rfl dropped
  exact ⟨s, built, fresh, _, rfl, dropped, move, last, Drift.isFinite_next, aligned,
    near Drift.isFinite_next aligned⟩

/-- Samples are dropped although the last shown sample of their pointer is far away: because the
sample that they are compared with was dropped itself, or because it is one of another pointer. -/
theorem jitter_far_from_shown : ∃ s : Session EReal Unit,
    Session.ofScene .default Twins.alone = .ok s ∧
      (∃ x q, Drift.next[1]? = some x ∧
        (s.performAll Drift.begun).isJitter Drift.next.length 1 x = true ∧
        (samplesOf x.pointer (s.shown Drift.begun ++
          (s.performAll Drift.begun).shownBefore Drift.next 1)).getLast? = some q ∧
        ¬ x.position.distance q.position ≤ s.jitterThreshold) ∧
      (∃ x q, Drift.crossed[0]? = some x ∧
        (s.performAll Drift.pressed).isJitter Drift.crossed.length 0 x = true ∧
        (samplesOf x.pointer (s.shown Drift.pressed ++
          (s.performAll Drift.pressed).shownBefore Drift.crossed 0)).getLast? = some q ∧
        ¬ x.position.distance q.position ≤ s.jitterThreshold) := by
  obtain ⟨s, built, fresh, threshold⟩ := @Drift.exists_fresh Unit
  refine ⟨s, built, ⟨Drift.touch .move 1 52, Drift.touch .down 1 50, rfl, ?_, ?_, ?_⟩,
    ⟨Drift.touch .move 1 0, Drift.touch .down 1 50, rfl, ?_, ?_, ?_⟩⟩
  · exact Drift.isJitter_next fresh threshold
  · exact Drift.lastShown_next fresh threshold
  · rw [threshold, Drift.near_iff]
    decide
  · exact Drift.isJitter_crossed fresh threshold
  · exact Drift.lastShown_crossed fresh
  · rw [threshold, Drift.near_iff]
    decide

end TouchIntent
