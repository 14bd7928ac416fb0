import Mathlib.Data.List.DropRight
import TouchIntent.Proofs.Recognizer.Run

/-!
# Lanes that age together

Whatever a recognizer does with its window, a lane holds the most recent samples of its pointer, in
the order in which they came. Room is made by ageing: all lanes give up their oldest samples until
the lane of the new one fits. A lane outgrows the window by one sample at most, so that the lanes
age once or not at all.
-/

namespace TouchIntent.Window

variable {R : Type}

/-- What a recognizer does with its window. -/
inductive Op (R : Type) where
  | push (sample : Sample R)
  | clear

/-- The sample that an operation adds. -/
def Op.sample? : Op R → Option (Sample R)
  | push sample => some sample
  | clear => none

/-- The window after an operation. -/
def perform (w : Window R) : Op R → Window R
  | .push sample => w.push sample
  | .clear => w.clear

/-- The window after operations, one after the other. -/
def performAll (w : Window R) (ops : List (Op R)) : Window R := ops.foldl perform w

/-- The samples since the window was last cleared. -/
def sinceClear (ops : List (Op R)) : List (Sample R) :=
  (ops.rtakeWhile fun op => op.sample?.isSome).filterMap Op.sample?

/-- The window with a sample added, and no room made for it. -/
def add (w : Window R) (s : Sample R) : Window R := { w with lanes := addTo s w.lanes }

/-- The window when every lane that holds anything has given up its oldest sample. -/
def age (w : Window R) : Window R :=
  { w with lanes := w.lanes.map fun lane => { lane with samples := lane.samples.tail } }

variable {w : Window R} {s : Sample R} {p : PointerId} {pushed : List (Sample R)}
  {lane : Lane R} {lanes : List (Lane R)}

@[simp] theorem performAll_concat (w : Window R) (ops : List (Op R)) (op : Op R) :
    w.performAll (ops ++ [op]) = (w.performAll ops).perform op := by
  rw [performAll, List.foldl_append]
  rfl

@[simp] theorem sinceClear_push (ops : List (Op R)) (s : Sample R) :
    sinceClear (ops ++ [.push s]) = sinceClear ops ++ [s] := by
  rw [sinceClear, List.rtakeWhile_concat_pos _ _ _ rfl, List.filterMap_append, sinceClear]
  rfl

@[simp] theorem sinceClear_clear (ops : List (Op R)) : sinceClear (ops ++ [.clear]) = [] := by
  rw [sinceClear, List.rtakeWhile_concat_neg _ _ _ (by simp [Op.sample?])]
  rfl

/-! ## Making room -/

@[simp] theorem samples_add (accepted : s.pointer ∈ w.pointers) :
    (w.add s).samples s.pointer = w.samples s.pointer ++ [s] := by
  rw [samples, add, find?_addTo, samples]
  cases found : w.lanes.find? fun lane => lane.pointer == s.pointer with
  | none =>
    obtain ⟨lane, member, same⟩ := List.mem_map.1 accepted
    exact absurd (beq_iff_eq.2 same) (List.find?_eq_none.1 found lane member)
  | some lane => simp

@[simp] theorem samples_age : w.age.samples p = (w.samples p).tail := by
  rw [samples, age, List.find?_map, samples]
  simp only [Function.comp_def]
  cases w.lanes.find? fun lane => lane.pointer == p <;> rfl

/-- The window when its lanes have aged until the lane of a pointer fits. -/
def settle (w : Window R) (p : PointerId) : Window R :=
  if w.capacity < (w.samples p).length then w.age.settle p else w
termination_by (w.samples p).length
decreasing_by
  rw [samples_age, List.length_tail]
  omega

/-- As long as a lane does not fit, every lane gives up a sample. -/
theorem settle_eq (w : Window R) (p : PointerId) : w.settle p = { w with
    lanes := w.lanes.map fun lane =>
      { lane with samples := lane.samples.drop ((w.samples p).length - w.capacity) } } := by
  fun_induction settle w p with
  | case1 w outgrown ih =>
    have count : (w.age.samples p).length - w.age.capacity + 1 =
        (w.samples p).length - w.capacity := by
      rw [samples_age, List.length_tail]
      show (w.samples p).length - 1 - w.capacity + 1 = _
      omega
    rw [ih, ← count]
    simp [age]
  | case2 w fits =>
    rw [Nat.sub_eq_zero_of_le (Nat.le_of_not_lt fits)]
    simp

/-- A push adds the sample and makes room for it. -/
theorem push_eq_settle (accepted : s.pointer ∈ w.pointers) :
    w.push s = (w.add s).settle s.pointer := by
  rw [push, if_pos (accepts_iff.2 accepted), settle_eq, samples_add accepted, List.length_append]
  rfl

theorem push_eq_self (rejected : s.pointer ∉ w.pointers) : w.push s = w :=
  if_neg fun accepted => rejected (accepts_iff.1 accepted)

/-! ## What a window holds -/

/-- Every lane holds the most recent of these samples that are its pointer's, and fits. If a pointer
has several lanes, only the first of them holds anything. -/
structure IsRecent (w : Window R) (pushed : List (Sample R)) : Prop where
  suffix : ∀ lane ∈ w.lanes, lane.samples <:+ pushed.filter fun s => s.pointer == lane.pointer
  fits : ∀ lane ∈ w.lanes, lane.samples.length ≤ w.capacity
  single : w.lanes.Pairwise fun l l' => l.pointer = l'.pointer → l'.samples = []

/-- Where only the first lane of a pointer holds anything, adding a sample leaves a lane as it is,
which is empty if it is one of the sample's pointer, or adds the sample to the first lane. -/
theorem mem_addTo_cases
    (single : lanes.Pairwise fun l l' => l.pointer = l'.pointer → l'.samples = [])
    (member : lane ∈ addTo s lanes) :
    (lane ∈ lanes ∧ (lane.pointer = s.pointer → lane.samples = [])) ∨
      ∃ before, lanes.find? (fun lane => lane.pointer == s.pointer) = some before ∧
        lane = { before with samples := before.samples ++ [s] } := by
  induction lanes with
  | nil => cases member
  | cons first others ih =>
    obtain ⟨firstOnly, single⟩ := List.pairwise_cons.1 single
    rw [addTo] at member
    by_cases own : first.pointer = s.pointer
    · rw [if_pos own] at member
      rcases List.mem_cons.1 member with rfl | member
      · exact .inr ⟨first, List.find?_cons_of_pos (beq_iff_eq.2 own), rfl⟩
      · exact .inl ⟨List.mem_cons_of_mem _ member,
          fun same => firstOnly lane member (own.trans same.symm)⟩
    · rw [if_neg own] at member
      rcases List.mem_cons.1 member with rfl | member
      · exact .inl ⟨List.mem_cons_self, fun same => absurd same own⟩
      · rcases ih single member with ⟨source, empty⟩ | ⟨before, found, same⟩
        · exact .inl ⟨List.mem_cons_of_mem _ source, empty⟩
        · exact .inr ⟨before, (List.find?_cons_of_neg (by simpa using own)).trans found, same⟩

theorem pairwise_addTo
    (single : lanes.Pairwise fun l l' => l.pointer = l'.pointer → l'.samples = []) :
    (addTo s lanes).Pairwise fun l l' => l.pointer = l'.pointer → l'.samples = [] := by
  induction lanes with
  | nil => exact .nil
  | cons first others ih =>
    obtain ⟨firstOnly, others⟩ := List.pairwise_cons.1 single
    rw [addTo]
    by_cases own : first.pointer = s.pointer
    · rw [if_pos own]
      exact .cons firstOnly others
    · rw [if_neg own]
      refine .cons (fun lane member same => ?_) (ih others)
      rcases mem_addTo_cases others member with ⟨source, -⟩ | ⟨before, found, rfl⟩
      · exact firstOnly lane source same
      · have pointer : before.pointer = s.pointer := by simpa using List.find?_some found
        exact absurd (same.trans pointer) own

namespace IsRecent

/-- An empty window holds all of nothing. -/
theorem of_empty (none : ∀ lane ∈ w.lanes, lane.samples = []) : w.IsRecent [] := by
  refine ⟨fun lane member => ?_, fun lane member => ?_, ?_⟩
  · rw [none lane member]
    exact List.nil_suffix
  · rw [none lane member]
    exact Nat.zero_le _
  · exact List.pairwise_of_forall_mem_list fun _ _ lane member _ => none lane member

theorem empty (pointers : List PointerId) (capacity : Nat) :
    (Window.empty pointers capacity : Window R).IsRecent [] := by
  refine of_empty fun lane member => ?_
  obtain ⟨p, -, rfl⟩ := List.mem_map.1 member
  rfl

theorem clear (w : Window R) : w.clear.IsRecent [] := by
  refine of_empty fun lane member => ?_
  obtain ⟨before, -, rfl⟩ := List.mem_map.1 member
  rfl

/-- No lane has to hold a sample of another pointer. -/
theorem ignore (recent : w.IsRecent pushed) (rejected : s.pointer ∉ w.pointers) :
    w.IsRecent (pushed ++ [s]) where
  suffix lane member := by
    have other : s.pointer ≠ lane.pointer := fun same =>
      rejected (same ▸ List.mem_map_of_mem member)
    simpa [other] using recent.suffix lane member
  fits := recent.fits
  single := recent.single

/-- An added sample becomes the most recent one of its lane. -/
theorem suffix_addTo (recent : w.IsRecent pushed) (added : lane ∈ addTo s w.lanes) :
    lane.samples <:+ (pushed ++ [s]).filter fun s => s.pointer == lane.pointer := by
  rw [List.filter_append]
  rcases mem_addTo_cases recent.single added with ⟨source, empty⟩ | ⟨before, found, rfl⟩
  · by_cases own : lane.pointer = s.pointer
    · rw [empty own]
      exact List.nil_suffix
    · have other : [s].filter (fun s => s.pointer == lane.pointer) = [] := by
        simpa using Ne.symm own
      rw [other, List.append_nil]
      exact recent.suffix lane source
  · have pointer : before.pointer = s.pointer := by simpa using List.find?_some found
    obtain ⟨older, same⟩ := recent.suffix before (List.mem_of_find?_eq_some found)
    refine ⟨older, ?_⟩
    rw [← List.append_assoc, same]
    simp [pointer]

/-- An added sample makes its lane one sample longer, and no other. -/
theorem length_addTo_le (recent : w.IsRecent pushed) (added : lane ∈ addTo s w.lanes) :
    lane.samples.length ≤ max w.capacity ((w.samples s.pointer).length + 1) := by
  rcases mem_addTo_cases recent.single added with ⟨source, -⟩ | ⟨before, found, rfl⟩
  · exact (recent.fits lane source).trans (Nat.le_max_left _ _)
  · have held : w.samples s.pointer = before.samples := by
      rw [samples, found]
      rfl
    rw [held, List.length_append]
    exact Nat.le_max_right _ _

/-- A push keeps the window recent: it adds the sample, and every lane gives up what is too much for
the lane of the new one. -/
theorem push (recent : w.IsRecent pushed) (accepted : s.pointer ∈ w.pointers) :
    (w.push s).IsRecent (pushed ++ [s]) := by
  obtain ⟨excess, counted⟩ : ∃ excess, excess = (w.samples s.pointer).length + 1 - w.capacity :=
    ⟨_, rfl⟩
  have lanes : (w.push s).lanes = (addTo s w.lanes).map fun lane =>
      { lane with samples := lane.samples.drop excess } := by
    rw [Window.push, if_pos (accepts_iff.2 accepted), counted]
  refine ⟨fun lane member => ?_, fun lane member => ?_, ?_⟩
  · rw [lanes] at member
    obtain ⟨aged, added, rfl⟩ := List.mem_map.1 member
    exact (List.drop_suffix _ _).trans (recent.suffix_addTo added)
  · rw [lanes] at member
    obtain ⟨aged, added, rfl⟩ := List.mem_map.1 member
    have length := recent.length_addTo_le added
    rw [capacity_push, List.length_drop]
    omega
  · rw [lanes, List.pairwise_map]
    exact (pairwise_addTo recent.single).imp fun alike same => by
      rw [alike same, List.drop_nil]

theorem performAll (pointers : List PointerId) (capacity : Nat) (ops : List (Op R)) :
    ((Window.empty pointers capacity).performAll ops).IsRecent (sinceClear ops) ∧
      ((Window.empty pointers capacity).performAll ops).pointers = pointers ∧
      ((Window.empty pointers capacity).performAll ops).capacity = max capacity 1 := by
  induction ops using List.reverseRecOn with
  | nil => exact ⟨.empty pointers capacity, pointers_empty pointers capacity, rfl⟩
  | append_singleton ops op ih =>
    obtain ⟨recent, listens, room⟩ := ih
    rw [performAll_concat]
    cases op with
    | push s =>
      refine ⟨?_, pointers_push.trans listens, capacity_push.trans room⟩
      rw [sinceClear_push]
      by_cases accepted : s.pointer ∈ ((Window.empty pointers capacity).performAll ops).pointers
      · exact recent.push accepted
      · rw [perform, push_eq_self accepted]
        exact recent.ignore accepted
    | clear =>
      rw [sinceClear_clear]
      exact ⟨.clear _, pointers_clear.trans listens, room⟩

end IsRecent

/-- Whatever is done with a window, it keeps its lanes; each holds, in their order, the most recent
samples of its pointer since the window was cleared, and no more than the window has room for; only
the first lane of a pointer holds anything. A sample of another pointer changes nothing. Any other
becomes the last one of its lane, and the lanes age until this lane fits: if it was full they all
give up their oldest sample, once, and otherwise they keep what they hold. -/
theorem lanes_hold_recent (pointers : List PointerId) (capacity : Nat) (ops : List (Op R)) :
    let w := (empty pointers capacity).performAll ops
    w.pointers = pointers ∧
    (∀ lane ∈ w.lanes,
      lane.samples <:+ (sinceClear ops).filter (fun s => s.pointer == lane.pointer) ∧
        lane.samples.length ≤ max capacity 1) ∧
    w.lanes.Pairwise (fun l l' => l.pointer = l'.pointer → l'.samples = []) ∧
    ∀ s : Sample R, (s.pointer ∉ pointers → w.push s = w) ∧
      (s.pointer ∈ pointers →
        ((w.push s).samples s.pointer).getLast? = some s ∧
        w.push s = (w.add s).settle s.pointer ∧
        (w.add s).settle s.pointer =
          if (w.samples s.pointer).length = max capacity 1 then (w.add s).age else w.add s) := by
  intro w
  obtain ⟨recent, listens, room⟩ := IsRecent.performAll pointers capacity ops
  refine ⟨listens, fun lane member => ⟨recent.suffix lane member, room ▸ recent.fits lane member⟩,
    recent.single, fun s => ⟨fun rejected => push_eq_self (listens ▸ rejected), fun accepted => ?_⟩⟩
  rw [← listens] at accepted
  have fits : (w.samples s.pointer).length ≤ max capacity 1 := by
    rw [samples]
    cases found : w.lanes.find? fun lane => lane.pointer == s.pointer with
    | none => exact Nat.zero_le _
    | some lane => exact room ▸ recent.fits lane (List.mem_of_find?_eq_some found)
  have added : ((w.add s).samples s.pointer).length = (w.samples s.pointer).length + 1 := by
    rw [samples_add accepted, List.length_append, List.length_singleton]
  have limit : (w.add s).capacity = max capacity 1 := room
  refine ⟨?_, push_eq_settle accepted, ?_⟩
  · rw [samples_push accepted, if_pos rfl, List.getLast?_drop, if_neg, List.getLast?_concat]
    rw [List.length_append, List.length_singleton, room]
    omega
  · rw [settle, limit, added]
    by_cases full : (w.samples s.pointer).length = max capacity 1
    · -- Having aged once, the lane fits.
      have aged : ((w.add s).age.samples s.pointer).length = (w.samples s.pointer).length := by
        rw [samples_age, List.length_tail, added, Nat.add_sub_cancel]
      have limit' : (w.add s).age.capacity = max capacity 1 := room
      rw [if_pos (by omega), if_pos full, settle, limit', aged, if_neg (by omega)]
    · rw [if_neg (by omega), if_neg full]

end TouchIntent.Window
