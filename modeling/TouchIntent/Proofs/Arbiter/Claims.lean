import TouchIntent.Proofs.Arbiter.Winner

/-!
# What settling a claim does to each contender

Claims are settled by changing contenders one id after another. As long as no id is shared, this is
to change each contender by itself: the winner is determined, whoever is to be excluded starts over,
and the others stay as they are.
-/

namespace TouchIntent.Arbiter

variable {R ν : Type} [Scalar R] {m : Round R ν}

/-- An id leads to its contender. -/
theorem findContender?_id {cs : List (Interactor R ν)} (ids : (cs.map Interactor.id).Nodup)
    {c : Interactor R ν} (member : c ∈ cs) : findContender? c.id cs = some c := by
  cases found : findContender? c.id cs with
  | none =>
    have absent := List.find?_eq_none.1 found c member
    simp at absent
  | some d =>
    obtain ⟨source, same⟩ := find_spec found
    rw [List.inj_on_of_nodup_map ids source member same]

/-- Who claims: the members of the pool whose standing says so. -/
theorem mem_claimers (ids : (m.contenders.map Interactor.id).Nodup) {c : Interactor R ν}
    (member : c ∈ m.contenders) :
    c.id ∈ claimers m ↔ c.id ∈ m.arbiter.candidates ∧ c.isClaiming = true := by
  rw [claimers, List.mem_filter, findContender?_id ids member, Option.any_some,
    Interactor.contender_isClaiming]

theorem excludeById_determined (m : Round R ν)
    (id : InteractorId) : (excludeById m id).outcome.determined = m.outcome.determined := by
  unfold excludeById
  split <;> rfl

theorem foldl_excludeById_determined (excluded : List InteractorId)
    (m : Round R ν) :
    (excluded.foldl excludeById m).outcome.determined = m.outcome.determined := by
  induction excluded generalizing m with
  | nil => rfl
  | cons id rest ih => rw [List.foldl_cons, ih, excludeById_determined]

/-- Excluding a list of ids excludes the contenders that have one of them. -/
theorem foldl_excludeById_contenders {excluded : List InteractorId} (distinct : excluded.Nodup)
    (ids : (m.contenders.map Interactor.id).Nodup) :
    (excluded.foldl excludeById m).contenders =
      m.contenders.map fun c => if c.id ∈ excluded then c.exclude.1 else c := by
  induction excluded generalizing m with
  | nil => simp
  | cons id rest ih =>
    obtain ⟨fresh, distinct⟩ := List.nodup_cons.1 distinct
    have contenders := excludeById_contenders ids id
    have ids' : ((excludeById m id).contenders.map Interactor.id).Nodup := by
      rw [contenders, map_id_map fun c => by split <;> rfl]
      exact ids
    rw [List.foldl_cons, ih distinct ids', contenders, List.map_map]
    refine List.map_congr_left fun c _ => ?_
    simp only [Function.comp_apply, List.mem_cons]
    by_cases same : c.id = id
    · simp [same, fresh]
    · simp [same]

/-- Whether an exclusion is reported: only of contenders that are candidates. -/
theorem contender_exclude_snd (c : Interactor R ν) : (Contender.exclude c).2 = c.isCandidate :=
  c.standing.leavesPool_exclude

/-- Excluding candidates reports every one of them, and nothing else. -/
theorem foldl_excludeById_outcome {excluded : List InteractorId} (distinct : excluded.Nodup)
    (ids : (m.contenders.map Interactor.id).Nodup)
    (candidates : ∀ id ∈ excluded, ∃ c ∈ m.contenders, c.id = id ∧ c.isCandidate = true) :
    (excluded.foldl excludeById m).outcome =
      { m.outcome with excluded := m.outcome.excluded ++ excluded } := by
  induction excluded generalizing m with
  | nil => simp
  | cons id rest ih =>
    obtain ⟨fresh, distinct⟩ := List.nodup_cons.1 distinct
    obtain ⟨c, member, same, busy⟩ := candidates id List.mem_cons_self
    have contenders := excludeById_contenders ids id
    have ids' : ((excludeById m id).contenders.map Interactor.id).Nodup := by
      rw [contenders, map_id_map fun c => by split <;> rfl]
      exact ids
    have outcome : (excludeById m id).outcome =
        { m.outcome with excluded := m.outcome.excluded ++ [id] } := by
      unfold excludeById
      rw [← same, findContender?_id ids member]
      simp only [contender_exclude_snd, busy, if_true]
    have remaining : ∀ other ∈ rest,
        ∃ d ∈ (excludeById m id).contenders, d.id = other ∧ d.isCandidate = true := by
      intro other later
      obtain ⟨d, source, rfl, waits⟩ := candidates other (List.mem_cons_of_mem _ later)
      have differs : d.id ≠ id := fun equal => fresh (equal ▸ later)
      refine ⟨d, ?_, rfl, waits⟩
      rw [contenders]
      exact List.mem_map.2 ⟨d, source, if_neg differs⟩
    rw [List.foldl_cons, ih distinct ids' remaining, outcome]
    simp

/-- A sole claim: whoever makes it is determined if it is awarded, and everyone else in the pool is
excluded. -/
theorem settleClaim_contenders (ids : (m.contenders.map Interactor.id).Nodup)
    (distinct : m.arbiter.candidates.Nodup) (claimer : InteractorId) :
    (settleClaim m claimer).contenders = m.contenders.map fun c =>
      if awards m claimer = true ∧ c.id = claimer then c.determine.1
      else if c.id ∈ m.arbiter.candidates then c.exclude.1 else c := by
  cases wins : awards m claimer with
  | false =>
    rw [settleClaim_eq_of_not_awards wins]
    simp only [Bool.false_eq_true, false_and, if_false]
    exact foldl_excludeById_contenders (m := { m with arbiter := m.arbiter.clear }) distinct ids
  | true =>
    have ids' : ((m.contenders.map fun c =>
        if c.id = claimer then c.determine.1 else c).map Interactor.id).Nodup := by
      rw [map_id_map fun c => by split <;> rfl]
      exact ids
    rw [settleClaim_eq_of_awards wins, modifyContender_eq_map ids]
    refine (foldl_excludeById_contenders (distinct.filter _) ids').trans ?_
    rw [List.map_map]
    refine List.map_congr_left fun c _ => ?_
    simp only [Function.comp_apply, List.mem_filter, bne_iff_ne, ne_eq, true_and]
    by_cases same : c.id = claimer
    · rw [if_pos same, if_pos same, if_neg fun excluded => excluded.2 same]
      rfl
    · simp [same]

theorem settleClaim_determined (m : Round R ν)
    (claimer : InteractorId) : (settleClaim m claimer).outcome.determined =
      if awards m claimer = true then some claimer else m.outcome.determined := by
  cases wins : awards m claimer with
  | false =>
    rw [settleClaim_eq_of_not_awards wins, foldl_excludeById_determined]
    rfl
  | true =>
    rw [settleClaim_eq_of_awards wins, foldl_excludeById_determined]
    rfl

/-- What settling a sole claim reports, if the pool consists of candidates. -/
theorem settleClaim_outcome (ids : (m.contenders.map Interactor.id).Nodup)
    (distinct : m.arbiter.candidates.Nodup)
    (candidates : ∀ id ∈ m.arbiter.candidates, ∃ c ∈ m.contenders, c.id = id ∧
      c.isCandidate = true) (claimer : InteractorId) :
    (settleClaim m claimer).outcome.promoted = m.outcome.promoted ∧
      (settleClaim m claimer).outcome.excluded = m.outcome.excluded ++
        if awards m claimer = true then m.arbiter.candidates.filter (· != claimer)
        else m.arbiter.candidates := by
  cases wins : awards m claimer with
  | false =>
    rw [settleClaim_eq_of_not_awards wins,
      foldl_excludeById_outcome (m := { m with arbiter := m.arbiter.clear }) distinct ids
        candidates]
    simp
  | true =>
    have ids' : ((m.contenders.map fun c =>
        if c.id = claimer then c.determine.1 else c).map Interactor.id).Nodup := by
      rw [map_id_map fun c => by split <;> rfl]
      exact ids
    rw [settleClaim_eq_of_awards wins, modifyContender_eq_map ids,
      foldl_excludeById_outcome (distinct.filter _) ids' ?_]
    · simp
    · intro id excluded
      obtain ⟨inPool, differs⟩ := List.mem_filter.1 excluded
      obtain ⟨c, member, rfl, busy⟩ := candidates id inPool
      have other : c.id ≠ claimer := by simpa using differs
      exact ⟨c, List.mem_map.2 ⟨c, member, if_neg other⟩, rfl, busy⟩

/-- Who wins when several claim: the best of the pool, if its evidence lies above the threshold. -/
def champion (a : Arbiter R) (best : Option (InteractorId × R)) : Option InteractorId :=
  (best.filter fun x => decide (a.threshold < x.2)).map Prod.fst

/-- Several claims: the champion is determined, and everyone else is excluded. -/
theorem settleClaims_contenders (m : Round R ν)
    (best : Option (InteractorId × R)) :
    (settleClaims m best).contenders = m.contenders.map fun c =>
      if m.arbiter.champion best = some c.id then c.determine.1 else c.exclude.1 := by
  simp only [settleClaims, List.map_map]
  refine List.map_congr_left fun c _ => ?_
  show (if m.arbiter.champion best = some c.id then (c.determine.1, false)
    else Contender.exclude c).1 = _
  split <;> rfl

/-- What settling several claims reports. -/
theorem settleClaims_excluded (m : Round R ν)
    (best : Option (InteractorId × R)) :
    (settleClaims m best).outcome.excluded = m.outcome.excluded ++
      (m.contenders.filter fun c =>
        decide (m.arbiter.champion best ≠ some c.id) && c.isCandidate).map Interactor.id := by
  show m.outcome.excluded ++ List.map _ (List.filter Prod.snd (m.contenders.map fun c =>
    if m.arbiter.champion best = some c.id then (c.determine.1, false)
    else Contender.exclude c)) = _
  congr 1
  have entered : (Prod.snd ∘ fun c : Interactor R ν =>
      if m.arbiter.champion best = some c.id then (c.determine.1, false)
      else Contender.exclude c) =
      fun c => decide (m.arbiter.champion best ≠ some c.id) && c.isCandidate := by
    funext c
    simp only [Function.comp_apply]
    split
    · next wins => simp [wins]
    · next lost => simp [lost, contender_exclude_snd]
  rw [List.filter_map, List.map_map, entered]
  refine List.map_congr_left fun c _ => ?_
  simp only [Function.comp_apply]
  split <;> rfl

theorem settleClaims_determined (m : Round R ν)
    (best : Option (InteractorId × R)) :
    (settleClaims m best).outcome.determined = m.arbiter.champion best := rfl

end TouchIntent.Arbiter
