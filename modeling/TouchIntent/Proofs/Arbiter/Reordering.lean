import Mathlib
import TouchIntent.Proofs.Arbiter.Contest
import TouchIntent.Proofs.Numeric.LogTotal

/-!
# Interactors in another order

What if the elements of the screen had been registered in another order, and so under other ids? A
round of mediation goes through them in the order of registration and through the pool in the order
of promotion, but what it does to each depends on the others through the pool and through the best
of the pool only. Up to ids and order it comes to the same, unless two contestants tie for the
greatest evidence: then the one registered first counts as the best.
-/

namespace TouchIntent

variable {R ν : Type}

namespace Interactor

section Reading

variable (rename : InteractorId → InteractorId) (a : Interactor R ν)

/-- The same element, registered under another id. -/
def renamed : Interactor R ν := { a with id := rename a.id }

@[simp] theorem renamed_id : (a.renamed rename).id = rename a.id := rfl

@[simp] theorem renamed_isCandidate : (a.renamed rename).isCandidate = a.isCandidate := rfl

@[simp] theorem renamed_hasSelfExcluded :
    (a.renamed rename).hasSelfExcluded = a.hasSelfExcluded := rfl

end Reading

section Changing

variable [Scalar R] (rename : InteractorId → InteractorId) (a : Interactor R ν)

theorem granted_renamed : (a.renamed rename).granted = a.granted.renamed rename := by
  by_cases change : (a.apply .grantSelfExclusion).2.isChange = true
  · have change' : ((a.renamed rename).apply .grantSelfExclusion).2.isChange = true := change
    simp only [granted, grantSelfExclusion, change, change', if_true]
    rfl
  · have change' : ¬ ((a.renamed rename).apply .grantSelfExclusion).2.isChange = true := change
    simp only [granted, grantSelfExclusion, change, change']
    rfl

/-- Rules do not ask for the id of their element. -/
theorem afterRules_renamed : (a.renamed rename).afterRules = a.afterRules.renamed rename := by
  have book : ((a.renamed rename).rulebook.update (a.renamed rename).views) =
      a.rulebook.update a.views := rfl
  have rule : (a.renamed rename).claimRule = a.claimRule := rfl
  unfold afterRules updateRules
  simp only [book, rule]
  split <;> rfl

end Changing

end Interactor

namespace Arbiter

section Rounds

variable [Scalar R] {rename : InteractorId → InteractorId}

@[simp] theorem evidenceOf_renamed (c : Interactor R ν) :
    evidenceOf (c.renamed rename) = evidenceOf c := rfl

/-- The same contenders and the same pool, in any order and with other ids. -/
structure Reordered (rename : InteractorId → InteractorId) (a : Arbiter R)
    (cs : List (Interactor R ν)) (a' : Arbiter R) (cs' : List (Interactor R ν)) : Prop where
  threshold : a'.threshold = a.threshold
  pool : a'.candidates.Perm (a.candidates.map rename)
  contenders : cs'.Perm (cs.map (Interactor.renamed rename))

/-- Two rounds of mediation that have decided the same. -/
structure SameRound (rename : InteractorId → InteractorId)
    (m m' : Round R ν) : Prop
    extends Reordered rename m.arbiter m.contenders m'.arbiter m'.contenders where
  determined : m'.outcome.determined = m.outcome.determined.map rename
  excluded : m'.outcome.excluded.Perm (m.outcome.excluded.map rename)
  promoted : m'.outcome.promoted.Perm (m.outcome.promoted.map rename)
  reports : m'.reports.Perm m.reports

variable {a a' : Arbiter R} {cs cs' : List (Interactor R ν)}
  {m m' : Round R ν}

/-! ## What is read off -/

namespace Reordered

variable (reordered : Reordered rename a cs a' cs')
include reordered

omit [Scalar R] in
/-- Contenders that are all changed in the same way. -/
theorem map_contenders {β γ : Type} {read : Interactor R ν → β} {read' : Interactor R ν → γ}
    {translate : β → γ} (same : ∀ c ∈ cs, read' (c.renamed rename) = translate (read c)) :
    (cs'.map read').Perm ((cs.map read).map translate) := by
  refine (reordered.contenders.map read').trans (.of_eq ?_)
  rw [List.map_map, List.map_map]
  exact List.map_congr_left same

omit [Scalar R] in
theorem mem_contenders {c : Interactor R ν} (member : c ∈ cs) : c.renamed rename ∈ cs' :=
  reordered.contenders.mem_iff.2 (List.mem_map_of_mem member)

omit [Scalar R] in
theorem exists_contender {c' : Interactor R ν} (member : c' ∈ cs') :
    ∃ c ∈ cs, c.renamed rename = c' := List.mem_map.1 (reordered.contenders.mem_iff.1 member)

variable (injective : Function.Injective rename)
include injective

omit [Scalar R] in
theorem mem_pool {id : InteractorId} : rename id ∈ a'.candidates ↔ id ∈ a.candidates :=
  reordered.pool.mem_iff.trans (List.mem_map_of_injective injective)

omit [Scalar R] in
theorem ids (ids : (cs.map Interactor.id).Nodup) : (cs'.map Interactor.id).Nodup := by
  have renamed : (cs'.map Interactor.id).Perm ((cs.map Interactor.id).map rename) :=
    reordered.map_contenders fun _ _ => rfl
  exact renamed.nodup_iff.2 (ids.map injective)

omit [Scalar R] in
theorem distinct (distinct : a.candidates.Nodup) : a'.candidates.Nodup :=
  reordered.pool.nodup_iff.2 (distinct.map injective)

/-- A new id leads to whoever had the old one. -/
theorem findContender?_rename (distinct : (cs.map Interactor.id).Nodup) (id : InteractorId) :
    findContender? (rename id) cs' = (findContender? id cs).map (Interactor.renamed rename) := by
  cases found : findContender? id cs with
  | some c =>
    obtain ⟨member, rfl⟩ := find_spec found
    exact findContender?_id (reordered.ids injective distinct) (reordered.mem_contenders member)
  | none =>
    refine List.find?_eq_none.2 fun c' member same => ?_
    obtain ⟨c, source, rfl⟩ := reordered.exists_contender member
    have absent := List.find?_eq_none.1 found c source
    rw [Interactor.contender_id, Interactor.renamed_id, beq_iff_eq] at same
    exact absent (beq_iff_eq.2 (injective same))

end Reordered

/-! ## Refreshing the pool -/

/-- The same appraisal, of an element that is registered under another id. -/
def renamedAppraisal (rename : InteractorId → InteractorId) (x : Appraisal R (Interactor R ν)) :
    Appraisal R (Interactor R ν) := { x with contender := x.contender.renamed rename }

theorem Reordered.appraisal (reordered : Reordered rename a cs a' cs')
    (injective : Function.Injective rename) (grants : Bool) (c : Interactor R ν) :
    a'.appraisal grants (c.renamed rename) = renamedAppraisal rename (a.appraisal grants c) := by
  have pooled : (c.renamed rename).id ∈ a'.candidates ↔ c.id ∈ a.candidates :=
    reordered.mem_pool injective
  rw [Arbiter.appraisal_eq, Arbiter.appraisal_eq]
  simp only [evidenceOf_renamed, Interactor.renamed_isCandidate,
    Interactor.renamed_hasSelfExcluded, Interactor.granted_renamed, pooled, reordered.threshold]
  split_ifs <;> rfl

/-- Whoever leaves and joins a pool, its order is that of joining; but who is in it is not a matter
of order. -/
theorem perm_updatePool (injective : Function.Injective rename)
    {pool leaving joining pool' leaving' joining' : List InteractorId} (distinct : pool.Nodup)
    (pools : pool'.Perm (pool.map rename)) (leave : leaving'.Perm (leaving.map rename))
    (join : joining'.Perm (joining.map rename)) :
    (updatePool pool' leaving' joining').Perm ((updatePool pool leaving joining).map rename) := by
  have distinct' := pools.nodup_iff.2 (distinct.map injective)
  refine (List.perm_ext_iff_of_nodup (nodup_updatePool distinct' _ _)
    ((nodup_updatePool distinct _ _).map injective)).2 fun id => ?_
  rw [mem_updatePool, pools.mem_iff, leave.mem_iff, join.mem_iff]
  constructor
  · rintro (⟨stays, goes⟩ | joins)
    · obtain ⟨old, inPool, rfl⟩ := List.mem_map.1 stays
      rw [List.mem_map_of_injective injective] at goes
      exact List.mem_map_of_mem (mem_updatePool.2 (.inl ⟨inPool, goes⟩))
    · obtain ⟨old, joined, rfl⟩ := List.mem_map.1 joins
      exact List.mem_map_of_mem (mem_updatePool.2 (.inr joined))
  · intro updated
    obtain ⟨old, member, rfl⟩ := List.mem_map.1 updated
    simp only [List.mem_map_of_injective injective]
    exact mem_updatePool.1 member

theorem SameRound.appraisals (same : SameRound rename m m') (injective : Function.Injective rename)
    (grants : Bool) : (m'.contenders.map (m'.arbiter.appraisal grants)).Perm
      ((m.contenders.map (m.arbiter.appraisal grants)).map (renamedAppraisal rename)) :=
  same.map_contenders fun c _ => same.toReordered.appraisal injective grants c

theorem SameRound.verdictIds (same : SameRound rename m m') (injective : Function.Injective rename)
    (grants : Bool) (p : Verdict → Bool) :
    (verdictIds grants m' p).Perm ((verdictIds grants m p).map rename) := by
  refine (((same.appraisals injective grants).filter _).map _).trans (.of_eq ?_)
  rw [List.filter_map, List.map_map, Arbiter.verdictIds, List.map_map]
  rfl

/-- Refreshing the pool passes the same verdicts. -/
theorem SameRound.refresh (same : SameRound rename m m') (injective : Function.Injective rename)
    (distinct : m.arbiter.candidates.Nodup) (grants : Bool) :
    SameRound rename (Arbiter.refresh grants m).1 (Arbiter.refresh grants m').1 where
  threshold := same.threshold
  pool := by
    rw [refresh_candidates, refresh_candidates]
    exact perm_updatePool injective distinct same.pool
      (same.verdictIds injective grants Verdict.leavesPool)
      (same.verdictIds injective grants (· == .promoted))
  contenders := by
    rw [refresh_contenders, refresh_contenders]
    refine same.map_contenders fun c _ => ?_
    rw [same.toReordered.appraisal injective]
    rfl
  determined := same.determined
  excluded := by
    rw [refresh_excluded, refresh_excluded, List.map_append]
    exact same.excluded.append (same.verdictIds injective grants _)
  promoted := by
    rw [refresh_promoted, refresh_promoted, List.map_append]
    exact same.promoted.append (same.verdictIds injective grants _)
  reports := same.reports

/-! ## Letting the members evaluate their rules -/

theorem SameRound.updateRules (same : SameRound rename m m')
    (injective : Function.Injective rename) :
    SameRound rename (Arbiter.updateRules m) (Arbiter.updateRules m') := by
  refine ⟨⟨same.threshold, same.pool, ?_⟩, same.determined, same.excluded, same.promoted, ?_⟩
  · rw [updateRules_contenders, updateRules_contenders]
    refine same.map_contenders fun c _ => ?_
    simp only [Interactor.renamed_id, same.mem_pool injective, Interactor.afterRules_renamed]
    split <;> rfl
  · rw [updateRules_reports, updateRules_reports]
    refine same.reports.append ?_
    refine (same.contenders.flatMap_right _).trans (.of_eq ?_)
    rw [List.flatMap_map]
    refine List.flatMap_congr fun c _ => ?_
    simp only [Interactor.renamed_id, same.mem_pool injective]
    rfl

/-! ## Settling the claims -/

/-- The same candidates claim. -/
theorem SameRound.claimers (same : SameRound rename m m') (injective : Function.Injective rename)
    (ids : (m.contenders.map Interactor.id).Nodup) :
    (Arbiter.claimers m').Perm ((Arbiter.claimers m).map rename) := by
  refine (same.pool.filter _).trans (.of_eq ?_)
  rw [List.filter_map]
  refine congrArg (List.map rename) (List.filter_congr fun id _ => ?_)
  rw [Function.comp_apply, same.findContender?_rename injective ids, Option.any_map]
  rfl

theorem SameRound.awards (same : SameRound rename m m') (injective : Function.Injective rename)
    (ids : (m.contenders.map Interactor.id).Nodup) (claimer : InteractorId) :
    Arbiter.awards m' (rename claimer) = Arbiter.awards m claimer := by
  unfold Arbiter.awards
  rw [same.findContender?_rename injective ids, same.threshold, Option.bind_map]
  rfl

/-- A sole claim is settled in the same way. -/
theorem SameRound.settleClaim (same : SameRound rename m m')
    (injective : Function.Injective rename) (ids : (m.contenders.map Interactor.id).Nodup)
    (distinct : m.arbiter.candidates.Nodup)
    (candidates : ∀ id ∈ m.arbiter.candidates, ∃ c ∈ m.contenders, c.id = id ∧
      c.isCandidate = true) (claimer : InteractorId) :
    SameRound rename (Arbiter.settleClaim m claimer)
      (Arbiter.settleClaim m' (rename claimer)) := by
  have ids' := same.ids injective ids
  have distinct' := same.distinct injective distinct
  have candidates' : ∀ id ∈ m'.arbiter.candidates, ∃ c ∈ m'.contenders, c.id = id ∧
      c.isCandidate = true := by
    intro id inPool
    obtain ⟨old, pooled, rfl⟩ := List.mem_map.1 (same.pool.mem_iff.1 inPool)
    obtain ⟨c, member, rfl, busy⟩ := candidates old pooled
    exact ⟨c.renamed rename, same.mem_contenders member, rfl, busy⟩
  have awarded := same.awards injective ids claimer
  obtain ⟨promotes, excludes⟩ := settleClaim_outcome ids distinct candidates claimer
  obtain ⟨promotes', excludes'⟩ := settleClaim_outcome ids' distinct' candidates' (rename claimer)
  refine ⟨⟨?_, ?_, ?_⟩, ?_, ?_, ?_, ?_⟩
  · rw [(settleClaim_spec ids claimer).2.1, (settleClaim_spec ids' (rename claimer)).2.1]
    exact same.threshold
  · rw [(settleClaim_spec ids claimer).2.1, (settleClaim_spec ids' (rename claimer)).2.1]
    exact .nil
  · rw [settleClaim_contenders ids distinct, settleClaim_contenders ids' distinct', awarded]
    refine same.map_contenders fun c _ => ?_
    simp only [Interactor.renamed_id, same.mem_pool injective, injective.eq_iff]
    split_ifs <;> rfl
  · rw [settleClaim_determined, settleClaim_determined, awarded, same.determined]
    split <;> rfl
  · rw [excludes, excludes', awarded, List.map_append]
    refine same.excluded.append ?_
    split
    · refine (same.pool.filter _).trans (.of_eq ?_)
      rw [List.filter_map]
      refine congrArg (List.map rename) (List.filter_congr fun id _ => ?_)
      rw [Function.comp_apply, bne, injective.beq_eq, bne]
    · exact same.pool
  · rw [promotes, promotes']
    exact same.promoted
  · rw [(settleClaim_frame m claimer).2, (settleClaim_frame m' (rename claimer)).2]
    exact same.reports

/-- If the best of the pool is the same, several claims are settled in the same way. -/
theorem SameRound.settleClaims (same : SameRound rename m m')
    (injective : Function.Injective rename) (best : Option (InteractorId × R)) :
    SameRound rename (Arbiter.settleClaims m best)
      (Arbiter.settleClaims m' (best.map (Prod.map rename id))) := by
  have champion : m'.arbiter.champion (best.map (Prod.map rename id)) =
      (m.arbiter.champion best).map rename := by
    rw [Arbiter.champion, Arbiter.champion, same.threshold]
    cases best with
    | none => rfl
    | some x =>
      simp only [Option.map_some, Option.filter_some, Prod.map_snd, id_eq]
      split <;> rfl
  have wins (c : Interactor R ν) : m'.arbiter.champion (best.map (Prod.map rename id)) =
      some (c.renamed rename).id ↔ m.arbiter.champion best = some c.id := by
    rw [champion, Interactor.renamed_id, Option.map_eq_some_iff]
    constructor
    · rintro ⟨id, named, equal⟩
      exact named.trans (congrArg some (injective equal))
    · intro named
      exact ⟨c.id, named, rfl⟩
  refine ⟨⟨same.threshold, .nil, ?_⟩, champion, ?_, same.promoted, same.reports⟩
  · rw [settleClaims_contenders, settleClaims_contenders]
    refine same.map_contenders fun c _ => ?_
    simp only [wins]
    split <;> rfl
  · rw [settleClaims_excluded, settleClaims_excluded, List.map_append]
    refine same.excluded.append ?_
    refine ((same.contenders.filter _).map _).trans (.of_eq ?_)
    rw [List.filter_map, List.map_map, List.map_map]
    refine congrArg (List.map _) (List.filter_congr fun c _ => ?_)
    simp only [Function.comp_apply, ne_eq, wins, Interactor.renamed_isCandidate]

/-! ## Sharing out the evidence -/

/-- Changing the contenders of a list of ids, one after the other, changes those that have one of
them. -/
theorem foldl_modifyContender (change : InteractorId → Interactor R ν → Interactor R ν)
    (keeps : ∀ id c, (change id c).id = c.id) {pool : List InteractorId} (distinct : pool.Nodup)
    {cs : List (Interactor R ν)} (ids : (cs.map Interactor.id).Nodup) :
    pool.foldl (fun cs id => modifyContender id (change id) cs) cs =
      cs.map fun c => if c.id ∈ pool then change c.id c else c := by
  induction pool generalizing cs with
  | nil => simp
  | cons id rest ih =>
    obtain ⟨fresh, distinct⟩ := List.nodup_cons.1 distinct
    have keep : ∀ c : Interactor R ν, (if c.id = id then change id c else c).id = c.id := by
      intro c
      split
      · exact keeps id c
      · rfl
    have ids' : ((modifyContender id (change id) cs).map Interactor.id).Nodup := by
      rw [modifyContender_eq_map ids, map_id_map keep]
      exact ids
    rw [List.foldl_cons, ih distinct ids', modifyContender_eq_map ids, List.map_map]
    refine List.map_congr_left fun c _ => ?_
    simp only [Function.comp_apply, keep, List.mem_cons]
    by_cases same : c.id = id
    · simp [same, fresh]
    · simp [same]

/-- The log total of the evidence in a pool. -/
def poolTotal (a : Arbiter R) (cs : List (Interactor R ν)) : R :=
  logSumExp (a.candidates.map fun id =>
    ((findContender? id cs).map evidenceOf).getD Scalar.negInfinity)

/-- Each member of the pool is told its share, by itself. -/
theorem shareOut_eq_map {a : Arbiter R} {cs : List (Interactor R ν)}
    (ids : (cs.map Interactor.id).Nodup) (distinct : a.candidates.Nodup) :
    a.shareOut cs = cs.map fun c => if c.id ∈ a.candidates then { c with
      candidateProbability := if Scalar.isFinite (a.poolTotal cs) then
        Scalar.exp (evidenceOf c - a.poolTotal cs) else Scalar.zero } else c := by
  rw [shareOut, ← List.map_prod_left_eq_zip, List.foldl_map]
  refine (foldl_modifyContender (fun id c => { c with
    candidateProbability := if Scalar.isFinite (a.poolTotal cs) then
      Scalar.exp (((findContender? id cs).map evidenceOf).getD Scalar.negInfinity -
        a.poolTotal cs) else Scalar.zero }) (fun _ _ => rfl) distinct ids).trans ?_
  refine List.map_congr_left fun c member => ?_
  rw [findContender?_id ids member]
  rfl

end Rounds

section Exact

variable {ν : Type} {rename : InteractorId → InteractorId} {a a' : Arbiter EReal}
  {cs cs' : List (Interactor EReal ν)} {queue queue' : TaskQueue}

/-- The order of the summands does not matter to a log total. -/
theorem logSumExp_perm {xs ys : List EReal} (perm : xs.Perm ys) :
    logSumExp xs = logSumExp ys := by
  have top : greatest xs = greatest ys := by
    have commutes : RightCommutative (Scalar.maximum : EReal → EReal → EReal) :=
      ⟨fun x y z => by simp only [exact_maximum, max_right_comm]⟩
    exact perm.foldl_eq _
  rw [logSumExp, logSumExp, top, Scalar.exact_sum_eq, Scalar.exact_sum_eq,
    (perm.map fun x => Scalar.exp (x - greatest ys)).sum_eq]

theorem Reordered.shareOut (reordered : Reordered rename a cs a' cs')
    (injective : Function.Injective rename) (ids : (cs.map Interactor.id).Nodup)
    (distinct : a.candidates.Nodup) :
    (a'.shareOut cs').Perm ((a.shareOut cs).map (Interactor.renamed rename)) := by
  have total : a'.poolTotal cs' = a.poolTotal cs := by
    refine logSumExp_perm ((reordered.pool.map _).trans (.of_eq ?_))
    rw [List.map_map]
    refine List.map_congr_left fun id _ => ?_
    rw [Function.comp_apply, reordered.findContender?_rename injective ids, Option.map_map]
    rfl
  rw [shareOut_eq_map ids distinct, shareOut_eq_map (reordered.ids injective ids)
    (reordered.distinct injective distinct), total]
  refine reordered.map_contenders fun c _ => ?_
  simp only [Interactor.renamed_id, reordered.mem_pool injective, evidenceOf_renamed]
  split <;> rfl

/-! ## A round of mediation -/

/-- The pool settles in the same way. -/
theorem Reordered.settling (reordered : Reordered rename a cs a' cs')
    (injective : Function.Injective rename) (agrees : Agrees a.candidates cs)
    (queue queue' : TaskQueue) :
    SameRound rename (a.settling cs queue).1 (a'.settling cs' queue').1 := by
  let m : Round EReal ν := ⟨a, cs, queue, {}, []⟩
  let m' : Round EReal ν := ⟨a', cs', queue', {}, []⟩
  have start : SameRound rename m m' := ⟨reordered, rfl, .nil, .nil, .nil⟩
  have first := start.refresh injective agrees.distinct false
  have settled := Agrees.refresh (m := m) agrees false
  have shared : SameRound rename
      { (refresh false m).1 with
        contenders := (refresh false m).1.arbiter.shareOut (refresh false m).1.contenders }
      { (refresh false m').1 with
        contenders := (refresh false m').1.arbiter.shareOut (refresh false m').1.contenders } :=
    { first with contenders := first.shareOut injective settled.ids settled.distinct }
  exact (shared.updateRules injective).refresh injective settled.distinct true

theorem Reordered.agrees (reordered : Reordered rename a cs a' cs')
    (injective : Function.Injective rename) (agrees : Agrees a.candidates cs) :
    Agrees a'.candidates cs' where
  ids := reordered.ids injective agrees.ids
  distinct := reordered.distinct injective agrees.distinct
  known := by
    intro id inPool
    obtain ⟨old, pooled, rfl⟩ := List.mem_map.1 (reordered.pool.mem_iff.1 inPool)
    obtain ⟨c, member, rfl⟩ := List.mem_map.1 (agrees.known pooled)
    exact List.mem_map.2 ⟨c.renamed rename, reordered.mem_contenders member, rfl⟩
  pooled := by
    intro c' member inPool
    obtain ⟨c, source, rfl⟩ := reordered.exists_contender member
    exact agrees.pooled c source ((reordered.mem_pool injective).1 inPool)
  listed := by
    intro c' member plain
    obtain ⟨c, source, rfl⟩ := reordered.exists_contender member
    exact (reordered.mem_pool injective).2 (agrees.listed c source plain)

/-- No two contenders tie for the greatest evidence. -/
def Untied (cs : List (Interactor EReal ν)) : Prop :=
  ∀ c ∈ cs, ∀ d ∈ cs, evidenceOf c = evidenceOf d → (∀ e ∈ cs, evidenceOf e ≤ evidenceOf c) →
    c.id = d.id

theorem IsFirstBest.greatest {w : Interactor EReal ν} (best : IsFirstBest cs w) :
    ∀ c ∈ cs, evidenceOf c ≤ evidenceOf w := by
  obtain ⟨before, later, rfl, less, noMore⟩ := best
  intro c member
  rcases List.mem_append.1 member with member | member
  · exact (less c member).le
  · rcases List.mem_cons.1 member with rfl | member
    · exact le_rfl
    · exact noMore c member

/-- The best of the pool is the same if there is no tie. -/
theorem Reordered.best (reordered : Reordered rename a cs a' cs')
    (injective : Function.Injective rename) (agrees : Agrees a.candidates cs)
    (undecided : ∀ c ∈ cs, c.isDetermined = false)
    (untied : Untied (contestants (a.settling cs queue).1))
    (occupied : contestants (a.settling cs queue).1 ≠ []) :
    (a'.settling cs' queue').2 = (a.settling cs queue).2.map (Prod.map rename id) := by
  have same := reordered.settling injective agrees queue queue'
  have undecided' : ∀ c ∈ cs', c.isDetermined = false := by
    intro c' member
    obtain ⟨c, source, rfl⟩ := reordered.exists_contender member
    exact undecided c source
  have contestants_iff (c : Interactor EReal ν) (member : c ∈ (a.settling cs queue).1.contenders) :
      c.renamed rename ∈ contestants (a'.settling cs' queue').1 ↔
        c ∈ contestants (a.settling cs queue).1 := by
    rw [mem_contestants, mem_contestants, Interactor.renamed_id, same.mem_pool injective]
    simp only [member, same.mem_contenders member]
  obtain ⟨w, best, found⟩ := best_settling agrees undecided occupied
  have contests := best.mem
  have renamed := (contestants_iff w (mem_contestants.1 contests).1).2 contests
  obtain ⟨w', best', found'⟩ := best_settling (reordered.agrees injective agrees) undecided'
    (List.ne_nil_of_mem renamed)
  obtain ⟨v, source, rfl⟩ := same.exists_contender (mem_contestants.1 best'.mem).1
  have contests' := (contestants_iff v source).1 best'.mem
  -- The two of greatest evidence are the same contestant.
  have tie : evidenceOf w = evidenceOf v :=
    le_antisymm (best'.greatest (w.renamed rename) renamed) (best.greatest v contests')
  have equal := untied w contests v contests' tie best.greatest
  rw [found, found', Option.map_some, Prod.map_apply, id_eq, equal, tie]
  rfl

/-- A round of mediation among the same contenders in another order decides the same, unless two
contestants tie for the greatest evidence. -/
theorem Reordered.mediate (reordered : Reordered rename a cs a' cs')
    (injective : Function.Injective rename) (agrees : Agrees a.candidates cs)
    (undecided : ∀ c ∈ cs, c.isDetermined = false)
    (untied : Untied (contestants (a.settling cs queue).1)) :
    SameRound rename (a.mediate cs queue) (a'.mediate cs' queue') := by
  have same := reordered.settling injective agrees queue queue'
  have settled := agrees.settling queue
  have plain := (settled_settling agrees.toOrderly queue).plain
  have claims := same.claimers injective settled.ids
  match claiming : claimers (a.settling cs queue).1 with
  | [] =>
    rw [claiming] at claims
    rw [mediate_eq, mediate_eq, claiming, List.perm_nil.1 claims]
    exact same
  | [claimer] =>
    rw [claiming] at claims
    rw [mediate_eq, mediate_eq, claiming, List.perm_singleton.1 claims]
    refine same.settleClaim injective settled.ids settled.distinct (fun id inPool => ?_) claimer
    obtain ⟨c, member, rfl⟩ := List.mem_map.1 (settled.known inPool)
    refine ⟨c, member, rfl, ?_⟩
    rw [Interactor.isCandidate, Standing.isCandidate, plain c member inPool]
    rfl
  | first :: second :: rest =>
    have several : 2 ≤ (claimers (a.settling cs queue).1).length := by
      rw [claiming, List.length_cons, List.length_cons]
      omega
    have several' : 2 ≤ (claimers (a'.settling cs' queue').1).length := by
      rwa [claims.length_eq, List.length_map]
    obtain ⟨inPool, c, member, rfl⟩ := claimers_spec (claiming ▸ List.mem_cons_self)
    have occupied := List.ne_nil_of_mem (mem_contestants.2 ⟨member, inPool⟩)
    rw [mediate_several several, mediate_several several',
      reordered.best injective agrees undecided untied occupied]
    exact same.settleClaims injective _

end Exact

end Arbiter

end TouchIntent
