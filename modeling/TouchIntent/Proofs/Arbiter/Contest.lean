import Mathlib
import TouchIntent.Proofs.Arbiter.Agreement
import TouchIntent.Proofs.Numeric.Exact

/-!
# Who wins a contest

Once the pool has settled, its members are the contestants. A sole claimant is judged by its own
evidence. Where several contestants claim, the first of greatest evidence is judged, whether or not
it is one of those who claim. Whoever is judged wins if its evidence lies above the threshold, and
everyone else starts over.
-/

namespace TouchIntent.Arbiter

section Contestants

variable {R ν : Type} [Scalar R] {m : Round R ν}

omit [Scalar R] in
/-- The members of the pool, in the order in which the interactors were registered. -/
def contestants (m : Round R ν) : List (Interactor R ν) :=
  m.contenders.filter fun c => decide (c.id ∈ m.arbiter.candidates)

/-- The members of the pool that claim the touches. -/
def claimants (m : Round R ν) : List (Interactor R ν) :=
  (contestants m).filter Interactor.isClaiming

omit [Scalar R] in
theorem mem_contestants {c : Interactor R ν} :
    c ∈ contestants m ↔ c ∈ m.contenders ∧ c.id ∈ m.arbiter.candidates := by
  simp [contestants]

omit [Scalar R] in
theorem mem_claimants {c : Interactor R ν} :
    c ∈ claimants m ↔ c ∈ contestants m ∧ c.isClaiming = true := List.mem_filter

/-- The claimants, by their ids in the order of promotion. -/
theorem perm_claimers (ids : (m.contenders.map Interactor.id).Nodup)
    (distinct : m.arbiter.candidates.Nodup) :
    (claimers m).Perm ((claimants m).map Interactor.id) := by
  have sublist : (claimants m).Sublist m.contenders :=
    List.filter_sublist.trans List.filter_sublist
  refine (List.perm_ext_iff_of_nodup (distinct.filter _) (ids.sublist (sublist.map _))).2 ?_
  intro id
  rw [List.mem_map]
  constructor
  · intro claims
    obtain ⟨inPool, c, member, rfl⟩ := claimers_spec claims
    have claiming := (mem_claimers ids member).1 claims
    exact ⟨c, mem_claimants.2 ⟨mem_contestants.2 ⟨member, inPool⟩, claiming.2⟩, rfl⟩
  · rintro ⟨c, claims, rfl⟩
    obtain ⟨contestant, claiming⟩ := mem_claimants.1 claims
    obtain ⟨member, inPool⟩ := mem_contestants.1 contestant
    exact (mem_claimers ids member).2 ⟨inPool, claiming⟩

/-- If several candidates claim, the best of the pool is to win. -/
theorem mediate_several {a : Arbiter R} {cs : List (Interactor R ν)} {queue : TaskQueue}
    (several : 2 ≤ (claimers (a.settling cs queue).1).length) :
    a.mediate cs queue = settleClaims (a.settling cs queue).1 (a.settling cs queue).2 := by
  rw [mediate_eq]
  split
  · next silent =>
    rw [silent, List.length_nil] at several
    omega
  · next sole =>
    rw [sole, List.length_singleton] at several
    omega
  · rfl

/-- An appraisal measures the evidence of whoever is a candidate after it. -/
theorem evidenceOf_appraisal (a : Arbiter R) (grants : Bool) (c : Interactor R ν)
    (candidate : (a.appraisal grants c).contender.isCandidate = true) :
    evidenceOf (a.appraisal grants c).contender = (a.appraisal grants c).evidence := by
  revert candidate
  rw [appraisal_eq]
  split_ifs with granted _ _ starved
  · intro candidate
    have idle := standing_of_granted c (Bool.and_eq_true_iff.1 granted).2
    rw [Interactor.isCandidate, idle] at candidate
    cases candidate
  · intro candidate
    rw [Interactor.isCandidate, c.exclude_standing] at candidate
    cases candidate
  · exact fun _ => rfl
  · exact fun candidate => absurd candidate starved.1
  · exact fun _ => rfl

section Best

variable {xs : List (Appraisal R (Interactor R ν))} {x : Appraisal R (Interactor R ν)}

theorem best_concat_of_idle (idle : ¬ x.contender.isCandidate = true) :
    best (xs ++ [x]) = best xs := by
  simp [best, idle]

theorem best_concat_of_none (candidate : x.contender.isCandidate = true) (none : best xs = none) :
    best (xs ++ [x]) = some (x.contender.id, x.evidence) := by
  unfold best at none ⊢
  rw [List.foldl_append, none]
  simp [candidate]

theorem best_concat_of_some (candidate : x.contender.isCandidate = true) {id : InteractorId}
    {greatest : R} (found : best xs = some (id, greatest)) :
    best (xs ++ [x]) =
      if greatest < x.evidence then some (x.contender.id, x.evidence) else some (id, greatest) := by
  unfold best at found ⊢
  rw [List.foldl_append, found]
  simp [candidate]

end Best

end Contestants

section Exact

variable {ν : Type}

/-- The first of the contenders of greatest evidence: those before it have less, and those after it
no more. -/
def IsFirstBest (cs : List (Interactor EReal ν)) (w : Interactor EReal ν) : Prop :=
  ∃ before later, cs = before ++ w :: later ∧ (∀ c ∈ before, evidenceOf c < evidenceOf w) ∧
    ∀ c ∈ later, evidenceOf c ≤ evidenceOf w

theorem IsFirstBest.mem {cs : List (Interactor EReal ν)} {w : Interactor EReal ν}
    (best : IsFirstBest cs w) : w ∈ cs := by
  obtain ⟨before, later, rfl, -⟩ := best
  simp

/-- The best candidate is the first of greatest evidence. -/
theorem best_spec (xs : List (Appraisal EReal (Interactor EReal ν)))
    (measured : ∀ x ∈ xs, x.contender.isCandidate = true → evidenceOf x.contender = x.evidence) :
    ((xs.map Appraisal.contender).filter Interactor.isCandidate = [] ∧ best xs = none) ∨
      ∃ w, IsFirstBest ((xs.map Appraisal.contender).filter Interactor.isCandidate) w ∧
        best xs = some (w.id, evidenceOf w) := by
  induction xs using List.reverseRecOn with
  | nil => exact .inl ⟨rfl, rfl⟩
  | append_singleton xs x ih =>
    have earlier := ih fun y member => measured y (List.mem_append_left _ member)
    have now := measured x (List.mem_append_right _ List.mem_cons_self)
    rw [List.map_append, List.filter_append, List.map_singleton]
    by_cases candidate : x.contender.isCandidate = true
    · rw [List.filter_singleton, candidate, cond_true]
      right
      rcases earlier with ⟨nobody, noBest⟩ | ⟨w, ⟨before, later, split, less, noMore⟩, wins⟩
      · rw [best_concat_of_none candidate noBest, nobody, ← now candidate]
        exact ⟨x.contender, ⟨[], [], rfl, by simp, by simp⟩, rfl⟩
      · rw [best_concat_of_some candidate wins, split, ← now candidate]
        by_cases better : evidenceOf w < evidenceOf x.contender
        · refine ⟨x.contender, ⟨before ++ w :: later, [], rfl, fun c member => ?_, by simp⟩,
            if_pos better⟩
          rcases List.mem_append.1 member with member | member
          · exact (less c member).trans better
          · rcases List.mem_cons.1 member with rfl | member
            · exact better
            · exact (noMore c member).trans_lt better
        · refine ⟨w, ⟨before, later ++ [x.contender], by simp, less, fun c member => ?_⟩,
            if_neg better⟩
          rcases List.mem_append.1 member with member | member
          · exact noMore c member
          · rw [List.mem_singleton.1 member]
            exact not_lt.1 better
    · rw [best_concat_of_idle candidate, List.filter_singleton, Bool.eq_false_iff.2 candidate,
        cond_false, List.append_nil]
      exact earlier

/-! ## The outcome -/

/-- Once the claims of a pool are settled with this contestant to be judged: it has won if and only
if its evidence lies above the threshold, everyone else is idle, the pool is empty, and whoever has
won is named. -/
structure Judged (threshold : EReal) (w : Interactor EReal ν) (after : List (Interactor EReal ν))
    (pool : List InteractorId) (determined : Option InteractorId) : Prop where
  present : ∃ c ∈ after, c.id = w.id
  winner : ∀ c ∈ after, c.id = w.id → (c.isDetermined = true ↔ threshold < evidenceOf w)
  others : ∀ c ∈ after, c.id ≠ w.id → c.standing.status = .idle
  emptied : pool = []
  named : ∀ id, determined = some id ↔ ∃ c ∈ after, c.id = id ∧ c.isDetermined = true

variable {a : Arbiter EReal} {cs : List (Interactor EReal ν)}

/-- While nobody has won, a settled pool holds the candidates, and everyone else is idle. -/
theorem standing_settling (agrees : Agrees a.candidates cs)
    (undecided : ∀ c ∈ cs, c.isDetermined = false) (queue : TaskQueue) :
    ∀ c ∈ (a.settling cs queue).1.contenders,
      c.id ∈ (a.settling cs queue).1.arbiter.candidates ∧ c.standing.status = .candidate ∨
        c.id ∉ (a.settling cs queue).1.arbiter.candidates ∧ c.standing.status = .idle := by
  intro c member
  have settled := settled_settling agrees.toOrderly queue
  have loyal : c.standing.status ≠ .selfExcluded := loyal_refresh _ c member
  by_cases inPool : c.id ∈ (a.settling cs queue).1.arbiter.candidates
  · exact .inl ⟨inPool, settled.plain c member inPool⟩
  · refine .inr ⟨inPool, ?_⟩
    cases status : c.standing.status with
    | idle => rfl
    | candidate => exact absurd ((agrees.settling queue).listed c member status) inPool
    | determined =>
      obtain ⟨d, source, tame⟩ := exists_source settled.tame c member
      have lost := undecided d source
      rw [d.isDetermined_iff.2 (tame.determined status)] at lost
      cases lost
    | selfExcluded => exact absurd status loyal

variable {queue : TaskQueue}

/-- The contestants are those who are candidates once the pool has settled. -/
theorem contestants_settling (agrees : Agrees a.candidates cs)
    (undecided : ∀ c ∈ cs, c.isDetermined = false) :
    contestants (a.settling cs queue).1 =
      (a.settling cs queue).1.contenders.filter Interactor.isCandidate := by
  refine List.filter_congr fun c member => ?_
  rw [Interactor.isCandidate, Standing.isCandidate]
  rcases standing_settling agrees undecided queue c member with ⟨inPool, plain⟩ | ⟨outside, idle⟩
  · rw [plain, decide_eq_true inPool]
    rfl
  · rw [idle, decide_eq_false outside]
    rfl

/-- The best of a settled pool is the first contestant of greatest evidence. -/
theorem best_settling (agrees : Agrees a.candidates cs)
    (undecided : ∀ c ∈ cs, c.isDetermined = false)
    (occupied : contestants (a.settling cs queue).1 ≠ []) :
    ∃ w, IsFirstBest (contestants (a.settling cs queue).1) w ∧
      (a.settling cs queue).2 = some (w.id, evidenceOf w) := by
  rw [contestants_settling agrees undecided] at occupied ⊢
  obtain ⟨m, settles⟩ : ∃ m, a.settling cs queue = refresh true m := ⟨_, rfl⟩
  rw [settles, refresh_eq] at occupied ⊢
  have measured : ∀ x ∈ m.contenders.map (m.arbiter.appraisal true),
      x.contender.isCandidate = true → evidenceOf x.contender = x.evidence := by
    intro x member candidate
    obtain ⟨c, -, rfl⟩ := List.mem_map.1 member
    exact evidenceOf_appraisal _ _ _ candidate
  rcases best_spec _ measured with ⟨nobody, -⟩ | best
  · exact absurd nobody occupied
  · exact best

/-- A claim is awarded on the evidence of whoever makes it. -/
theorem awards_iff {m : Round EReal ν}
    (ids : (m.contenders.map Interactor.id).Nodup) {c : Interactor EReal ν}
    (member : c ∈ m.contenders) :
    awards m c.id = true ↔ m.arbiter.threshold < evidenceOf c := by
  rw [awards, findContender?_id ids member, evidenceOf, Option.bind_some]
  cases Contender.meanEvidence? c with
  | none => simp
  | some e => simp

theorem champion_eq {best : Option (InteractorId × EReal)} {w : Interactor EReal ν}
    (found : best = some (w.id, evidenceOf w)) :
    a.champion best = if a.threshold < evidenceOf w then some w.id else none := by
  rw [champion, found]
  by_cases enough : a.threshold < evidenceOf w
  · simp [enough]
  · simpa [enough] using not_lt.1 enough

/-- If everyone is idle but the contestant that is judged, it is judged right. -/
theorem judged_map {m : Round EReal ν}
    (ids : (m.contenders.map Interactor.id).Nodup) {w : Interactor EReal ν}
    (member : w ∈ m.contenders) {threshold : EReal}
    {settle : Interactor EReal ν → Interactor EReal ν} (keeps : ∀ c, (settle c).id = c.id)
    (wins : threshold < evidenceOf w → (settle w).standing.status = .determined)
    (others : ∀ c ∈ m.contenders, (c.id = w.id → ¬ threshold < evidenceOf w) →
      (settle c).standing.status = .idle) :
    Judged threshold w (m.contenders.map settle) []
      (if threshold < evidenceOf w then some w.id else none) := by
  have judged : ∀ c ∈ m.contenders,
      (settle c).isDetermined = true ↔ c.id = w.id ∧ threshold < evidenceOf w := by
    intro c source
    rw [Interactor.isDetermined_iff]
    constructor
    · intro won
      by_contra lost
      rw [others c source fun same enough => lost ⟨same, enough⟩] at won
      cases won
    · rintro ⟨same, enough⟩
      rw [List.inj_on_of_nodup_map ids source member same]
      exact wins enough
  refine ⟨⟨settle w, List.mem_map_of_mem member, keeps w⟩, ?_, ?_, rfl, fun id => ?_⟩
  · intro c' after same
    obtain ⟨c, source, rfl⟩ := List.mem_map.1 after
    rw [judged c source, and_iff_right ((keeps c).symm.trans same)]
  · intro c' after differs
    obtain ⟨c, source, rfl⟩ := List.mem_map.1 after
    exact others c source fun same => absurd ((keeps c).trans same) differs
  · constructor
    · intro named
      by_cases enough : threshold < evidenceOf w
      · rw [if_pos enough] at named
        obtain rfl := Option.some.inj named
        exact ⟨settle w, List.mem_map_of_mem member, keeps w, (judged w member).2 ⟨rfl, enough⟩⟩
      · rw [if_neg enough] at named
        cases named
    · rintro ⟨c', after, rfl, won⟩
      obtain ⟨c, source, rfl⟩ := List.mem_map.1 after
      obtain ⟨same, enough⟩ := (judged c source).1 won
      rw [if_pos enough, keeps c, same]

/-- If nobody claims, the round of mediation ends with the settled pool. -/
theorem mediate_silent (agrees : Agrees a.candidates cs)
    (undecided : ∀ c ∈ cs, c.isDetermined = false)
    (silent : claimants (a.settling cs queue).1 = []) :
    (∀ c ∈ (a.mediate cs queue).contenders, c.isDetermined = false) ∧
      (a.mediate cs queue).outcome.determined = none := by
  have settled := agrees.settling queue
  have perm := perm_claimers settled.ids settled.distinct
  rw [silent] at perm
  have result : a.mediate cs queue = (a.settling cs queue).1 := by
    rw [mediate_eq, List.perm_nil.1 perm]
  rw [result]
  refine ⟨fun c member => ?_, rfl⟩
  rw [Bool.eq_false_iff, ne_eq, c.isDetermined_iff]
  intro won
  rcases standing_settling agrees undecided queue c member with ⟨-, plain⟩ | ⟨-, idle⟩
  · rw [won] at plain
    cases plain
  · rw [won] at idle
    cases idle

/-- A sole claimant is judged. -/
theorem judged_sole (agrees : Agrees a.candidates cs)
    (undecided : ∀ c ∈ cs, c.isDetermined = false) {c : Interactor EReal ν}
    (sole : claimants (a.settling cs queue).1 = [c]) :
    Judged a.threshold c (a.mediate cs queue).contenders (a.mediate cs queue).arbiter.candidates
      (a.mediate cs queue).outcome.determined := by
  have settled := agrees.settling queue
  have threshold := (settled_settling agrees.toOrderly queue).threshold
  have standing := standing_settling agrees undecided queue
  have perm := perm_claimers settled.ids settled.distinct
  rw [sole] at perm
  have result : a.mediate cs queue = settleClaim (a.settling cs queue).1 c.id := by
    rw [mediate_eq, List.perm_singleton.1 perm]
  obtain ⟨contestant, -⟩ := mem_claimants.1 (sole ▸ List.mem_singleton_self c)
  obtain ⟨member, inPool⟩ := mem_contestants.1 contestant
  have awarded := awards_iff settled.ids member
  rw [threshold] at awarded
  have emptied := (settleClaim_spec settled.ids c.id).2.1
  have undetermined : (a.settling cs queue).1.outcome.determined = none := rfl
  rw [result, emptied, settleClaim_contenders settled.ids settled.distinct, settleClaim_determined,
    undetermined]
  simp only [awarded]
  refine judged_map settled.ids member (fun d => ?_) (fun enough => ?_) fun d source lost => ?_
  · split_ifs <;> rfl
  · have plain := (settled_settling agrees.toOrderly queue).plain c member inPool
    rw [if_pos ⟨enough, rfl⟩, c.determine_standing, if_pos plain]
  · rw [if_neg fun wins => lost wins.2 wins.1]
    rcases standing d source with ⟨inPool, -⟩ | ⟨outside, idle⟩
    · rw [if_pos inPool, d.exclude_standing]
      rfl
    · rw [if_neg outside]
      exact idle

/-- If several contestants claim, the first contestant of greatest evidence is judged. -/
theorem judged_several (agrees : Agrees a.candidates cs)
    (undecided : ∀ c ∈ cs, c.isDetermined = false)
    (several : 2 ≤ (claimants (a.settling cs queue).1).length) :
    ∃ w, IsFirstBest (contestants (a.settling cs queue).1) w ∧
      Judged a.threshold w (a.mediate cs queue).contenders (a.mediate cs queue).arbiter.candidates
        (a.mediate cs queue).outcome.determined := by
  have settled := agrees.settling queue
  have threshold := (settled_settling agrees.toOrderly queue).threshold
  have result : a.mediate cs queue =
      settleClaims (a.settling cs queue).1 (a.settling cs queue).2 := by
    refine mediate_several ?_
    rwa [(perm_claimers settled.ids settled.distinct).length_eq, List.length_map]
  have occupied : contestants (a.settling cs queue).1 ≠ [] := by
    intro nobody
    rw [claimants, nobody] at several
    cases several
  obtain ⟨w, best, found⟩ := best_settling agrees undecided occupied
  obtain ⟨member, inPool⟩ := mem_contestants.1 best.mem
  refine ⟨w, best, ?_⟩
  rw [result, settleClaims_contenders, settleClaims_determined, champion_eq found, threshold]
  refine judged_map settled.ids member (fun d => ?_) (fun enough => ?_) fun d source lost => ?_
  · split_ifs <;> rfl
  · have plain := (settled_settling agrees.toOrderly queue).plain w member inPool
    rw [if_pos enough, if_pos rfl, w.determine_standing, if_pos plain]
  · have unnamed : ¬ (if a.threshold < evidenceOf w then some w.id else none) = some d.id := by
      intro named
      by_cases enough : a.threshold < evidenceOf w
      · rw [if_pos enough] at named
        exact lost (Option.some.inj named).symm enough
      · rw [if_neg enough] at named
        cases named
    rw [if_neg unnamed, d.exclude_standing]
    rfl

end Exact

end TouchIntent.Arbiter
