import Mathlib.Data.List.Forall2
import Mathlib.Data.List.Nodup
import TouchIntent.Proofs.Interactor.Standing

/-!
# The pool in a round of mediation

A round of mediation first *settles* the pool: it refreshes it, lets the members evaluate their
rules, and refreshes it again. No interactor becomes a winner while the pool settles, and once it is
settled all of its members are plain candidates.
-/

namespace TouchIntent

variable {R ν : Type} [Scalar R]

namespace Interactor

variable (a : Interactor R ν)

@[simp] theorem contender_id : Contender.id a = a.id := rfl

@[simp] theorem contender_isCandidate : Contender.isCandidate a = a.isCandidate := rfl

@[simp] theorem contender_isClaiming : Contender.isClaiming a = a.isClaiming := rfl

@[simp] theorem contender_determine : Contender.determine a = a.determine.1 := rfl

@[simp] theorem contender_exclude : (Contender.exclude a).1 = a.exclude.1 := rfl

@[simp] theorem contender_updateRules (queue : TaskQueue) :
    Contender.updateRules a queue = a.updateRules queue := rfl

end Interactor

/-- A round of mediation between interactors. -/
abbrev Round (R ν : Type) : Type := Mediation R TaskQueue (Firing ν) (Interactor R ν)

omit [Scalar R] in
instance : IsTrans (Interactor R ν) Interactor.Tame := ⟨fun _ _ _ => Interactor.Tame.trans⟩

omit [Scalar R] in
instance : IsTrans (Interactor R ν) Interactor.Steady := ⟨fun _ _ _ => Interactor.Steady.trans⟩

namespace Arbiter

/-- What changing the first contender of an id does to all of them. -/
theorem forall₂_modifyContender {rel : Interactor R ν → Interactor R ν → Prop}
    (refl : ∀ c, rel c c) {change : Interactor R ν → Interactor R ν}
    (changes : ∀ c, rel c (change c))
    (id : InteractorId) (cs : List (Interactor R ν)) :
    List.Forall₂ rel cs (modifyContender id change cs) := by
  induction cs with
  | nil => exact .nil
  | cons c others ih =>
    unfold modifyContender
    split
    · exact .cons (changes c) (List.forall₂_same.2 fun c _ => refl c)
    · exact .cons (refl c) ih

/-- Two changes of all members of a list make one, if they do so of each. -/
theorem forall₂_comp {α β γ : Type} {first : α → β → Prop} {second : β → γ → Prop}
    {both : α → γ → Prop} {as : List α} {bs : List β} {cs : List γ}
    (before : List.Forall₂ first as bs) (after : List.Forall₂ second bs cs)
    (compose : ∀ a b c, first a b → second b c → both a c) : List.Forall₂ both as cs := by
  induction before generalizing cs with
  | nil =>
    cases after
    exact .nil
  | cons ab _ ih =>
    cases after with
    | cons bc rest => exact .cons (compose _ _ _ ab bc) (ih rest)

omit [Scalar R] in
/-- A change of each contender by itself. -/
theorem forall₂_map {rel : Interactor R ν → Interactor R ν → Prop} {cs : List (Interactor R ν)}
    {change : Interactor R ν → Interactor R ν} (changes : ∀ c, rel c (change c)) :
    List.Forall₂ rel cs (cs.map change) := by
  rw [List.forall₂_map_right_iff]
  exact List.forall₂_same.2 fun c _ => changes c

/-- Related members of two lists are members of them. -/
theorem mem_of_forall₂ {α β : Type} {rel : α → β → Prop} {as : List α} {bs : List β}
    (all : List.Forall₂ rel as bs) :
    List.Forall₂ (fun a b => rel a b ∧ a ∈ as ∧ b ∈ bs) as bs := by
  induction all with
  | nil => exact .nil
  | cons ab _ ih =>
    refine .cons ⟨ab, List.mem_cons_self, List.mem_cons_self⟩ ?_
    refine ih.imp fun _ _ related => ⟨related.1, ?_, ?_⟩
    · exact List.mem_cons_of_mem _ related.2.1
    · exact List.mem_cons_of_mem _ related.2.2

/-- Two lists that are related stay so, possibly in another way, when each element of the second is
changed by itself. -/
theorem forall₂_map_of_mem {α β γ : Type} {rel : α → β → Prop} {rel' : α → γ → Prop} {as : List α}
    {bs : List β} (all : List.Forall₂ rel as bs) {change : β → γ}
    (changes : ∀ a b, rel a b → a ∈ as → b ∈ bs → rel' a (change b)) :
    List.Forall₂ rel' as (bs.map change) := by
  rw [List.forall₂_map_right_iff]
  exact (mem_of_forall₂ all).imp fun a b related => changes a b related.1 related.2.1 related.2.2

omit [Scalar R] in
/-- Two changes of all contenders, one after the other. -/
theorem forall₂_trans {rel : Interactor R ν → Interactor R ν → Prop}
    [IsTrans (Interactor R ν) rel] {as bs cs : List (Interactor R ν)}
    (first : List.Forall₂ rel as bs) (second : List.Forall₂ rel bs cs) :
    List.Forall₂ rel as cs :=
  forall₂_comp first second IsTrans.trans

/-- Each contender afterwards comes from one before. -/
theorem exists_source {α β : Type} {rel : α → β → Prop} {as : List α} {bs : List β}
    (all : List.Forall₂ rel as bs) : ∀ b ∈ bs, ∃ a ∈ as, rel a b := by
  induction all with
  | nil => intro b member; cases member
  | cons ab _ ih =>
    intro b member
    rcases List.mem_cons.1 member with rfl | member
    · exact ⟨_, List.mem_cons_self, ab⟩
    · obtain ⟨a, source, related⟩ := ih b member
      exact ⟨a, List.mem_cons_of_mem _ source, related⟩

/-- What a change of all members of a list keeps can be read off the list afterwards. -/
theorem map_eq_of {α β : Type} {rel : α → α → Prop} {read : α → β}
    (keeps : ∀ a b, rel a b → read b = read a) {as bs : List α} (all : List.Forall₂ rel as bs) :
    bs.map read = as.map read := by
  induction all with
  | nil => rfl
  | cons ab _ ih => rw [List.map_cons, List.map_cons, keeps _ _ ab, ih]

omit [Scalar R] in
theorem map_id_eq_of {rel : Interactor R ν → Interactor R ν → Prop}
    (keeps : ∀ a b, rel a b → b.id = a.id) {as bs : List (Interactor R ν)}
    (all : List.Forall₂ rel as bs) : bs.map Interactor.id = as.map Interactor.id :=
  map_eq_of keeps all

omit [Scalar R] in
theorem map_id_eq {as bs : List (Interactor R ν)} (all : List.Forall₂ Interactor.Tame as bs) :
    bs.map Interactor.id = as.map Interactor.id :=
  map_id_eq_of (fun _ _ tame => tame.id_eq) all

/-- Ids are not shared, and the members of the pool stand where members may stand. -/
structure Orderly (pool : List InteractorId) (contenders : List (Interactor R ν)) : Prop where
  ids : (contenders.map Interactor.id).Nodup
  pooled : ∀ c ∈ contenders, c.id ∈ pool → c.standing.status.isPooled = true

variable {pool : List InteractorId} {cs cs' : List (Interactor R ν)}

omit [Scalar R] in
theorem Orderly.eq_of_id_eq (orderly : Orderly pool cs) {c d : Interactor R ν} (hc : c ∈ cs)
    (hd : d ∈ cs) (same : c.id = d.id) : c = d :=
  List.inj_on_of_nodup_map orderly.ids hc hd same

omit [Scalar R] in
theorem Orderly.steady (orderly : Orderly pool cs) (all : List.Forall₂ Interactor.Steady cs cs') :
    Orderly pool cs' where
  ids := by
    rw [map_id_eq (all.imp fun _ _ steady => steady.toTame)]
    exact orderly.ids
  pooled := by
    intro c' member inPool
    obtain ⟨c, source, steady⟩ := exists_source all c' member
    exact steady.pooled (orderly.pooled c source (steady.id_eq ▸ inPool))

/-- Who is in the pool after some have left it and others have joined. -/
theorem mem_updatePool {candidates leaving joining : List InteractorId} {id : InteractorId} :
    id ∈ updatePool candidates leaving joining ↔
      (id ∈ candidates ∧ id ∉ leaving) ∨ id ∈ joining := by
  have joined : ∀ pool : List InteractorId,
      id ∈ joining.foldl (fun pool id => if id ∈ pool then pool else pool ++ [id]) pool ↔
        id ∈ pool ∨ id ∈ joining := by
    induction joining with
    | nil => simp
    | cons j rest ih =>
      intro pool
      rw [List.foldl_cons, ih, List.mem_cons]
      split
      · next present =>
        constructor
        · tauto
        · rintro (member | rfl | member)
          · exact .inl member
          · exact .inl present
          · exact .inr member
      · rw [List.mem_append, List.mem_singleton]
        tauto
  rw [updatePool, joined]
  simp

section Refresh

variable (a : Arbiter R) (grants : Bool) (c : Interactor R ν)

/-- How a contender is appraised, apart from the queue. -/
def appraisal : Appraisal R (Interactor R ν) := (a.appraise grants c {}).1

theorem appraisal_eq : a.appraisal grants c =
    if grants && c.hasSelfExcluded then ⟨c.granted, .granted, evidenceOf c⟩
    else if c.isCandidate ∧ evidenceOf c < a.threshold then
      ⟨c.exclude.1, .excluded, evidenceOf c⟩
    else if ¬ c.isCandidate ∧ a.threshold ≤ evidenceOf c ∧ c.id ∉ a.candidates then
      ⟨c.promote.1, .promoted, evidenceOf c⟩
    else if ¬ c.isCandidate ∧ evidenceOf c < a.threshold then
      ⟨c.resetObservations, .starved, evidenceOf c⟩
    else ⟨c, .kept, evidenceOf c⟩ := by
  simp only [appraisal, appraise, apply_ite Prod.fst]
  rfl

theorem appraise_fst (queue : TaskQueue) :
    (a.appraise grants c queue).1 = a.appraisal grants c := by
  simp only [appraisal, appraise, apply_ite Prod.fst]
  rfl

@[simp] theorem appraisal_id : (a.appraisal grants c).contender.id = c.id := by
  rw [appraisal_eq]
  split_ifs <;> first | rfl | exact c.grantSelfExclusion_id

/-- Whoever is granted the wish to leave is idle afterwards. -/
theorem standing_of_granted (leaves : c.hasSelfExcluded = true) : c.granted.standing = .idle := by
  have leaves : c.standing.status = .selfExcluded := by
    simpa [Interactor.hasSelfExcluded] using leaves
  have granted := c.grantSelfExclusion_standing
  rw [if_pos leaves] at granted
  show (c.grantSelfExclusion.1.standing.apply .withdrawSelfExclusion).after = .idle
  rw [granted]
  rfl

/-- Everything that an appraisal can come to. -/
theorem appraisal_cases :
    (a.appraisal grants c).verdict = .granted ∧ grants = true ∧
        c.standing.status = .selfExcluded ∧ (a.appraisal grants c).contender.standing = .idle ∨
    (a.appraisal grants c).verdict = .excluded ∧ c.isCandidate = true ∧
        evidenceOf c < a.threshold ∧ (a.appraisal grants c).contender.standing = .idle ∨
    (a.appraisal grants c).verdict = .promoted ∧ c.standing.status = .idle ∧
        a.threshold ≤ evidenceOf c ∧ c.id ∉ a.candidates ∧
        (a.appraisal grants c).contender.standing = { c.standing with status := .candidate } ∨
    (a.appraisal grants c).verdict = .starved ∧ c.standing.status = .idle ∧
        evidenceOf c < a.threshold ∧ (a.appraisal grants c).contender.standing = c.standing ∨
    (a.appraisal grants c).verdict = .kept ∧ (a.appraisal grants c).contender = c ∧
        (grants = true → c.standing.status ≠ .selfExcluded) ∧
        (c.isCandidate = true → ¬ evidenceOf c < a.threshold) := by
  have idle_iff : ¬ c.isCandidate = true ↔ c.standing.status = .idle := by
    simp [Interactor.isCandidate, Standing.isCandidate]
  rw [appraisal_eq]
  split_ifs with granted excluded promoted starved
  · left
    obtain ⟨allowed, leaves⟩ := Bool.and_eq_true_iff.1 granted
    exact ⟨rfl, allowed, by simpa [Interactor.hasSelfExcluded] using leaves,
      standing_of_granted c leaves⟩
  · exact .inr (.inl ⟨rfl, excluded.1, excluded.2, c.exclude_standing⟩)
  · have idle := idle_iff.1 promoted.1
    refine .inr (.inr (.inl ⟨rfl, idle, promoted.2.1, promoted.2.2, ?_⟩))
    exact c.promote_standing.trans (if_pos idle)
  · exact .inr (.inr (.inr (.inl ⟨rfl, idle_iff.1 starved.1, starved.2, rfl⟩)))
  · refine .inr (.inr (.inr (.inr ⟨rfl, rfl, fun allowed leaves => ?_, fun busy low => ?_⟩)))
    · exact granted (by simp [allowed, Interactor.hasSelfExcluded, leaves])
    · exact excluded ⟨busy, low⟩

theorem appraisal_tame : c.Tame (a.appraisal grants c).contender := by
  refine ⟨a.appraisal_id grants c, fun won => ?_⟩
  obtain ⟨-, -, -, after⟩ | ⟨-, -, -, after⟩ | ⟨-, -, -, -, after⟩ | ⟨-, -, -, after⟩ |
    ⟨-, after, -⟩ := a.appraisal_cases grants c
  · rw [after] at won
    cases won
  · rw [after] at won
    cases won
  · rw [after] at won
    cases won
  · rwa [after] at won
  · rwa [after] at won

omit [Scalar R] in
/-- A passage that replaces elements without a look at what is shared is a map. -/
theorem passThrough_fst {σ α β : Type} {step : α → σ → β × σ} {replace : α → β}
    (blind : ∀ c shared, (step c shared).1 = replace c) (cs : List α) (shared : σ) :
    (passThrough step cs shared).1 = cs.map replace := by
  induction cs generalizing shared with
  | nil => rfl
  | cons c others ih => simp only [passThrough, List.map_cons, ih, blind]

/-- All that a refresh does, but for the flags. -/
theorem refresh_eq (m : Round R ν) :
    let appraisals := m.contenders.map (m.arbiter.appraisal grants)
    let ids (p : Verdict → Bool) :=
      (appraisals.filter fun x => p x.verdict).map fun x => Contender.id x.contender
    refresh grants m = ({ m with
      arbiter := { m.arbiter with
        candidates :=
          updatePool m.arbiter.candidates (ids Verdict.leavesPool) (ids (· == .promoted)) }
      contenders := appraisals.map Appraisal.contender
      shared := (refresh grants m).1.shared
      outcome := { m.outcome with
        excluded := m.outcome.excluded ++ ids Verdict.leavesPool
        promoted := m.outcome.promoted ++ ids (· == .promoted) } }, best appraisals) := by
  simp only [refresh, passThrough_fst (m.arbiter.appraise_fst grants)]

/-- The contenders after a refresh. -/
theorem refresh_contenders (m : Round R ν) :
    (refresh grants m).1.contenders =
      m.contenders.map fun c => (m.arbiter.appraisal grants c).contender := by
  rw [refresh_eq]
  simp only [List.map_map, Function.comp_def]

end Refresh

variable {grants : Bool} {m : Round R ν}

theorem refresh_tame (grants : Bool) (m : Round R ν) :
    List.Forall₂ Interactor.Tame m.contenders (refresh grants m).1.contenders := by
  rw [refresh_contenders]
  exact forall₂_map fun c => m.arbiter.appraisal_tame grants c

/-- The ids of the contenders that a refresh passes such a verdict on. -/
def verdictIds (grants : Bool) (m : Round R ν)
    (p : Verdict → Bool) : List InteractorId :=
  ((m.contenders.map (m.arbiter.appraisal grants)).filter fun x => p x.verdict).map fun x =>
    Contender.id x.contender

theorem refresh_candidates (grants : Bool) (m : Round R ν) :
    (refresh grants m).1.arbiter.candidates = updatePool m.arbiter.candidates
      (verdictIds grants m Verdict.leavesPool) (verdictIds grants m (· == .promoted)) := by
  rw [refresh_eq]
  rfl

theorem refresh_excluded (grants : Bool) (m : Round R ν) :
    (refresh grants m).1.outcome.excluded =
      m.outcome.excluded ++ verdictIds grants m Verdict.leavesPool := by
  rw [refresh_eq]
  rfl

theorem refresh_promoted (grants : Bool) (m : Round R ν) :
    (refresh grants m).1.outcome.promoted =
      m.outcome.promoted ++ verdictIds grants m (· == .promoted) := by
  rw [refresh_eq]
  rfl

theorem mem_verdictIds (ids : (m.contenders.map Interactor.id).Nodup) (grants : Bool)
    {c : Interactor R ν} (member : c ∈ m.contenders) (p : Verdict → Bool) :
    c.id ∈ verdictIds grants m p ↔ p (m.arbiter.appraisal grants c).verdict = true := by
  simp only [verdictIds, List.mem_map, List.mem_filter, Interactor.contender_id]
  constructor
  · rintro ⟨x, ⟨⟨d, source, rfl⟩, holds⟩, same⟩
    rw [appraisal_id] at same
    rwa [List.inj_on_of_nodup_map ids source member same] at holds
  · intro holds
    exact ⟨_, ⟨⟨c, member, rfl⟩, holds⟩, m.arbiter.appraisal_id grants c⟩

/-- Who is in the pool after a refresh: those who were, unless they leave, and the promoted. -/
theorem mem_refresh_candidates (ids : (m.contenders.map Interactor.id).Nodup)
    {c : Interactor R ν} (member : c ∈ m.contenders) :
    c.id ∈ (refresh grants m).1.arbiter.candidates ↔
      (c.id ∈ m.arbiter.candidates ∧
        (m.arbiter.appraisal grants c).verdict.leavesPool = false) ∨
      (m.arbiter.appraisal grants c).verdict = .promoted := by
  rw [refresh_candidates, mem_updatePool, mem_verdictIds ids grants member,
    mem_verdictIds ids grants member]
  simp

/-- A refresh keeps the order; one that grants wishes to leave leaves plain candidates only. -/
theorem Orderly.refresh (orderly : Orderly m.arbiter.candidates m.contenders) (grants : Bool) :
    Orderly (refresh grants m).1.arbiter.candidates (refresh grants m).1.contenders ∧
      (grants = true → ∀ c ∈ (Arbiter.refresh grants m).1.contenders,
        c.id ∈ (Arbiter.refresh grants m).1.arbiter.candidates →
          c.standing.status = .candidate) := by
  have standing : ∀ c ∈ (Arbiter.refresh grants m).1.contenders,
      c.id ∈ (Arbiter.refresh grants m).1.arbiter.candidates →
        c.standing.status.isPooled = true ∧ (grants = true → c.standing.status = .candidate) := by
    intro c' member inPool
    rw [refresh_contenders] at member
    obtain ⟨c, source, rfl⟩ := List.mem_map.1 member
    rw [appraisal_id, mem_refresh_candidates orderly.ids source] at inPool
    obtain ⟨verdict, -, -, -⟩ | ⟨verdict, -, -, -⟩ | ⟨-, -, -, -, after⟩ | ⟨verdict, idle, -, -⟩ |
      ⟨verdict, after, stays, -⟩ := m.arbiter.appraisal_cases grants c
    · simp [verdict, Verdict.leavesPool] at inPool
    · simp [verdict, Verdict.leavesPool] at inPool
    · rw [after]
      exact ⟨rfl, fun _ => rfl⟩
    · have member : c.id ∈ m.arbiter.candidates := by
        simpa [verdict, Verdict.leavesPool] using inPool
      have pooled := orderly.pooled c source member
      rw [idle] at pooled
      cases pooled
    · have member : c.id ∈ m.arbiter.candidates := by
        simpa [verdict, Verdict.leavesPool] using inPool
      have pooled := orderly.pooled c source member
      rw [after]
      refine ⟨pooled, fun allowed => ?_⟩
      have notLeaving := stays allowed
      cases status : c.standing.status <;> simp_all [Status.isPooled]
  refine ⟨⟨?_, fun c member inPool => (standing c member inPool).1⟩,
    fun allowed c member inPool => (standing c member inPool).2 allowed⟩
  rw [map_id_eq (refresh_tame grants m)]
  exact orderly.ids

/-- `d` is `c` with another rank in the pool. -/
def Ranked (c d : Interactor R ν) : Prop := ∃ p, d = { c with candidateProbability := p }

omit [Scalar R] in
instance : IsTrans (Interactor R ν) Ranked where
  trans := by
    rintro _ _ _ ⟨p, rfl⟩ ⟨q, rfl⟩
    exact ⟨q, rfl⟩

/-- Sharing out the evidence changes ranks only. -/
theorem shareOut_ranked (a : Arbiter R) (cs : List (Interactor R ν)) :
    List.Forall₂ Ranked cs (a.shareOut cs) := by
  have refl : ∀ c : Interactor R ν, Ranked c c := fun c => ⟨c.candidateProbability, rfl⟩
  unfold shareOut
  simp only
  generalize (a.candidates.map fun id => ((findContender? id cs).map evidenceOf).getD _) = evidences
  generalize a.candidates.zip evidences = shares
  generalize logSumExp evidences = total
  induction shares generalizing cs with
  | nil => exact List.forall₂_same.2 fun c _ => refl c
  | cons share rest ih =>
    rw [List.foldl_cons]
    refine forall₂_trans ?_ (ih _)
    exact forall₂_modifyContender refl (fun _ => ⟨_, rfl⟩) share.1 cs

/-- What changing the ranks of contenders does to all of them. -/
theorem forall₂_shareOut {rel : Interactor R ν → Interactor R ν → Prop}
    (ranks : ∀ (c : Interactor R ν) (p : R), rel c { c with candidateProbability := p })
    (a : Arbiter R) (cs : List (Interactor R ν)) : List.Forall₂ rel cs (a.shareOut cs) := by
  refine (a.shareOut_ranked cs).imp ?_
  rintro c d ⟨p, rfl⟩
  exact ranks c p

theorem shareOut_steady (a : Arbiter R) (cs : List (Interactor R ν)) :
    List.Forall₂ Interactor.Steady cs (a.shareOut cs) :=
  forall₂_shareOut (fun _ _ => .of_eq rfl rfl) a cs

/-- All that the rules of its members do to a round, but for the flags. -/
theorem updateRules_eq (m : Round R ν) :
    updateRules m = { m with
      contenders := m.contenders.map fun c =>
        if c.id ∈ m.arbiter.candidates then c.afterRules else c
      shared := (updateRules m).shared
      reports := m.reports ++ m.contenders.flatMap fun c =>
        if c.id ∈ m.arbiter.candidates then (c.rulebook.update c.views).firings else [] } := by
  have updated (c : Interactor R ν) (queue : TaskQueue) :
      (if Contender.id c ∈ m.arbiter.candidates then
        (((Contender.updateRules c queue).1, (Contender.updateRules c queue).2.2),
          (Contender.updateRules c queue).2.1)
        else ((c, []), queue) : (Interactor R ν × List (Firing ν)) × TaskQueue).1 =
      if c.id ∈ m.arbiter.candidates then (c.afterRules, (c.rulebook.update c.views).firings)
        else (c, []) := by
    simp only [Interactor.contender_id, Interactor.contender_updateRules,
      Interactor.updateRules_fst, Interactor.updateRules_firings]
    split <;> rfl
  simp only [updateRules, passThrough_fst updated, List.map_map, List.flatMap_def,
    Function.comp_def, apply_ite Prod.fst, apply_ite Prod.snd]

theorem updateRules_contenders (m : Round R ν) :
    (updateRules m).contenders = m.contenders.map fun c =>
      if c.id ∈ m.arbiter.candidates then c.afterRules else c := by
  rw [updateRules_eq]

theorem updateRules_reports (m : Round R ν) :
    (updateRules m).reports = m.reports ++ m.contenders.flatMap fun c =>
      if c.id ∈ m.arbiter.candidates then (c.rulebook.update c.views).firings else [] := by
  rw [updateRules_eq]

/-- What the rules of its members do to a pool. -/
theorem forall₂_updateRules {rel : Interactor R ν → Interactor R ν → Prop} (refl : ∀ c, rel c c)
    (rules : ∀ c, rel c c.afterRules) (m : Round R ν) :
    List.Forall₂ rel m.contenders (updateRules m).contenders := by
  rw [updateRules_contenders]
  refine forall₂_map fun c => ?_
  split
  · exact rules c
  · exact refl c

theorem updateRules_steady (m : Round R ν) :
    List.Forall₂ Interactor.Steady m.contenders (updateRules m).contenders :=
  forall₂_updateRules Interactor.steady_refl Interactor.steady_afterRules m

/-- A round of mediation up to the claims: the pool is refreshed, its members evaluate their rules,
and it is refreshed again. -/
def settling (a : Arbiter R) (contenders : List (Interactor R ν)) (queue : TaskQueue) :
    Round R ν × Option (InteractorId × R) :=
  let m := (refresh false (⟨a, contenders, queue, {}, []⟩ : Round R ν)).1
  refresh true (updateRules { m with contenders := m.arbiter.shareOut m.contenders })

theorem mediate_eq (a : Arbiter R) (contenders : List (Interactor R ν)) (queue : TaskQueue) :
    a.mediate contenders queue =
      match claimers (a.settling contenders queue).1 with
      | [] => (a.settling contenders queue).1
      | [claimer] => settleClaim (a.settling contenders queue).1 claimer
      | _ => settleClaims (a.settling contenders queue).1 (a.settling contenders queue).2 := rfl

/-- What is known of a settled pool. -/
structure Settled (a : Arbiter R) (contenders : List (Interactor R ν))
    (m : Round R ν) : Prop where
  orderly : Orderly m.arbiter.candidates m.contenders
  tame : List.Forall₂ Interactor.Tame contenders m.contenders
  plain : ∀ c ∈ m.contenders, c.id ∈ m.arbiter.candidates → c.standing.status = .candidate
  threshold : m.arbiter.threshold = a.threshold

theorem settled_settling {a : Arbiter R} {contenders : List (Interactor R ν)}
    (orderly : Orderly a.candidates contenders) (queue : TaskQueue) :
    Settled a contenders (a.settling contenders queue).1 := by
  let start : Round R ν := ⟨a, contenders, queue, {}, []⟩
  have first : Orderly (refresh false start).1.arbiter.candidates
      (refresh false start).1.contenders := (Orderly.refresh (m := start) orderly false).1
  let shared : Round R ν :=
    { (refresh false start).1 with
      contenders := (refresh false start).1.arbiter.shareOut (refresh false start).1.contenders }
  have shares : List.Forall₂ Interactor.Steady (refresh false start).1.contenders
      (updateRules shared).contenders :=
    forall₂_trans (shareOut_steady _ _) (updateRules_steady shared)
  have second := Orderly.refresh (m := updateRules shared) (first.steady shares) true
  refine ⟨second.1, ?_, second.2 rfl, rfl⟩
  refine forall₂_trans (refresh_tame false start) ?_
  exact forall₂_trans (shares.imp fun _ _ steady => steady.toTame) (refresh_tame true _)

end Arbiter

end TouchIntent
