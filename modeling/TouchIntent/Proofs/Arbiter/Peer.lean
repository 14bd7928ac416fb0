import TouchIntent.Proofs.Arbiter.Claims
import TouchIntent.Proofs.Interactor.Peer

/-!
# Rounds of mediation among peers

A round of mediation decides the same among peers, position by position, and leaves peers. Whatever
the arbiter looks at is one of the things that peers agree on.
-/

namespace TouchIntent.Arbiter

variable {R ν : Type} [Scalar R]

/-- Two rounds of mediation that have come equally far. -/
structure Peers (m m' : Round R ν) : Prop where
  arbiter : m'.arbiter = m.arbiter
  outcome : m'.outcome = m.outcome
  contenders : List.Forall₂ Interactor.Peer m.contenders m'.contenders

variable {cs cs' : List (Interactor R ν)} {c c' : Interactor R ν}
  {m m' : Round R ν}

omit [Scalar R] in
/-- Folding over lists that the steps cannot tell apart. -/
theorem foldl_eq_of {α β : Type} {rel : α → α → Prop} {step : β → α → β}
    (alike : ∀ acc a b, rel a b → step acc b = step acc a) {as bs : List α}
    (all : List.Forall₂ rel as bs) (acc : β) : bs.foldl step acc = as.foldl step acc := by
  induction all generalizing acc with
  | nil => rfl
  | cons ab _ ih => rw [List.foldl_cons, List.foldl_cons, alike _ _ _ ab, ih]

/-! ## Refreshing the pool -/

theorem evidenceOf_peer (peer : c.Peer c') : evidenceOf c' = evidenceOf c :=
  congrArg (fun e => e.getD Scalar.negInfinity) peer.meanEvidence?

/-- Peers are judged alike, by the same evidence. -/
structure SameAppraisal (x x' : Appraisal R (Interactor R ν)) : Prop where
  contender : x.contender.Peer x'.contender
  verdict : x'.verdict = x.verdict
  evidence : x'.evidence = x.evidence

theorem appraisal_peer (peer : c.Peer c') (a : Arbiter R) (grants : Bool) :
    SameAppraisal (a.appraisal grants c) (a.appraisal grants c') := by
  rw [appraisal_eq, appraisal_eq]
  simp only [evidenceOf_peer peer, peer.isCandidate, peer.hasSelfExcluded, peer.id_eq]
  split_ifs
  · exact ⟨peer.granted, rfl, rfl⟩
  · exact ⟨peer.exclude, rfl, rfl⟩
  · exact ⟨(peer.apply .promote).1, rfl, rfl⟩
  · exact ⟨peer.resetObservations, rfl, rfl⟩
  · exact ⟨peer, rfl, rfl⟩

theorem best_peer {xs xs' : List (Appraisal R (Interactor R ν))}
    (all : List.Forall₂ SameAppraisal xs xs') : best xs' = best xs := by
  refine foldl_eq_of (fun acc x x' same => ?_) all none
  simp only [Interactor.contender_isCandidate, Interactor.contender_id, same.evidence,
    same.contender.isCandidate, same.contender.id_eq]

theorem ids_peer {xs xs' : List (Appraisal R (Interactor R ν))}
    (all : List.Forall₂ SameAppraisal xs xs') (p : Verdict → Bool) :
    ((xs'.filter fun x => p x.verdict).map fun x => Contender.id x.contender) =
      (xs.filter fun x => p x.verdict).map fun x => Contender.id x.contender := by
  have judged : xs'.map (fun x => (x.contender.id, x.verdict)) =
      xs.map fun x => (x.contender.id, x.verdict) :=
    map_eq_of (fun _ _ same => Prod.ext same.contender.id_eq same.verdict) all
  have split (ys : List (Appraisal R (Interactor R ν))) :
      ((ys.filter fun x => p x.verdict).map fun x => Contender.id x.contender) =
        ((ys.map fun x => (x.contender.id, x.verdict)).filter fun y => p y.2).map Prod.fst := by
    rw [List.filter_map, List.map_map]
    rfl
  rw [split, split, judged]

theorem Peers.refresh (peers : Peers m m') (grants : Bool) :
    Peers (Arbiter.refresh grants m).1 (Arbiter.refresh grants m').1 ∧
      (Arbiter.refresh grants m').2 = (Arbiter.refresh grants m).2 := by
  have all : List.Forall₂ SameAppraisal (m.contenders.map (m.arbiter.appraisal grants))
      (m'.contenders.map (m'.arbiter.appraisal grants)) := by
    rw [peers.arbiter, List.forall₂_map_left_iff, List.forall₂_map_right_iff]
    exact peers.contenders.imp fun _ _ peer => appraisal_peer peer _ grants
  have leaving := ids_peer all Verdict.leavesPool
  have joining := ids_peer all (· == .promoted)
  rw [refresh_eq grants m, refresh_eq grants m']
  refine ⟨⟨?_, ?_, ?_⟩, best_peer all⟩
  · simp only [leaving, joining]
    rw [peers.arbiter]
  · simp only [leaving, joining]
    rw [peers.outcome]
  · simp only [List.forall₂_map_left_iff (f := Appraisal.contender),
      List.forall₂_map_right_iff (f := Appraisal.contender)]
    exact all.imp fun _ _ same => same.contender

/-- Ranks in the pool are no part of what peers agree on. -/
theorem shareOut_peers (a : Arbiter R) (all : List.Forall₂ Interactor.Peer cs cs') :
    List.Forall₂ Interactor.Peer (a.shareOut cs) (a.shareOut cs') := by
  have after : List.Forall₂ Interactor.Peer cs (a.shareOut cs') := by
    refine forall₂_comp all (a.shareOut_ranked cs') ?_
    rintro c c' d peer ⟨q, rfl⟩
    exact peer.rank c.candidateProbability q
  refine forall₂_comp (a.shareOut_ranked cs).flip after ?_
  rintro d c c' ⟨p, rfl⟩ peer
  exact peer.rank p c'.candidateProbability

theorem Peers.updateRules (peers : Peers m m') :
    Peers (Arbiter.updateRules m) (Arbiter.updateRules m') where
  arbiter := peers.arbiter
  outcome := peers.outcome
  contenders := by
    rw [updateRules_contenders, updateRules_contenders, List.forall₂_map_left_iff,
      List.forall₂_map_right_iff]
    refine peers.contenders.imp fun c c' peer => ?_
    rw [peer.id_eq, peers.arbiter]
    split
    · exact peer.afterRules
    · exact peer

theorem Peers.settling (a : Arbiter R) (all : List.Forall₂ Interactor.Peer cs cs')
    (queue queue' : TaskQueue) :
    Peers (a.settling cs queue).1 (a.settling cs' queue').1 ∧
      (a.settling cs' queue').2 = (a.settling cs queue).2 := by
  let m : Round R ν := ⟨a, cs, queue, {}, []⟩
  let m' : Round R ν := ⟨a, cs', queue', {}, []⟩
  have start : Peers m m' := ⟨rfl, rfl, all⟩
  have first := (start.refresh false).1
  have shared : Peers
      { (Arbiter.refresh false m).1 with
        contenders := (Arbiter.refresh false m).1.arbiter.shareOut
          (Arbiter.refresh false m).1.contenders }
      { (Arbiter.refresh false m').1 with
        contenders := (Arbiter.refresh false m').1.arbiter.shareOut
          (Arbiter.refresh false m').1.contenders } :=
    ⟨first.arbiter, first.outcome, first.arbiter ▸ shareOut_peers _ first.contenders⟩
  exact shared.updateRules.refresh true

/-! ## Settling the claims -/

/-- An id leads to peers, or to nobody. -/
theorem findContender?_peer (all : List.Forall₂ Interactor.Peer cs cs') (id : InteractorId) :
    (findContender? id cs = none ∧ findContender? id cs' = none) ∨
      ∃ c c', findContender? id cs = some c ∧ findContender? id cs' = some c' ∧ c.Peer c' := by
  induction all with
  | nil => exact .inl ⟨rfl, rfl⟩
  | @cons c c' _ _ peer _ ih =>
    unfold findContender? at ih ⊢
    rw [List.find?_cons, List.find?_cons, Interactor.contender_id, Interactor.contender_id,
      peer.id_eq]
    by_cases same : (c.id == id) = true
    · rw [same]
      exact .inr ⟨c, c', rfl, rfl, peer⟩
    · rw [Bool.eq_false_iff.2 same]
      exact ih

theorem modifyContender_peers (all : List.Forall₂ Interactor.Peer cs cs') (id : InteractorId)
    {change change' : Interactor R ν → Interactor R ν}
    (changes : ∀ c c', c.Peer c' → (change c).Peer (change' c')) :
    List.Forall₂ Interactor.Peer (modifyContender id change cs)
      (modifyContender id change' cs') := by
  induction all with
  | nil => exact .nil
  | @cons c c' rest rest' peer others ih =>
    unfold modifyContender
    rw [Interactor.contender_id, Interactor.contender_id, peer.id_eq]
    split
    · exact .cons (changes c c' peer) others
    · exact .cons peer ih

theorem Peers.excludeById (peers : Peers m m') (id : InteractorId) :
    Peers (Arbiter.excludeById m id) (Arbiter.excludeById m' id) := by
  unfold Arbiter.excludeById
  rcases findContender?_peer peers.contenders id with
    ⟨absent, absent'⟩ | ⟨c, c', found, found', peer⟩
  · rw [absent, absent']
    exact peers
  · rw [found, found']
    refine ⟨peers.arbiter, ?_, ?_⟩
    · simp only [contender_exclude_snd, peer.isCandidate, peers.outcome]
    · exact modifyContender_peers peers.contenders id fun _ _ _ => peer.exclude

theorem Peers.foldl_excludeById (peers : Peers m m') (excluded : List InteractorId) :
    Peers (excluded.foldl Arbiter.excludeById m) (excluded.foldl Arbiter.excludeById m') := by
  induction excluded generalizing m m' with
  | nil => exact peers
  | cons id rest ih => exact ih (peers.excludeById id)

theorem Peers.awards (peers : Peers m m') (claimer : InteractorId) :
    Arbiter.awards m' claimer = Arbiter.awards m claimer := by
  unfold Arbiter.awards
  rw [peers.arbiter]
  rcases findContender?_peer peers.contenders claimer with
    ⟨absent, absent'⟩ | ⟨c, c', found, found', peer⟩
  · rw [absent, absent']
  · rw [found, found', Option.bind_some, Option.bind_some]
    exact congrArg _ peer.meanEvidence?

theorem Peers.claimers (peers : Peers m m') : Arbiter.claimers m' = Arbiter.claimers m := by
  unfold Arbiter.claimers
  rw [peers.arbiter]
  refine List.filter_congr fun id _ => ?_
  rcases findContender?_peer peers.contenders id with
    ⟨absent, absent'⟩ | ⟨c, c', found, found', peer⟩
  · rw [absent, absent']
  · rw [found, found', Option.any_some, Option.any_some]
    exact peer.isClaiming

theorem Peers.settleClaim (peers : Peers m m') (claimer : InteractorId) :
    Peers (Arbiter.settleClaim m claimer) (Arbiter.settleClaim m' claimer) := by
  cases wins : Arbiter.awards m claimer with
  | false =>
    rw [settleClaim_eq_of_not_awards wins,
      settleClaim_eq_of_not_awards ((peers.awards claimer).trans wins), peers.arbiter]
    apply Peers.foldl_excludeById
    exact ⟨rfl, peers.outcome, peers.contenders⟩
  | true =>
    rw [settleClaim_eq_of_awards wins,
      settleClaim_eq_of_awards ((peers.awards claimer).trans wins), peers.arbiter]
    apply Peers.foldl_excludeById
    refine ⟨rfl, by simp only [peers.outcome], ?_⟩
    exact modifyContender_peers peers.contenders claimer
      fun _ _ peer => (peer.apply .determine).1

theorem Peers.settleClaims (peers : Peers m m') (best : Option (InteractorId × R)) :
    Peers (Arbiter.settleClaims m best) (Arbiter.settleClaims m' best) where
  arbiter := congrArg clear peers.arbiter
  outcome := by
    have reported (m : Round R ν) :
        (Arbiter.settleClaims m best).outcome =
        ⟨m.arbiter.champion best, m.outcome.excluded ++
          ((m.contenders.map fun c => (c.id, c.isCandidate)).filter fun x =>
            decide (m.arbiter.champion best ≠ some x.1) && x.2).map Prod.fst,
          m.outcome.promoted⟩ := by
      rw [List.filter_map, List.map_map]
      exact congrArg (fun excluded => MediationOutcome.mk _ excluded _)
        (settleClaims_excluded m best)
    have read : m'.contenders.map (fun c => (c.id, c.isCandidate)) =
        m.contenders.map fun c => (c.id, c.isCandidate) :=
      map_eq_of (fun _ _ peer => Prod.ext peer.id_eq peer.isCandidate) peers.contenders
    rw [reported, reported, read, peers.arbiter, peers.outcome]
  contenders := by
    rw [settleClaims_contenders, settleClaims_contenders, peers.arbiter,
      List.forall₂_map_left_iff, List.forall₂_map_right_iff]
    refine peers.contenders.imp fun c c' peer => ?_
    rw [peer.id_eq]
    split
    · exact (peer.apply .determine).1
    · exact peer.exclude

/-- A round of mediation decides the same among peers, and leaves peers. -/
theorem mediate_peers (a : Arbiter R) (all : List.Forall₂ Interactor.Peer cs cs')
    (queue queue' : TaskQueue) : Peers (a.mediate cs queue) (a.mediate cs' queue') := by
  obtain ⟨settled, best⟩ := Peers.settling a all queue queue'
  rw [mediate_eq, mediate_eq, settled.claimers, best]
  split
  · exact settled
  · next claimer _ => exact settled.settleClaim claimer
  · exact settled.settleClaims _

end TouchIntent.Arbiter
