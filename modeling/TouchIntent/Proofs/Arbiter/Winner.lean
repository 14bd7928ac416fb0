import TouchIntent.Proofs.Arbiter.Pool

/-!
# Who has won

When the claims on a settled pool are resolved, a sole claim may win, which rules out the other
members of the pool but nobody outside it; of several claims one may win, which rules out everyone
else. A round of mediation therefore keeps a single winner single unless it *overrules*: a sole
claim is awarded while someone outside the pool has won already.
-/

namespace TouchIntent.Arbiter

variable {R ν : Type} [Scalar R] {cs cs' : List (Interactor R ν)}

/-- No two interactors have won. -/
def SingleWinner (cs : List (Interactor R ν)) : Prop :=
  ∀ c ∈ cs, ∀ d ∈ cs, c.isDetermined = true → d.isDetermined = true → c.id = d.id

omit [Scalar R] in
theorem SingleWinner.tame (single : SingleWinner cs) (all : List.Forall₂ Interactor.Tame cs cs') :
    SingleWinner cs' := by
  intro c' hc' d' hd' cwon dwon
  obtain ⟨c, hc, ctame⟩ := exists_source all c' hc'
  obtain ⟨d, hd, dtame⟩ := exists_source all d' hd'
  rw [Interactor.isDetermined_iff] at cwon dwon
  rw [ctame.id_eq, dtame.id_eq]
  exact single c hc d hd (c.isDetermined_iff.2 (ctame.determined cwon))
    (d.isDetermined_iff.2 (dtame.determined dwon))

/-- If no id is shared, changing the first contender of an id changes all of them. -/
theorem modifyContender_eq_map (ids : (cs.map Interactor.id).Nodup) (id : InteractorId)
    (change : Interactor R ν → Interactor R ν) :
    modifyContender id change cs = cs.map fun c => if c.id = id then change c else c := by
  induction cs with
  | nil => rfl
  | cons c others ih =>
    obtain ⟨fresh, rest⟩ := List.nodup_cons.1 ids
    unfold modifyContender
    simp only [Interactor.contender_id, List.map_cons]
    split
    · next same =>
      have untouched : ∀ d ∈ others, (if d.id = id then change d else d) = d := by
        intro d member
        refine if_neg fun equal => fresh ?_
        rw [same, ← equal]
        exact List.mem_map_of_mem member
      rw [List.map_congr_left untouched, List.map_id']
    · rw [ih rest]

omit [Scalar R] in
/-- Changing contenders by themselves, and never their ids. -/
theorem map_id_map {change : Interactor R ν → Interactor R ν} (keeps : ∀ c, (change c).id = c.id)
    (cs : List (Interactor R ν)) :
    (cs.map change).map Interactor.id = cs.map Interactor.id := by
  rw [List.map_map]
  exact List.map_congr_left fun c _ => keeps c

theorem find_spec {id : InteractorId} {c : Interactor R ν} (found : findContender? id cs = some c) :
    c ∈ cs ∧ c.id = id := by
  refine ⟨List.mem_of_find?_eq_some found, ?_⟩
  have holds := List.find?_some found
  simpa using holds

/-- Excluding the contender of an id, said without looking it up. -/
theorem excludeById_contenders {m : Round R ν}
    (ids : (m.contenders.map Interactor.id).Nodup) (id : InteractorId) :
    (excludeById m id).contenders =
      m.contenders.map fun c => if c.id = id then c.exclude.1 else c := by
  unfold excludeById
  cases found : findContender? id m.contenders with
  | none =>
    have absent : ∀ c ∈ m.contenders, (if c.id = id then c.exclude.1 else c) = c := by
      intro c member
      refine if_neg fun same => ?_
      have := List.find?_eq_none.1 found c member
      simp [same] at this
    rw [List.map_congr_left absent, List.map_id']
  | some d =>
    obtain ⟨member, same⟩ := find_spec found
    simp only [Interactor.contender_exclude, modifyContender_eq_map ids]
    refine List.map_congr_left fun c source => ?_
    split
    · next equal =>
      rw [List.inj_on_of_nodup_map ids source member (equal.trans same.symm)]
    · rfl

/-- What excluding a list of ids leaves. -/
structure ExcludedAll (ids : List InteractorId) (cs cs' : List (Interactor R ν)) : Prop where
  tame : List.Forall₂ Interactor.Tame cs cs'
  others : ∀ c ∈ cs, c.id ∉ ids → c ∈ cs'

theorem excludedAll_foldl (excluded : List InteractorId)
    (m : Round R ν) (ids : (m.contenders.map Interactor.id).Nodup) :
    ExcludedAll excluded m.contenders (excluded.foldl excludeById m).contenders ∧
      (excluded.foldl excludeById m).arbiter = m.arbiter := by
  induction excluded generalizing m with
  | nil =>
    exact ⟨⟨List.forall₂_same.2 fun c _ => c.steady_refl.toTame, fun c member _ => member⟩, rfl⟩
  | cons id rest ih =>
    have contenders := excludeById_contenders ids id
    have tame : List.Forall₂ Interactor.Tame m.contenders (excludeById m id).contenders := by
      rw [contenders]
      refine forall₂_map fun c => ?_
      split
      · exact c.tame_exclude
      · exact c.steady_refl.toTame
    have arbiter : (excludeById m id).arbiter = m.arbiter := by
      unfold excludeById
      split <;> rfl
    obtain ⟨later, same⟩ := ih (excludeById m id) (by rwa [map_id_eq tame])
    refine ⟨⟨forall₂_trans tame later.tame, fun c member out => ?_⟩, same.trans arbiter⟩
    rw [List.mem_cons, not_or] at out
    refine later.others c ?_ out.2
    rw [contenders]
    exact List.mem_map.2 ⟨c, member, if_neg out.1⟩

/-- A sole claim is awarded to the candidate who makes it. -/
def awards (m : Round R ν) (claimer : InteractorId) : Bool :=
  ((findContender? claimer m.contenders).bind Contender.meanEvidence?).any
    fun e => decide (m.arbiter.threshold < e)

/-- A round of mediation awards a sole claim while someone has won already. -/
def Overrules (a : Arbiter R) (cs : List (Interactor R ν)) (queue : TaskQueue) : Prop :=
  ∃ claimer, claimers (a.settling cs queue).1 = [claimer] ∧
    awards (a.settling cs queue).1 claimer = true ∧
      ∃ w ∈ (a.settling cs queue).1.contenders, w.isDetermined = true

section Settle

variable {m : Round R ν}

/-- Whoever claims is a member of the pool. -/
theorem claimers_spec {claimer : InteractorId} (claims : claimer ∈ claimers m) :
    claimer ∈ m.arbiter.candidates ∧ ∃ c ∈ m.contenders, c.id = claimer := by
  obtain ⟨inPool, found⟩ := List.mem_filter.1 claims
  cases same : findContender? claimer m.contenders with
  | none =>
    rw [same] at found
    cases found
  | some c =>
    obtain ⟨member, id_eq⟩ := find_spec same
    exact ⟨inPool, c, member, id_eq⟩

/-- A sole claim that is awarded makes a winner of the claimer, and spares it from exclusion. -/
theorem settleClaim_eq_of_awards {claimer : InteractorId} (wins : awards m claimer = true) :
    settleClaim m claimer = (m.arbiter.candidates.filter (· != claimer)).foldl excludeById
      { m with
        arbiter := m.arbiter.clear
        contenders := modifyContender claimer Contender.determine m.contenders
        outcome := { m.outcome with determined := some claimer } } := by
  unfold awards at wins
  simp only [settleClaim, wins, if_true]

/-- A sole claim that is not awarded leads to the exclusion of the whole pool. -/
theorem settleClaim_eq_of_not_awards {claimer : InteractorId} (fails : awards m claimer = false) :
    settleClaim m claimer =
      m.arbiter.candidates.foldl excludeById { m with arbiter := m.arbiter.clear } := by
  unfold awards at fails
  simp only [settleClaim, fails, Bool.false_eq_true, if_false]

/-- Settling a sole claim writes neither what is shared nor what has been reported. -/
theorem settleClaim_frame (m : Round R ν) (claimer : InteractorId) :
    (settleClaim m claimer).shared = m.shared ∧ (settleClaim m claimer).reports = m.reports := by
  have excluding (excluded : List InteractorId) (m : Round R ν) :
      (excluded.foldl excludeById m).shared = m.shared ∧
        (excluded.foldl excludeById m).reports = m.reports := by
    induction excluded generalizing m with
    | nil => exact ⟨rfl, rfl⟩
    | cons id rest ih =>
      rw [List.foldl_cons, (ih _).1, (ih _).2]
      unfold excludeById
      split <;> exact ⟨rfl, rfl⟩
  cases wins : awards m claimer with
  | false =>
    rw [settleClaim_eq_of_not_awards wins]
    exact excluding _ _
  | true =>
    rw [settleClaim_eq_of_awards wins]
    exact excluding _ _

/-- A sole claim that is awarded: the claimer is determined, and the rest of the pool excluded. -/
theorem settleClaim_of_awards (ids : (m.contenders.map Interactor.id).Nodup)
    {claimer : InteractorId} (wins : awards m claimer = true) :
    ExcludedAll (m.arbiter.candidates.filter (· != claimer))
        (m.contenders.map fun c => if c.id = claimer then c.determine.1 else c)
        (settleClaim m claimer).contenders ∧
      (settleClaim m claimer).arbiter = m.arbiter.clear := by
  have ids' : ((m.contenders.map fun c =>
      if c.id = claimer then c.determine.1 else c).map Interactor.id).Nodup := by
    rw [map_id_map fun c => by split <;> rfl]
    exact ids
  rw [settleClaim_eq_of_awards wins, modifyContender_eq_map ids]
  exact excludedAll_foldl _ { m with
    arbiter := m.arbiter.clear
    contenders := m.contenders.map fun c => if c.id = claimer then c.determine.1 else c
    outcome := { m.outcome with determined := some claimer } } ids'

/-- A sole claim that is not awarded: the whole pool is excluded. -/
theorem settleClaim_of_not_awards (ids : (m.contenders.map Interactor.id).Nodup)
    {claimer : InteractorId} (fails : awards m claimer = false) :
    ExcludedAll m.arbiter.candidates m.contenders (settleClaim m claimer).contenders ∧
      (settleClaim m claimer).arbiter = m.arbiter.clear := by
  rw [settleClaim_eq_of_not_awards fails]
  exact excludedAll_foldl _ { m with arbiter := m.arbiter.clear } ids

/-- Resolving a sole claim: ids stay, the pool is emptied, and the winners are those from before,
and the claimer if the claim is awarded. -/
theorem settleClaim_spec (ids : (m.contenders.map Interactor.id).Nodup) (claimer : InteractorId) :
    (settleClaim m claimer).contenders.map Interactor.id = m.contenders.map Interactor.id ∧
      (settleClaim m claimer).arbiter = m.arbiter.clear ∧
      ∀ c' ∈ (settleClaim m claimer).contenders, c'.isDetermined = true →
        (awards m claimer = true ∧ c'.id = claimer) ∨
          ∃ c ∈ m.contenders, c.id = c'.id ∧ c.isDetermined = true := by
  cases wins : awards m claimer with
  | false =>
    obtain ⟨excluded, arbiter⟩ := settleClaim_of_not_awards ids wins
    refine ⟨map_id_eq excluded.tame, arbiter, fun c' member won => .inr ?_⟩
    obtain ⟨c, source, tame⟩ := exists_source excluded.tame c' member
    exact ⟨c, source, tame.id_eq.symm,
      c.isDetermined_iff.2 (tame.determined (c'.isDetermined_iff.1 won))⟩
  | true =>
    obtain ⟨excluded, arbiter⟩ := settleClaim_of_awards ids wins
    have id_eq : ∀ c : Interactor R ν, (if c.id = claimer then c.determine.1 else c).id = c.id := by
      intro c
      split <;> rfl
    refine ⟨?_, arbiter, fun c' member won => ?_⟩
    · rw [map_id_eq excluded.tame, map_id_map id_eq]
    · obtain ⟨d, source, tame⟩ := exists_source excluded.tame c' member
      have dwon := tame.determined (c'.isDetermined_iff.1 won)
      obtain ⟨c, original, rfl⟩ := List.mem_map.1 source
      rw [tame.id_eq, id_eq]
      by_cases claims : c.id = claimer
      · exact .inl ⟨rfl, claims⟩
      · rw [if_neg claims] at dwon
        exact .inr ⟨c, original, rfl, c.isDetermined_iff.2 dwon⟩

/-- Resolving several claims leaves no winner but the one that it makes. -/
theorem settleClaims_spec (best : Option (InteractorId × R)) :
    (settleClaims m best).contenders.map Interactor.id = m.contenders.map Interactor.id ∧
      (settleClaims m best).arbiter = m.arbiter.clear ∧
      SingleWinner (settleClaims m best).contenders := by
  unfold settleClaims
  simp only [Interactor.contender_id, Interactor.contender_determine, List.map_map]
  generalize (best.filter _).map Prod.fst = winner
  have settles : ∀ c : Interactor R ν,
      ((if winner = some c.id then (c.determine.1, false) else Contender.exclude c).1.id = c.id ∧
        ((if winner = some c.id then (c.determine.1, false) else Contender.exclude c).1.isDetermined
            = true → winner = some c.id)) := by
    intro c
    split
    · next wins => exact ⟨rfl, fun _ => wins⟩
    · refine ⟨rfl, fun won => ?_⟩
      have idle := c.exclude_standing
      rw [Interactor.isDetermined_iff, Interactor.contender_exclude, idle] at won
      cases won
  refine ⟨List.map_congr_left fun c _ => (settles c).1, trivial, ?_⟩
  intro c' hc' d' hd' cwon dwon
  obtain ⟨c, -, rfl⟩ := List.mem_map.1 hc'
  obtain ⟨d, -, rfl⟩ := List.mem_map.1 hd'
  have cwins := (settles c).2 cwon
  have dwins := (settles d).2 dwon
  simp only [Function.comp_apply]
  rw [(settles c).1, (settles d).1]
  exact Option.some.inj (cwins.symm.trans dwins)

end Settle

/-- A round of mediation keeps ids apart, and the pool orderly. -/
theorem Orderly.mediate {a : Arbiter R} (orderly : Orderly a.candidates cs) (queue : TaskQueue) :
    Orderly (a.mediate cs queue).arbiter.candidates (a.mediate cs queue).contenders := by
  have settled := settled_settling orderly queue
  have emptied : ∀ m : Round R ν,
      m.contenders.map Interactor.id = (a.settling cs queue).1.contenders.map Interactor.id →
      m.arbiter = (a.settling cs queue).1.arbiter.clear →
      Orderly m.arbiter.candidates m.contenders := by
    intro m ids cleared
    refine ⟨by rw [ids]; exact settled.orderly.ids, fun c _ inPool => ?_⟩
    rw [cleared] at inPool
    cases inPool
  rw [mediate_eq]
  split
  · exact settled.orderly
  · next claimer _ =>
    have spec := settleClaim_spec settled.orderly.ids claimer
    exact emptied _ spec.1 spec.2.1
  · have spec := settleClaims_spec (m := (a.settling cs queue).1) (a.settling cs queue).2
    exact emptied _ spec.1 spec.2.1

/-- A round of mediation keeps a single winner single exactly if it does not overrule. -/
theorem singleWinner_mediate_iff {a : Arbiter R} (orderly : Orderly a.candidates cs)
    (single : SingleWinner cs) (queue : TaskQueue) :
    SingleWinner (a.mediate cs queue).contenders ↔ ¬ a.Overrules cs queue := by
  have settled := settled_settling orderly queue
  have before := single.tame settled.tame
  have ids := settled.orderly.ids
  rw [mediate_eq]
  split
  · next silent =>
    refine ⟨fun _ overrules => ?_, fun _ => before⟩
    obtain ⟨claimer, sole, -⟩ := overrules
    rw [silent] at sole
    cases sole
  · next claimer sole =>
    constructor
    · rintro after ⟨claimer', sole', wins, w, member, won⟩
      obtain rfl : claimer = claimer' := by simpa using sole.symm.trans sole'
      have claims : claimer ∈ claimers (a.settling cs queue).1 := by simp [sole]
      obtain ⟨inPool, c, source, named⟩ := claimers_spec claims
      have plain : c.standing.status = .candidate := settled.plain c source (named ▸ inPool)
      have outside : w.id ∉ (a.settling cs queue).1.arbiter.candidates := by
        intro pooled
        have status := settled.plain w member pooled
        rw [w.isDetermined_iff.1 won] at status
        cases status
      have differ : w.id ≠ claimer := fun same => outside (same ▸ inPool)
      have others := (settleClaim_of_awards ids wins).1.others
      -- The winner of before is outside the pool, so nothing happens to it.
      have stays : w ∈ (settleClaim (a.settling cs queue).1 claimer).contenders := by
        refine others w (List.mem_map.2 ⟨w, member, if_neg differ⟩) fun excluded => ?_
        exact outside (List.mem_filter.1 excluded).1
      have joins : c.determine.1 ∈ (settleClaim (a.settling cs queue).1 claimer).contenders := by
        refine others _ (List.mem_map.2 ⟨c, source, if_pos named⟩) fun excluded => ?_
        have kept := (List.mem_filter.1 excluded).2
        simp [show c.determine.1.id = c.id from rfl, named] at kept
      have wins : c.determine.1.isDetermined = true := by
        rw [Interactor.isDetermined_iff, c.determine_standing, if_pos plain]
      have same := after w stays _ joins won wins
      exact differ (same.trans named)
    · intro fair c' hc' d' hd' cwon dwon
      have spec := (settleClaim_spec ids claimer).2.2
      rcases spec c' hc' cwon with ⟨wins, cid⟩ | ⟨c, hc, cid, won⟩
      · rcases spec d' hd' dwon with ⟨-, did⟩ | ⟨d, hd, did, won⟩
        · rw [cid, did]
        · exact absurd ⟨claimer, sole, wins, d, hd, won⟩ fair
      · rcases spec d' hd' dwon with ⟨wins, -⟩ | ⟨d, hd, did, won'⟩
        · exact absurd ⟨claimer, sole, wins, c, hc, won⟩ fair
        · rw [← cid, ← did]
          exact before c hc d hd won won'
  · next several =>
    refine ⟨fun _ overrules => ?_, fun _ => (settleClaims_spec _).2.2⟩
    obtain ⟨claimer, sole, -⟩ := overrules
    exact several claimer sole

end TouchIntent.Arbiter
