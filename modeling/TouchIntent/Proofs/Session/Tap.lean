import Mathlib
import TouchIntent.Proofs.Interactor.OneStop
import TouchIntent.Proofs.Session.Run

/-!
# Elements that are tapped

Two elements watch for a tap in the same place. When they both claim the touches the better one
wins, and the other one starts over; but the winner has left the pool, so a tap later the other one
is alone in claiming.
-/

namespace TouchIntent

open Scalar Arbiter

/-- What a single behaviour makes of an interactor. -/
theorem Interactor.build_single {ν : Type} (r : Recognizer EReal) : ∃ core : Interactor EReal ν,
    Interactor.build 0 [r] = .ok core ∧ core.isHidden = false ∧
      core.prior = [((1 : ℝ) : EReal)] ∧
      core.behaviors = [{ r with logPosterior := unobservedPosterior }] ∧
      core.rulebook = .empty [r.label] ∧ core.claimRule = none ∧ core.standing = .idle := by
  have whole : (one : EReal) / ofNat 1 = ((1 : ℝ) : EReal) := by
    rw [exact_one, exact_ofNat, ← EReal.coe_one, ← EReal.coe_div]
    norm_num
  exact ⟨_, rfl, rfl, congrArg (fun p => [p]) whole, rfl, rfl, rfl, rfl⟩

/-- An element of a scene that claims the touches when it is tapped. -/
theorem SceneInteractor.build_tap {ν : Type} {compiler : Compiler EReal}
    {i : SceneInteractor EReal} {g : Gaussian EReal} (behaviors : i.behaviors = ["C"])
    (compiled : compiler.compile "C" i.bounds = .ok {
      label := "C"
      model := .single g
      pattern := ⟨[⟨true, true, []⟩], [[true]], []⟩
      origin := none
      pointers := [0, 1] })
    (rules : i.rules = ["C is complete"]) (claimOn : i.claimOn = some "C_is_complete")
    (prior : i.prior = none) :
    ∃ a : Interactor EReal ν, i.build compiler defaultMaxObservations = .ok a ∧
      a.Watches g false [] ∧ a.standing = .idle := by
  obtain ⟨r, recognizer⟩ : ∃ r : Recognizer EReal, r = .ofBehavior {
      label := "C"
      model := .single g
      pattern := ⟨[⟨true, true, []⟩], [[true]], []⟩
      origin := none
      pointers := [0, 1] } defaultMaxObservations := ⟨_, rfl⟩
  obtain ⟨core, built, visible, weights, recognizers, rulebook, -, idle⟩ :=
    @Interactor.build_single ν r
  have named : r.label = "C" := by rw [recognizer]; rfl
  obtain ⟨book, added, nodes, names⟩ : ∃ book : Rulebook EReal ν,
      core.rulebook.addRule "C is complete" = (book, .ok "C_is_complete") ∧
      book.nodes = [{ label := "C_is_complete", kind := .ask 0 ⟨.is, .complete⟩ }] ∧
      book.node? "C_is_complete" = some 0 := by
    rw [rulebook, named]
    exact ⟨_, Rulebook.addRule_tap, rfl, rfl⟩
  have satisfied : (book.isSatisfied? "C_is_complete").isSome = true := by
    rw [Rulebook.isSatisfied?, Rulebook.state?, names]
    simp [nodes]
  refine ⟨{ core with name := i.id, rulebook := book, claimRule := some "C_is_complete" }, ?_,
    ⟨visible, weights, ⟨_, recognizers, ?_, ?_, fun some => absurd rfl some⟩,
      fun _ some => absurd rfl some, ⟨_, nodes, rfl, fun _ => rfl⟩, names, rfl⟩, idle⟩
  · simp only [SceneInteractor.build, behaviors, rules, claimOn, prior, List.mapM_cons,
      List.mapM_nil, compiled, List.foldlM_cons, List.foldlM_nil]
    rw [← recognizer]
    simp only [bind, Except.bind, pure, Except.pure, built, Interactor.addRule, added,
      Interactor.claimOn, satisfied, if_true]
  · rw [recognizer]
    exact ⟨rfl, rfl, rfl, ⟨_, _, rfl, rfl, rfl⟩, rfl⟩
  · rw [recognizer]
    rfl

section Mediation

variable {ν : Type} {a : Arbiter EReal} {c d : Interactor EReal ν} {queue : TaskQueue} {e f : EReal}

theorem evidenceOf_eq (evidence : c.meanEvidence? = some e) : evidenceOf c = e :=
  congrArg (fun x => x.getD negInfinity) evidence

/-- Evidence makes a candidate of an interactor that is none. -/
theorem appraisal_promoted (grants : Bool) (idle : c.standing = .idle)
    (evidence : c.meanEvidence? = some e) (enough : a.threshold ≤ e)
    (outside : c.id ∉ a.candidates) :
    a.appraisal grants c = ⟨c.promote.1, .promoted, e⟩ := by
  have noCandidate : c.isCandidate = false := by rw [Interactor.isCandidate, idle]; rfl
  have loyal : c.hasSelfExcluded = false := by rw [Interactor.hasSelfExcluded, idle]; rfl
  simp [appraisal_eq, evidenceOf_eq evidence, noCandidate, loyal, enough, outside]

/-- Evidence keeps a candidate or a winner where it is. -/
theorem appraisal_kept (grants : Bool) {status : Status} {claims : Bool}
    (stands : c.standing = ⟨status, claims⟩)
    (stays : status = .candidate ∨ status = .determined) (evidence : c.meanEvidence? = some e)
    (enough : a.threshold ≤ e) : a.appraisal grants c = ⟨c, .kept, e⟩ := by
  have member : c.isCandidate = true := by
    rw [Interactor.isCandidate, stands]
    rcases stays with rfl | rfl <;> rfl
  have loyal : c.hasSelfExcluded = false := by
    rw [Interactor.hasSelfExcluded, stands]
    rcases stays with rfl | rfl <;> rfl
  simp [appraisal_eq, evidenceOf_eq evidence, member, loyal, enough.not_gt]

/-- A refresh that keeps everyone changes nothing but flags. -/
theorem refresh_kept {m : Round EReal ν} {grants : Bool}
    (kept : ∀ c ∈ m.contenders, ∃ e, m.arbiter.appraisal grants c = ⟨c, .kept, e⟩) :
    ∃ shared, (refresh grants m).1 = { m with shared } := by
  have nobody (p : Verdict → Bool) (stays : p .kept = false) :
      (m.contenders.map (m.arbiter.appraisal grants)).filter (fun x => p x.verdict) = [] := by
    refine List.filter_eq_nil_iff.2 fun x member => ?_
    obtain ⟨c, source, rfl⟩ := List.mem_map.1 member
    obtain ⟨e, same⟩ := kept c source
    rw [same, stays]
    exact Bool.false_ne_true
  have contenders : (m.contenders.map (m.arbiter.appraisal grants)).map Appraisal.contender =
      m.contenders := by
    rw [List.map_map]
    refine (List.map_congr_left fun c source => ?_).trans (List.map_id _)
    obtain ⟨e, same⟩ := kept c source
    rw [Function.comp_apply, same]
    rfl
  refine ⟨(refresh grants m).1.shared, ?_⟩
  rw [refresh_eq]
  simp only [nobody Verdict.leavesPool rfl, nobody (· == .promoted) rfl, contenders,
    List.map_nil, List.append_nil, updatePool, List.foldl_nil, List.not_mem_nil,
    not_false_eq_true, decide_true, List.filter_true]

variable {g : Gaussian EReal} {s : Sample EReal} {l : ℝ}

/-- The evidence of a single tap. -/
theorem evidence_tap {asked : Bool} (watches : c.Watches g asked [s])
    (likely : (Model.single g).logLikelihood [s] = l) : c.meanEvidence? = some (l : EReal) := by
  simpa using watches.meanEvidence? (by simp) likely

/-- An idle element that has seen a tap joins the pool and claims the touches. -/
theorem claims_tap (watches : c.Watches g false [s]) (idle : c.standing = .idle)
    (released : s.kind = .up) (ranked : Ranked c.promote.1 d) :
    d.afterRules.Watches g true [s] ∧ d.afterRules.standing = ⟨.candidate, true⟩ ∧
      d.afterRules.id = c.id ∧ d.id = c.id := by
  obtain ⟨p, rfl⟩ := ranked
  have plain : c.promote.1.standing = ⟨.candidate, false⟩ := by
    rw [Interactor.promote_standing, idle]
    rfl
  obtain ⟨watches', stands⟩ := (watches.withStanding c.promote.1.standing p).afterRules released
  refine ⟨watches', ?_, Interactor.afterRules_id _, rfl⟩
  refine stands.trans ?_
  rw [plain]
  rfl

/-- Once the pool has been refreshed, the contenders settle with their new ranks. -/
theorem settling_ranked {t : EReal} {pool pool' : List InteractorId}
    {cs cs' : List (Interactor EReal ν)} {queue queue' : TaskQueue} {outcome : MediationOutcome}
    (refreshed : (refresh false (⟨⟨t, pool⟩, cs, queue, {}, []⟩ : Round EReal ν)).1 =
      ⟨⟨t, pool'⟩, cs', queue', outcome, []⟩) :
    ∃ ranked, List.Forall₂ Ranked cs' ranked ∧ (⟨t, pool⟩ : Arbiter EReal).settling cs queue =
      refresh true (updateRules ⟨⟨t, pool'⟩, ranked, queue', outcome, []⟩) := by
  refine ⟨_, shareOut_ranked (⟨t, pool'⟩ : Arbiter EReal) cs', ?_⟩
  rw [settling, refreshed]

/-- Once the pool has been refreshed, two contenders settle with their new ranks. -/
theorem settling_pair {t : EReal} {pool pool' : List InteractorId} {c' d' : Interactor EReal ν}
    {queue queue' : TaskQueue} {outcome : MediationOutcome}
    (refreshed : (refresh false (⟨⟨t, pool⟩, [c, d], queue, {}, []⟩ : Round EReal ν)).1 =
      ⟨⟨t, pool'⟩, [c', d'], queue', outcome, []⟩) :
    ∃ x y, Ranked c' x ∧ Ranked d' y ∧ (⟨t, pool⟩ : Arbiter EReal).settling [c, d] queue =
      refresh true (updateRules ⟨⟨t, pool'⟩, [x, y], queue', outcome, []⟩) := by
  obtain ⟨ranked, all, settles⟩ := settling_ranked refreshed
  obtain - | ⟨first, - | ⟨second, - | -⟩⟩ := all
  exact ⟨_, _, first, second, settles⟩

theorem claiming_candidate (stands : c.standing = ⟨.candidate, true⟩) :
    c.isCandidate = true ∧ c.isClaiming = true := by
  rw [Interactor.isCandidate, Interactor.isClaiming, stands]
  exact ⟨rfl, rfl⟩

/-- Two idle elements that have seen the same tap join the pool and claim, and the first one counts
as the best unless the second one is better. -/
theorem settling_claiming {t : EReal} {k : ℝ} {h : Gaussian EReal}
    (left : c.Watches g false [s]) (right : d.Watches h false [s]) (cidle : c.standing = .idle)
    (didle : d.standing = .idle) (first : c.id = 0) (second : d.id = 1) (released : s.kind = .up)
    (likely : (Model.single g).logLikelihood [s] = l)
    (likely' : (Model.single h).logLikelihood [s] = k) (better : k ≤ l) (enough : t < k) :
    ∃ m c' d', (⟨t, []⟩ : Arbiter EReal).settling [c, d] queue = (m, some (0, (l : EReal))) ∧
      m.arbiter = ⟨t, [0, 1]⟩ ∧ m.contenders = [c', d'] ∧
      (c'.Watches g true [s] ∧ c'.standing = ⟨.candidate, true⟩ ∧ c'.id = 0) ∧
      (d'.Watches h true [s] ∧ d'.standing = ⟨.candidate, true⟩ ∧ d'.id = 1) := by
  have enough' : t < l := enough.trans_le (EReal.coe_le_coe_iff.2 better)
  have cpromoted : (⟨t, []⟩ : Arbiter EReal).appraisal false c = ⟨c.promote.1, .promoted, l⟩ :=
    appraisal_promoted false cidle (evidence_tap left likely) enough'.le List.not_mem_nil
  have dpromoted : (⟨t, []⟩ : Arbiter EReal).appraisal false d = ⟨d.promote.1, .promoted, k⟩ :=
    appraisal_promoted false didle (evidence_tap right likely') enough.le List.not_mem_nil
  obtain ⟨queue', refreshed⟩ : ∃ queue', (refresh false
      (⟨⟨t, []⟩, [c, d], queue, {}, []⟩ : Round EReal ν)).1 =
      ⟨⟨t, [0, 1]⟩, [c.promote.1, d.promote.1], queue', { promoted := [0, 1] }, []⟩ := by
    have joins : c.promote.1.id = 0 ∧ d.promote.1.id = 1 := ⟨first, second⟩
    rw [refresh_eq]
    simp [cpromoted, dpromoted, Verdict.leavesPool, updatePool, joins]
  obtain ⟨x, y, ranked, ranked', settled⟩ := settling_pair refreshed
  obtain ⟨cwatches, cstands, cid, xid⟩ := claims_tap left cidle released ranked
  obtain ⟨dwatches, dstands, did, yid⟩ := claims_tap right didle released ranked'
  obtain ⟨m, ruled⟩ : ∃ m, m = updateRules
      (⟨⟨t, [0, 1]⟩, [x, y], queue', { promoted := [0, 1] }, []⟩ : Round EReal ν) := ⟨_, rfl⟩
  have arbiter : m.arbiter = ⟨t, [0, 1]⟩ := by rw [ruled]; rfl
  have contenders : m.contenders = [x.afterRules, y.afterRules] := by
    rw [ruled, updateRules_contenders]
    simp [xid.trans first, yid.trans second]
  have threshold : m.arbiter.threshold = t := by rw [arbiter]
  have ckept := appraisal_kept true cstands (.inl rfl) (evidence_tap cwatches likely)
    (threshold.trans_le enough'.le)
  have dkept := appraisal_kept true dstands (.inl rfl) (evidence_tap dwatches likely')
    (threshold.trans_le enough.le)
  obtain ⟨shared, stays⟩ : ∃ shared, (refresh true m).1 = { m with shared } := by
    refine refresh_kept fun c member => ?_
    rw [contenders] at member
    rcases List.mem_pair.1 member with rfl | rfl
    · exact ⟨l, ckept⟩
    · exact ⟨k, dkept⟩
  -- Of two candidates of the same evidence the first one is the best.
  have noBetter : ¬ (l : EReal) < k := not_lt.2 (EReal.coe_le_coe_iff.2 better)
  have best : (refresh true m).2 = some (0, (l : EReal)) := by
    rw [refresh_eq]
    simp only [contenders, List.map_cons, List.map_nil, ckept, dkept, best,
      List.foldl_cons, List.foldl_nil, Interactor.contender_isCandidate, Interactor.contender_id,
      claiming_candidate cstands, claiming_candidate dstands, cid.trans first, noBetter,
      if_true, if_false]
  refine ⟨{ m with shared }, x.afterRules, y.afterRules, ?_, arbiter, contenders,
    ⟨cwatches, cstands, cid.trans first⟩, dwatches, dstands, did.trans second⟩
  rw [settled, ← ruled]
  exact Prod.ext stays best

/-- Of two idle elements that have seen the same tap the first one wins, and the other one starts
over. -/
theorem mediate_claiming {t : EReal} (left : c.Watches g false [s])
    (right : d.Watches g false [s]) (cidle : c.standing = .idle) (didle : d.standing = .idle)
    (first : c.id = 0) (second : d.id = 1) (released : s.kind = .up)
    (likely : (Model.single g).logLikelihood [s] = l) (enough : t < l) :
    ∃ c' d', ((⟨t, []⟩ : Arbiter EReal).mediate [c, d] queue).arbiter = ⟨t, []⟩ ∧
      ((⟨t, []⟩ : Arbiter EReal).mediate [c, d] queue).contenders = [c', d'] ∧
      (c'.Watches g true [s] ∧ c'.standing = ⟨.determined, true⟩ ∧ c'.id = 0) ∧
      (d'.Watches g false [] ∧ d'.standing = .idle ∧ d'.id = 1) := by
  obtain ⟨m, x, y, settled, arbiter, contenders, ⟨xwatches, xstands, xid⟩, ywatches, ystands,
    yid⟩ := settling_claiming left right cidle didle first second released likely likely
    le_rfl enough
  have claims : claimers m = [0, 1] := by
    simp [claimers, arbiter, contenders, findContender?, List.find?_cons, xid, yid,
      claiming_candidate xstands, claiming_candidate ystands]
  refine ⟨x.determine.1, y.exclude.1, ?_, ?_, ⟨xwatches.withStanding _ _, ?_, xid⟩,
    ywatches.exclude, y.exclude_standing, yid⟩
  · rw [mediate_eq, settled, claims]
    simp [settleClaims, arbiter, clear]
  · rw [mediate_eq, settled, claims]
    simp [settleClaims, arbiter, contenders, xid, yid, enough]
  · rw [Interactor.determine_standing, xstands]
    rfl

/-- An idle element that has seen a tap joins the pool and claims beside a winner, which has left
the pool. -/
theorem settling_beside_winner {t : EReal} (won : c.standing = ⟨.determined, true⟩)
    (evidence : c.meanEvidence? = some e) (strong : t ≤ e) (watches : d.Watches g false [s])
    (idle : d.standing = .idle) (first : c.id = 0) (second : d.id = 1) (released : s.kind = .up)
    (likely : (Model.single g).logLikelihood [s] = l) (enough : t < l) :
    ∃ c' d', ((⟨t, []⟩ : Arbiter EReal).settling [c, d] queue).1.arbiter = ⟨t, [1]⟩ ∧
      ((⟨t, []⟩ : Arbiter EReal).settling [c, d] queue).1.contenders = [c', d'] ∧
      (c'.standing = ⟨.determined, true⟩ ∧ c'.id = 0) ∧
      (d'.Watches g true [s] ∧ d'.standing = ⟨.candidate, true⟩ ∧ d'.id = 1) := by
  have promoted : (⟨t, []⟩ : Arbiter EReal).appraisal false d = ⟨d.promote.1, .promoted, l⟩ :=
    appraisal_promoted false idle (evidence_tap watches likely) enough.le List.not_mem_nil
  have kept : (⟨t, []⟩ : Arbiter EReal).appraisal false c = ⟨c, .kept, e⟩ :=
    appraisal_kept false won (.inr rfl) evidence strong
  obtain ⟨queue', refreshed⟩ : ∃ queue', (refresh false
      (⟨⟨t, []⟩, [c, d], queue, {}, []⟩ : Round EReal ν)).1 =
      ⟨⟨t, [1]⟩, [c, d.promote.1], queue', { promoted := [1] }, []⟩ := by
    have joins : d.promote.1.id = 1 := second
    rw [refresh_eq]
    simp [promoted, kept, Verdict.leavesPool, updatePool, joins]
  obtain ⟨x, y, ⟨p, rank⟩, ranked, settled⟩ := settling_pair refreshed
  obtain ⟨dwatches, dstands, did, yid⟩ := claims_tap watches idle released ranked
  obtain ⟨m, ruled⟩ : ∃ m, m = updateRules
      (⟨⟨t, [1]⟩, [x, y], queue', { promoted := [1] }, []⟩ : Round EReal ν) := ⟨_, rfl⟩
  have xid : x.id = 0 := by rw [rank, ← first]
  have xstands : x.standing = ⟨.determined, true⟩ := by rw [rank, ← won]
  have xevidence : x.meanEvidence? = some e := by
    rw [rank]
    exact evidence
  have arbiter : m.arbiter = ⟨t, [1]⟩ := by rw [ruled]; rfl
  have contenders : m.contenders = [x, y.afterRules] := by
    rw [ruled, updateRules_contenders]
    simp [xid, yid.trans second]
  obtain ⟨shared, stays⟩ : ∃ shared, (refresh true m).1 = { m with shared } := by
    refine refresh_kept fun c member => ?_
    rw [contenders] at member
    rw [arbiter]
    rcases List.mem_pair.1 member with rfl | rfl
    · exact ⟨e, appraisal_kept true xstands (.inr rfl) xevidence strong⟩
    · exact ⟨l, appraisal_kept true dstands (.inl rfl) (evidence_tap dwatches likely) enough.le⟩
  rw [settled, ← ruled, stays]
  exact ⟨x, y.afterRules, arbiter, contenders, ⟨xstands, xid⟩, dwatches, dstands,
    did.trans second⟩

variable (queue) in
/-- An idle element that has seen a tap becomes a second winner. -/
theorem mediate_beside_winner {t : EReal} (won : c.standing = ⟨.determined, true⟩)
    (evidence : c.meanEvidence? = some e) (strong : t ≤ e) (watches : d.Watches g false [s])
    (idle : d.standing = .idle) (first : c.id = 0) (second : d.id = 1) (released : s.kind = .up)
    (likely : (Model.single g).logLikelihood [s] = l) (enough : t < l) :
    ((⟨t, []⟩ : Arbiter EReal).mediate [c, d] queue).contenders.countP Interactor.isDetermined =
      2 := by
  obtain ⟨x, y, arbiter, contenders, ⟨xstands, xid⟩, ywatches, ystands, yid⟩ :=
    settling_beside_winner won evidence strong watches idle first second released likely enough
  rw [mediate_eq]
  generalize (⟨t, []⟩ : Arbiter EReal).settling [c, d] queue = m at *
  have claims : claimers m.1 = [1] := by
    simp [claimers, arbiter, contenders, findContender?, List.find?_cons, xid, yid,
      claiming_candidate ystands]
  have awarded : y.determine.1.isDetermined = true := by
    rw [Interactor.isDetermined_iff, y.determine_standing, ystands]
    rfl
  have still : x.isDetermined = true := by
    rw [Interactor.isDetermined_iff, xstands]
  have claimer : Contender.meanEvidence? y = some (l : EReal) := evidence_tap ywatches likely
  have result : (settleClaim m.1 1).contenders = [x, y.determine.1] := by
    simp [settleClaim, arbiter, contenders, findContender?, modifyContender, xid, yid, claimer,
      enough]
  rw [claims]
  show (settleClaim m.1 1).contenders.countP _ = 2
  rw [result, List.countP_cons_of_pos still, List.countP_cons_of_pos awarded]
  rfl

end Mediation

namespace Session

variable {ν : Type} {s : Session EReal ν} {c d : Interactor EReal ν}

/-- Only moves are dropped. -/
theorem worthwhile_singleton (s : Session EReal ν) {x : Sample EReal} (kept : x.kind ≠ .move) :
    s.worthwhile [x] = [x] := by
  simp [worthwhile, isJitter, kept]

theorem takeIn_singleton (s : Session EReal ν) {x : Sample EReal} (kept : x.kind ≠ .move) :
    s.takeIn [x] = { s.forward x with previousBatch := [x] } := by
  rw [takeIn, s.worthwhile_singleton kept]
  rfl

theorem handle_singleton (s : Session EReal ν) {x : Sample EReal} (kept : x.kind ≠ .move) :
    s.handle [x] =
      if (({ s.forward x with previousBatch := [x] } : Session EReal ν).determined?).isSome then
        ⟨{ s.forward x with previousBatch := [x] }, none, []⟩
      else ({ s.forward x with previousBatch := [x] } : Session EReal ν).mediate := by
  rw [handle_eq, s.takeIn_singleton kept, s.worthwhile_singleton kept]
  rfl

/-- Without a winner, a sample that is no move leads to mediation. -/
theorem handle_open {x : Sample EReal} (kept : x.kind ≠ .move)
    (nobody : ∀ a ∈ s.interactors.map fun a => a.observeTouch x, a.isDetermined = false) :
    s.handle [x] = ({ s.forward x with previousBatch := [x] } : Session EReal ν).mediate := by
  have undecided : ({ s.forward x with previousBatch := [x] } : Session EReal ν).determined? =
      none := List.find?_eq_none.2 fun a member => by simp [nobody a member]
  rw [handle_singleton s kept, undecided]
  rfl

/-- Without a winner, a release leads to mediation. -/
theorem perform_release_open {x : Sample EReal} (released : x.kind = .up)
    (interactors : s.interactors = [c, d])
    (nobody : ∀ a ∈ [c.observeTouch x, d.observeTouch x], a.isDetermined = false) :
    (s.perform (.handle [x])).arbiter =
        (s.arbiter.mediate [c.observeTouch x, d.observeTouch x] s.queue).arbiter ∧
      (s.perform (.handle [x])).interactors =
        (s.arbiter.mediate [c.observeTouch x, d.observeTouch x] s.queue).contenders := by
  have shown : s.interactors.map (fun a => a.observeTouch x) =
      [c.observeTouch x, d.observeTouch x] := by
    rw [interactors]
    rfl
  rw [perform, handle_open (by rw [released]; decide) (shown ▸ nobody)]
  simp only [mediate, forward, shown, and_self]

/-- Once there is a winner, a release is shown to the interactors, and no more. -/
theorem perform_release_decided {x : Sample EReal} (released : x.kind = .up)
    (interactors : s.interactors = [c, d]) (won : (c.observeTouch x).isDetermined = true) :
    (s.perform (.handle [x])).arbiter = s.arbiter ∧
      (s.perform (.handle [x])).interactors = [c.observeTouch x, d.observeTouch x] := by
  have shown : (s.forward x).interactors = [c.observeTouch x, d.observeTouch x] := by
    rw [forward, interactors]
    rfl
  have decided : (({ s.forward x with previousBatch := [x] } : Session EReal ν).determined?).isSome
      = true := by
    rw [determined?, shown]
    simp [won]
  rw [perform, handle_singleton s (by rw [released]; decide), if_pos decided]
  exact ⟨rfl, shown⟩

/-- Two elements watch for a tap in the same place. The first tap makes a winner of one of them; the
other one sees the second tap, and wins as well when the host has the arbiter mediate. -/
theorem two_taps_two_winners {g : Gaussian EReal} {t : EReal} {x : Sample EReal} {l : ℝ}
    (arbiter : s.arbiter = ⟨t, []⟩) (interactors : s.interactors = [c, d])
    (left : c.Watches g false []) (cidle : c.standing = .idle) (first : c.id = 0)
    (right : d.Watches g false []) (didle : d.standing = .idle) (second : d.id = 1)
    (released : x.kind = .up) (pointer : x.pointer = 0)
    (likely : g.logDensity x.position = l) (enough : t < l) :
    (s.performAll [.handle [x], .handle [x], .mediate]).interactors.countP
      Interactor.isDetermined = 2 := by
  have once : (Model.single g).logLikelihood ([] ++ [x]) = (l : EReal) := by
    simpa using Model.logLikelihood_single (e := fun _ => l) (List.cons_ne_nil x [])
      (by simpa using likely)
  have twice : (Model.single g).logLikelihood ([x] ++ [x]) = ((l + l : ℝ) : EReal) := by
    simpa using Model.logLikelihood_single (e := fun _ => l) (List.cons_ne_nil x [x])
      (by simpa using likely)
  have stands {a : Interactor EReal ν} {asked : Bool} {seen : List (Sample EReal)}
      (watches : a.Watches g asked seen) : (a.observeTouch x).standing = a.standing := by
    rw [a.observeTouch_standing, watches.visible]
    rfl
  have undetermined {a : Interactor EReal ν} (idle : a.standing = .idle) :
      a.isDetermined = false := by
    rw [Interactor.isDetermined, idle]
    rfl
  have cseen := left.observeTouch (by decide) pointer once
  have dseen := right.observeTouch (by decide) pointer once
  obtain ⟨arbiter₁, interactors₁⟩ := perform_release_open (s := s) released interactors (by
    simp [undetermined ((stands left).trans cidle), undetermined ((stands right).trans didle)])
  obtain ⟨c', d', emptied, contenders, ⟨cwatches, cwon, cid⟩, dwatches, dstarts, did⟩ :=
    mediate_claiming cseen dseen ((stands left).trans cidle) ((stands right).trans didle)
      ((c.observeTouch_id x).trans first) ((d.observeTouch_id x).trans second) released once enough
  rw [arbiter] at arbiter₁ interactors₁
  rw [emptied] at arbiter₁
  rw [contenders] at interactors₁
  have still : (c'.observeTouch x).standing = ⟨.determined, true⟩ := (stands cwatches).trans cwon
  obtain ⟨arbiter₂, interactors₂⟩ := perform_release_decided released interactors₁ (by
    rw [Interactor.isDetermined_iff, still])
  -- The winner has seen both taps, the other one only the second.
  have cagain := cwatches.observeTouch (show 1 < defaultMaxObservations by decide) pointer twice
  have dagain := dwatches.observeTouch (by decide) pointer once
  have evidence : (c'.observeTouch x).meanEvidence? = some (l : EReal) := by
    rw [cagain.meanEvidence? (by simp) twice]
    norm_num
  have two (queue : TaskQueue) := mediate_beside_winner queue still evidence enough.le dagain
    ((stands dwatches).trans dstarts) ((c'.observeTouch_id x).trans cid)
    ((d'.observeTouch_id x).trans did) released once enough
  have mediated (u : Session EReal ν) :
      (u.perform .mediate).interactors =
        (u.arbiter.mediate u.interactors u.queue).contenders := rfl
  rw [performAll, List.foldl_cons, List.foldl_cons, List.foldl_cons, List.foldl_nil, mediated,
    interactors₂, arbiter₂, arbiter₁]
  exact two _

end Session

end TouchIntent
