import TouchIntent.Proofs.Interactor.Lasting

/-!
# Interactors that decide alike

Two interactors are *peers* if they agree on all that decisions depend on. They may differ in what
was once concluded and will be concluded anew before it matters: in posteriors, in shares of the
pool, in clocks and timers, in what rules held and how often. A behaviour may be ranked differently
only as long as it has seen nothing, for then no rule asks for its rank. Every operation makes peers
of peers.
-/

namespace TouchIntent

open Scalar

variable {R ν : Type} [Scalar R]

/-! ## Views -/

namespace BehaviorView

/-- Two views that rules cannot tell apart: they differ in the rank of the behaviour at most, and
only if there is no path. -/
structure Peer (v v' : BehaviorView R) : Prop where
  unranked : ({ v' with isMostLikely := false } : BehaviorView R) = { v with isMostLikely := false }
  ranked : v'.isMostLikely = v.isMostLikely ∨ v.path = []

variable {v v' : BehaviorView R}

omit [Scalar R] in
theorem Peer.check (peer : v.Peer v') (previous : Option CheckResult) :
    v'.check previous = v.check previous :=
  congrArg (fun v => v.check previous) peer.unranked

omit [Scalar R] in
/-- Without a path there is no completion check, and so no question of rank. -/
theorem Peer.ask (peer : v.Peer v') (previous : Option CheckResult) :
    v'.ask previous = v.ask previous := by
  rw [BehaviorView.ask, BehaviorView.ask, peer.check]
  rcases peer.ranked with same | unseen
  · rw [same]
  · have unchecked : v.check previous = none := by
      rw [BehaviorView.check, unseen]
      rfl
    rw [unchecked]
    rfl

theorem Peer.holds (peer : v.Peer v') (qualifier : Qualifier R) :
    qualifier.holds v' = qualifier.holds v := by
  have same := congrArg qualifier.holds peer.unranked
  cases qualifier <;> exact same

end BehaviorView

omit [Scalar R] in
/-- At each position there is a view in both lists, or in neither. -/
theorem getElem?_of_views {views views' : List (BehaviorView R)}
    (all : List.Forall₂ BehaviorView.Peer views views') (i : Nat) :
    (views[i]? = none ∧ views'[i]? = none) ∨
      ∃ v v', views[i]? = some v ∧ views'[i]? = some v' ∧ v.Peer v' := by
  by_cases within : i < views.length
  · have within' : i < views'.length := all.length_eq ▸ within
    refine .inr ⟨_, _, List.getElem?_eq_getElem within, List.getElem?_eq_getElem within', ?_⟩
    exact (List.forall₂_iff_get.1 all).2 i within within'
  · have beyond : ¬ i < views'.length := all.length_eq ▸ within
    exact .inl ⟨List.getElem?_eq_none (by omega), List.getElem?_eq_none (by omega)⟩

/-! ## Rulebooks -/

namespace Rulebook

variable {book book' book'' : Rulebook R ν}

/-- Two rulebooks of one graph, in which a question has found the same when it was last asked. -/
structure Peer (book book' : Rulebook R ν) : Prop where
  before : book.OperandsBefore
  graph : book.SameGraph book'
  results : book'.nodes.map RuleNode.lastResult = book.nodes.map RuleNode.lastResult

namespace Peer

variable (peer : book.Peer book')
include peer

omit [Scalar R] in
theorem before' : book'.OperandsBefore := peer.graph.operandsBefore peer.before

omit [Scalar R] in
/-- The node at the same place in the other rulebook. -/
theorem getElem? {i : Nat} {n : RuleNode R ν} (found : book.nodes[i]? = some n) :
    ∃ n', book'.nodes[i]? = some n' ∧ n'.kind = n.kind ∧ n'.lastResult = n.lastResult := by
  obtain ⟨n', found', -, kind⟩ := peer.graph.symm.getElem? found
  have entry := congrArg (fun results => results[i]?) peer.results
  simp only [List.getElem?_map, found, found', Option.map_some, Option.some.injEq] at entry
  exact ⟨n', found', kind, entry⟩

omit [Scalar R] in
theorem getElem?_eq_none {i : Nat} (beyond : book.nodes[i]? = none) : book'.nodes[i]? = none := by
  rw [List.getElem?_eq_none_iff, peer.graph.length_eq, ← List.getElem?_eq_none_iff]
  exact beyond

/-- Peers have the same verdicts. -/
theorem verdictNow {views views' : List (BehaviorView R)}
    (all : List.Forall₂ BehaviorView.Peer views views') (node : Nat) :
    book'.verdictNow views' node = book.verdictNow views node := by
  refine (verdict_congr_of_answers ?_ ?_ ?_ node).symm
  · intro i
    cases found : book.nodes[i]? with
    | none => rw [peer.getElem?_eq_none found]
    | some n =>
      obtain ⟨n', found', kind, -⟩ := peer.getElem? found
      rw [found', Option.map_some, Option.map_some, kind]
  · intro i n n' found found' behavior question _
    obtain ⟨m, same, -, result⟩ := peer.getElem? found
    obtain rfl := Option.some.inj (found'.symm.trans same)
    rw [result, Question.verdict, Question.verdict]
    rcases getElem?_of_views all behavior with ⟨out, out'⟩ | ⟨v, v', shown, shown', alike⟩
    · simp only [out, out']
    · rw [shown, shown', Option.any_some, Option.any_some, alike.ask]
  · intro behavior qualifier
    rcases getElem?_of_views all behavior with ⟨out, out'⟩ | ⟨v, v', shown, shown', alike⟩
    · rw [out, out']
    · rw [shown, shown', Option.any_some, Option.any_some, alike.holds]

omit [Scalar R] peer in
theorem checkAfter_eq {views views' : List (BehaviorView R)}
    (all : List.Forall₂ BehaviorView.Peer views views') (behavior : Nat)
    (previous : Option CheckResult) :
    checkAfter views' behavior previous = checkAfter views behavior previous := by
  unfold checkAfter
  rcases getElem?_of_views all behavior with ⟨out, out'⟩ | ⟨v, v', shown, shown', alike⟩
  · rw [out, out']
  · rw [shown, shown']
    exact alike.ask previous

/-- A cycle makes peers of peers, and their rules hold alike. -/
theorem update {views views' : List (BehaviorView R)}
    (all : List.Forall₂ BehaviorView.Peer views views') :
    (book.update views).book.Peer (book'.update views').book ∧ ∀ label,
      (book'.update views').book.isSatisfied? label =
        (book.update views).book.isSatisfied? label := by
  have graph : book.SameGraph (book.update views).book := by
    have same := book.sameGraph_perform (.update views)
    rwa [withAdded_of_none rfl] at same
  have graph' : book'.SameGraph (book'.update views').book := by
    have same := book'.sameGraph_perform (.update views')
    rwa [withAdded_of_none rfl] at same
  have nodes := update_nodes peer.before views
  have nodes' := update_nodes peer.before' views'
  -- Position by position the updated nodes remember the same, and hold alike.
  have concluded : ∀ i : Nat, ((book'.update views').book.nodes[i]?).map
      (fun n => (n.lastResult, n.holds)) =
      ((book.update views).book.nodes[i]?).map fun n => (n.lastResult, n.holds) := by
    intro i
    rw [nodes, nodes', List.getElem?_mapIdx, List.getElem?_mapIdx]
    cases found : book.nodes[i]? with
    | none =>
      rw [peer.getElem?_eq_none found]
      rfl
    | some n =>
      obtain ⟨n', found', kind, result⟩ := peer.getElem? found
      rw [found', peer.verdictNow all]
      simp only [Option.map_some, RuleNode.conclude_holds, Option.some.injEq, Prod.mk.injEq,
        and_true]
      by_cases asks : n.kind.isQuestion = false
      · have asks' : n'.kind.isQuestion = false := by rwa [kind]
        rw [n.conclude_eq_settle _ _ asks, n'.conclude_eq_settle _ _ asks']
        exact result
      · obtain ⟨behavior, question, asked⟩ := NodeKind.eq_ask asks
        rw [n.conclude_lastResult _ _ asked, n'.conclude_lastResult _ _ (kind.trans asked), result]
        exact checkAfter_eq all behavior _
  refine ⟨⟨graph.operandsBefore peer.before, (graph.symm.trans peer.graph).trans graph', ?_⟩, ?_⟩
  · apply List.ext_getElem?
    intro i
    have entry := congrArg (Option.map Prod.fst) (concluded i)
    simpa [Option.map_map, Function.comp_def] using entry
  · intro label
    have named : (book'.update views').book.node? label = (book.update views).book.node? label := by
      rw [update_node?, update_node?, peer.graph.node?]
    rw [isSatisfied?, isSatisfied?, state?, state?, named]
    cases (book.update views).book.node? label with
    | none => rfl
    | some i =>
      have entry := congrArg (Option.map Prod.snd) (concluded i)
      simpa [Option.map_map, Function.comp_def] using entry

omit [Scalar R] in
/-- What a reset forgets is the same in both. -/
theorem reset : book.reset.Peer book'.reset := by
  have graph (b : Rulebook R ν) : b.SameGraph b.reset := ⟨rfl, rfl, rfl, by simp [Rulebook.reset]⟩
  refine ⟨(graph book).operandsBefore peer.before,
    ((graph book).symm.trans peer.graph).trans (graph book'), ?_⟩
  simp [Rulebook.reset, Function.comp_def, peer.graph.length_eq]

end Peer

end Rulebook

/-! ## Recognizers -/

namespace Recognizer

/-- Two recognizers that have seen the same. -/
structure Peer (r r' : Recognizer R) : Prop where
  unjudged : r'.unjudged = r.unjudged
  ranked : r'.isMostLikely = r.isMostLikely ∨ r.view.path = []

variable {r r' : Recognizer R}

theorem Peer.view (peer : r.Peer r') : r.view.Peer r'.view where
  unranked := congrArg Recognizer.view peer.unjudged
  ranked := peer.ranked

theorem reset_path (r : Recognizer R) : r.reset.view.path = [] := by
  show ((r.reset.track? _).map Track.path).getD [] = []
  cases found : r.reset.track? r.reset.dominantPointer with
  | none => rfl
  | some t =>
    obtain ⟨u, -, rfl⟩ := List.mem_map.1 (List.mem_of_find?_eq_some found)
    rfl

theorem Peer.reset (peer : r.Peer r') : r.reset.Peer r'.reset where
  unjudged := by rw [unjudged_reset, unjudged_reset, peer.unjudged]
  ranked := .inr r.reset_path

end Recognizer

namespace Interactor

/-- Two interactors that agree on all that decisions depend on. -/
structure Peer (a b : Interactor R ν) : Prop where
  id_eq : b.id = a.id
  prior : b.prior = a.prior
  evidence : b.evidence = a.evidence
  standing : b.standing = a.standing
  claimRule : b.claimRule = a.claimRule
  isHidden : b.isHidden = a.isHidden
  behaviors : List.Forall₂ Recognizer.Peer a.behaviors b.behaviors
  rulebook : a.rulebook.Peer b.rulebook

namespace Peer

variable {a b : Interactor R ν} (peer : a.Peer b)
include peer

/-! ### What is read off -/

theorem isCandidate : b.isCandidate = a.isCandidate := congrArg Standing.isCandidate peer.standing

theorem isDetermined : b.isDetermined = a.isDetermined :=
  congrArg (fun s : Standing => s.status == .determined) peer.standing

theorem hasSelfExcluded : b.hasSelfExcluded = a.hasSelfExcluded :=
  congrArg (fun s : Standing => s.status == .selfExcluded) peer.standing

theorem isClaiming : b.isClaiming = a.isClaiming := congrArg Standing.isClaiming peer.standing

theorem meanEvidence? : b.meanEvidence? = a.meanEvidence? := by
  have counts : b.behaviors.map Recognizer.observationCount =
      a.behaviors.map Recognizer.observationCount := by
    refine Arbiter.map_eq_of (fun r r' alike => ?_) peer.behaviors
    have same : r'.unjudged.observationCount = r.unjudged.observationCount := by rw [alike.unjudged]
    exact same
  have count : b.observationCount = a.observationCount := by
    rw [observationCount, counts, observationCount]
  rw [Interactor.meanEvidence?, Interactor.meanEvidence?, count, peer.evidence]

theorem views : List.Forall₂ BehaviorView.Peer a.views b.views := by
  rw [Interactor.views, Interactor.views, List.forall₂_map_left_iff, List.forall₂_map_right_iff]
  exact peer.behaviors.imp fun _ _ alike => alike.view

/-! ### What operations change -/

theorem stand (standing : Standing) : Peer { a with standing } { b with standing } :=
  ⟨peer.id_eq, peer.prior, peer.evidence, rfl, peer.claimRule, peer.isHidden, peer.behaviors,
    peer.rulebook⟩

theorem rank (p q : R) :
    Peer { a with candidateProbability := p } { b with candidateProbability := q } :=
  ⟨peer.id_eq, peer.prior, peer.evidence, peer.standing, peer.claimRule, peer.isHidden,
    peer.behaviors, peer.rulebook⟩

theorem stopTimer : Peer { a with timer := none } { b with timer := none } :=
  ⟨peer.id_eq, peer.prior, peer.evidence, peer.standing, peer.claimRule, peer.isHidden,
    peer.behaviors, peer.rulebook⟩

theorem apply (command : StandingCommand) :
    (a.apply command).1.Peer (b.apply command).1 ∧ (b.apply command).2 = (a.apply command).2 := by
  simp only [Interactor.apply, peer.standing]
  exact ⟨peer.stand _, trivial⟩

theorem resetObservations : a.resetObservations.Peer b.resetObservations := by
  refine ⟨peer.id_eq, peer.prior, rfl, peer.standing, peer.claimRule, peer.isHidden, ?_,
    peer.rulebook⟩
  rw [Interactor.resetObservations, List.forall₂_map_left_iff]
  show List.Forall₂ _ _ (b.behaviors.map Recognizer.reset)
  rw [List.forall₂_map_right_iff]
  exact peer.behaviors.imp fun _ _ alike => alike.reset

theorem resetReasoning : a.resetReasoning.Peer b.resetReasoning := by
  refine ⟨peer.id_eq, peer.prior, rfl, peer.standing, peer.claimRule, peer.isHidden, ?_,
    peer.rulebook.reset⟩
  simp only [Interactor.resetReasoning, Interactor.resetObservations, forgetPosterior, List.map_map,
    List.forall₂_map_left_iff, List.forall₂_map_right_iff]
  exact peer.behaviors.imp fun _ _ alike => ⟨alike.reset.unjudged, alike.reset.ranked⟩

theorem exclude : a.exclude.1.Peer b.exclude.1 := (peer.apply .exclude).1.resetReasoning

theorem selfExclude : a.selfExclude.1.Peer b.selfExclude.1 := by
  unfold Interactor.selfExclude
  rw [peer.standing]
  split
  · exact peer.exclude
  · exact (peer.apply .selfExclude).1

theorem grantSelfExclusion : a.grantSelfExclusion.1.Peer b.grantSelfExclusion.1 := by
  obtain ⟨granted, same⟩ := peer.apply .grantSelfExclusion
  unfold Interactor.grantSelfExclusion
  simp only [same]
  split
  · exact granted.resetReasoning
  · exact granted

theorem granted : a.granted.Peer b.granted :=
  (peer.grantSelfExclusion.stopTimer.apply .withdrawSelfExclusion).1

theorem reset : a.reset.Peer b.reset := by
  unfold Interactor.reset
  rw [peer.isCandidate, peer.isClaiming]
  split
  · exact peer.exclude
  · exact peer.resetReasoning

end Peer

/-- Working out posteriors anew makes peers of interactors whose behaviours have seen the same: it
ranks all behaviours. -/
theorem peer_updatePosterior {a b : Interactor R ν} (id_eq : b.id = a.id)
    (prior : b.prior = a.prior) (standing : b.standing = a.standing)
    (claimRule : b.claimRule = a.claimRule) (isHidden : b.isHidden = a.isHidden)
    (rulebook : a.rulebook.Peer b.rulebook)
    (seen : List.Forall₂ (fun r r' : Recognizer R => r'.unjudged = r.unjudged) a.behaviors
      b.behaviors) : a.updatePosterior.Peer b.updatePosterior := by
  have likelihoods : b.behaviors.map Recognizer.logLikelihood =
      a.behaviors.map Recognizer.logLikelihood := by
    refine Arbiter.map_eq_of (fun r r' alike => ?_) seen
    have same : r'.unjudged.logLikelihood = r.unjudged.logLikelihood := by rw [alike]
    exact same
  have joint : ∀ weights : List R,
      weights.zipWith (fun p (r : Recognizer R) => ln p + r.logLikelihood) b.behaviors =
        weights.zipWith (fun p (r : Recognizer R) => ln p + r.logLikelihood) a.behaviors := by
    intro weights
    have split (rs : List (Recognizer R)) :
        weights.zipWith (fun p (r : Recognizer R) => ln p + r.logLikelihood) rs =
          weights.zipWith (fun p l => ln p + l) (rs.map Recognizer.logLikelihood) := by
      rw [List.zipWith_map_right]
    rw [split, split, likelihoods]
  have evidence : b.updatePosterior.evidence = a.updatePosterior.evidence := by
    simp only [updatePosterior, prior, joint]
  have posterior : b.updatePosterior.posterior = a.updatePosterior.posterior := by
    simp only [updatePosterior, prior, joint]
  have mostLikely : b.updatePosterior.mostLikely = a.updatePosterior.mostLikely := by
    simp only [updatePosterior, prior, joint]
  refine ⟨id_eq, prior, evidence, standing, claimRule, isHidden, ?_, rulebook⟩
  rw [updatePosterior_behaviors, updatePosterior_behaviors, posterior, mostLikely,
    List.forall₂_iff_get]
  have lengths := seen.length_eq
  constructor
  · simp [lengths]
  · intro i h h'
    simp only [List.length_map, List.length_zipIdx, List.length_zipWith] at h h'
    have same := (List.forall₂_iff_get.1 seen).2 i (by omega) (by omega)
    simp only [List.get_eq_getElem, List.getElem_map, List.getElem_zipIdx,
      List.getElem_zipWith] at same ⊢
    exact ⟨same, .inl rfl⟩

namespace Peer

variable {a b : Interactor R ν} (peer : a.Peer b)
include peer

/-- Peers that see the same sample stay peers. -/
theorem observeTouch (s : Sample R) : (a.observeTouch s).Peer (b.observeTouch s) := by
  unfold Interactor.observeTouch
  by_cases hidden : a.isHidden = true
  · rw [if_pos hidden, if_pos (peer.isHidden.trans hidden), peer.isCandidate]
    split
    · exact peer.selfExclude
    · exact peer.reset
  · have shown : ¬ b.isHidden = true := by rwa [peer.isHidden]
    rw [if_neg hidden, if_neg shown]
    refine peer_updatePosterior peer.id_eq peer.prior peer.standing peer.claimRule peer.isHidden
      peer.rulebook ?_
    rw [List.forall₂_map_left_iff, List.forall₂_map_right_iff]
    refine peer.behaviors.imp fun r r' alike => ?_
    rw [r.unjudged_observeTouch, r'.unjudged_observeTouch, alike.unjudged]

/-- The rules of peers come to the same, a claim included. -/
theorem afterRules : a.afterRules.Peer b.afterRules := by
  obtain ⟨judged, satisfied⟩ := peer.rulebook.update peer.views
  have after : Peer { a with rulebook := (a.rulebook.update a.views).book }
      { b with rulebook := (b.rulebook.update b.views).book } :=
    ⟨peer.id_eq, peer.prior, peer.evidence, peer.standing, peer.claimRule, peer.isHidden,
      peer.behaviors, judged⟩
  have claims : (b.claimRule.bind (b.rulebook.update b.views).book.isSatisfied?) =
      a.claimRule.bind (a.rulebook.update a.views).book.isSatisfied? := by
    rw [peer.claimRule]
    exact Option.bind_congr fun label _ => satisfied label
  unfold Interactor.afterRules Interactor.updateRules
  simp only [claims]
  split
  · exact (after.stopTimer.apply .claim).1
  · exact after

end Peer

end Interactor

end TouchIntent
