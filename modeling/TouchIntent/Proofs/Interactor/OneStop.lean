import Mathlib
import TouchIntent.Interactor.Basic
import TouchIntent.Proofs.Gesture.SingleState
import TouchIntent.Proofs.Interactor.Standing
import TouchIntent.Proofs.Rule.Cycle
import TouchIntent.Proofs.Rule.Text

/-!
# Interactors with a gesture of one stop

An element that is tapped: its only behaviour has a single stop, and it claims the touches as soon
as that behaviour is complete. What it knows is determined by the samples it has seen since it
started over.
-/

namespace TouchIntent

open Scalar

/-- The recognizer of a gesture of one stop has seen these samples of the first pointer, and none of
the second. -/
structure Recognizer.Saw (r : Recognizer EReal) (g : Gaussian EReal) (seen : List (Sample EReal)) :
    Prop where
  model : r.model = .single g
  pattern : r.pattern = ⟨[⟨true, true, []⟩], [[true]], []⟩
  lanes : r.window.lanes = [⟨0, seen⟩, ⟨1, []⟩]
  tracks : ∃ t u, r.tracks = [t, u] ∧ t.pointer = 0 ∧ u.pointer = 1
  origin : r.origin = none

namespace Recognizer

variable {r : Recognizer EReal} {g : Gaussian EReal} {seen : List (Sample EReal)}

theorem Saw.reset (saw : r.Saw g seen) : r.reset.Saw g [] := by
  obtain ⟨t, u, tracks, first, second⟩ := saw.tracks
  refine ⟨saw.model, saw.pattern, ?_, ⟨.empty t.pointer, .empty u.pointer, ?_, first, second⟩,
    saw.origin⟩
  · simp [Recognizer.reset, Window.clear, saw.lanes]
  · simp [Recognizer.reset, tracks]

/-- What the recognizer works out from the samples it has seen. -/
theorem Saw.decode (saw : r.Saw g seen) (some : seen ≠ []) {l : ℝ}
    (likely : (Model.single g).logLikelihood seen = l) :
    r.decode.logLikelihood = l ∧ r.decode.dominantPointer = 0 ∧ ∃ t u, r.decode.tracks = [t, u] ∧
      t.pointer = 0 ∧ u.pointer = 1 ∧ t.path = List.replicate seen.length 0 := by
  obtain ⟨t, u, tracks, first, second⟩ := saw.tracks
  have own : r.window.samples t.pointer = seen := by
    simp [Window.samples, saw.lanes, first]
  have other : r.window.samples u.pointer = [] := by
    simp [Window.samples, saw.lanes, second]
  obtain ⟨t', decoded⟩ : ∃ t' : Track EReal,
      t' = { t with logLikelihood := l, path := List.replicate seen.length 0 } := ⟨_, rfl⟩
  obtain ⟨u', empty⟩ : ∃ u' : Track EReal,
      u' = { u with logLikelihood := negInfinity, path := [] } := ⟨_, rfl⟩
  have first' : t'.pointer = t.pointer := by rw [decoded]
  have second' : u'.pointer = u.pointer := by rw [empty]
  have dominant (default : PointerId) : Track.dominant default
      ([t', u'].filter fun t => !(r.window.samples t.pointer).isEmpty) = ((l : EReal), 0) := by
    have above : (negInfinity : EReal) < l := by
      rw [exact_negInfinity]
      exact EReal.bot_lt_coe l
    have kept : [t', u'].filter (fun t => !(r.window.samples t.pointer).isEmpty) = [t'] := by
      simp [first', second', own, other, some]
    rw [kept, decoded]
    simp only [Track.dominant, List.foldl_cons, List.foldl_nil, if_pos above, first]
  have left : t.decode r.model (r.window.samples t.pointer) = t' := by
    rw [own, saw.model, Track.decode, if_neg (by simpa using some), likely,
      Model.mostLikelyPath_single, decoded]
  have right : u.decode r.model (r.window.samples u.pointer) = u' := by
    rw [other, Track.decode, empty]
    rfl
  simp only [Recognizer.decode, tracks, List.map_cons, List.map_nil, left, right, dominant]
  refine ⟨trivial, trivial, t', u', rfl, first'.trans first, second'.trans second, ?_⟩
  rw [decoded]

/-- What the recognizer knows after one more sample. -/
theorem Saw.observeTouch (saw : r.Saw g seen) (room : seen.length < r.window.capacity)
    {s : Sample EReal} (pointer : s.pointer = 0) {l : ℝ}
    (likely : (Model.single g).logLikelihood (seen ++ [s]) = l) :
    (r.observeTouch s).Saw g (seen ++ [s]) ∧
      (r.observeTouch s).window.capacity = r.window.capacity ∧
      (r.observeTouch s).logLikelihood = l ∧
      (r.observeTouch s).view.path = List.replicate (seen.length + 1) 0 ∧
      (r.observeTouch s).view.eventKinds = (seen ++ [s]).map Sample.kind := by
  have accepts : r.accepts s.pointer = true := by
    simp [Recognizer.accepts, Window.accepts, saw.lanes, pointer]
  have capacity : (r.window.push s).capacity = r.window.capacity := by
    rw [Window.push]
    split <;> rfl
  have lanes : (r.window.push s).lanes = [⟨0, seen ++ [s]⟩, ⟨1, []⟩] := by
    have excess : seen.length + 1 - r.window.capacity = 0 := by omega
    simp [Window.push, Window.accepts, Window.samples, Window.addTo, saw.lanes, pointer, excess]
  obtain ⟨r', taken⟩ : ∃ r' : Recognizer EReal, r' = { r with
      firstTime := r.firstTime <|> Option.some s.time
      lastTime := s.time
      window := r.window.push s } := ⟨_, rfl⟩
  have saw' : r'.Saw g (seen ++ [s]) := by
    rw [taken]
    exact ⟨saw.model, saw.pattern, lanes, saw.tracks, saw.origin⟩
  obtain ⟨known, dominant, t, u, tracks, first, second, path⟩ := saw'.decode (by simp) likely
  have observed : r.observeTouch s = { r'.decode with tracks := [t.fold s, u] } := by
    have still : Recognizer.anchor { r with
        firstTime := r.firstTime <|> Option.some s.time
        lastTime := s.time } s = { r with
        firstTime := r.firstTime <|> Option.some s.time
        lastTime := s.time } := by
      rw [Recognizer.anchor]
      split
      · rfl
      · next origin moves => cases saw.origin.symm.trans moves
    rw [Recognizer.observeTouch, if_pos accepts]
    simp only [still]
    rw [← taken, tracks]
    simp [Track.foldInto, first, pointer]
  rw [observed]
  have window : r'.decode.window = r.window.push s := by
    rw [taken]
    rfl
  refine ⟨⟨saw'.model, saw'.pattern, window ▸ lanes, ⟨_, _, rfl, first, second⟩, saw'.origin⟩,
    window ▸ capacity, known, ?_, ?_⟩
  · simp [Recognizer.view, Recognizer.path, Recognizer.track?, dominant, Track.fold, first, path]
  · simp [Recognizer.view, Recognizer.eventKinds, Window.eventKinds, Window.samples, dominant,
      window, lanes]

/-- A single release completes the gesture: its pattern has one state, which requires nothing but a
release. -/
theorem Saw.completes (saw : r.Saw g seen) (path : r.view.path = [0])
    (kinds : r.view.eventKinds = [.up]) :
    ∃ c, r.view.check none = some c ∧
      ∀ rank before, (c.withRank rank before).hasJustCompleted = true := by
  have complete : (r.view.check none).any (fun c => c.hasJustCompleted) = true := by
    rw [BehaviorView.check, path, kinds]
    show (Pattern.check r.pattern [0] [.up] none).any _ = true
    rw [saw.pattern]
    rfl
  cases checked : r.view.check none with
  | none =>
    rw [checked] at complete
    cases complete
  | some c =>
    rw [checked] at complete
    exact ⟨c, rfl, fun _ _ => complete⟩

/-- A single press does not complete the gesture. -/
theorem Saw.awaits (saw : r.Saw g seen) (path : r.view.path = [0])
    (kinds : r.view.eventKinds = [.down]) :
    ∃ c, r.view.check none = some c ∧ ∀ rank before,
      (c.withRank rank before).hasJustCompleted = false ∧
        (c.withRank rank before).hasBeenCompleted = false := by
  have pending : (r.view.check none).any
      (fun c => !c.hasJustCompleted && !c.hasBeenCompleted) = true := by
    rw [BehaviorView.check, path, kinds]
    show (Pattern.check r.pattern [0] [.down] none).any _ = true
    rw [saw.pattern]
    rfl
  cases checked : r.view.check none with
  | none =>
    rw [checked] at pending
    cases pending
  | some c =>
    rw [checked, Option.any_some, Bool.and_eq_true, Bool.not_eq_true', Bool.not_eq_true'] at pending
    exact ⟨c, rfl, fun _ _ => pending⟩

end Recognizer

namespace Interactor

variable {ν : Type} {a : Interactor EReal ν} {g : Gaussian EReal} {asked : Bool}
  {seen : List (Sample EReal)}

/-- The interactor watches for a tap: it claims the touches when its only behaviour is complete.
Since it started over it has seen these samples, and has not evaluated its rule unless `asked`. -/
structure Watches (a : Interactor EReal ν) (g : Gaussian EReal) (asked : Bool)
    (seen : List (Sample EReal)) : Prop where
  visible : a.isHidden = false
  prior : a.prior = [((1 : ℝ) : EReal)]
  behavior : ∃ r, a.behaviors = [r] ∧ r.Saw g seen ∧
    r.window.capacity = defaultMaxObservations ∧
    (seen ≠ [] → r.view.path = List.replicate seen.length 0 ∧
      r.view.eventKinds = seen.map Sample.kind)
  evidence : ∀ l : ℝ, seen ≠ [] → (Model.single g).logLikelihood seen = l → a.evidence = l
  question : ∃ n, a.rulebook.nodes = [n] ∧ n.kind = .ask 0 ⟨.is, .complete⟩ ∧
    (asked = false → n.lastResult = none)
  named : a.rulebook.node? "C_is_complete" = some 0
  claims : a.claimRule = some "C_is_complete"

/-- What an interactor of one behaviour concludes from its likelihood. -/
theorem updatePosterior_single {r : Recognizer EReal} (behaviors : a.behaviors = [r])
    (prior : a.prior = [((1 : ℝ) : EReal)]) {l : ℝ} (likely : r.logLikelihood = l) :
    a.updatePosterior.evidence = l ∧ ∃ posterior isMostLikely, a.updatePosterior.behaviors =
      [{ r with logPosterior := posterior, isMostLikely }] := by
  have joint : ln ((1 : ℝ) : EReal) + r.logLikelihood = (l : EReal) := by
    rw [exact_ln one_pos, Real.log_one, likely, EReal.coe_zero, zero_add]
  simp only [updatePosterior, behaviors, prior, List.zipWith_cons_cons, List.zipWith_nil_left,
    joint, exact_logSumExp_singleton, exact_isFinite_coe, if_true]
  exact ⟨trivial, _, _, rfl⟩

namespace Watches

theorem observeTouch (watches : a.Watches g asked seen)
    (room : seen.length < defaultMaxObservations)
    {s : Sample EReal} (pointer : s.pointer = 0) {l : ℝ}
    (likely : (Model.single g).logLikelihood (seen ++ [s]) = l) :
    (a.observeTouch s).Watches g asked (seen ++ [s]) := by
  obtain ⟨r, behaviors, saw, capacity, -⟩ := watches.behavior
  obtain ⟨saw', capacity', known, path, kinds⟩ :=
    saw.observeTouch (capacity ▸ room) pointer likely
  have observed : a.observeTouch s = updatePosterior { a with
      lastPress := if s.kind = .down then some s.time else a.lastPress
      lastEvent := some s.time
      behaviors := [r.observeTouch s] } := by
    rw [Interactor.observeTouch, watches.visible, behaviors]
    rfl
  obtain ⟨evidence, posterior, isMostLikely, shared⟩ :=
    updatePosterior_single (a := { a with
      lastPress := if s.kind = .down then some s.time else a.lastPress
      lastEvent := some s.time
      behaviors := [r.observeTouch s] }) rfl watches.prior known
  rw [← observed] at evidence shared
  refine ⟨?_, ?_, ⟨_, shared, ?_, capacity'.trans capacity, fun _ => ?_⟩, ?_, ?_, ?_, ?_⟩
  · rw [observed]
    exact watches.visible
  · rw [observed]
    exact watches.prior
  · exact ⟨saw'.model, saw'.pattern, saw'.lanes, saw'.tracks, saw'.origin⟩
  · rw [List.length_append]
    exact ⟨path, kinds⟩
  · intro l' _ likely'
    rw [evidence, ← likely, likely']
  · rw [observed]
    exact watches.question
  · rw [observed]
    exact watches.named
  · rw [observed]
    exact watches.claims

/-- The mean evidence is the mean of the log-likelihoods. -/
theorem meanEvidence? (watches : a.Watches g asked seen) (some : seen ≠ []) {l : ℝ}
    (likely : (Model.single g).logLikelihood seen = l) :
    a.meanEvidence? = Option.some ((l / seen.length : ℝ) : EReal) := by
  obtain ⟨r, behaviors, saw, -⟩ := watches.behavior
  have count : a.observationCount = seen.length := by
    simp [observationCount, behaviors, Recognizer.observationCount, Window.observationCount,
      saw.lanes]
  have positive : seen.length ≠ 0 := by simpa using some
  rw [Interactor.meanEvidence?, count, if_neg positive, watches.evidence l some likely,
    exact_ofNat, EReal.coe_div]

/-- Rank and standing do not matter to what is watched. -/
theorem withStanding (watches : a.Watches g asked seen) (standing : Standing)
    (probability : EReal) :
    Watches { a with standing, candidateProbability := probability } g asked seen :=
  ⟨watches.visible, watches.prior, watches.behavior, watches.evidence, watches.question,
    watches.named, watches.claims⟩

theorem withId (watches : a.Watches g asked seen) (id : InteractorId) :
    Watches { a with id } g asked seen :=
  ⟨watches.visible, watches.prior, watches.behavior, watches.evidence, watches.question,
    watches.named, watches.claims⟩

/-- An interactor that is ruled out starts over. -/
theorem exclude (watches : a.Watches g asked seen) : a.exclude.1.Watches g false [] := by
  obtain ⟨r, behaviors, saw, capacity, -⟩ := watches.behavior
  obtain ⟨n, nodes, kind, -⟩ := watches.question
  refine ⟨watches.visible, watches.prior, ⟨{ r.reset with logPosterior := unobservedPosterior },
    ?_, ?_, capacity, fun some => absurd rfl some⟩, fun _ some => absurd rfl some,
    ⟨{ n with lastResult := none }, ?_, kind, fun _ => rfl⟩, watches.named, watches.claims⟩
  · show (a.behaviors.map Recognizer.reset).map _ = _
    rw [behaviors]
    rfl
  · have fresh := saw.reset
    exact ⟨fresh.model, fresh.pattern, fresh.lanes, fresh.tracks, fresh.origin⟩
  · show a.rulebook.nodes.map _ = _
    rw [nodes]
    rfl

/-- The only node of the rulebook is a question. -/
theorem operandsBefore (watches : a.Watches g asked seen) : a.rulebook.OperandsBefore := by
  obtain ⟨n, nodes, kind, -⟩ := watches.question
  intro i m found o operand
  rw [nodes] at found
  obtain rfl : n = m := by
    cases i with
    | zero => exact Option.some.inj found
    | succ i => cases found
  rw [kind] at operand
  cases operand

/-- What comes of the rules, if the only question has an answer. -/
theorem judged {s : Sample EReal} (watches : a.Watches g false [s]) {holds : Bool}
    (answer : a.rulebook.verdictNow a.views 0 = holds) :
    a.afterRules.Watches g true [s] ∧ a.afterRules.standing =
      if holds = true then (a.standing.apply .claim).after else a.standing := by
  obtain ⟨n, nodes, kind, -⟩ := watches.question
  have updated : (a.rulebook.update a.views).book.nodes = [n.conclude a.views holds] := by
    rw [Rulebook.update_nodes watches.operandsBefore, nodes]
    simp [answer]
  have named : (a.rulebook.update a.views).book.node? "C_is_complete" = some 0 :=
    (Rulebook.update_node? a.rulebook a.views "C_is_complete").trans watches.named
  have satisfied : (a.rulebook.update a.views).book.isSatisfied? "C_is_complete" = some holds := by
    rw [Rulebook.isSatisfied?, Rulebook.state?, named]
    simp [updated]
  have result : a.afterRules = if holds = true then
      (claim { a with rulebook := (a.rulebook.update a.views).book } {}).1
      else { a with rulebook := (a.rulebook.update a.views).book } := by
    simp only [Interactor.afterRules, Interactor.updateRules, watches.claims, Option.bind_some,
      satisfied, Option.getD_some]
    split <;> rfl
  have question : ∃ n, (a.rulebook.update a.views).book.nodes = [n] ∧
      n.kind = .ask 0 ⟨.is, .complete⟩ ∧ (true = false → n.lastResult = none) :=
    ⟨_, updated, by rw [RuleNode.conclude_kind, kind], fun unasked => by cases unasked⟩
  have asked : Watches { a with rulebook := (a.rulebook.update a.views).book } g true [s] :=
    ⟨watches.visible, watches.prior, watches.behavior, watches.evidence, question, named,
      watches.claims⟩
  rw [result]
  cases holds with
  | false => exact ⟨asked, rfl⟩
  | true =>
    exact ⟨⟨asked.visible, asked.prior, asked.behavior, asked.evidence, asked.question, asked.named,
      asked.claims⟩, rfl⟩

/-- A single sample completes the tap if it is a release, and the touches are claimed. -/
theorem afterRules {s : Sample EReal} (watches : a.Watches g false [s])
    (released : s.kind = .up) :
    a.afterRules.Watches g true [s] ∧
      a.afterRules.standing = (a.standing.apply .claim).after := by
  obtain ⟨r, behaviors, saw, -, shows⟩ := watches.behavior
  obtain ⟨path, kinds⟩ := shows (by simp)
  obtain ⟨n, nodes, kind, fresh⟩ := watches.question
  have views : a.views = [r.view] := by rw [views, behaviors]; rfl
  have holds : a.rulebook.verdictNow a.views 0 = true := by
    obtain ⟨c, checked, completed⟩ := saw.completes path (by
      rw [kinds, List.map_singleton, released])
    rw [Rulebook.verdictNow, Rulebook.verdict_ask (by rw [nodes]; rfl) kind, views]
    simp [fresh, Question.verdict, BehaviorView.ask, checked, Question.answer, completed]
  exact watches.judged holds

/-- A single press does not complete the tap, and nothing is claimed. -/
theorem afterRules_pressed {s : Sample EReal} (watches : a.Watches g false [s])
    (pressed : s.kind = .down) :
    a.afterRules.Watches g true [s] ∧ a.afterRules.standing = a.standing := by
  obtain ⟨r, behaviors, saw, -, shows⟩ := watches.behavior
  obtain ⟨path, kinds⟩ := shows (by simp)
  obtain ⟨n, nodes, kind, fresh⟩ := watches.question
  have views : a.views = [r.view] := by rw [views, behaviors]; rfl
  have fails : a.rulebook.verdictNow a.views 0 = false := by
    obtain ⟨c, checked, pending⟩ := saw.awaits path (by
      rw [kinds, List.map_singleton, pressed])
    rw [Rulebook.verdictNow, Rulebook.verdict_ask (by rw [nodes]; rfl) kind, views]
    simp [fresh, Question.verdict, BehaviorView.ask, checked, Question.answer, pending]
  exact watches.judged fails

end Watches

end Interactor

end TouchIntent
