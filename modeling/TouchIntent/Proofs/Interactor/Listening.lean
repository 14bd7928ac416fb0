import Mathlib
import TouchIntent.Proofs.Gesture.Blanks
import TouchIntent.Proofs.Interactor.Lasting
import TouchIntent.Proofs.Rule.Listening
import TouchIntent.Proofs.Session.Host

/-!
# Interactors and the listeners of their behaviours

Whatever is done with an interactor, its behaviours keep their labels, and its rulebook goes through
a run of its own. So what has been said of rulebooks can be said of interactors: the listener of a
behaviour can be attached if the label of the behaviour is a referable name and the rule that
watches the behaviour can have its label; and from then on every update of the rules calls it, if
there is a node that asks about the behaviour.
-/

namespace TouchIntent

open Scalar RuleText

variable {R ν : Type} [Scalar R]

theorem Recognizer.observeTouch_label (r : Recognizer R) (s : Sample R) :
    (r.observeTouch s).label = r.label := by
  by_cases accepted : s.pointer ∈ r.window.pointers
  · have anchored : (r.anchor s).label = r.label := by
      rcases r.anchor_cases s with same | ⟨d, moved⟩
      · rw [same]
      · rw [moved]
        rfl
    rw [observeTouch_eq accepted]
    exact anchored
  · rw [observeTouch_of_ignored accepted]

/-- What can be done with an interactor, by a host or by the session that it belongs to. What stops
or starts a timer is handed a queue. -/
inductive InteractorOp (R ν : Type) where
  | assign (id : InteractorId)
  | rename (name : String)
  | withPrior (prior : List R)
  | observe (observation : Observation R)
  | translate (d : Vec2 R)
  | rank (candidateProbability : R)
  | promote
  | determine
  | grantSelfExclusion
  | command (order : HostCommand) (queue : TaskQueue)
  | selfExcludeAfter (delay now : Millis) (queue : TaskQueue)
  | timeOut
  | addRule (statement : String)
  | addRuleWithListener (statement : String) (listener : ν)
  | setBehaviorListener (label : String) (listener : ν)
  | claimOn (label : String)
  | updateRules (queue : TaskQueue)
  | evaluateRule (label : String)

namespace Interactor

/-- The interactor after an operation. -/
def perform (a : Interactor R ν) : InteractorOp R ν → Interactor R ν
  | .assign id => { a with id }
  | .rename name => { a with name }
  | .withPrior prior => (a.withPrior prior).toOption.getD a
  | .observe observation => (a.observe observation).1
  | .translate d => a.translate d
  | .rank candidateProbability => { a with candidateProbability }
  | .promote => a.promote.1
  | .determine => a.determine.1
  | .grantSelfExclusion => a.grantSelfExclusion.1
  | .command order queue => (a.obey order queue).1
  | .selfExcludeAfter delay now queue => (a.selfExcludeAfter delay now queue).1
  | .timeOut => a.timeOut.1
  | .addRule statement => (a.addRule statement).1
  | .addRuleWithListener statement listener =>
    { a with rulebook := (a.rulebook.addRuleWithListener statement listener).1 }
  | .setBehaviorListener label listener => (a.setBehaviorListener label listener).1
  | .claimOn label => (a.claimOn label).toOption.getD a
  | .updateRules queue => (a.updateRules queue).1
  | .evaluateRule label => ((a.evaluateRule label).map Prod.fst).getD a

/-- The interactor after operations, one after the other. -/
def performAll (a : Interactor R ν) (ops : List (InteractorOp R ν)) : Interactor R ν :=
  ops.foldl perform a

theorem performAll_concat (a : Interactor R ν) (past : List (InteractorOp R ν))
    (op : InteractorOp R ν) : a.performAll (past ++ [op]) = (a.performAll past).perform op := by
  simp [performAll]

/-! ## Runs of an interactor -/

/-- The interactor has behaviours of these labels, and a rulebook about them that has been through
these operations. -/
structure HasRun (a : Interactor R ν) (labels : List String) (past : List (RuleOp R ν)) :
    Prop where
  sized : a.prior.length = a.behaviors.length
  labelled : a.behaviors.map Recognizer.label = labels
  rulebook : a.rulebook = (Rulebook.empty labels).performAll past

variable {a b : Interactor R ν} {labels : List String} {past : List (RuleOp R ν)}

/-- What leaves the priors, the behaviours and the rules. -/
theorem HasRun.of_eq (run : a.HasRun labels past) (prior : b.prior = a.prior)
    (behaviors : b.behaviors = a.behaviors) (rulebook : b.rulebook = a.rulebook) :
    b.HasRun labels past where
  sized := by rw [prior, behaviors, run.sized]
  labelled := by rw [behaviors, run.labelled]
  rulebook := by rw [rulebook, run.rulebook]

/-- What does something with the rules. -/
theorem HasRun.rule (run : a.HasRun labels past) (op : RuleOp R ν) :
    { a with rulebook := (a.rulebook.perform op).book }.HasRun labels (past ++ [op]) where
  sized := run.sized
  labelled := run.labelled
  rulebook := by rw [Rulebook.performAll_concat, ← run.rulebook]

/-- What does something with every behaviour, and leaves its label. -/
theorem HasRun.map (run : a.HasRun labels past) (change : Recognizer R → Recognizer R)
    (keeps : ∀ r, (change r).label = r.label) :
    { a with behaviors := a.behaviors.map change }.HasRun labels past where
  sized := by simpa using run.sized
  labelled := by
    rw [← run.labelled]
    simp [keeps]
  rulebook := run.rulebook

/-- A run that has led to the one goes on to the other, and registers nothing on the way. -/
def GoesOn (a b : Interactor R ν) : Prop :=
  ∀ labels past, a.HasRun labels past → ∃ later : List (RuleOp R ν),
    b.HasRun labels (past ++ later) ∧ ∀ op ∈ later, op.registers = false

/-- What leaves the rules alone. -/
theorem GoesOn.of_keeps (keeps : ∀ labels past, a.HasRun labels past → b.HasRun labels past) :
    a.GoesOn b := fun labels past run =>
  ⟨[], by simpa using keeps labels past run, by simp⟩

theorem GoesOn.of_eq (prior : b.prior = a.prior) (behaviors : b.behaviors = a.behaviors)
    (rulebook : b.rulebook = a.rulebook) : a.GoesOn b :=
  .of_keeps fun _ _ run => run.of_eq prior behaviors rulebook

theorem GoesOn.trans {c : Interactor R ν} (first : a.GoesOn b) (second : b.GoesOn c) :
    a.GoesOn c := by
  intro labels past run
  obtain ⟨later, run, quiet⟩ := first labels past run
  obtain ⟨rest, run, quiet'⟩ := second labels _ run
  exact ⟨later ++ rest, by simpa using run, List.forall_mem_append.2 ⟨quiet, quiet'⟩⟩

/-- Working out the posteriors leaves the labels. -/
theorem HasRun.updatePosterior (run : a.HasRun labels past) :
    a.updatePosterior.HasRun labels past where
  sized := by
    rw [updatePosterior_behaviors, List.length_map, List.length_zipIdx, List.length_zipWith,
      length_updatePosterior]
    show a.prior.length = _
    have sized := run.sized
    omega
  labelled := by
    have unjudged := a.unjudged_updatePosterior run.sized
    rw [← run.labelled]
    symm
    refine List.forall₂_eq_eq_eq ▸ (List.forall₂_map_left_iff.2 (List.forall₂_map_right_iff.2 ?_))
    exact unjudged.imp fun r r' same => (congrArg Recognizer.label same).symm
  rulebook := run.rulebook

theorem isLasting_goesOn : IsLasting (GoesOn (R := R) (ν := ν)) where
  refl _ := .of_keeps fun _ _ run => run
  trans _ _ _ := GoesOn.trans
  stand _ _ := .of_eq rfl rfl rfl
  rank _ _ := .of_eq rfl rfl rfl
  stopTimer _ := .of_eq rfl rfl rfl
  forget a := .of_keeps fun _ _ run => (run.map Recognizer.reset fun _ => rfl).of_eq rfl rfl rfl
  startOver a := by
    intro labels past run
    refine ⟨[.reset], ?_, by simp [RuleOp.registers]⟩
    have forgotten := ((run.rule .reset).map Recognizer.reset fun _ => rfl).map
      (fun b => { b with logPosterior := unobservedPosterior }) fun _ => rfl
    exact forgotten.of_eq rfl rfl rfl
  look a s shown := by
    refine .of_keeps fun labels past run => ?_
    unfold Interactor.observeTouch
    rw [if_neg (by rw [shown]; exact Bool.false_ne_true)]
    have seen := run.map (fun b => b.observeTouch s) fun r => r.observeTouch_label s
    exact HasRun.updatePosterior (seen.of_eq rfl rfl rfl)
  judge a := by
    intro labels past run
    exact ⟨[.update a.views], run.rule (.update a.views), by simp [RuleOp.registers]⟩

/-- A command of the host registers nothing. -/
theorem goesOn_obey (a : Interactor R ν) (order : HostCommand) (queue : TaskQueue) :
    a.GoesOn (a.obey order queue).1 := by
  have lasting := isLasting_goesOn (R := R) (ν := ν)
  cases order with
  | reset => exact lasting.reset a
  | exclude => exact lasting.exclude a
  | selfExclude => exact lasting.selfExclude a
  | claim => exact lasting.claim a queue
  | undetermine => exact lasting.undetermine a queue
  | withdrawSelfExclusion => exact lasting.withdrawSelfExclusion a queue
  | setHidden hidden => exact .of_eq rfl rfl rfl
  | resetObservations => exact lasting.forget a

/-- An observation registers nothing. -/
theorem goesOn_observe (a : Interactor R ν) (observation : Observation R) :
    a.GoesOn (a.observe observation).1 := by
  have lasting := isLasting_goesOn (R := R) (ν := ν)
  cases observation with
  | touch sample => exact lasting.observeTouch a sample
  | multiTouch frame =>
    rw [observe]
    split
    · split
      · exact lasting.selfExclude a
      · exact lasting.reset a
    · split
      · exact .of_keeps fun _ _ run => run.updatePosterior
      · exact lasting.refl a

/-- A prior changes nothing but the prior, and is of the same length. -/
theorem goesOn_withPrior (a : Interactor R ν) (prior : List R) :
    a.GoesOn (a.perform (.withPrior prior)) := by
  rw [perform]
  cases outcome : a.withPrior prior with
  | error error => exact isLasting_goesOn.refl a
  | ok b =>
    obtain ⟨sized, rfl⟩ := Session.exists_of_withPrior outcome
    refine .of_keeps fun _ _ run => ⟨?_, run.labelled, run.rulebook⟩
    exact (List.length_map _).trans sized

theorem goesOn_claimOn (a : Interactor R ν) (label : String) :
    a.GoesOn (a.perform (.claimOn label)) := by
  obtain ⟨claimRule, same⟩ : ∃ claimRule, a.perform (.claimOn label) = { a with claimRule } := by
    simp only [perform, claimOn]
    split
    · exact ⟨_, rfl⟩
    · exact ⟨a.claimRule, rfl⟩
  rw [same]
  exact .of_eq rfl rfl rfl

/-! ## What the operations do to the rules -/

theorem perform_evaluateRule (a : Interactor R ν) (label : String) :
    a.perform (.evaluateRule label) =
      { a with rulebook := (a.rulebook.perform (.evaluate label a.views)).book } := by
  simp only [perform, evaluateRule, Rulebook.perform]
  cases a.rulebook.evaluate label a.views <;> rfl

/-- A behaviour is given a listener by its number. -/
theorem setBehaviorListener_eq {label : String} {i : Nat} (index : a.behaviorIndex label = .ok i)
    (listener : ν) : a.setBehaviorListener label listener =
      ({ a with rulebook := (a.rulebook.perform (.setBehaviorListener i listener)).book },
        (a.rulebook.setBehaviorListener i listener).2.mapError .rule) := by
  rw [setBehaviorListener, index]
  rfl

omit [Scalar R] in
/-- The number of a behaviour is the first place of its label. -/
theorem behaviorIndex_eq_ok_iff {label : String} {i : Nat} :
    a.behaviorIndex label = .ok i ↔ (a.behaviors.map Recognizer.label).idxOf? label = some i := by
  have same : (a.behaviors.map Recognizer.label).idxOf? label =
      a.behaviors.findIdx? fun b => b.label == label := by
    rw [List.idxOf?, List.findIdx?_map]
    rfl
  rw [same, behaviorIndex]
  cases a.behaviors.findIdx? fun b => b.label == label <;> simp

/-- A listener is set only for the behaviour that is named. -/
theorem hasRun_setBehaviorListener (run : a.HasRun labels past) (label : String) (listener : ν) :
    ∃ later : List (RuleOp R ν),
      (a.perform (.setBehaviorListener label listener)).HasRun labels (past ++ later) ∧
        ∀ i other, .setBehaviorListener i other ∈ later → other = listener ∧
          labels[i]? = some label := by
  cases index : a.behaviorIndex label with
  | error error =>
    have unknown : a.perform (.setBehaviorListener label listener) = a := by
      rw [perform, setBehaviorListener, index]
    rw [unknown]
    exact ⟨[], by simpa using run, by simp⟩
  | ok i =>
    rw [perform, setBehaviorListener_eq index]
    refine ⟨_, run.rule _, fun j other member => ?_⟩
    obtain ⟨rfl, rfl⟩ := RuleOp.setBehaviorListener.inj (List.mem_singleton.1 member)
    refine ⟨rfl, ?_⟩
    rw [behaviorIndex_eq_ok_iff, run.labelled] at index
    obtain ⟨within, same, -⟩ := List.idxOf?_eq_some_iff.1 index
    rw [List.getElem?_eq_getElem within, same]

/-- What an operation does to the rules: it sets a listener only for the behaviour that it names. -/
theorem hasRun_perform (run : a.HasRun labels past) (op : InteractorOp R ν) :
    ∃ later : List (RuleOp R ν), (a.perform op).HasRun labels (past ++ later) ∧
      ∀ i listener, .setBehaviorListener i listener ∈ later → ∃ label,
        op = .setBehaviorListener label listener ∧ labels[i]? = some label := by
  have quietly {b : Interactor R ν} (goesOn : a.GoesOn b) :
      ∃ later : List (RuleOp R ν), b.HasRun labels (past ++ later) ∧
        ∀ i listener, .setBehaviorListener i listener ∈ later → ∃ label,
          op = .setBehaviorListener label listener ∧ labels[i]? = some label := by
    obtain ⟨later, run, quiet⟩ := goesOn labels past run
    exact ⟨later, run, fun i listener member => nomatch quiet _ member⟩
  have lasting := isLasting_goesOn (R := R) (ν := ν)
  cases op with
  | assign id => exact quietly (.of_eq rfl rfl rfl)
  | rename name => exact quietly (.of_eq rfl rfl rfl)
  | withPrior prior => exact quietly (a.goesOn_withPrior prior)
  | observe observation => exact quietly (a.goesOn_observe observation)
  | translate d =>
    exact quietly (.of_keeps fun _ _ run => run.map (fun b => b.translate d) fun _ => rfl)
  | rank share => exact quietly (.of_eq rfl rfl rfl)
  | promote => exact quietly (lasting.apply a .promote)
  | determine => exact quietly (lasting.apply a .determine)
  | grantSelfExclusion => exact quietly (lasting.grantSelfExclusion a)
  | command order queue => exact quietly (a.goesOn_obey order queue)
  | selfExcludeAfter delay now queue => exact quietly (.of_eq rfl rfl rfl)
  | timeOut => exact quietly (lasting.timeOut a)
  | addRule statement => exact ⟨_, run.rule (.addRule statement), by simp⟩
  | addRuleWithListener statement listener =>
    exact ⟨_, run.rule (.addRuleWithListener statement listener), by simp⟩
  | setBehaviorListener label listener =>
    obtain ⟨later, run, named⟩ := hasRun_setBehaviorListener run label listener
    refine ⟨later, run, fun i other member => ⟨label, ?_⟩⟩
    obtain ⟨rfl, same⟩ := named i other member
    exact ⟨rfl, same⟩
  | claimOn label => exact quietly (a.goesOn_claimOn label)
  | updateRules queue =>
    rw [perform, updateRules_fst]
    exact quietly (lasting.afterRules a)
  | evaluateRule label =>
    rw [perform_evaluateRule]
    exact ⟨_, run.rule _, by simp⟩

/-- Operations one after the other have the rulebook go through a run, in which a listener is set
only for a behaviour that one of them names. -/
theorem hasRun_performAll (run : a.HasRun labels past) (ops : List (InteractorOp R ν)) :
    ∃ later : List (RuleOp R ν), (a.performAll ops).HasRun labels (past ++ later) ∧
      ∀ i listener, .setBehaviorListener i listener ∈ later → ∃ label,
        .setBehaviorListener label listener ∈ ops ∧ labels[i]? = some label := by
  induction ops using List.reverseRecOn with
  | nil => exact ⟨[], by simpa [performAll] using run, by simp⟩
  | append_singleton done op ih =>
    obtain ⟨earlier, run, named⟩ := ih
    obtain ⟨later, run, last⟩ := hasRun_perform run op
    rw [performAll_concat]
    refine ⟨earlier ++ later, by simpa using run, fun i listener member => ?_⟩
    rcases List.mem_append.1 member with member | member
    · obtain ⟨label, asked, same⟩ := named i listener member
      exact ⟨label, List.mem_append_left _ asked, same⟩
    · obtain ⟨label, rfl, same⟩ := last i listener member
      exact ⟨label, List.mem_append_right _ (List.mem_singleton.2 rfl), same⟩

/-- A new interactor has an empty run behind it. -/
theorem hasRun_build {id : InteractorId} {behaviors : List (Recognizer R)}
    (built : build id behaviors = .ok a) : a.HasRun (behaviors.map Recognizer.label) [] := by
  unfold build at built
  split at built
  · cases built
  · obtain rfl := Except.ok.inj built
    refine ⟨?_, ?_, rfl⟩
    · simp [forgetPosterior]
    · simp [forgetPosterior]

/-! ## Listening to a behaviour -/

/-- The next update of the rules calls the listener for the behaviour of the label, with what a
completion check of the behaviour finds in this cycle. The same is then kept for the behaviour. -/
def Tells (a : Interactor R ν) (label : String) (listener : ν) : Prop :=
  ∃ i view, a.behaviorIndex label = .ok i ∧ a.views[i]? = some view ∧
    ∃ n ∈ a.rulebook.nodes, ∃ question, n.kind = .ask i question ∧ ∀ queue : TaskQueue,
      (a.updateRules queue).1.rulebook.behaviorResult? i = view.ask n.lastResult ∧
      .behavior listener label (view.ask n.lastResult) ∈ (a.updateRules queue).2.2

theorem afterRules_rulebook (a : Interactor R ν) :
    a.afterRules.rulebook = (a.rulebook.update a.views).book := by
  unfold afterRules updateRules
  simp only
  split <;> rfl

section Labels

variable {label : String} {i : Nat} (run : a.HasRun labels past)
include run

theorem HasRun.wellFormed : a.rulebook.WellFormed := by
  rw [run.rulebook]
  exact Rulebook.wellFormed_performAll (Rulebook.wellFormed_empty labels) past

/-- What stands in view at the place of a label has the label. -/
theorem HasRun.view?_label : (a.views[i]?).map BehaviorView.label = labels[i]? := by
  rw [← run.labelled, views, List.getElem?_map, List.getElem?_map, Option.map_map]
  rfl

variable (distinct : labels.Nodup) (known : labels[i]? = some label)
include distinct known

/-- Where no two behaviours share a label, a behaviour is found under its own. -/
theorem HasRun.idxOf? : a.rulebook.behaviors.idxOf? label = some i := by
  obtain ⟨within, same⟩ := List.getElem?_eq_some_iff.1 known
  rw [run.rulebook, Rulebook.behaviors_performAll, List.idxOf?_eq_some_iff]
  refine ⟨within, same, fun j earlier again => ?_⟩
  have twice := (List.Nodup.getElem_inj_iff distinct).1 (again.trans same.symm)
  omega

theorem HasRun.behaviorIndex_eq : a.behaviorIndex label = .ok i := by
  have found := run.idxOf? distinct known
  rw [run.rulebook, Rulebook.behaviors_performAll] at found
  rw [behaviorIndex_eq_ok_iff, run.labelled, found]

/-- A listener is attached to a behaviour by setting it in the rulebook. -/
theorem HasRun.attach {listener : ν} (ok : a.setBehaviorListener label listener = (b, .ok ())) :
    a.rulebook.setBehaviorListener i listener = (b.rulebook, .ok ()) ∧
      b.HasRun labels (past ++ [.setBehaviorListener i listener]) := by
  rw [setBehaviorListener_eq (run.behaviorIndex_eq distinct known)] at ok
  obtain ⟨rfl, entered⟩ := Prod.mk.inj ok
  refine ⟨Prod.ext rfl ?_, run.rule _⟩
  cases outcome : (a.rulebook.setBehaviorListener i listener).2 with
  | error error =>
    rw [outcome] at entered
    cases entered
  | ok done => rfl

theorem HasRun.exists_attach_iff (trimmed : ∀ c ∈ label.toList.head?, Text.isBlank c = false)
    (listener : ν) :
    (∃ b, a.setBehaviorListener label listener = (b, .ok ())) ↔ IsReferable label ∧
      ∀ node, a.rulebook.node? (watchLabel label) = some node →
        a.rulebook.labelOf node = Question.label ⟨.is, .complete⟩ label := by
  have attaches (book : Rulebook R ν) :
      a.rulebook.setBehaviorListener i listener = (book, .ok ()) ↔ _ :=
    Rulebook.setBehaviorListener_eq_ok_iff trimmed (run.idxOf? distinct known)
  constructor
  · rintro ⟨b, ok⟩
    obtain ⟨referable, free, -⟩ := (attaches b.rulebook).1 (run.attach distinct known ok).1
    exact ⟨referable, free⟩
  · rintro ⟨referable, free⟩
    rw [setBehaviorListener_eq (run.behaviorIndex_eq distinct known),
      (attaches _).2 ⟨referable, free, rfl⟩]
    exact ⟨_, rfl⟩

/-- The listener of a behaviour that is asked about is called in the next cycle. -/
theorem HasRun.tells {listener : ν} (asks : a.rulebook.AsksAbout i)
    (attached : a.rulebook.behaviorListeners[i]? = some (some listener)) :
    a.Tells label listener := by
  have shown := run.view?_label (i := i)
  rw [known] at shown
  obtain ⟨view, seen, rfl⟩ := Option.map_eq_some_iff.1 shown
  have kept : i < a.rulebook.behaviorResults.length := by
    rw [run.rulebook, Rulebook.length_behaviorResults_performAll]
    exact (List.getElem?_eq_some_iff.1 known).1
  obtain ⟨n, member, question, kind, result, called⟩ :=
    Rulebook.tells_of_asksAbout run.wellFormed.before asks attached seen kept
  refine ⟨i, view, run.behaviorIndex_eq distinct known, seen, n, member, question, kind,
    fun queue => ?_⟩
  rw [updateRules_fst, updateRules_firings, afterRules_rulebook]
  exact ⟨result, called⟩

/-- It goes on being called until another listener takes its place. -/
theorem HasRun.tells_later {listener : ν} (asks : a.rulebook.AsksAbout i)
    (attached : a.rulebook.behaviorListeners[i]? = some (some listener))
    {later : List (InteractorOp R ν)} (others : ∀ other, .setBehaviorListener label other ∉ later) :
    (a.performAll later).Tells label listener := by
  obtain ⟨rest, goesOn, named⟩ := hasRun_performAll run later
  have kept : (a.performAll later).rulebook = a.rulebook.performAll rest := by
    rw [goesOn.rulebook, run.rulebook, Rulebook.performAll_append]
  refine goesOn.tells distinct known ?_ ?_
  · rw [kept]
    exact Rulebook.asksAbout_performAll asks rest
  · rw [kept, Rulebook.behaviorListeners_performAll, attached]
    rintro op member other rfl
    obtain ⟨label', replaced, same⟩ := named i other member
    obtain rfl := Option.some.inj (known.symm.trans same)
    exact others other replaced

/-- The listener of a behaviour is called for it only if some node asks about it. -/
theorem HasRun.asksAbout_of_called {listener : ν} {result : Option CheckResult}
    {queue : TaskQueue} (called : .behavior listener label result ∈ (a.updateRules queue).2.2) :
    a.rulebook.AsksAbout i := by
  rw [updateRules_firings] at called
  obtain ⟨n, member, calls⟩ := (Rulebook.behavior_mem_firings_iff run.wellFormed.before).1 called
  obtain ⟨j, question, view, kind, seen, -, rfl, -⟩ := Rulebook.mem_behaviorCalls.1 calls
  have again := run.view?_label (i := j)
  rw [seen, Option.map_some] at again
  have first := run.behaviorIndex_eq distinct known
  rw [run.behaviorIndex_eq distinct again.symm] at first
  obtain rfl := Except.ok.inj first
  exact ⟨n, member, question, kind⟩

end Labels

/-- Which behaviours of an interactor can be listened to. The behaviours are compiled from gesture
texts and share no label, and anything may have been done with the interactor before. A listener can
be attached to a behaviour if and only if its label is a referable name and no rule that says
something else goes by the label of the rule that watches the behaviour. From then on, and until
another listener takes its place, every update of the rules calls it with the label and what a
completion check then finds, provided that a node asks about the behaviour or none had the label of
the question; otherwise it is not called. As long as there are no rules, only the label matters. -/
theorem listener_told_iff {recognizers : List (Recognizer R)}
    (compiled : ∀ r ∈ recognizers, ∃ (c : Compiler R) (source : String) (element : Bounds R)
      (b : Behavior R) (maxObservations : Nat),
        c.compile source element = .ok b ∧ r = .ofBehavior b maxObservations)
    (distinct : (recognizers.map Recognizer.label).Nodup) {id : InteractorId}
    {new : Interactor R ν} (built : build id recognizers = .ok new)
    (past : List (InteractorOp R ν)) {i : Nat} {label : String}
    (known : (recognizers.map Recognizer.label)[i]? = some label) (listener : ν) :
    let a := new.performAll past
    ((∃ b, a.setBehaviorListener label listener = (b, .ok ())) ↔ IsReferable label ∧
      ∀ node, a.rulebook.node? (watchLabel label) = some node →
        a.rulebook.labelOf node = Question.label ⟨.is, .complete⟩ label) ∧
    (∀ b, a.setBehaviorListener label listener = (b, .ok ()) →
      (a.rulebook.CanAsk i label → ∀ later : List (InteractorOp R ν),
        (∀ other, .setBehaviorListener label other ∉ later) →
          (b.performAll later).Tells label listener) ∧
      (¬ a.rulebook.CanAsk i label → ∀ queue result,
        .behavior listener label result ∉ (b.updateRules queue).2.2)) ∧
    (a.rulebook.isEmpty = true → a.rulebook.CanAsk i label ∧
      ((∃ b, a.setBehaviorListener label listener = (b, .ok ())) ↔ IsReferable label)) := by
  intro a
  obtain ⟨before, run, -⟩ := hasRun_performAll (hasRun_build built) past
  rw [List.nil_append] at run
  have trimmed : ∀ c ∈ label.toList.head?, Text.isBlank c = false := by
    obtain ⟨r, found, rfl⟩ := List.mem_map.1 (List.mem_of_getElem? known)
    obtain ⟨c, source, element, b, maxObservations, ok, rfl⟩ := compiled r found
    exact (Compiler.isTrimmed_label ok).1
  have attaches := run.exists_attach_iff distinct known trimmed listener
  refine ⟨attaches, fun b ok => ?_, fun empty => ?_⟩
  · obtain ⟨attached, run'⟩ := run.attach distinct known ok
    obtain ⟨-, -, set⟩ := (Rulebook.setBehaviorListener_eq_ok_iff trimmed
      (run.idxOf? distinct known)).1 attached
    have asks : b.rulebook.AsksAbout i ↔ a.rulebook.CanAsk i label := by
      rw [← Rulebook.asksAbout_register_watching run.wellFormed, set]
      rfl
    refine ⟨fun canAsk later others => ?_, fun cannot queue result called => ?_⟩
    · have within : i < a.rulebook.behaviorListeners.length := by
        rw [run.rulebook, Rulebook.length_behaviorListeners_performAll]
        simpa [Rulebook.empty] using (List.getElem?_eq_some_iff.1 known).1
      have listens : b.rulebook.behaviorListeners[i]? = some (some listener) := by
        rw [set]
        exact List.getElem?_set_self within
      exact run'.tells_later distinct known (asks.2 canAsk) listens others
    · exact cannot (asks.1 (run'.asksAbout_of_called distinct known called))
  · have nodes : a.rulebook.nodes = [] := List.isEmpty_iff.1 empty
    refine ⟨.inr (by simp [nodes]), attaches.trans (and_iff_left fun node named => ?_)⟩
    have within := run.wellFormed.node?_lt named
    rw [nodes] at within
    exact absurd within (Nat.not_lt_zero node)

/-- An interactor with the one behaviour of the gesture text `C`, with a label or without one. -/
theorem exists_new {source : String} {label : Option String} {offset : Nat}
    (text : GestureText.ofChars source.toList = ⟨label, offset, ['C']⟩) :
    ∃ (b : Behavior EReal) (new : Interactor EReal ν),
      Compiler.compile ⟨⟨((1 : ℝ) : EReal), ((1 : ℝ) : EReal)⟩, one, .gaussian⟩ source
        (Twins.around 0) = .ok b ∧ b.label = label.getD "C" ∧
      build 0 [.ofBehavior b 50] = .ok new ∧ new.HasRun [b.label] [] := by
  obtain ⟨b, ok, given⟩ : ∃ b : Behavior EReal,
      Compiler.compile ⟨⟨((1 : ℝ) : EReal), ((1 : ℝ) : EReal)⟩, one, .gaussian⟩ source
        (Twins.around 0) = .ok b ∧ b.label = label.getD "C" :=
    ⟨_, Twins.compile_labelled_around text 0, rfl⟩
  obtain ⟨new, built⟩ : ∃ new : Interactor EReal ν, build 0 [.ofBehavior b 50] = .ok new :=
    ⟨_, rfl⟩
  exact ⟨b, new, ok, given, built, hasRun_build built⟩

/-- The behaviour of the gesture text `C`, in an interactor that nothing has been done with. -/
theorem listener_told_iff_tap :
    ∃ (b : Behavior EReal) (new a : Interactor EReal Unit),
      Compiler.compile ⟨⟨((1 : ℝ) : EReal), ((1 : ℝ) : EReal)⟩, one, .gaussian⟩ "C"
        (Twins.around 0) = .ok b ∧ build 0 [.ofBehavior b 50] = .ok new ∧
      new.setBehaviorListener "C" () = (a, .ok ()) ∧ ∀ later : List (InteractorOp EReal Unit),
        (∀ other, .setBehaviorListener "C" other ∉ later) → (a.performAll later).Tells "C" () := by
  have text : GestureText.ofChars "C".toList = ⟨none, 0, ['C']⟩ := by cbv
  obtain ⟨b, new, ok, label, built, run⟩ := exists_new (ν := Unit) text
  have compiled : ∀ r ∈ [Recognizer.ofBehavior b 50], ∃ (c : Compiler EReal) (source : String)
      (element : Bounds EReal) (b : Behavior EReal) (maxObservations : Nat),
        c.compile source element = .ok b ∧ r = .ofBehavior b maxObservations := by
    intro r member
    exact ⟨_, _, _, b, 50, ok, List.mem_singleton.1 member⟩
  have known : ([Recognizer.ofBehavior b 50].map Recognizer.label)[0]? = some "C" :=
    congrArg some label
  have letters : "C".toList.all isNameChar = true := by decide +kernel
  have referable : IsReferable "C" :=
    IsName.isReferable ⟨by decide, List.all_eq_true.1 letters, by decide +kernel⟩
  obtain ⟨-, told, fresh⟩ :=
    listener_told_iff compiled (List.nodup_singleton _) built [] known ()
  obtain ⟨canAsk, attaches⟩ := fresh (congrArg Rulebook.isEmpty run.rulebook)
  obtain ⟨a, attached⟩ := attaches.2 referable
  exact ⟨b, new, a, ok, built, attached, (told a attached).1 canAsk⟩

/-- A behaviour that is labelled `tap2s`. The rule that would watch it cannot be read, since a unit
is split off from a digit in front of it in the middle of a word as well. -/
theorem no_listener_tap2s :
    ∃ (b : Behavior EReal) (new : Interactor EReal Unit),
      Compiler.compile ⟨⟨((1 : ℝ) : EReal), ((1 : ℝ) : EReal)⟩, one, .gaussian⟩ "tap2s:C"
        (Twins.around 0) = .ok b ∧ build 0 [.ofBehavior b 50] = .ok new ∧
      new.behaviors.map Recognizer.label = ["tap2s"] ∧
      ¬ ∃ a, new.setBehaviorListener "tap2s" () = (a, .ok ()) := by
  have text : GestureText.ofChars "tap2s:C".toList = ⟨some "tap2s", 6, ['C']⟩ := by cbv
  obtain ⟨b, new, ok, label, built, run⟩ := exists_new (ν := Unit) text
  have trimmed := (Compiler.isTrimmed_label ok).1
  rw [label, Option.getD_some] at run trimmed
  refine ⟨b, new, ok, built, run.labelled, ?_⟩
  intro attached
  obtain ⟨referable, -⟩ := (run.exists_attach_iff (List.nodup_singleton "tap2s") (i := 0) rfl
    trimmed ()).1 attached
  exact referable.apart "s" (by decide) '2' (by decide +kernel) ⟨['t', 'a', 'p'], [], by decide⟩

end Interactor

end TouchIntent
