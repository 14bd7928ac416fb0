import TouchIntent.Proofs.Rule.Questions
import TouchIntent.Proofs.Rule.Watching

/-!
# Listeners of behaviours

The listener of a behaviour is called by every node that asks about the behaviour. Once there is
such a node it is there for good, and so is the listener unless another one takes its place. So
whether a listener is called in every cycle to come is decided when it is attached. The rule that is
added with it brings the node along, unless the canonical label of the rule is that of a node which
asks nothing.
-/

namespace TouchIntent

open RuleText

variable {R ν : Type}

namespace Rulebook

/-- Some node asks about the behaviour. -/
def AsksAbout (book : Rulebook R ν) (behavior : Nat) : Prop :=
  ∃ n ∈ book.nodes, ∃ question, n.kind = .ask behavior question

/-- With the rule that watches the behaviour, some node asks about it: one does already, or there is
none yet with the label of the question. -/
def CanAsk (book : Rulebook R ν) (behavior : Nat) (name : String) : Prop :=
  book.AsksAbout behavior ∨ ∀ n ∈ book.nodes, n.label ≠ Question.label ⟨.is, .complete⟩ name

variable {book book' : Rulebook R ν} {behavior : Nat} {name : String}

theorem Extends.asksAbout (extends' : book.Extends book') (asks : book.AsksAbout behavior) :
    book'.AsksAbout behavior := by
  obtain ⟨n, member, kind⟩ := asks
  exact ⟨n, extends'.nodes.subset member, kind⟩

theorem SameGraph.asksAbout (same : book.SameGraph book') (asks : book.AsksAbout behavior) :
    book'.AsksAbout behavior := by
  obtain ⟨n, member, question, kind⟩ := asks
  obtain ⟨i, found⟩ := List.mem_iff_getElem?.1 member
  obtain ⟨m, there, -, alike⟩ := same.symm.getElem? found
  exact ⟨m, List.mem_of_getElem? there, question, alike.trans kind⟩

/-! ## Attaching a listener -/

/-- The rule that watches a behaviour has it asked about, unless a node that asks something else has
the label of its question. -/
theorem asksAbout_register_watching (wf : book.WellFormed) (behavior : Nat) (name : String) :
    (book.register (.watching behavior name)).1.AsksAbout behavior ↔ book.CanAsk behavior name := by
  have interned : (book.register (.watching behavior name)).1.nodes =
      (book.node (Question.label ⟨.is, .complete⟩ name) (.ask behavior ⟨.is, .complete⟩)).1.nodes :=
    register_nodes book (.watching behavior name)
  rw [AsksAbout, interned]
  unfold Rulebook.node
  cases indexed : book.index.lookup (Question.label ⟨.is, .complete⟩ name) with
  | some i =>
    obtain ⟨n, found, label⟩ := (wf.index_iff _ i).1 indexed
    exact ⟨.inl, fun either => either.resolve_right fun free =>
      free n (List.mem_of_getElem? found) label⟩
  | none =>
    refine ⟨fun _ => .inr fun n member label => ?_, fun _ => ?_⟩
    · obtain ⟨i, found⟩ := List.mem_iff_getElem?.1 member
      have known := (wf.index_iff _ i).2 ⟨n, found, label⟩
      rw [indexed] at known
      cases known
    · exact ⟨_, List.mem_append_right _ (List.mem_singleton.2 rfl), _, rfl⟩

variable [Scalar R] {listener : ν}

/-- A behaviour can be given a listener if its label is a referable name, and no rule but the one
that watches the behaviour goes by the label of that rule. -/
theorem setBehaviorListener_eq_ok_iff
    (trimmed : ∀ c ∈ name.toList.head?, Text.isBlank c = false)
    (known : book.behaviors.idxOf? name = some behavior) :
    book.setBehaviorListener behavior listener = (book', .ok ()) ↔ IsReferable name ∧
      (∀ i, book.node? (watchLabel name) = some i →
        book.labelOf i = Question.label ⟨.is, .complete⟩ name) ∧
      book' = { (book.register (.watching behavior name)).1 with
        behaviorListeners := book.behaviorListeners.set behavior (some listener) } := by
  have named : book.behaviors[behavior]? = some name := by
    obtain ⟨within, same, -⟩ := List.idxOf?_eq_some_iff.1 known
    rw [List.getElem?_eq_getElem within, same]
  have readable (rule : Rule R) : Rule.read book.scope (watchRule name).toList = .ok rule ↔ _ :=
    Rule.read_watchRule_iff trimmed known
  have unopposed : book.conflict? (watchLabel name)
        (Rule.watching (R := R) behavior name).expr = none ↔
      ∀ i, book.node? (watchLabel name) = some i →
        book.labelOf i = Question.label ⟨.is, .complete⟩ name := by
    unfold conflict?
    cases book.node? (watchLabel name) with
    | none => simp
    | some i => simp [Rule.watching, RuleExpr.label]
  rw [setBehaviorListener, named]
  simp only [addRule]
  cases read : Rule.read (R := R) book.scope (watchRule name).toList with
  | error fault =>
    refine ⟨by simp, ?_⟩
    rintro ⟨referable, -⟩
    rw [(readable _).2 ⟨referable, rfl⟩] at read
    cases read
  | ok rule =>
    obtain ⟨referable, rfl⟩ := (readable rule).1 read
    have label : (Rule.watching (R := R) behavior name).label = some (watchLabel name) := rfl
    simp only [label, Option.bind_some, ← unopposed, referable, true_and]
    cases book.conflict? (watchLabel name) (Rule.watching (R := R) behavior name).expr with
    | some fault => simp
    | none =>
      simp only [Prod.mk.injEq, and_true, true_and, behaviorListeners_register]
      exact eq_comm

/-! ## What lasts -/

/-- What is asked about goes on being asked about. -/
theorem asksAbout_perform (asks : book.AsksAbout behavior) (op : RuleOp R ν) :
    (book.perform op).book.AsksAbout behavior := by
  refine (book.sameGraph_perform op).asksAbout ?_
  rw [withAdded]
  cases book.addedRule? op with
  | none => exact asks
  | some rule =>
    have more := (extends_intern book rule.expr).asksAbout asks
    rwa [AsksAbout, ← register_nodes] at more

omit [Scalar R] in
theorem behaviorListeners_addListener (book : Rulebook R ν) (label : String) (listener : ν) :
    ((book.addListener label listener).getD book).behaviorListeners = book.behaviorListeners := by
  unfold addListener
  cases book.node? label <;> rfl

theorem behaviorListeners_withAdded (book : Rulebook R ν) (op : RuleOp R ν) :
    (book.withAdded op).behaviorListeners = book.behaviorListeners := by
  rw [withAdded]
  cases book.addedRule? op with
  | none => rfl
  | some rule => exact behaviorListeners_register book rule

/-- All that an operation does to the listeners of behaviours is to set one. -/
theorem behaviorListeners_perform (book : Rulebook R ν) (op : RuleOp R ν) :
    (book.perform op).book.behaviorListeners = book.behaviorListeners ∨
      ∃ behavior listener, op = .setBehaviorListener behavior listener ∧
        (book.perform op).book.behaviorListeners =
          book.behaviorListeners.set behavior (some listener) := by
  cases op with
  | addRule statement =>
    left
    rw [perform_addRule, behaviorListeners_withAdded]
  | addRuleWithListener statement listener =>
    left
    rcases outcome : book.addRule statement with ⟨added, error | label⟩
    · rw [perform_addRuleWithListener_of_rejected outcome]
    · obtain ⟨rule, -, rfl, -⟩ := addRule_eq_ok outcome
      rw [perform_addRuleWithListener_of_ok outcome, behaviorListeners_addListener,
        behaviorListeners_register]
  | addListener label listener => exact .inl (book.behaviorListeners_addListener label listener)
  | setBehaviorListener behavior listener =>
    cases known : book.behaviors[behavior]? with
    | none => exact .inl (by simp only [perform, setBehaviorListener, known])
    | some label =>
      rcases outcome : book.addRule (watchRule label) with ⟨added, error | given⟩
      · left
        simp only [perform, setBehaviorListener, known, outcome, addRule_eq_error outcome]
      · obtain ⟨rule, -, rfl, -⟩ := addRule_eq_ok outcome
        refine .inr ⟨behavior, listener, rfl, ?_⟩
        simp only [perform, setBehaviorListener, known, outcome, behaviorListeners_register]
  | update views => exact .inl (behaviorListeners_of_renewed (renewed_perform book (.update views)))
  | evaluate label views =>
    exact .inl (behaviorListeners_of_renewed (renewed_perform book (.evaluate label views)))
  | reset => exact .inl rfl

/-- In every run, a behaviour that is asked about stays so. -/
theorem asksAbout_performAll (asks : book.AsksAbout behavior) (ops : List (RuleOp R ν)) :
    (book.performAll ops).AsksAbout behavior := by
  induction ops using List.reverseRecOn with
  | nil => exact asks
  | append_singleton past op ih =>
    rw [performAll_concat]
    exact asksAbout_perform ih op

/-- In every run, the listener of a behaviour stays until another one takes its place. -/
theorem behaviorListeners_performAll {ops : List (RuleOp R ν)}
    (others : ∀ op ∈ ops, ∀ listener, op ≠ .setBehaviorListener behavior listener) :
    (book.performAll ops).behaviorListeners[behavior]? = book.behaviorListeners[behavior]? := by
  induction ops using List.reverseRecOn with
  | nil => rfl
  | append_singleton past op ih =>
    obtain ⟨earlier, last⟩ := List.forall_mem_append.1 others
    rw [performAll_concat, ← ih earlier]
    obtain same | ⟨chosen, listener, rfl, set⟩ :=
      (book.performAll past).behaviorListeners_perform op
    · rw [same]
    · rw [set, List.getElem?_set_ne]
      rintro rfl
      exact last _ (List.mem_singleton.2 rfl) listener rfl

theorem length_behaviorListeners_performAll (book : Rulebook R ν) (ops : List (RuleOp R ν)) :
    (book.performAll ops).behaviorListeners.length = book.behaviorListeners.length := by
  induction ops using List.reverseRecOn with
  | nil => rfl
  | append_singleton past op ih =>
    rw [performAll_concat, ← ih]
    obtain same | ⟨chosen, listener, -, set⟩ := (book.performAll past).behaviorListeners_perform op
    · rw [same]
    · rw [set, List.length_set]

/-- A run leaves the rulebook one of the same behaviours. -/
theorem behaviors_performAll (behaviors : List String) (ops : List (RuleOp R ν)) :
    ((empty behaviors : Rulebook R ν).performAll ops).behaviors = behaviors := by
  have kept := keeps_registered (wellFormed_empty (R := R) (ν := ν) behaviors) ops
  rw [← renewed_performAll] at kept
  exact kept.behaviors

theorem length_behaviorResults_performAll (behaviors : List String) (ops : List (RuleOp R ν)) :
    ((empty behaviors : Rulebook R ν).performAll ops).behaviorResults.length =
      behaviors.length := by
  have kept := keeps_registered (wellFormed_empty (R := R) (ν := ν) behaviors) ops
  rw [← renewed_performAll] at kept
  simpa [renewed, empty] using congrArg List.length kept.behaviorResults

end Rulebook

/-! ## What a cycle tells the listeners -/

namespace RuleNode

variable {views : List (BehaviorView R)} {behavior : Nat}

theorem length_foldl_note (nodes : List (RuleNode R ν)) (results : List (Option CheckResult)) :
    (nodes.foldl (fun results n => n.note views results) results).length = results.length := by
  induction nodes using List.reverseRecOn with
  | nil => rfl
  | append_singleton nodes n ih =>
    rw [List.foldl_concat, ← ih, note]
    split
    · split
      · exact List.length_set
      · rfl
    · rfl

/-- The result that is kept for a behaviour is that of the node that has asked about it last. -/
theorem exists_last_note {nodes : List (RuleNode R ν)} {results : List (Option CheckResult)}
    (asked : ∃ n ∈ nodes, ∃ question, n.kind = .ask behavior question)
    (seen : behavior < views.length) (kept : behavior < results.length) :
    ∃ n ∈ nodes, ∃ question, n.kind = .ask behavior question ∧
      (nodes.foldl (fun results n => n.note views results) results)[behavior]? =
        some (checkAfter views behavior n.lastResult) := by
  induction nodes using List.reverseRecOn with
  | nil => simp at asked
  | append_singleton nodes n ih =>
    rw [List.foldl_concat]
    by_cases last : ∃ question, n.kind = .ask behavior question
    · obtain ⟨question, kind⟩ := last
      refine ⟨n, List.mem_append_right _ (List.mem_singleton.2 rfl), question, kind, ?_⟩
      rw [note, kind]
      simp only [if_pos seen]
      rw [List.getElem?_set_self]
      rwa [length_foldl_note]
    · have other : ∀ question, n.kind ≠ .ask behavior question := fun question kind =>
        last ⟨question, kind⟩
      obtain ⟨m, member, question, kind⟩ := asked
      have earlier : m ∈ nodes := by
        refine (List.mem_append.1 member).resolve_right fun here => ?_
        exact other question (List.mem_singleton.1 here ▸ kind)
      obtain ⟨m, member, question, kind, noted⟩ := ih ⟨m, earlier, question, kind⟩
      rw [note_of_other other]
      exact ⟨m, List.mem_append_left _ member, question, kind, noted⟩

end RuleNode

namespace Rulebook

variable {book : Rulebook R ν} {views : List (BehaviorView R)} {view : BehaviorView R}
  {behavior : Nat} {listener : ν} {label : String} {result : Option CheckResult}

theorem mem_behaviorCalls {n : RuleNode R ν} :
    .behavior listener label result ∈ book.behaviorCalls views n ↔
      ∃ behavior question view, n.kind = .ask behavior question ∧ views[behavior]? = some view ∧
        (book.behaviorListeners[behavior]?).join = some listener ∧ label = view.label ∧
        result = view.ask n.lastResult := by
  unfold behaviorCalls
  constructor
  · intro member
    split at member
    · next behavior question kind =>
      split at member
      · next view listener' seen attached =>
        obtain ⟨rfl, rfl, rfl⟩ := Firing.behavior.inj (List.mem_singleton.1 member)
        exact ⟨behavior, question, view, kind, seen, attached, rfl, rfl⟩
      · cases member
    · cases member
  · rintro ⟨behavior, question, view, kind, seen, attached, rfl, rfl⟩
    simp [kind, seen, attached]

variable [Scalar R]

/-- A cycle calls the listener of a behaviour for the nodes that ask about it, and for no others. -/
theorem behavior_mem_firings_iff (before : book.OperandsBefore) :
    .behavior listener label result ∈ (book.update views).firings ↔
      ∃ n ∈ book.nodes, .behavior listener label result ∈ book.behaviorCalls views n := by
  have ofRules (n : RuleNode R ν) : .behavior listener label result ∉ n.calls := by
    intro member
    rw [← n.filter_calls] at member
    cases (List.mem_filter.1 member).2
  have calls (i : Nat) (n : RuleNode R ν) :
      .behavior listener label result ∈ book.callsOf views i n ↔
        .behavior listener label result ∈ book.behaviorCalls views n := by
    rw [callsOf, List.mem_append, or_iff_left (ofRules _)]
  rw [update_firings before, List.mem_flatten]
  constructor
  · rintro ⟨_, listed, member⟩
    obtain ⟨i, within, rfl⟩ := List.mem_mapIdx.1 listed
    exact ⟨_, List.getElem_mem _, (calls i _).1 member⟩
  · rintro ⟨n, listed, member⟩
    obtain ⟨i, within, rfl⟩ := List.mem_iff_getElem.1 listed
    exact ⟨_, List.mem_mapIdx.2 ⟨i, within, rfl⟩, (calls i _).2 member⟩

/-- The listener of a behaviour that is asked about is called in every cycle that has the behaviour
in view. One of the calls is with what is kept for the behaviour. -/
theorem tells_of_asksAbout (before : book.OperandsBefore) (asks : book.AsksAbout behavior)
    (attached : book.behaviorListeners[behavior]? = some (some listener))
    (seen : views[behavior]? = some view) (kept : behavior < book.behaviorResults.length) :
    ∃ n ∈ book.nodes, ∃ question, n.kind = .ask behavior question ∧
      (book.update views).book.behaviorResult? behavior = view.ask n.lastResult ∧
      .behavior listener view.label (view.ask n.lastResult) ∈ (book.update views).firings := by
  have within := (List.getElem?_eq_some_iff.1 seen).1
  obtain ⟨n, member, question, kind, noted⟩ := RuleNode.exists_last_note asks within kept
  rw [← update_behaviorResults before, checkAfter, seen] at noted
  refine ⟨n, member, question, kind, ?_, ?_⟩
  · rw [behaviorResult?, noted, Option.join_some]
  · refine (behavior_mem_firings_iff before).2 ⟨n, member, mem_behaviorCalls.2 ?_⟩
    exact ⟨behavior, question, view, kind, seen, by rw [attached, Option.join_some], rfl, rfl⟩

end Rulebook

end TouchIntent
