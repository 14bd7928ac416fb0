import Mathlib
import TouchIntent.Proofs.Gesture.Faults
import TouchIntent.Proofs.Rule.Run
import TouchIntent.Proofs.Session.SingleWinner

/-!
# Validation and construction

A scene is validated before a session is built from it, and building checks much of it again: that
the boxes have a positive size, that there are behaviours, that a prior fits them. In a scene that
was validated none of these checks fails. What is left to go wrong is in the texts, and an entry of
the scene is rejected for the first of its gestures, then of its rules, then for its claim.
-/

namespace TouchIntent

open Scalar

namespace Rulebook

variable {R ν : Type} [Scalar R]

/-- The rulebook with a rule, if it is accepted. -/
def extend (book : Rulebook R ν) (statement : String) : Except RuleError (Rulebook R ν) :=
  (book.addRule statement).2.map fun _ => (book.addRule statement).1

/-- The rulebook with rules added one after the other, all of which have to be accepted. -/
def addRules (book : Rulebook R ν) (statements : List String) : Except RuleError (Rulebook R ν) :=
  statements.foldlM extend book

variable {book next : Rulebook R ν}

end Rulebook

variable {R ν : Type} [Scalar R]

namespace SceneInteractor

/-- An entry of a scene has a box of positive size and a prior for its behaviours, of which it has
some. -/
structure IsValid (i : SceneInteractor R) : Prop where
  area : zero < i.bounds.width ∧ zero < i.bounds.height
  inhabited : i.behaviors ≠ []
  prior : ∀ weights, i.prior = some weights →
    weights.length = i.behaviors.length ∧ ∀ w ∈ weights, isPositive w = true

variable {i : SceneInteractor R}

/-- The gestures of an entry, taken in turn, compile to behaviours. -/
def Compiles (compiler : Compiler R) (i : SceneInteractor R) :
    List String → List (Behavior R) → Prop :=
  List.Forall₂ fun source b => compiler.compile source i.bounds = .ok b

/-- What reading an entry comes to: its behaviours and its rules, or why there is no interactor for
it. Each of its texts is read after those before it, and is the first to go wrong. -/
inductive Yields (compiler : Compiler R) (i : SceneInteractor R) :
    Except InteractorError (List (Behavior R) × Rulebook R ν) → Prop
  | gesture {before after : List String} {source : String} {behaviors : List (Behavior R)}
      {error : GestureError} (texts : i.behaviors = before ++ source :: after)
      (earlier : i.Compiles compiler before behaviors)
      (rejected : compiler.compile source i.bounds = .error error) :
      Yields compiler i (.error (.gesture error))
  | rule {before after : List String} {statement : String} {behaviors : List (Behavior R)}
      {book : Rulebook R ν} {error : RuleError}
      (compiled : i.Compiles compiler i.behaviors behaviors)
      (texts : i.rules = before ++ statement :: after)
      (earlier : (Rulebook.empty (behaviors.map Behavior.label)).addRules before = .ok book)
      (rejected : (book.addRule statement).2 = .error error) :
      Yields compiler i (.error (.rule error))
  | claim {behaviors : List (Behavior R)} {book : Rulebook R ν} {label : String}
      (compiled : i.Compiles compiler i.behaviors behaviors)
      (ruled : (Rulebook.empty (behaviors.map Behavior.label)).addRules i.rules = .ok book)
      (text : i.claimOn = some label) (unknown : label ∉ book.labels) :
      Yields compiler i (.error (.rule ⟨label, .nothingToClaimOn⟩))
  | entry {behaviors : List (Behavior R)} {book : Rulebook R ν}
      (compiled : i.Compiles compiler i.behaviors behaviors)
      (ruled : (Rulebook.empty (behaviors.map Behavior.label)).addRules i.rules = .ok book)
      (claimed : ∀ label, i.claimOn = some label → label ∈ book.labels) :
      Yields compiler i (.ok (behaviors, book))

variable {compiler : Compiler R} {maxObservations : Nat}

/-- A gesture of an entry as its construction reads it. -/
def recognizer (compiler : Compiler R) (maxObservations : Nat) (i : SceneInteractor R)
    (source : String) : Except InteractorError (Recognizer R) :=
  match compiler.compile source i.bounds with
  | .ok behavior => .ok (Recognizer.ofBehavior behavior maxObservations)
  | .error error => .error (.gesture error)

def recognizers (compiler : Compiler R) (maxObservations : Nat) (i : SceneInteractor R) :
    Except InteractorError (List (Recognizer R)) :=
  i.behaviors.mapM (i.recognizer compiler maxObservations)

/-- An interactor with the rules of its entry, as construction adds them. -/
def withRules (core : Interactor R ν) (rules : List String) :
    Except InteractorError (Interactor R ν) :=
  rules.foldlM (fun (core : Interactor R ν) rule =>
    match core.addRule rule with
    | (core, .ok _) => .ok core
    | (_, .error error) => .error (.rule error)) core

theorem Compiles.recognizer {texts : List String} {behaviors : List (Behavior R)}
    (compiled : i.Compiles compiler texts behaviors) :
    List.Forall₂ (fun source r => i.recognizer compiler maxObservations source = .ok r) texts
      (behaviors.map fun b => Recognizer.ofBehavior b maxObservations) := by
  refine List.forall₂_map_right_iff.2 (List.Forall₂.imp (fun source b ok => ?_) compiled)
  rw [SceneInteractor.recognizer, ok]

/-- What goes wrong with a valid entry on a surface of positive size is in its texts. -/
theorem Yields.textual (valid : i.IsValid)
    (surface : zero < compiler.surface.width ∧ zero < compiler.surface.height)
    {error : InteractorError} (rejected : i.Yields (ν := ν) compiler (.error error)) :
    error ≠ .noBehaviors ∧ (∀ length expected, error ≠ .invalidPrior length expected) ∧
      ∀ rejection, error = .gesture rejection →
        rejection.fault ≠ .surfaceSize ∧ rejection.fault ≠ .elementSize := by
  cases rejected with
  | gesture texts earlier rejected =>
    refine ⟨nofun, fun _ _ => nofun, fun rejection same => ?_⟩
    obtain rfl := InteractorError.gesture.inj same
    have textual := Compiler.textual_compile surface valid.area rejected
    constructor <;>
    · intro size
      rw [size] at textual
      cases textual
  | rule _ _ _ _ => exact ⟨nofun, fun _ _ => nofun, fun _ => nofun⟩
  | claim _ _ _ _ => exact ⟨nofun, fun _ _ => nofun, fun _ => nofun⟩

end SceneInteractor

/-! ## Scenes -/

end TouchIntent
