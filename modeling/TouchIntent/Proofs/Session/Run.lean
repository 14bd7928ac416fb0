import Mathlib.Data.List.Basic
import TouchIntent.Proofs.Arbiter.Winner
import TouchIntent.Proofs.Fallible
import TouchIntent.Session

/-!
# Runs of a session

What a host can do with a session, and what each operation does to the interactors before the
arbiter mediates.
-/

namespace TouchIntent

variable {R ν : Type}

/-- An operation of the host. -/
inductive SessionOp (R : Type) where
  | handle (batch : List (Sample R))
  | handleEvent (primary : Sample R) (second : Option (Sample R))
  | mediate
  | advance (now : Millis)
  | selfExcludeAfter (id : InteractorId) (delay : Millis)
  | resetAll

def SessionOp.startsTimer : SessionOp R → Bool
  | selfExcludeAfter _ _ => true
  | handle _ | handleEvent _ _ | mediate | advance _ | resetAll => false

/-- An interactor that has taken no part yet. -/
structure Interactor.IsNew (a : Interactor R ν) : Prop where
  standing : a.standing = .idle
  visible : a.isHidden = false

variable [Scalar R]

namespace Session

/-- The session after an operation. -/
def perform (s : Session R ν) : SessionOp R → Session R ν
  | .handle batch => (s.handle batch).session
  | .handleEvent primary second => (s.handleEvent primary second).session
  | .mediate => s.mediate.session
  | .advance now => (s.advance now).session
  | .selfExcludeAfter id delay => (s.selfExcludeAfter id delay).getD s
  | .resetAll => s.resetAll

/-- An operation with all that comes of it. -/
def step (s : Session R ν) : SessionOp R → SessionStep R ν
  | .handle batch => s.handle batch
  | .handleEvent primary second => s.handleEvent primary second
  | .mediate => s.mediate
  | .advance now => s.advance now
  | .selfExcludeAfter id delay => ⟨(s.selfExcludeAfter id delay).getD s, none, []⟩
  | .resetAll => ⟨s.resetAll, none, []⟩

@[simp] theorem step_session (s : Session R ν) (op : SessionOp R) :
    (s.step op).session = s.perform op := by
  cases op <;> rfl

/-- The session after operations, one after the other. -/
def performAll (s : Session R ν) (ops : List (SessionOp R)) : Session R ν := ops.foldl perform s

@[simp] theorem mediate_interactors (s : Session R ν) :
    s.mediate.session.interactors = (s.arbiter.mediate s.interactors s.queue).contenders := rfl

@[simp] theorem mediate_arbiter (s : Session R ν) :
    s.mediate.session.arbiter = (s.arbiter.mediate s.interactors s.queue).arbiter := rfl

@[simp] theorem mediate_queue (s : Session R ν) :
    s.mediate.session.queue = (s.arbiter.mediate s.interactors s.queue).shared := rfl

@[simp] theorem mediate_jitterThreshold (s : Session R ν) :
    s.mediate.session.jitterThreshold = s.jitterThreshold := rfl

@[simp] theorem mediate_previousBatch (s : Session R ν) :
    s.mediate.session.previousBatch = s.previousBatch := rfl

@[simp] theorem mediate_outcome (s : Session R ν) :
    s.mediate.outcome = some (s.arbiter.mediate s.interactors s.queue).outcome := rfl

@[simp] theorem mediate_firings (s : Session R ν) :
    s.mediate.firings = (s.arbiter.mediate s.interactors s.queue).reports := rfl

/-- The session after the samples of a batch that are not dropped were shown to its interactors. -/
def takeIn (s : Session R ν) (batch : List (Sample R)) : Session R ν :=
  { (s.worthwhile batch).foldl forward s with previousBatch := batch }

/-- The interactors whose timers have run down by a moment. -/
def due (s : Session R ν) (now : Millis) : List InteractorId :=
  (s.queue.runDue (max s.now now)).2

/-- The session after the timers that have run down by a moment took effect. -/
def timeOut (s : Session R ν) (now : Millis) : Session R ν :=
  (s.due now).foldl (fun s id => s.modify id fun a => a.timeOut.1)
    { s with
      now := max s.now now
      queue := (s.queue.runDue (max s.now now)).1 }

/-- The session as the arbiter finds it after a batch, if it is asked. -/
def intake? (s : Session R ν) (batch : List (Sample R)) : Option (Session R ν) :=
  if (s.worthwhile batch).isEmpty ∨ (s.takeIn batch).determined?.isSome then none
  else some (s.takeIn batch)

/-- The session as the arbiter finds it, if an operation has the arbiter mediate. -/
def mediating? (s : Session R ν) : SessionOp R → Option (Session R ν)
  | .handle batch => s.intake? batch
  | .handleEvent primary second =>
    s.intake? (primary :: if primary.kind = .move then second.toList else [])
  | .mediate => some s
  | .advance now => if (s.due now).isEmpty then none else some (s.timeOut now)
  | .selfExcludeAfter _ _ | .resetAll => none

/-- What an operation does to a session before the arbiter mediates: nobody wins by it, and it
leaves the pool orderly. -/
structure Tame (s s' : Session R ν) : Prop where
  interactors : List.Forall₂ Interactor.Tame s.interactors s'.interactors
  orderly : Arbiter.Orderly s.arbiter.candidates s.interactors →
    Arbiter.Orderly s'.arbiter.candidates s'.interactors

variable {s s' : Session R ν}

omit [Scalar R] in
theorem Tame.of_steady (steady : List.Forall₂ Interactor.Steady s.interactors s'.interactors)
    (arbiter : s'.arbiter = s.arbiter) : s.Tame s' :=
  ⟨steady.imp fun _ _ steady => steady.toTame, fun orderly => arbiter ▸ orderly.steady steady⟩

omit [Scalar R] in
theorem tame_refl (s : Session R ν) : s.Tame s :=
  .of_steady (List.forall₂_same.2 fun a _ => a.steady_refl) rfl

/-- What showing samples does to the interactors, if it preserves what it depends on. -/
theorem forall₂_takeIn {rel : Interactor R ν → Interactor R ν → Prop}
    [IsTrans (Interactor R ν) rel] {p : Interactor R ν → Prop} (refl : ∀ a, rel a a)
    (shown : ∀ (a : Interactor R ν) (sample : Sample R), p a →
      rel a (a.observeTouch sample) ∧ p (a.observeTouch sample))
    (s : Session R ν) (batch : List (Sample R)) (all : ∀ a ∈ s.interactors, p a) :
    List.Forall₂ rel s.interactors (s.takeIn batch).interactors ∧
      (s.takeIn batch).arbiter = s.arbiter := by
  have folded : ∀ samples : List (Sample R),
      List.Forall₂ rel s.interactors (samples.foldl forward s).interactors ∧
        (samples.foldl forward s).arbiter = s.arbiter := by
    intro samples
    induction samples generalizing s with
    | nil => exact ⟨List.forall₂_same.2 fun a _ => refl a, rfl⟩
    | cons sample rest ih =>
      have first : List.Forall₂ rel s.interactors (s.forward sample).interactors := by
        simp only [forward, List.forall₂_map_right_iff]
        exact List.forall₂_same.2 fun a member => (shown a sample (all a member)).1
      obtain ⟨later, arbiter⟩ := ih (s.forward sample) fun b member => by
        obtain ⟨a, source, rfl⟩ := List.mem_map.1 member
        exact (shown a sample (all a source)).2
      exact ⟨Arbiter.forall₂_trans first later, arbiter⟩
  exact folded _

theorem tame_takeIn (s : Session R ν) (batch : List (Sample R)) : s.Tame (s.takeIn batch) := by
  obtain ⟨steady, arbiter⟩ := forall₂_takeIn (p := fun _ => True) Interactor.steady_refl
    (fun a sample _ => ⟨a.steady_observeTouch sample, trivial⟩) s batch fun _ _ => trivial
  exact .of_steady steady arbiter

omit [Scalar R] in
/-- Changing one interactor of a list. -/
theorem forall₂_modify {rel : Interactor R ν → Interactor R ν → Prop} (refl : ∀ a, rel a a)
    {change : Interactor R ν → Interactor R ν} (changes : ∀ a, rel a (change a)) (i : Nat)
    (as : List (Interactor R ν)) : List.Forall₂ rel as (as.modify i change) := by
  induction as generalizing i with
  | nil => simp
  | cons a rest ih =>
    cases i with
    | zero => exact .cons (changes a) (List.forall₂_same.2 fun a _ => refl a)
    | succ i => exact .cons (refl a) (ih i)

/-- What the timers that run down do to the interactors. -/
theorem forall₂_timeOut {rel : Interactor R ν → Interactor R ν → Prop}
    [IsTrans (Interactor R ν) rel] (refl : ∀ a, rel a a) (timedOut : ∀ a, rel a a.timeOut.1)
    (s : Session R ν) (now : Millis) :
    List.Forall₂ rel s.interactors (s.timeOut now).interactors ∧
      (s.timeOut now).arbiter = s.arbiter := by
  have folded : ∀ (due : List InteractorId) (s : Session R ν),
      List.Forall₂ rel s.interactors
          (due.foldl (fun s id => s.modify id fun a => a.timeOut.1) s).interactors ∧
        (due.foldl (fun s id => s.modify id fun a => a.timeOut.1) s).arbiter = s.arbiter := by
    intro due
    induction due with
    | nil => exact fun s => ⟨List.forall₂_same.2 fun a _ => refl a, rfl⟩
    | cons id rest ih =>
      intro s
      obtain ⟨later, arbiter⟩ := ih (s.modify id fun a => a.timeOut.1)
      have first : List.Forall₂ rel s.interactors
          (s.modify id fun a => a.timeOut.1).interactors := forall₂_modify refl timedOut id _
      exact ⟨Arbiter.forall₂_trans first later, arbiter⟩
  exact folded (s.due now) { s with
    now := max s.now now
    queue := (s.queue.runDue (max s.now now)).1 }

theorem tame_timeOut (s : Session R ν) (now : Millis) : s.Tame (s.timeOut now) := by
  obtain ⟨steady, arbiter⟩ :=
    forall₂_timeOut Interactor.steady_refl Interactor.steady_timeOut s now
  exact .of_steady steady arbiter

omit [Scalar R] in
/-- What starting a timer does to the interactors. -/
theorem forall₂_selfExcludeAfter {rel : Interactor R ν → Interactor R ν → Prop}
    (refl : ∀ a, rel a a) (timed : ∀ (a : Interactor R ν) (timer : Option CancelToken),
      rel a { a with timer })
    (s : Session R ν) (id : InteractorId) (delay : Millis) :
    List.Forall₂ rel s.interactors ((s.selfExcludeAfter id delay).getD s).interactors ∧
      ((s.selfExcludeAfter id delay).getD s).arbiter = s.arbiter := by
  unfold selfExcludeAfter
  cases found : s.interactor? id with
  | none => exact ⟨List.forall₂_same.2 fun a _ => refl a, rfl⟩
  | some a =>
    let token := (a.cancelTimer s.queue).2.issued
    have changed : s.interactors.set id { a with timer := some token } =
        s.interactors.modify id fun a => { a with timer := some token } := by
      have found' : s.interactors[id]? = some a := found
      simp [List.modify_eq_set_getElem?, found']
    refine ⟨?_, rfl⟩
    show List.Forall₂ rel s.interactors (s.interactors.set id { a with timer := some token })
    rw [changed]
    exact forall₂_modify refl (fun a => timed a _) id _

omit [Scalar R] in
theorem tame_selfExcludeAfter (s : Session R ν) (id : InteractorId) (delay : Millis) :
    s.Tame ((s.selfExcludeAfter id delay).getD s) := by
  obtain ⟨steady, arbiter⟩ := forall₂_selfExcludeAfter Interactor.steady_refl
    (fun _ _ => Interactor.Steady.of_eq rfl rfl) s id delay
  exact .of_steady steady arbiter

theorem tame_resetAll (s : Session R ν) : s.Tame s.resetAll := by
  have tame : List.Forall₂ Interactor.Tame s.interactors s.resetAll.interactors := by
    rw [resetAll]
    exact Arbiter.forall₂_map fun a => a.tame_reset
  refine ⟨tame, fun orderly => ⟨?_, fun a _ inPool => ?_⟩⟩
  · rw [Arbiter.map_id_eq tame]
    exact orderly.ids
  · cases inPool

theorem handle_eq (s : Session R ν) (batch : List (Sample R)) : s.handle batch =
    if (s.worthwhile batch).isEmpty then ⟨s, none, []⟩
    else if (s.takeIn batch).determined?.isSome then ⟨s.takeIn batch, none, []⟩
    else (s.takeIn batch).mediate := rfl

theorem advance_eq (s : Session R ν) (now : Millis) : s.advance now =
    if (s.due now).isEmpty then ⟨{ s with
      now := max s.now now
      queue := (s.queue.runDue (max s.now now)).1 }, none, []⟩
    else (s.timeOut now).mediate := rfl

theorem handle_cases (s : Session R ν) (batch : List (Sample R)) :
    (s.intake? batch = some (s.takeIn batch) ∧
        (s.handle batch).session = (s.takeIn batch).mediate.session) ∨
      (s.intake? batch = none ∧ s.Tame (s.handle batch).session) := by
  rw [handle_eq, intake?]
  by_cases dropped : (s.worthwhile batch).isEmpty = true
  · right
    rw [if_pos dropped, if_pos (.inl dropped)]
    exact ⟨rfl, tame_refl s⟩
  · by_cases decided : (s.takeIn batch).determined?.isSome = true
    · right
      rw [if_neg dropped, if_pos decided, if_pos (.inr decided)]
      exact ⟨rfl, s.tame_takeIn batch⟩
    · left
      rw [if_neg dropped, if_neg decided, if_neg (by simp [dropped, decided])]
      exact ⟨rfl, rfl⟩

/-- An operation leads up to a round of mediation, or does without. -/
theorem perform_cases (s : Session R ν) (op : SessionOp R) :
    (∃ s', s.mediating? op = some s' ∧ s.perform op = s'.mediate.session ∧ s.Tame s') ∨
      (s.mediating? op = none ∧ s.Tame (s.perform op)) := by
  have handles : ∀ batch : List (Sample R),
      (∃ s', s.intake? batch = some s' ∧ (s.handle batch).session = s'.mediate.session ∧
        s.Tame s') ∨
      (s.intake? batch = none ∧ s.Tame (s.handle batch).session) := by
    intro batch
    rcases s.handle_cases batch with ⟨mediates, result⟩ | quiet
    · exact .inl ⟨_, mediates, result, s.tame_takeIn batch⟩
    · exact .inr quiet
  cases op with
  | handle batch => exact handles batch
  | handleEvent primary second => exact handles _
  | mediate => exact .inl ⟨s, rfl, rfl, tame_refl s⟩
  | advance now =>
    simp only [mediating?, perform]
    rw [advance_eq]
    by_cases idle : (s.due now).isEmpty = true
    · right
      rw [if_pos idle, if_pos idle]
      exact ⟨rfl, .of_steady (List.forall₂_same.2 fun a _ => a.steady_refl) rfl⟩
    · left
      rw [if_neg idle, if_neg idle]
      exact ⟨_, rfl, rfl, s.tame_timeOut now⟩
  | selfExcludeAfter id delay => exact .inr ⟨rfl, s.tame_selfExcludeAfter id delay⟩
  | resetAll => exact .inr ⟨rfl, s.tame_resetAll⟩

/-- An operation that has the arbiter mediate comes to that round of mediation. -/
theorem step_of_mediating {op : SessionOp R} (mediates : s.mediating? op = some s') :
    s.step op = s'.mediate := by
  have handles : ∀ batch : List (Sample R), s.intake? batch = some s' →
      s.handle batch = s'.mediate := by
    intro batch asked
    rw [intake?] at asked
    split at asked
    · cases asked
    · next open' =>
      obtain ⟨taken, undecided⟩ := not_or.1 open'
      obtain rfl := Option.some.inj asked
      rw [handle_eq, if_neg taken, if_neg undecided]
  cases op with
  | handle batch => exact handles batch mediates
  | handleEvent primary second => exact handles _ mediates
  | mediate =>
    obtain rfl := Option.some.inj mediates
    rfl
  | advance now =>
    simp only [mediating?] at mediates
    split at mediates
    · cases mediates
    · next running =>
      obtain rfl := Option.some.inj mediates
      exact (s.advance_eq now).trans (if_neg running)
  | selfExcludeAfter id delay => cases mediates
  | resetAll => cases mediates

/-- What an operation does to the interactors before the arbiter mediates. -/
theorem forall₂_mediating {rel : Interactor R ν → Interactor R ν → Prop}
    [IsTrans (Interactor R ν) rel] {p : Interactor R ν → Prop} (refl : ∀ a, rel a a)
    (shown : ∀ (a : Interactor R ν) (sample : Sample R), p a →
      rel a (a.observeTouch sample) ∧ p (a.observeTouch sample))
    (timedOut : ∀ a, rel a a.timeOut.1) (all : ∀ a ∈ s.interactors, p a) {op : SessionOp R}
    (mediates : s.mediating? op = some s') :
    List.Forall₂ rel s.interactors s'.interactors ∧ s'.arbiter = s.arbiter := by
  have taken : ∀ batch : List (Sample R), s.intake? batch = some s' →
      List.Forall₂ rel s.interactors s'.interactors ∧ s'.arbiter = s.arbiter := by
    intro batch asked
    rw [intake?] at asked
    split at asked
    · cases asked
    · obtain rfl := Option.some.inj asked
      exact forall₂_takeIn refl shown s batch all
  cases op with
  | handle batch => exact taken batch mediates
  | handleEvent primary second => exact taken _ mediates
  | mediate =>
    obtain rfl := Option.some.inj mediates
    exact ⟨List.forall₂_same.2 fun a _ => refl a, rfl⟩
  | advance now =>
    simp only [mediating?] at mediates
    split at mediates
    · cases mediates
    · obtain rfl := Option.some.inj mediates
      exact forall₂_timeOut refl timedOut s now
  | selfExcludeAfter id delay => cases mediates
  | resetAll => cases mediates

/-- Without a round of mediation, an operation leaves the pool alone, or empties it. -/
theorem arbiter_of_quiet {op : SessionOp R} (quiet : s.mediating? op = none) :
    (s.perform op).arbiter = s.arbiter ∨ (s.perform op).arbiter = s.arbiter.clear := by
  have handles : ∀ batch : List (Sample R), s.intake? batch = none →
      (s.handle batch).session.arbiter = s.arbiter := by
    intro batch asked
    have taken : (s.takeIn batch).arbiter = s.arbiter :=
      (forall₂_takeIn (p := fun _ => True) Interactor.steady_refl
        (fun a sample _ => ⟨a.steady_observeTouch sample, trivial⟩) s batch fun _ _ => trivial).2
    rw [intake?] at asked
    rw [handle_eq]
    split at asked
    · next closed =>
      split
      · rfl
      · next taking =>
        rw [if_pos (closed.resolve_left taking)]
        exact taken
    · cases asked
  cases op with
  | handle batch => exact .inl (handles batch quiet)
  | handleEvent primary second => exact .inl (handles _ quiet)
  | mediate => cases quiet
  | advance now =>
    simp only [mediating?] at quiet
    split at quiet
    · next idle =>
      left
      simp only [perform]
      rw [advance_eq, if_pos idle]
    · cases quiet
  | selfExcludeAfter id delay =>
    exact .inl (forall₂_selfExcludeAfter Interactor.steady_refl (fun _ _ => .of_eq rfl rfl)
      s id delay).2
  | resetAll => exact .inr rfl

/-- An operation without a round of mediation reports nothing. -/
theorem outcome_of_quiet {op : SessionOp R} (quiet : s.mediating? op = none) :
    (s.step op).outcome = none := by
  have handles : ∀ batch : List (Sample R), s.intake? batch = none →
      (s.handle batch).outcome = none := by
    intro batch asked
    rw [intake?] at asked
    rw [handle_eq]
    split at asked
    · next closed =>
      split
      · rfl
      · next taken =>
        rw [if_pos (closed.resolve_left taken)]
    · cases asked
  cases op with
  | handle batch => exact handles batch quiet
  | handleEvent primary second => exact handles _ quiet
  | mediate => cases quiet
  | advance now =>
    simp only [mediating?] at quiet
    split at quiet
    · next idle => exact congrArg SessionStep.outcome ((s.advance_eq now).trans (if_pos idle))
    · cases quiet
  | selfExcludeAfter id delay => rfl
  | resetAll => rfl

/-! ## Sessions of a scene -/

section Building

variable {a b : Interactor R ν}

/-- What is true of an interactor made of its behaviours, and is kept by its prior, its rules and
its claim, is true of an interactor of a scene. -/
theorem of_build_eq_ok (keeps : Interactor R ν → Prop) {i : SceneInteractor R}
    {compiler : Compiler R} {maxObservations : Nat}
    (made : ∀ behaviors core,
      (∀ r ∈ behaviors, ∃ source ∈ i.behaviors, ∃ b, compiler.compile source i.bounds = .ok b ∧
        r = Recognizer.ofBehavior b maxObservations) →
      Interactor.build 0 behaviors = .ok core → keeps { core with name := i.id })
    (weighted : ∀ core prior next, keeps core → core.withPrior prior = .ok next → keeps next)
    (ruled : ∀ core statement next label, keeps core →
      core.addRule statement = (next, .ok label) → keeps next)
    (claims : ∀ core label next, keeps core → core.claimOn label = .ok next → keeps next)
    (built : i.build compiler maxObservations = .ok a) : keeps a := by
  unfold SceneInteractor.build at built
  obtain ⟨behaviors, compiled, built⟩ := exists_of_bind_eq_ok built
  obtain ⟨core, first, built⟩ := exists_of_bind_eq_ok built
  have fresh : ∀ r ∈ behaviors, ∃ source ∈ i.behaviors, ∃ b,
      compiler.compile source i.bounds = .ok b ∧ r = Recognizer.ofBehavior b maxObservations := by
    refine of_mapM_eq_ok ?_ compiled
    intro source member r outcome
    split at outcome
    · next b made => exact ⟨source, member, b, made, (Except.ok.inj outcome).symm⟩
    · cases outcome
  extract_lets named finish at built
  have start : keeps named := made behaviors core fresh first
  -- Whether or not there is a prior, the rules and the claim come after it.
  have finished (core : Interactor R ν) (start : keeps core) (built : finish core = .ok a) :
      keeps a := by
    obtain ⟨withRules, rules, claim⟩ := exists_of_bind_eq_ok built
    have kept : keeps withRules := by
      refine of_foldlM_eq_ok keeps ?_ start rules
      intro core rule next holds added
      split at added
      · next outcome =>
        obtain rfl := Except.ok.inj added
        exact ruled _ _ _ _ holds outcome
      · cases added
    split at claim
    · exact claims _ _ _ kept claim
    · obtain rfl := Except.ok.inj claim
      exact kept
  split at built
  · obtain ⟨next, prior, built⟩ := exists_of_bind_eq_ok built
    exact finished next (weighted _ _ _ start prior) built
  · obtain ⟨next, same, built⟩ := exists_of_bind_eq_ok built
    obtain rfl := Except.ok.inj same
    exact finished named start built

/-- All that another prior changes. -/
theorem exists_of_withPrior {prior : List R} (weighted : a.withPrior prior = .ok b) :
    prior.length = a.behaviors.length ∧
      b = { a with prior := prior.map fun p => p / Scalar.sum prior } := by
  unfold Interactor.withPrior at weighted
  split at weighted
  · cases weighted
  · next fits =>
    obtain rfl := Except.ok.inj weighted
    exact ⟨by simpa using (not_or.1 fits).1, rfl⟩

/-- Another prior is positive. -/
theorem isPositive_of_withPrior {prior : List R} (weighted : a.withPrior prior = .ok b) :
    ∀ p ∈ prior, Scalar.isPositive p = true := by
  unfold Interactor.withPrior at weighted
  split at weighted
  · cases weighted
  · next fits => simpa using (not_or.1 fits).2

/-- All that another rule changes. -/
theorem exists_of_addRule {statement label : String}
    (added : a.addRule statement = (b, .ok label)) :
    ∃ book, a.rulebook.addRule statement = (book, .ok label) ∧ b = { a with rulebook := book } := by
  obtain ⟨rfl, entered⟩ := Prod.mk.inj added
  exact ⟨_, Prod.ext rfl entered, rfl⟩

omit [Scalar R] in
/-- All that a claim changes. -/
theorem eq_of_claimOn {label : String} (claims : a.claimOn label = .ok b) :
    b = { a with claimRule := some label } := by
  unfold Interactor.claimOn at claims
  split at claims
  · exact (Except.ok.inj claims).symm
  · cases claims

/-- All that behaviours alone make of an interactor. -/
theorem build_eq_ok {id : InteractorId} {behaviors : List (Recognizer R)}
    (built : Interactor.build id behaviors = .ok a) :
    a.id = id ∧ a.standing = .idle ∧ a.isHidden = false ∧ a.evidence = Scalar.zero ∧
      a.prior.length = behaviors.length ∧
      a.behaviors = behaviors.map (fun r => { r with logPosterior := unobservedPosterior }) ∧
      a.rulebook = .empty (behaviors.map Recognizer.label) := by
  unfold Interactor.build at built
  split at built
  · cases built
  · obtain rfl := Except.ok.inj built
    exact ⟨rfl, rfl, rfl, rfl, List.length_map _, rfl, rfl⟩

/-- An interactor has some behaviours, and weighs them alike. -/
theorem prior_of_build {id : InteractorId} {behaviors : List (Recognizer R)}
    (built : Interactor.build id behaviors = .ok a) :
    behaviors ≠ [] ∧
      a.prior = behaviors.map fun _ => Scalar.one / Scalar.ofNat behaviors.length := by
  unfold Interactor.build at built
  split at built
  · cases built
  · next some =>
    obtain rfl := Except.ok.inj built
    exact ⟨by simpa using some, rfl⟩

/-- An interactor of a scene starts idle, and is shown. -/
theorem isNew_of_build {i : SceneInteractor R} {compiler : Compiler R} {maxObservations : Nat}
    (built : i.build compiler maxObservations = .ok a) : a.IsNew := by
  refine of_build_eq_ok Interactor.IsNew ?_ ?_ ?_ ?_ built
  · intro behaviors core _ made
    obtain ⟨-, idle, visible, -⟩ := build_eq_ok made
    exact ⟨idle, visible⟩
  · intro core prior next new weighted
    obtain ⟨-, rfl⟩ := exists_of_withPrior weighted
    exact ⟨new.standing, new.visible⟩
  · intro core statement next label new ruled
    obtain ⟨book, -, rfl⟩ := exists_of_addRule ruled
    exact ⟨new.standing, new.visible⟩
  · intro core label next new claims
    obtain rfl := eq_of_claimOn claims
    exact ⟨new.standing, new.visible⟩

/-- An interactor of a scene goes by its id in the scene. -/
theorem name_of_build {i : SceneInteractor R} {compiler : Compiler R} {maxObservations : Nat}
    (built : i.build compiler maxObservations = .ok a) : a.name = i.id := by
  refine of_build_eq_ok (fun a => a.name = i.id) ?_ ?_ ?_ ?_ built
  · intro behaviors core _ _
    rfl
  · intro core prior next named weighted
    obtain ⟨-, rfl⟩ := exists_of_withPrior weighted
    exact named
  · intro core statement next label named ruled
    obtain ⟨book, -, rfl⟩ := exists_of_addRule ruled
    exact named
  · intro core label next named claims
    obtain rfl := eq_of_claimOn claims
    exact named

end Building

/-- A session as it is built from a scene: interactors are numbered by position and new. -/
theorem ofScene_new {settings : Settings R} {scene : Scene R} {s : Session R ν}
    (built : ofScene settings scene = .ok s) :
    s.arbiter.candidates = [] ∧
      s.interactors.map Interactor.id = List.range s.interactors.length ∧
      ∀ a ∈ s.interactors, a.IsNew := by
  unfold ofScene at built
  refine of_foldlM_eq_ok (fun s => s.arbiter.candidates = [] ∧
    s.interactors.map Interactor.id = List.range s.interactors.length ∧
    ∀ a ∈ s.interactors, a.IsNew) ?_ ⟨rfl, rfl, by simp [empty]⟩ built
  rintro s i s' ⟨pool, ids, new⟩ step
  split at step
  · next a made =>
    obtain rfl := Except.ok.inj step
    refine ⟨pool, ?_, fun b member => ?_⟩
    · simp only [add, List.map_append, ids, List.map_cons, List.map_nil, List.length_append,
        List.length_cons, List.length_nil]
      rw [List.range_succ]
    · rcases List.mem_append.1 member with member | member
      · exact new b member
      · obtain rfl := List.mem_singleton.1 member
        have newBuilt := isNew_of_build made
        exact ⟨newBuilt.standing, newBuilt.visible⟩
  · cases step

theorem ofScene_spec {settings : Settings R} {scene : Scene R} {s : Session R ν}
    (built : ofScene settings scene = .ok s) :
    s.arbiter.candidates = [] ∧
      s.interactors.map Interactor.id = List.range s.interactors.length ∧
      ∀ a ∈ s.interactors, a.standing = .idle := by
  obtain ⟨pool, ids, new⟩ := ofScene_new built
  exact ⟨pool, ids, fun a member => (new a member).standing⟩

/-- The session of a scene is the empty one with an interactor built for each of the scene's. -/
theorem ofScene_interactors {settings : Settings R} {scene : Scene R} {s : Session R ν}
    (built : ofScene settings scene = .ok s) :
    s = { (empty settings : Session R ν) with interactors := s.interactors } ∧
      List.Forall₂ (fun i a => ∃ (core : Interactor R ν) (id : InteractorId),
        i.build ⟨scene.surface, settings.displayDensity, settings.emission⟩
          settings.maxObservations = .ok core ∧ a = { core with id })
        scene.interactors s.interactors := by
  unfold ofScene at built
  refine of_foldlM_eq_ok_done (fun done s =>
    s = { (empty settings : Session R ν) with interactors := s.interactors } ∧
    List.Forall₂ (fun i a => ∃ (core : Interactor R ν) (id : InteractorId),
      i.build ⟨scene.surface, settings.displayDensity, settings.emission⟩
        settings.maxObservations = .ok core ∧ a = { core with id }) done s.interactors)
    ?_ ⟨rfl, .nil⟩ built
  rintro done s i s' ⟨bare, all⟩ step
  split at step
  · next core made =>
    obtain rfl := Except.ok.inj step
    refine ⟨?_, List.rel_append all (.cons ⟨core, _, made, rfl⟩ .nil)⟩
    rw [bare]
    rfl
  · cases step

end Session

end TouchIntent
