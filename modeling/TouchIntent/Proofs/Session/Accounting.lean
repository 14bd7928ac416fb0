import Mathlib
import TouchIntent.Proofs.Arbiter.Ledger
import TouchIntent.Proofs.Session.Lasting
import TouchIntent.Replay.Basic

/-!
# Statuses from what is reported

Whatever a session reports of a round of mediation accounts for every status that the operation has
changed, those of the interactors whose timers ran down included. A replay writes down nothing but
these reports, by the names of the interactors; where names are not shared, the last decision that
names an interactor is its status.
-/

namespace TouchIntent

open Arbiter

variable {R ν : Type} [Scalar R]

namespace Interactor

/-- `b` is `a`, or `a` with a wish to leave. -/
structure Waits (a b : Interactor R ν) : Prop where
  id_eq : b.id = a.id
  status : b.standing.status = a.standing.status ∨
    a.standing.status ≠ .idle ∧ b.standing.status = .selfExcluded

variable {a b c : Interactor R ν}

omit [Scalar R] in
theorem Waits.trans (first : a.Waits b) (second : b.Waits c) : a.Waits c where
  id_eq := second.id_eq.trans first.id_eq
  status := by
    rcases second.status with same | ⟨busy, leaves⟩
    · rw [same]
      exact first.status
    · refine .inr ⟨fun idle => ?_, leaves⟩
      rcases first.status with same | ⟨busy', -⟩
      · exact busy (same.trans idle)
      · exact busy' idle

omit [Scalar R] in
theorem Alike.waits (alike : a.Alike b) : a.Waits b :=
  ⟨alike.id_eq, .inl (congrArg Standing.status alike.standing)⟩

theorem waits_timeOut (a : Interactor R ν) : a.Waits a.timeOut.1 := by
  refine ⟨a.timeOut_id, ?_⟩
  rw [timeOut_standing]
  by_cases idle : a.standing.status = .idle
  · rw [if_pos idle, idle]
    exact .inl rfl
  · rw [if_neg idle]
    exact .inr ⟨idle, rfl⟩

end Interactor

omit [Scalar R] in
instance : IsTrans (Interactor R ν) Interactor.Waits := ⟨fun _ _ _ => Interactor.Waits.trans⟩

omit [Scalar R] in
/-- Wishes to leave that come up before the round need no entry of their own. -/
theorem Accounts.of_waits {pool : List InteractorId} {o : MediationOutcome}
    {a a' b : Interactor R ν} (accounts : Accounts pool o a' b) (waits : a.Waits a')
    (outside : a.standing.status = .determined → a.id ∉ pool) : Accounts pool o a b := by
  obtain ⟨id_eq, determined, candidate, otherwise, joins, leaves⟩ := accounts
  rw [waits.id_eq] at id_eq determined candidate joins leaves
  have busy : a.standing.status ≠ .idle → a'.standing.status ≠ .idle := by
    intro busy
    rcases waits.status with same | ⟨-, leaves⟩
    · rwa [same]
    · rw [leaves]
      exact Status.noConfusion
  refine ⟨id_eq, ?_, candidate, otherwise, fun entry => ?_, fun waiting => leaves (busy waiting)⟩
  · rcases waits.status with same | ⟨-, waiting⟩
    · rw [determined, same]
    · have never : ¬ (a'.standing.status = .determined ∧ a.id ∉ o.excluded) := by
        rw [waiting]
        exact fun won => Status.noConfusion won.1
      constructor
      · intro won
        exact .inl ((determined.1 won).resolve_right never)
      · rintro (named | ⟨won, spared⟩)
        · exact determined.2 (.inl named)
        · -- The winner whose timer ran down is let go, and that is an exclusion.
          have stays : b.standing.status ≠ .idle := by
            intro idle
            exact spared (leaves (busy (by rw [won]; exact Status.noConfusion)) idle)
          have unlisted : b.standing.status ≠ .candidate := by
            intro plain
            rcases (candidate.1 plain).1 with inPool | promoted
            · exact outside won inPool
            · rw [joins promoted] at waiting
              cases waiting
          by_contra lost
          exact stays (otherwise lost unlisted)
  · by_contra waiting
    exact busy waiting (joins entry)

namespace Session

variable {s s' : Session R ν}

/-- What an operation does before the arbiter mediates, if it has the arbiter mediate. -/
theorem waits_mediating (consistent : s.IsConsistent) {op : SessionOp R}
    (mediates : s.mediating? op = some s') :
    List.Forall₂ Interactor.Waits s.interactors s'.interactors ∧ s'.arbiter = s.arbiter := by
  refine forall₂_mediating (p := Interactor.AtEase) (fun a => a.alike_refl.waits) ?_
    Interactor.waits_timeOut consistent.atEase mediates
  intro a sample ease
  have alike := ease.alike_observeTouch sample
  exact ⟨alike.waits, alike.calm.atEase ease⟩

/-- Without a round of mediation, no operation but a reset moves an interactor. -/
theorem alike_quiet (consistent : s.IsConsistent) {op : SessionOp R}
    (quiet : s.mediating? op = none) (reset : op ≠ .resetAll) :
    List.Forall₂ Interactor.Alike s.interactors (s.perform op).interactors := by
  have still : List.Forall₂ Interactor.Alike s.interactors s.interactors :=
    List.forall₂_same.2 fun a _ => a.alike_refl
  have handles : ∀ batch : List (Sample R), s.intake? batch = none →
      List.Forall₂ Interactor.Alike s.interactors (s.handle batch).session.interactors := by
    intro batch asked
    rw [intake?] at asked
    rw [handle_eq]
    split
    · exact still
    · next taken =>
      split at asked
      · next closed =>
        rw [if_pos (closed.resolve_left taken)]
        exact (alike_takeIn consistent.atEase batch).1
      · cases asked
  cases op with
  | handle batch => exact handles batch quiet
  | handleEvent primary second => exact handles _ quiet
  | mediate => cases quiet
  | advance now =>
    simp only [mediating?] at quiet
    split at quiet
    · next idle =>
      simp only [perform]
      rw [advance_eq, if_pos idle]
      exact still
    · cases quiet
  | selfExcludeAfter id delay =>
    have timed := forall₂_selfExcludeAfter Interactor.alike_refl (fun _ _ => ⟨rfl, rfl, rfl⟩)
      s id delay
    exact timed.1
  | resetAll => exact absurd rfl reset

/-- What an operation reports accounts for the round of mediation, and for all that the operation
has changed. -/
theorem accountsFor_step (floor : HasFloor R) (consistent : s.IsConsistent) {op : SessionOp R}
    {o : MediationOutcome} (reported : (s.step op).outcome = some o) :
    ∃ s', s.mediating? op = some s' ∧
      AccountsFor s'.arbiter.candidates o s'.interactors (s.perform op).interactors ∧
      AccountsFor s.arbiter.candidates o s.interactors (s.perform op).interactors := by
  cases mediates : s.mediating? op with
  | none =>
    rw [outcome_of_quiet mediates] at reported
    cases reported
  | some s' =>
    obtain ⟨waits, arbiter⟩ := waits_mediating consistent mediates
    have round : AccountsFor s'.arbiter.candidates o s'.interactors (s.perform op).interactors := by
      rw [step_of_mediating mediates, mediate_outcome] at reported
      rw [← step_session, step_of_mediating mediates, mediate_interactors,
        ← Option.some.inj reported]
      exact accountsFor_mediate floor (agrees_mediating consistent mediates)
    refine ⟨s', rfl, round, round.promoted, round.excluded, ?_, ?_⟩
    · rw [← map_id_eq_of (fun _ _ waits => waits.id_eq) waits]
      exact round.known
    · refine forall₂_comp (mem_of_forall₂ waits) round.all ?_
      rintro a a' b ⟨waits, member, -⟩ accounts
      rw [arbiter] at accounts
      refine accounts.of_waits waits fun won inPool => ?_
      have pooled := consistent.pooled a member inPool
      rw [won] at pooled
      cases pooled

end Session

end TouchIntent
