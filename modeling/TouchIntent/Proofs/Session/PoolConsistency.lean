import Mathlib
import TouchIntent.Proofs.Arbiter.Agreement
import TouchIntent.Proofs.Session.SingleWinner

/-!
# The pool and the candidates of a session

However a host uses a session, the pool and the standings agree after every operation: the pool
lists the candidates, each once. Timers that run down make members ask to leave, but the round of
mediation that follows settles what they ask for.
-/

namespace TouchIntent

open Arbiter

variable {R ν : Type} [Scalar R]

namespace Session

/-- The pool of a session is exactly its candidates. -/
def IsConsistent (s : Session R ν) : Prop := Consistent s.arbiter.candidates s.interactors

variable {s : Session R ν}

theorem alike_takeIn (ease : ∀ a ∈ s.interactors, a.AtEase) (batch : List (Sample R)) :
    List.Forall₂ Interactor.Alike s.interactors (s.takeIn batch).interactors ∧
      (s.takeIn batch).arbiter = s.arbiter :=
  forall₂_takeIn Interactor.alike_refl (fun _ sample ease =>
    ⟨ease.alike_observeTouch sample, (ease.alike_observeTouch sample).calm.atEase ease⟩)
    s batch ease

theorem isConsistent_takeIn (consistent : s.IsConsistent) (batch : List (Sample R)) :
    (s.takeIn batch).IsConsistent := by
  obtain ⟨alike, arbiter⟩ := alike_takeIn consistent.atEase batch
  rw [IsConsistent, arbiter]
  exact consistent.alike alike

/-- A round of mediation makes a session consistent if the pool agrees with the standings. -/
theorem isConsistent_mediate (agrees : Agrees s.arbiter.candidates s.interactors)
    (ease : ∀ a ∈ s.interactors, a.AtEase) : s.mediate.session.IsConsistent := by
  rw [IsConsistent, mediate_arbiter, mediate_interactors]
  exact consistent_mediate agrees ease s.queue

theorem isConsistent_handle (consistent : s.IsConsistent) (batch : List (Sample R)) :
    (s.handle batch).session.IsConsistent := by
  have taken := isConsistent_takeIn consistent batch
  rw [handle_eq]
  split
  · exact consistent
  · split
    · exact taken
    · exact isConsistent_mediate taken.toAgrees taken.atEase

theorem isConsistent_advance (consistent : s.IsConsistent) (now : Millis) :
    (s.advance now).session.IsConsistent := by
  rw [advance_eq]
  split
  · exact consistent
  · obtain ⟨calm, arbiter⟩ :=
      forall₂_timeOut Interactor.calm_refl Interactor.calm_timeOut s now
    refine isConsistent_mediate ?_ (atEase_of_calm consistent.atEase calm)
    rw [arbiter]
    exact consistent.toAgrees.calm calm

omit [Scalar R] in
theorem isConsistent_selfExcludeAfter (consistent : s.IsConsistent) (id : InteractorId)
    (delay : Millis) : ((s.selfExcludeAfter id delay).getD s).IsConsistent := by
  obtain ⟨alike, arbiter⟩ := forall₂_selfExcludeAfter Interactor.alike_refl
    (fun _ _ => ⟨rfl, rfl, rfl⟩) s id delay
  rw [IsConsistent, arbiter]
  exact consistent.alike alike

theorem isConsistent_resetAll (consistent : s.IsConsistent) : s.resetAll.IsConsistent := by
  refine consistent_nil ?_ fun b member => ?_
  · rw [map_id_eq s.tame_resetAll.interactors]
    exact consistent.ids
  · obtain ⟨a, source, rfl⟩ := List.mem_map.1 member
    exact ⟨a.reset_isHidden.trans (consistent.visible a source), .inr a.reset_standing⟩

theorem isConsistent_perform (consistent : s.IsConsistent) (op : SessionOp R) :
    (s.perform op).IsConsistent := by
  cases op with
  | handle batch => exact isConsistent_handle consistent batch
  | handleEvent primary second => exact isConsistent_handle consistent _
  | mediate => exact isConsistent_mediate consistent.toAgrees consistent.atEase
  | advance now => exact isConsistent_advance consistent now
  | selfExcludeAfter id delay => exact isConsistent_selfExcludeAfter consistent id delay
  | resetAll => exact isConsistent_resetAll consistent

theorem isConsistent_performAll (consistent : s.IsConsistent) (ops : List (SessionOp R)) :
    (s.performAll ops).IsConsistent := by
  induction ops using List.reverseRecOn with
  | nil => exact consistent
  | append_singleton done op ih =>
    rw [performAll_concat]
    exact isConsistent_perform ih op

/-- A session starts with an empty pool, and with interactors that are idle. -/
theorem isConsistent_ofScene {settings : Settings R} {scene : Scene R}
    (built : ofScene settings scene = .ok s) : s.IsConsistent := by
  obtain ⟨pool, numbered, new⟩ := ofScene_new built
  rw [IsConsistent, pool]
  refine consistent_nil ?_ fun a member => ⟨(new a member).visible, .inr (new a member).standing⟩
  rw [numbered]
  exact List.nodup_range

end Session

/-- However a host uses a session, after every operation the pool lists the candidates and nobody
else, each once; nobody waits to be let go; and nobody but a winner still claims the touches. -/
theorem pool_lists_candidates {settings : Settings R} {scene : Scene R} {s : Session R ν}
    (built : Session.ofScene settings scene = .ok s) (ops : List (SessionOp R)) :
    (s.performAll ops).arbiter.candidates.Nodup ∧
      (∀ id, id ∈ (s.performAll ops).arbiter.candidates ↔
        ∃ a ∈ (s.performAll ops).interactors, a.id = id ∧ a.standing.status = .candidate) ∧
      (∀ a ∈ (s.performAll ops).interactors, a.standing.status ≠ .selfExcluded) ∧
      ∀ a ∈ (s.performAll ops).interactors, a.isClaiming = true → a.isDetermined = true := by
  have consistent := Session.isConsistent_performAll (Session.isConsistent_ofScene built) ops
  exact ⟨consistent.distinct, fun id => consistent.mem_iff, consistent.loyal, consistent.claiming⟩

theorem pool_lists_candidates_twins :
    ∃ s : Session EReal Unit, Session.ofScene .default Twins.scene = .ok s ∧ ∀ ops,
      (s.performAll ops).arbiter.candidates.Nodup ∧
      (∀ id, id ∈ (s.performAll ops).arbiter.candidates ↔
        ∃ a ∈ (s.performAll ops).interactors, a.id = id ∧ a.standing.status = .candidate) ∧
      (∀ a ∈ (s.performAll ops).interactors, a.standing.status ≠ .selfExcluded) ∧
      ∀ a ∈ (s.performAll ops).interactors, a.isClaiming = true → a.isDetermined = true := by
  obtain ⟨s, c, d, built, -⟩ := @Twins.ofScene_scene Unit
  exact ⟨s, built, fun ops => pool_lists_candidates built ops⟩

end TouchIntent
