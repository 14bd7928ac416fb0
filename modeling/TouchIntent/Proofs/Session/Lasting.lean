import Mathlib
import TouchIntent.Proofs.Interactor.Lasting
import TouchIntent.Proofs.Session.Host
import TouchIntent.Proofs.Session.PoolConsistency

/-!
# What lasts through a session

A lasting relation holds between each interactor of a session and what has become of it after any
run. So whatever a host does with a session, its interactors stay of the make they were built.
-/

namespace TouchIntent

open Arbiter

variable {R ν : Type} [Scalar R]

namespace Interactor.IsLasting

variable {rel : Interactor R ν → Interactor R ν → Prop} (lasting : IsLasting rel)
include lasting

theorem isTrans : IsTrans (Interactor R ν) rel := ⟨lasting.trans⟩

theorem settling (a : Arbiter R) (cs : List (Interactor R ν)) (queue : TaskQueue) :
    List.Forall₂ rel cs (a.settling cs queue).1.contenders := by
  have := lasting.isTrans
  have refreshed : ∀ (grants : Bool) (m : Round R ν),
      List.Forall₂ rel m.contenders (refresh grants m).1.contenders := by
    intro grants m
    rw [refresh_contenders]
    exact forall₂_map fun c => lasting.appraisal c m.arbiter grants
  let start : Round R ν := ⟨a, cs, queue, {}, []⟩
  let first := (refresh false start).1
  let shared := { first with contenders := first.arbiter.shareOut first.contenders }
  have shares : List.Forall₂ rel first.contenders shared.contenders :=
    forall₂_shareOut lasting.rank _ _
  refine forall₂_trans (refreshed false start) (forall₂_trans shares ?_)
  refine forall₂_trans ?_ (refreshed true _)
  exact forall₂_updateRules lasting.refl lasting.afterRules shared

/-- A round of mediation breaks no lasting relation. -/
theorem mediate {a : Arbiter R} {cs : List (Interactor R ν)}
    (ids : (cs.map Interactor.id).Nodup) (distinct : a.candidates.Nodup) (queue : TaskQueue) :
    List.Forall₂ rel cs (a.mediate cs queue).contenders := by
  have := lasting.isTrans
  have settled := straying_settling ids distinct queue
  refine forall₂_trans (lasting.settling a cs queue) ?_
  rw [mediate_eq]
  split
  · exact List.forall₂_same.2 fun c _ => lasting.refl c
  · next claimer _ =>
    rw [settleClaim_contenders settled.ids settled.distinct]
    refine forall₂_map fun c => ?_
    split_ifs
    · exact lasting.apply c .determine
    · exact lasting.exclude c
    · exact lasting.refl c
  · rw [settleClaims_contenders]
    refine forall₂_map fun c => ?_
    split
    · exact lasting.apply c .determine
    · exact lasting.exclude c

end Interactor.IsLasting

namespace Session

variable {s s' : Session R ν}

/-- The arbiter finds a pool that agrees with the standings. -/
theorem agrees_mediating (consistent : s.IsConsistent) {op : SessionOp R}
    (mediates : s.mediating? op = some s') : Agrees s'.arbiter.candidates s'.interactors := by
  have calm : List.Forall₂ Interactor.Calm s.interactors s'.interactors ∧
      s'.arbiter = s.arbiter := by
    refine forall₂_mediating (p := Interactor.AtEase) Interactor.calm_refl ?_
      Interactor.calm_timeOut consistent.atEase mediates
    intro a sample ease
    have alike := ease.alike_observeTouch sample
    exact ⟨alike.calm, alike.calm.atEase ease⟩
  rw [calm.2]
  exact consistent.toAgrees.calm calm.1

omit [Scalar R] in
theorem IsConsistent.isNumbered (consistent : s.IsConsistent) : s.IsNumbered :=
  ⟨consistent.toAgrees.ids, consistent.toAgrees.distinct⟩

theorem isNumbered_takeIn (numbered : s.IsNumbered) (batch : List (Sample R)) :
    (s.takeIn batch).IsNumbered := by
  obtain ⟨shown, arbiter⟩ := forall₂_takeIn (p := fun _ => True) Interactor.rests_refl
    (fun a sample _ => ⟨a.rests_observeTouch sample, trivial⟩) s batch fun _ _ => trivial
  refine ⟨?_, arbiter ▸ numbered.distinct⟩
  rw [map_id_eq_of (fun _ _ rests => rests.id_eq) shown]
  exact numbered.ids

theorem isNumbered_timeOut (numbered : s.IsNumbered) (now : Millis) :
    (s.timeOut now).IsNumbered := by
  obtain ⟨timedOut, arbiter⟩ :=
    forall₂_timeOut Interactor.rests_refl Interactor.rests_timeOut s now
  refine ⟨?_, arbiter ▸ numbered.distinct⟩
  rw [map_id_eq_of (fun _ _ rests => rests.id_eq) timedOut]
  exact numbered.ids

section Lasting

variable {rel : Interactor R ν → Interactor R ν → Prop} (lasting : Interactor.IsLasting rel)
include lasting

theorem forall₂_shown (batch : List (Sample R)) :
    List.Forall₂ rel s.interactors (s.takeIn batch).interactors := by
  have := lasting.isTrans
  have shown : ∀ (a : Interactor R ν) (sample : Sample R), True →
      rel a (a.observeTouch sample) ∧ True :=
    fun a sample _ => ⟨lasting.observeTouch a sample, trivial⟩
  exact (forall₂_takeIn lasting.refl shown s batch fun _ _ => trivial).1

theorem forall₂_handle (numbered : s.IsNumbered) (batch : List (Sample R)) :
    List.Forall₂ rel s.interactors (s.handle batch).session.interactors := by
  have := lasting.isTrans
  have shown : List.Forall₂ rel s.interactors (s.takeIn batch).interactors :=
    forall₂_shown lasting batch
  rw [handle_eq]
  split
  · exact List.forall₂_same.2 fun a _ => lasting.refl a
  · split
    · exact shown
    · have taken := isNumbered_takeIn numbered batch
      rw [mediate_interactors]
      exact forall₂_trans shown (lasting.mediate taken.ids taken.distinct _)

theorem forall₂_advance (numbered : s.IsNumbered) (now : Millis) :
    List.Forall₂ rel s.interactors (s.advance now).session.interactors := by
  have := lasting.isTrans
  have timedOut : List.Forall₂ rel s.interactors (s.timeOut now).interactors :=
    (forall₂_timeOut lasting.refl lasting.timeOut s now).1
  rw [advance_eq]
  split
  · exact List.forall₂_same.2 fun a _ => lasting.refl a
  · have running := isNumbered_timeOut numbered now
    rw [mediate_interactors]
    exact forall₂_trans timedOut (lasting.mediate running.ids running.distinct _)

theorem forall₂_perform (numbered : s.IsNumbered) (op : SessionOp R)
    (starts : op.startsTimer = true →
      ∀ (a : Interactor R ν) (timer : Option CancelToken), rel a { a with timer }) :
    List.Forall₂ rel s.interactors (s.perform op).interactors := by
  cases op with
  | handle batch => exact forall₂_handle lasting numbered batch
  | handleEvent primary second => exact forall₂_handle lasting numbered _
  | mediate => exact lasting.mediate numbered.ids numbered.distinct s.queue
  | advance now => exact forall₂_advance lasting numbered now
  | selfExcludeAfter id delay =>
    have timed :
        List.Forall₂ rel s.interactors ((s.selfExcludeAfter id delay).getD s).interactors :=
      (forall₂_selfExcludeAfter lasting.refl (starts rfl) s id delay).1
    exact timed
  | resetAll => exact forall₂_map lasting.reset

/-- No run breaks a lasting relation, if starting a timer does not. -/
theorem forall₂_performAll (consistent : s.IsConsistent) (ops : List (SessionOp R))
    (starts : ∀ (a : Interactor R ν) (timer : Option CancelToken), rel a { a with timer }) :
    List.Forall₂ rel s.interactors (s.performAll ops).interactors := by
  have := lasting.isTrans
  induction ops using List.reverseRecOn with
  | nil => exact List.forall₂_same.2 fun a _ => lasting.refl a
  | append_singleton done op ih =>
    rw [performAll_concat]
    exact forall₂_trans ih
      (forall₂_perform lasting (isConsistent_performAll consistent done).isNumbered op
        fun _ => starts)

end Lasting

end Session

end TouchIntent
