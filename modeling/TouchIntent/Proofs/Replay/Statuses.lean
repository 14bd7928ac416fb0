import Mathlib
import TouchIntent.Proofs.Session.Accounting

/-!
# Statuses from the decisions of a replay

A replay writes down nothing but what its session reports, by the names of the interactors. Where
names are not shared, the decisions are all that one needs to tell how the interactors stand: an
interactor has the status that the last decision on it leads to, and is idle if there is none.
-/

namespace TouchIntent

open Arbiter

variable {R ν : Type} [Scalar R]

/-- The status that a decision leads to. -/
def DecisionKind.status : DecisionKind → Status
  | promote => .candidate
  | exclude => .idle
  | determine => .determined

/-- The status of the interactor of a name after decisions, if it stood at `before`. -/
def Decision.told (name : String) (before : Status) (ds : List Decision) : Status :=
  ds.foldl (fun status d => if d.interactor = name then d.kind.status else status) before

theorem Decision.told_append (name : String) (before : Status) (ds es : List Decision) :
    told name before (ds ++ es) = told name (told name before ds) es := List.foldl_append ..

/-- Decisions on others tell nothing. -/
theorem Decision.told_of_others {name : String} {ds : List Decision}
    (others : ∀ d ∈ ds, d.interactor ≠ name) (before : Status) : told name before ds = before := by
  induction ds with
  | nil => rfl
  | cons d rest ih =>
    rw [List.forall_mem_cons] at others
    have first : told name before (d :: rest) = told name before rest := by
      simp [told, others.1]
    rw [first, ih others.2]

namespace Session

/-- Interactors are numbered by position, and no two of them share a name. -/
structure IsNamed (s : Session R ν) : Prop where
  numbered : s.interactors.map Interactor.id = List.range s.interactors.length
  names : (s.interactors.map Interactor.name).Nodup

variable {s : Session R ν} {a b : Interactor R ν}

omit [Scalar R] in
theorem IsNamed.nameOf (named : s.IsNamed) (member : a ∈ s.interactors) :
    Replay.nameOf s a.id = a.name := by
  obtain ⟨i, within, rfl⟩ := List.getElem_of_mem member
  have position : s.interactors[i].id = i := by
    have entry := congrArg (fun ids => ids[i]?) named.numbered
    simpa [within] using entry
  simp [Replay.nameOf, interactor?, position, within]

omit [Scalar R] in
theorem IsNamed.name_inj (named : s.IsNamed) (ha : a ∈ s.interactors) (hb : b ∈ s.interactors)
    (same : a.name = b.name) : a = b :=
  List.inj_on_of_nodup_map named.names ha hb same

omit [Scalar R] in
/-- Decisions of one kind on some interactors. -/
theorem IsNamed.told_group (named : s.IsNamed) (member : a ∈ s.interactors) (time : Millis)
    (kind : DecisionKind) {ids : List InteractorId}
    (known : ids ⊆ s.interactors.map Interactor.id) (before : Status) :
    Decision.told a.name before (ids.map fun id => ⟨time, kind, Replay.nameOf s id⟩) =
      if a.id ∈ ids then kind.status else before := by
  induction ids generalizing before with
  | nil => rfl
  | cons id rest ih =>
    obtain ⟨head, tail⟩ := List.cons_subset.1 known
    obtain ⟨b, source, rfl⟩ := List.mem_map.1 head
    have first : Decision.told a.name before
        (List.map (fun id => ⟨time, kind, Replay.nameOf s id⟩) (b.id :: rest)) =
        Decision.told a.name (if Replay.nameOf s b.id = a.name then kind.status else before)
          (rest.map fun id => ⟨time, kind, Replay.nameOf s id⟩) := rfl
    rw [first, ih tail, named.nameOf source]
    by_cases same : b.name = a.name
    · obtain rfl := named.name_inj source member same
      simp
    · have differs : a.id ≠ b.id := by
        intro equal
        apply same
        rw [← named.nameOf source, ← named.nameOf member, equal]
      simp [same, differs]

theorem names_perform (consistent : s.IsConsistent) (op : SessionOp R) :
    List.Forall₂ (fun a b => b.id = a.id ∧ b.name = a.name) s.interactors
      (s.perform op).interactors :=
  (forall₂_perform Interactor.isLasting_sameMake consistent.isNumbered op
    fun _ a timer => a.sameMake_timer timer).imp fun _ _ same =>
    ⟨same.id_eq, same.name⟩

omit [Scalar R] in
/-- Two lists whose members have the same names. -/
theorem map_name_eq_of {α : Type} {name : α → String} {as : List α} {bs : List (Interactor R ν)}
    (all : List.Forall₂ (fun a b => b.name = name a) as bs) :
    bs.map Interactor.name = as.map name := by
  induction all with
  | nil => rfl
  | cons same _ ih => rw [List.map_cons, List.map_cons, same, ih]

theorem map_name_perform (consistent : s.IsConsistent) (op : SessionOp R) :
    (s.perform op).interactors.map Interactor.name = s.interactors.map Interactor.name :=
  map_name_eq_of ((names_perform consistent op).imp fun _ _ same => same.2)

/-- No operation renames or renumbers interactors. -/
theorem isNamed_perform (consistent : s.IsConsistent) (named : s.IsNamed) (op : SessionOp R) :
    (s.perform op).IsNamed := by
  have all := names_perform consistent op
  have ids := map_id_eq_of (fun _ _ same => same.1) all
  constructor
  · rw [ids, named.numbered, all.length_eq]
  · rw [map_name_perform consistent op]
    exact named.names

/-- The interactors of a session have the names that the scene gives them. -/
theorem map_name_ofScene {settings : Settings R} {scene : Scene R}
    (built : ofScene settings scene = .ok s) :
    s.interactors.map Interactor.name = scene.interactors.map SceneInteractor.id := by
  refine map_name_eq_of ((ofScene_interactors built).2.imp ?_)
  rintro i a ⟨core, id, made, rfl⟩
  exact (name_of_build made : core.name = i.id)

omit ν in
/-- A list of interactors that makes sense shares no ids. -/
theorem nodup_of_firstFault? {earlier : List String} {is : List (SceneInteractor R)}
    (valid : SceneInteractor.firstFault? earlier is = none) :
    (is.map SceneInteractor.trimmedId).Nodup ∧
      ∀ i ∈ is, i.trimmedId ∉ earlier := by
  induction is generalizing earlier with
  | nil => simp
  | cons i rest ih =>
    rw [SceneInteractor.firstFault?] at valid
    cases fault : i.fault? earlier with
    | some fault' =>
      rw [fault] at valid
      cases valid
    | none =>
      rw [fault] at valid
      obtain ⟨distinct, later⟩ := ih valid
      have fresh : i.trimmedId ∉ earlier := by
        intro taken
        unfold SceneInteractor.fault? at fault
        simp only [taken, if_true] at fault
        split at fault <;> cases fault
      refine ⟨List.nodup_cons.2 ⟨fun again => ?_, distinct⟩, ?_⟩
      · obtain ⟨j, member, same⟩ := List.mem_map.1 again
        exact later j member (same ▸ List.mem_cons_self)
      · intro j member
        rcases List.mem_cons.1 member with rfl | member
        · exact fresh
        · exact fun taken => later j member (List.mem_cons_of_mem _ taken)

/-- The interactors of a scene that makes sense have names of their own. -/
theorem isNamed_ofScene {settings : Settings R} {scene : Scene R} (valid : scene.fault? = none)
    (built : ofScene settings scene = .ok s) : s.IsNamed := by
  refine ⟨(ofScene_spec built).2.1, ?_⟩
  have valid : SceneInteractor.firstFault? [] scene.interactors = none := by
    rw [Scene.fault?] at valid
    split at valid
    · cases valid
    · exact valid
  rw [map_name_ofScene built]
  have trimmed := (nodup_of_firstFault? valid).1
  refine List.Nodup.of_map (fun id => String.ofList (Text.trim id.toList)) ?_
  rw [List.map_map]
  exact trimmed

end Session

namespace Replay

omit [Scalar R] in
/-- Two relations between the members of two lists. -/
theorem forall₂_both {p q : Interactor R ν → Interactor R ν → Prop} {as bs : List (Interactor R ν)}
    (first : List.Forall₂ p as bs) (second : List.Forall₂ q as bs) :
    List.Forall₂ (fun a b => p a b ∧ q a b) as bs := by
  rw [List.forall₂_iff_zip] at first second ⊢
  exact ⟨first.1, fun pair => ⟨first.2 pair, second.2 pair⟩⟩

variable {r : Replay R ν}

/-- What the decisions on one operation tell. -/
theorem told_step (floor : HasFloor R) {s : Session R ν} (consistent : s.IsConsistent)
    (named : s.IsNamed) {op : SessionOp R} (still : op ≠ .resetAll) (time : Millis) :
    List.Forall₂ (fun a b => b.name = a.name ∧ b.standing.status =
        Decision.told a.name a.standing.status (decisionsOf time (s.step op)))
      s.interactors (s.perform op).interactors := by
  have names := Session.names_perform consistent op
  cases reported : (s.step op).outcome with
  | none =>
    have quiet : s.mediating? op = none := by
      cases mediates : s.mediating? op with
      | none => rfl
      | some s' =>
        rw [Session.step_of_mediating mediates] at reported
        cases reported
    refine (forall₂_both names (Session.alike_quiet consistent quiet still)).imp ?_
    rintro a b ⟨⟨-, name⟩, alike⟩
    refine ⟨name, ?_⟩
    rw [decisionsOf, reported, alike.standing]
    rfl
  | some o =>
    obtain ⟨-, -, -, accountsFor⟩ := Session.accountsFor_step floor consistent reported
    have ids := map_id_eq_of (fun _ _ same => same.1) names
    have known := accountsFor.known
    rw [← ids] at known
    obtain ⟨lists, determined⟩ := List.append_subset.1 known
    obtain ⟨promoted, excluded⟩ := List.append_subset.1 lists
    have named := Session.isNamed_perform consistent named op
    refine (mem_of_forall₂ (forall₂_both names accountsFor.all)).imp ?_
    rintro a b ⟨⟨⟨id_eq, name⟩, accounts⟩, before, after⟩
    refine ⟨name, ?_⟩
    have pooled : a.standing.status = .candidate ↔ a.id ∈ s.arbiter.candidates := by
      refine ⟨consistent.listed a before, fun inPool => ?_⟩
      obtain ⟨c, member, same, plain⟩ := consistent.mem_iff.1 inPool
      rwa [← consistent.toOrderly.eq_of_id_eq member before same]
    rw [accounts.status_eq pooled (consistent.loyal a before), decisionsOf, reported]
    simp only [Session.step_session]
    rw [← name, Decision.told_append, Decision.told_append, named.told_group after _ _ promoted,
      named.told_group after _ _ excluded, named.told_group after _ _ determined, id_eq]
    simp only [Option.mem_toList]
    rfl

/-- How the interactors of a replay's session stand, its decisions tell. -/
structure IsTold (r : Replay R ν) : Prop where
  consistent : r.session.IsConsistent
  named : r.session.IsNamed
  told : ∀ a ∈ r.session.interactors, a.standing.status = Decision.told a.name .idle r.decisions

/-- An operation that is recorded goes on telling how the interactors stand. -/
theorem IsTold.record (told : r.IsTold) (floor : HasFloor R) (op : SessionOp R)
    (still : op ≠ .resetAll) (time : Millis) : (r.record time (r.session.step op)).IsTold := by
  have session : (r.record time (r.session.step op)).session = r.session.perform op :=
    Session.step_session _ _
  constructor
  · rw [session]
    exact Session.isConsistent_perform told.consistent op
  · rw [session]
    exact Session.isNamed_perform told.consistent told.named op
  · rw [session]
    intro b member
    have step := told_step floor told.consistent told.named still time
    obtain ⟨a, -, ⟨name, status⟩, before, -⟩ := exists_source (mem_of_forall₂ step) b member
    rw [status, name, told.told a before, ← Decision.told_append]
    rfl

/-- A row is recorded as two operations. -/
theorem IsTold.feed (told : r.IsTold) (floor : HasFloor R) (row : TraceRow R) :
    (r.feed row).IsTold := by
  have advanced : (r.record row.time (r.session.advance row.time)).IsTold :=
    told.record floor (.advance row.time) (fun same => by cases same) row.time
  let sample := row.toSample r.surface
  have held : ((r.record row.time (r.session.advance row.time)).hold sample).IsTold := by
    unfold hold
    simp only
    split
    · exact ⟨advanced.consistent, advanced.named, advanced.told⟩
    · exact ⟨advanced.consistent, advanced.named, advanced.told⟩
  exact held.record floor (.handleEvent sample _) (fun same => by cases same) row.time

theorem IsTold.feedAll (told : r.IsTold) (floor : HasFloor R) (rows : List (TraceRow R)) :
    (r.feedAll rows).IsTold := by
  induction rows generalizing r with
  | nil => exact told
  | cons row rest ih => exact ih (told.feed floor row)

/-- Before any row, everyone is idle and nothing is decided. -/
theorem isTold_start {settings : Settings R} {scene : Scene R} {s : Session R ν}
    (valid : scene.fault? = none) (built : Session.ofScene settings scene = .ok s)
    (surface : Surface R) : (start s surface).IsTold where
  consistent := Session.isConsistent_ofScene built
  named := Session.isNamed_ofScene valid built
  told a member := by
    rw [(Session.ofScene_spec built).2.2 a member]
    rfl

end Replay

/-- What a session reports of a round of mediation accounts for all the statuses that the round, and
the operation that led to it, have changed; and the decisions that a replay of a scene that makes
sense writes down tell the status of every interactor. -/
theorem reports_account_for_statuses (floor : HasFloor R) {settings : Settings R} {scene : Scene R}
    {s : Session R ν} (built : Session.ofScene settings scene = .ok s) :
    (∀ ops op o, ((s.performAll ops).step op).outcome = some o →
      ∃ s', (s.performAll ops).mediating? op = some s' ∧
        AccountsFor s'.arbiter.candidates o s'.interactors
          (s.performAll (ops ++ [op])).interactors ∧
        AccountsFor (s.performAll ops).arbiter.candidates o (s.performAll ops).interactors
          (s.performAll (ops ++ [op])).interactors) ∧
    (scene.fault? = none → ∀ surface rows,
      ∀ a ∈ ((Replay.start s surface).feedAll rows).session.interactors,
        a.standing.status =
          Decision.told a.name .idle ((Replay.start s surface).feedAll rows).decisions) := by
  constructor
  · intro ops op o reported
    have consistent := Session.isConsistent_performAll (Session.isConsistent_ofScene built) ops
    rw [Session.performAll_concat]
    exact Session.accountsFor_step floor consistent reported
  · intro valid surface rows
    exact ((Replay.isTold_start valid built surface).feedAll floor rows).told

theorem hasFloor_exact : HasFloor EReal := by
  intro e t exceeds low
  rw [Scalar.exact_negInfinity] at low
  exact absurd (exceeds.trans_le low) not_lt_bot

/-- There is nothing wrong with a twin that has an id of its own. -/
theorem Twins.fault?_twin {id : String} {earlier : List String}
    (named : ¬ (twin id).trimmedId.isEmpty = true) (fresh : (twin id).trimmedId ∉ earlier) :
    (twin id).fault? earlier = none := by
  have four := Scalar.exact_isPositive_coe four_pos
  have placed : Scalar.isFinite (twin id).bounds.x = true ∧
      Scalar.isFinite (twin id).bounds.y = true :=
    ⟨Scalar.exact_isFinite_coe _, Scalar.exact_isFinite_coe _⟩
  have sized : Scalar.isPositive (twin id).bounds.width = true ∧
      Scalar.isPositive (twin id).bounds.height = true := ⟨four, four⟩
  have claim : ((twin id).claimOn.any fun label => (Text.trim label.toList).isEmpty) = false := by
    cbv
  rw [SceneInteractor.fault?, if_neg named, if_neg fresh, if_neg (not_not_intro placed),
    if_neg (not_not_intro sized), claim]
  rfl

theorem Twins.fault?_scene : Twins.scene.fault? = none := by
  have one := Scalar.exact_isPositive_coe one_pos
  have name : (twin "left").trimmedId = "left" := by cbv
  have name' : (twin "right").trimmedId = "right" := by cbv
  have left : (twin "left").fault? [] = none :=
    fault?_twin (by rw [name]; decide) (by simp)
  have right : (twin "right").fault? ["left"] = none :=
    fault?_twin (by rw [name']; decide) (by rw [name']; decide)
  rw [Scene.fault?, if_neg (not_not_intro ⟨one, one⟩)]
  simp only [scene, SceneInteractor.firstFault?, left, name, right]
  rfl

/-- The accounts of the twins, and the decisions of any replay of them. -/
theorem reports_account_for_statuses_twins :
    HasFloor EReal ∧ Twins.scene.fault? = none ∧
    ∃ s : Session EReal Unit, Session.ofScene .default Twins.scene = .ok s ∧
      (∀ ops op o, ((s.performAll ops).step op).outcome = some o →
        ∃ s', (s.performAll ops).mediating? op = some s' ∧
          AccountsFor s'.arbiter.candidates o s'.interactors
            (s.performAll (ops ++ [op])).interactors ∧
          AccountsFor (s.performAll ops).arbiter.candidates o (s.performAll ops).interactors
            (s.performAll (ops ++ [op])).interactors) ∧
      ∀ surface rows, ∀ a ∈ ((Replay.start s surface).feedAll rows).session.interactors,
        a.standing.status =
          Decision.told a.name .idle ((Replay.start s surface).feedAll rows).decisions := by
  obtain ⟨s, c, d, built, -⟩ := @Twins.ofScene_scene Unit
  obtain ⟨reports, decisions⟩ := reports_account_for_statuses hasFloor_exact built
  exact ⟨hasFloor_exact, Twins.fault?_scene, s, built, reports, decisions Twins.fault?_scene⟩

end TouchIntent
