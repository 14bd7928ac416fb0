import Mathlib
import TouchIntent.Proofs.Replay.Statuses
import TouchIntent.Proofs.Rule.Words
import TouchIntent.Proofs.Session.Dormant
import TouchIntent.Proofs.Session.Host
import TouchIntent.Proofs.Text.Trim
import TouchIntent.Replay.Command

/-!
# Decisions as expectations

The decisions of a replay, written one to a line, are a file of expectations. Reading such a file
takes away the blanks around the name of an interactor, and every line stands for itself. So the
keys come back as they were written exactly if no name of an interactor that was decided on begins
or ends with a blank or holds a line break. Nothing else about a name matters: it may be empty, and
it may hold colons and the mark of a comment.
-/

namespace TouchIntent

namespace Text

/-- The lines of a text that goes on on the first line of another. -/
theorem lines_append {a b first : List Char} {more : List (List Char)} (whole : '\n' ∉ a)
    (lines : Text.lines b = first :: more) : Text.lines (a ++ b) = (a ++ first) :: more := by
  rw [Text.lines] at lines ⊢
  induction a with
  | nil => exact lines
  | cons c rest ih =>
    rw [List.mem_cons, not_or] at whole
    have other : ¬ (c == '\n') = true := by simpa using Ne.symm whole.1
    rw [List.cons_append, pieces, if_neg other, ih whole.2]
    rfl

end Text

/-! ## Lines of expectations -/

/-- The keys that lines of expectations list, one after another. -/
inductive Lists : List (List Char) → List String → Prop
  | nil : Lists [] []
  | skip {line : List Char} {lines : List (List Char)} {keys : List String}
      (skipped : expectedKey line = .ok none) (later : Lists lines keys) :
      Lists (line :: lines) keys
  | key {line : List Char} {key : String} {lines : List (List Char)} {keys : List String}
      (found : expectedKey line = .ok (some key)) (later : Lists lines keys) :
      Lists (line :: lines) (key :: keys)

namespace Lists

variable {lines : List (List Char)} {keys : List String}

/-- A line with a key gives the first key. -/
theorem of_key {line : List Char} {key first : String}
    (lists : Lists (line :: lines) (first :: keys))
    (found : expectedKey line = .ok (some key)) : first = key ∧ Lists lines keys := by
  cases lists with
  | skip skipped later =>
    rw [found] at skipped
    cases skipped
  | key found' later =>
    rw [found] at found'
    cases found'
    exact ⟨rfl, later⟩

end Lists

/-- The line of a number, as it is read among others. -/
def readNumbered (entry : List Char × Nat) : Except ExpectationError (Option String) :=
  (expectedKey entry.1).mapError fun fault => ⟨entry.2, fault⟩

theorem readNumbered_eq_ok_iff {line : List Char} {number : Nat} {key : Option String} :
    readNumbered (line, number) = .ok key ↔ expectedKey line = .ok key := by
  rw [readNumbered]
  cases expectedKey line with
  | error fault =>
    constructor
    · intro ok
      cases ok
    · intro ok
      cases ok
  | ok key' => exact ⟨congrArg Except.ok ∘ Except.ok.inj, congrArg Except.ok ∘ Except.ok.inj⟩

/-- Lines list keys if each of them can be read. -/
theorem lists_iff {lines : List (List Char)} (first : Nat) {keys : List String} :
    Lists lines keys ↔
      ∃ found, (lines.zipIdx first).mapM readNumbered = .ok found ∧ keys = found.filterMap id := by
  induction lines generalizing first keys with
  | nil =>
    constructor
    · rintro ⟨⟩
      exact ⟨[], rfl, rfl⟩
    · rintro ⟨found, read, rfl⟩
      obtain rfl := Except.ok.inj read
      exact .nil
  | cons line rest ih =>
    rw [List.zipIdx_cons, List.mapM_cons]
    constructor
    · intro lists
      cases lists with
      | skip skipped later =>
        obtain ⟨found, read, rfl⟩ := (ih (first + 1)).1 later
        exact ⟨none :: found, by rw [readNumbered_eq_ok_iff.2 skipped, read]; rfl, rfl⟩
      | key listed later =>
        obtain ⟨found, read, rfl⟩ := (ih (first + 1)).1 later
        exact ⟨some _ :: found, by rw [readNumbered_eq_ok_iff.2 listed, read]; rfl, rfl⟩
    · rintro ⟨found, read, rfl⟩
      obtain ⟨key, here, later⟩ := exists_of_bind_eq_ok read
      obtain ⟨others, there, same⟩ := exists_of_bind_eq_ok later
      obtain rfl := Except.ok.inj same
      have onward := (ih (first + 1)).2 ⟨others, there, rfl⟩
      cases key with
      | none => exact .skip (readNumbered_eq_ok_iff.1 here) onward
      | some key => exact .key (readNumbered_eq_ok_iff.1 here) onward

/-- Expectations are read line by line. -/
theorem readExpectations_eq_ok_iff {text : String} {keys : List String} :
    readExpectations text = .ok keys ↔ Lists (Text.lines text.toList) keys := by
  rw [lists_iff 1, readExpectations]
  constructor
  · intro ok
    obtain ⟨found, read, same⟩ := exists_of_bind_eq_ok ok
    exact ⟨found, read, (Except.ok.inj same).symm⟩
  · rintro ⟨found, read, rfl⟩
    exact congrArg (· >>= fun keys => pure (keys.filterMap id)) read

/-! ## Written decisions -/

/-- A name that comes back as it was written: it neither begins nor ends with a blank, and holds no
line break. -/
def IsPlain (name : String) : Prop := Text.IsTrimmed name.toList ∧ '\n' ∉ name.toList

namespace Decision

/-- The decisions as a file of expectations, one to a line. -/
def sheet (decisions : List Decision) : String :=
  String.ofList (decisions.flatMap fun d => d.key.toList ++ ['\n'])

theorem toList_key (d : Decision) :
    d.key.toList = d.kind.name.toList ++ ':' :: d.interactor.toList := by
  show (d.kind.name ++ ":" ++ d.interactor).toList = _
  rw [String.toList_append, String.toList_append, List.append_assoc]
  rfl

/-- The names of kinds begin with a letter. -/
theorem kind_name (kind : DecisionKind) : ∃ c rest, kind.name.toList = c :: rest ∧
    Text.isBlank c = false ∧ c ≠ '#' := by
  cases kind <;> exact ⟨_, _, rfl, by decide, by decide⟩

theorem newline_notMem_kind (kind : DecisionKind) : '\n' ∉ kind.name.toList ++ [':'] := by
  cases kind <;> decide

/-- What is read from the first line of a key. -/
theorem expectedKey_kind (kind : DecisionKind) (name : List Char) :
    expectedKey (kind.name.toList ++ ':' :: name) =
      .ok (some (kind.name ++ ":" ++ String.ofList (Text.trim (Text.trimEnd name)))) := by
  obtain ⟨c, rest, spelled, unblank, noComment⟩ := kind_name kind
  have whole : Text.trim (kind.name.toList ++ ':' :: name) =
      kind.name.toList ++ ':' :: Text.trimEnd name := by
    rw [← Text.trimEnd_append _ _ (by decide), Text.trim, Text.trimStart_eq_self]
    rw [spelled]
    intro d first
    obtain rfl : c = d := by simpa using first
    exact unblank
  have content : ¬ ((kind.name.toList ++ ':' :: Text.trimEnd name).isEmpty = true ∨
      (kind.name.toList ++ ':' :: Text.trimEnd name).head? = some '#') := by
    simp [spelled, noComment]
  have cut : Text.cut? ':' (kind.name.toList ++ ':' :: Text.trimEnd name) =
      some (kind.name.toList, Text.trimEnd name) := by
    cases kind <;> simp [DecisionKind.name, Text.cut?]
  have same : String.ofList ((Text.trim kind.name.toList).map Char.toLower) = kind.name := by
    cases kind <;> decide
  have known : (DecisionKind.ofName? kind.name).isSome = true := by
    cases kind <;> decide
  rw [expectedKey]
  simp only [whole, if_neg content, cut, same, known, if_true]

/-- The lines of a key are those of the name, the first of them after the kind. -/
theorem lines_key (d : Decision) {first : List Char} {more : List (List Char)}
    (lines : Text.lines d.interactor.toList = first :: more) :
    Text.lines d.key.toList = (d.kind.name.toList ++ ':' :: first) :: more := by
  have whole : d.key.toList = (d.kind.name.toList ++ [':']) ++ d.interactor.toList := by
    rw [toList_key]
    simp
  rw [whole, Text.lines_append (newline_notMem_kind d.kind) lines]
  simp

theorem lines_of_plain {name : String} (plain : IsPlain name) :
    Text.lines name.toList = [name.toList] := by
  refine Text.pieces_eq_singleton fun c member => ?_
  rw [beq_eq_false_iff_ne]
  rintro rfl
  exact plain.2 member

/-- A decision on a plain name is read as its key. -/
theorem lists_plain {d : Decision} (plain : IsPlain d.interactor) {lines : List (List Char)}
    {keys : List String} (later : Lists lines keys) :
    Lists (Text.lines d.key.toList ++ lines) (d.key :: keys) := by
  have found :
      expectedKey (d.kind.name.toList ++ ':' :: d.interactor.toList) = .ok (some d.key) := by
    rw [expectedKey_kind, Text.trimEnd_eq_self plain.1.2, Text.trim_eq_self plain.1,
      String.ofList_toList]
    rfl
  rw [lines_key d (lines_of_plain plain)]
  exact .key found later

/-- Only a plain name is read as it was written. -/
theorem plain_of_lists {d : Decision} {lines : List (List Char)} {keys : List String}
    (lists : Lists (Text.lines d.key.toList ++ lines) (d.key :: keys)) :
    IsPlain d.interactor ∧ Lists lines keys := by
  have nonempty : Text.lines d.interactor.toList ≠ [] := Text.pieces_ne_nil _ _
  obtain ⟨first, more, cut⟩ := List.exists_cons_of_ne_nil nonempty
  rw [lines_key d cut, List.cons_append] at lists
  obtain ⟨same, later⟩ := lists.of_key (expectedKey_kind d.kind first)
  have name : d.interactor.toList = Text.trim (Text.trimEnd first) := by
    have texts := congrArg String.toList same
    rw [toList_key] at texts
    simpa using texts
  have oneLine : '\n' ∉ d.interactor.toList := by
    intro member
    rw [name] at member
    have inside := Text.prefix_trimEnd.subset (Text.mem_of_mem_trim member)
    have separates := Text.isSeparator_of_mem_pieces (cut ▸ List.mem_cons_self) inside
    simp at separates
  have plain : IsPlain d.interactor := ⟨name ▸ Text.isTrimmed_trim _, oneLine⟩
  rw [lines_of_plain plain] at cut
  obtain ⟨-, rfl⟩ := List.cons.inj cut
  exact ⟨plain, later⟩

/-- The lines of a file of decisions are those of their keys, and an empty one at the end. -/
theorem lines_sheet (ds : List Decision) : Text.lines (sheet ds).toList =
    (ds.flatMap fun d => Text.lines d.key.toList) ++ [[]] := by
  rw [sheet, String.toList_ofList]
  induction ds with
  | nil => rfl
  | cons d rest ih =>
    rw [List.flatMap_cons, List.append_assoc, List.singleton_append, Text.lines,
      Text.pieces_append _ _ (by decide), ← Text.lines, ← Text.lines, ih, List.flatMap_cons,
      List.append_assoc]

/-- A file of decisions is read as their keys exactly if all names in it are plain. -/
theorem readExpectations_sheet_iff (ds : List Decision) :
    readExpectations (sheet ds) = .ok (ds.map key) ↔ ∀ d ∈ ds, IsPlain d.interactor := by
  rw [readExpectations_eq_ok_iff, lines_sheet]
  induction ds with
  | nil => simpa using Lists.skip rfl .nil
  | cons d rest ih =>
    rw [List.flatMap_cons, List.append_assoc, List.map_cons, List.forall_mem_cons, ← ih]
    constructor
    · exact plain_of_lists
    · rintro ⟨plain, later⟩
      exact lists_plain plain later

end Decision

/-- Expectations are met exactly if they are read as the keys of the decisions. -/
theorem CommandFiles.mismatch?_eq_none_iff {decisions : List Decision} {text : String} :
    mismatch? decisions (some text) = none ↔
      readExpectations text = .ok (decisions.map Decision.key) := by
  rw [mismatch?]
  cases readExpectations text with
  | error error => simp
  | ok expected =>
    simp only [ite_eq_left_iff, reduceCtorEq, imp_false, not_not, Except.ok.injEq]
    exact eq_comm

/-! ## Names in replays -/

variable {R ν : Type} [Scalar R]

/-- The digits of an id are a plain name. -/
theorem isPlain_toString (id : InteractorId) : IsPlain (toString id) := by
  have digits : ∀ c ∈ (toString id).toList, c.isDigit = true := by
    intro c member
    have listed : c ∈ Nat.toDigits 10 id := by
      simpa [toString, Nat.repr] using member
    exact Nat.isDigit_of_mem_toDigits (by decide) (by decide) listed
  have unblank : ∀ c : Char, c.isDigit = true → Text.isBlank c = false := by
    intro c digit
    have range : 48 ≤ c.toNat ∧ c.toNat ≤ 57 := by
      simp only [Char.isDigit, Bool.and_eq_true, decide_eq_true_eq, ge_iff_le,
        UInt32.le_iff_toNat_le] at digit
      exact digit
    have ofWords := RuleText.isWordChar_of_ascii (c := c) (by omega) (by omega) (by omega)
    exact (RuleText.isWordChar_iff.1 ofWords).1
  refine ⟨⟨fun c first => ?_, fun c last => ?_⟩, fun member => ?_⟩
  · exact unblank c (digits c (List.mem_of_mem_head? first))
  · exact unblank c (digits c (List.mem_of_mem_getLast? last))
  · exact absurd (digits _ member) (by decide)

namespace Replay

variable {r : Replay R ν}

omit [Scalar R] in
theorem nameOf_mem (s : Session R ν) (id : InteractorId) :
    nameOf s id ∈ s.interactors.map Interactor.name ∨ nameOf s id = toString id := by
  rw [nameOf]
  cases found : s.interactor? id with
  | none => exact .inr rfl
  | some a => exact .inl (List.mem_map_of_mem (List.mem_of_getElem? found))

omit [Scalar R] in
/-- Every decision on an operation names some id. -/
theorem exists_nameOf {time : Millis} {s : SessionStep R ν} {d : Decision}
    (member : d ∈ decisionsOf time s) : ∃ id, d.interactor = nameOf s.session id := by
  rw [decisionsOf] at member
  cases reported : s.outcome with
  | none =>
    rw [reported] at member
    cases member
  | some o =>
    rw [reported] at member
    simp only [List.mem_append, List.mem_map] at member
    obtain (⟨id, -, rfl⟩ | ⟨id, -, rfl⟩) | ⟨id, -, rfl⟩ := member <;> exact ⟨id, rfl⟩

/-- Decisions are on interactors by their names, which are those given, or on ids that nobody
has. -/
structure IsNaming (names : List String) (r : Replay R ν) : Prop where
  consistent : r.session.IsConsistent
  named : r.session.interactors.map Interactor.name = names
  decided : ∀ d ∈ r.decisions,
    d.interactor ∈ names ∨ ∃ id : InteractorId, d.interactor = toString id

namespace IsNaming

variable {names : List String}

/-- An operation that is recorded goes on naming. -/
theorem record (naming : r.IsNaming names) (op : SessionOp R) (time : Millis) :
    (r.record time (r.session.step op)).IsNaming names := by
  have session : (r.record time (r.session.step op)).session = r.session.perform op :=
    Session.step_session _ _
  have named : (r.session.perform op).interactors.map Interactor.name = names :=
    (Session.map_name_perform naming.consistent op).trans naming.named
  constructor
  · rw [session]
    exact Session.isConsistent_perform naming.consistent op
  · rw [session]
    exact named
  · intro d member
    rcases List.mem_append.1 member with earlier | new
    · exact naming.decided d earlier
    · obtain ⟨id, same⟩ := exists_nameOf new
      rw [Session.step_session] at same
      rw [same, ← named]
      exact (nameOf_mem _ id).imp_right fun digits => ⟨id, digits⟩

/-- A row is recorded as two operations. -/
theorem feed (naming : r.IsNaming names) (row : TraceRow R) : (r.feed row).IsNaming names := by
  have advanced : (r.record row.time (r.session.advance row.time)).IsNaming names :=
    naming.record (.advance row.time) row.time
  let sample := row.toSample r.surface
  have held : ((r.record row.time (r.session.advance row.time)).hold sample).IsNaming names := by
    unfold hold
    simp only
    split
    · exact ⟨advanced.consistent, advanced.named, advanced.decided⟩
    · exact ⟨advanced.consistent, advanced.named, advanced.decided⟩
  exact held.record (.handleEvent sample _) row.time

theorem feedAll (naming : r.IsNaming names) (rows : List (TraceRow R)) :
    (r.feedAll rows).IsNaming names := by
  induction rows generalizing r with
  | nil => exact naming
  | cons row rest ih => exact ih (naming.feed row)

end IsNaming

theorem isNaming_start {settings : Settings R} {scene : Scene R} {s : Session R ν}
    (built : Session.ofScene settings scene = .ok s) (surface : Surface R) :
    (start s surface).IsNaming (scene.interactors.map SceneInteractor.id) where
  consistent := Session.isConsistent_ofScene built
  named := Session.map_name_ofScene built
  decided d member := by cases member

end Replay

/-- The decisions that a replay of a scene writes down, written one to a line as expectations, are
read back as their keys, and are met by the replay, exactly if every interactor that was decided on
has an id in the scene that neither begins nor ends with a blank, and holds no line break. -/
theorem expectations_read_back_iff {settings : Settings R} {scene : Scene R} {s : Session R ν}
    (built : Session.ofScene settings scene = .ok s) (surface : Surface R)
    (rows : List (TraceRow R)) :
    let decisions := ((Replay.start s surface).feedAll rows).decisions
    (readExpectations (Decision.sheet decisions) = .ok (decisions.map Decision.key) ↔
      ∀ i ∈ scene.interactors, (∃ d ∈ decisions, d.interactor = i.id) → IsPlain i.id) ∧
    (CommandFiles.mismatch? decisions (some (Decision.sheet decisions)) = none ↔
      ∀ i ∈ scene.interactors, (∃ d ∈ decisions, d.interactor = i.id) → IsPlain i.id) := by
  intro decisions
  have naming := (Replay.isNaming_start built surface).feedAll rows
  have plain : (∀ d ∈ decisions, IsPlain d.interactor) ↔
      ∀ i ∈ scene.interactors, (∃ d ∈ decisions, d.interactor = i.id) → IsPlain i.id := by
    constructor
    · rintro all i - ⟨d, member, same⟩
      exact same ▸ all d member
    · intro all d member
      rcases naming.decided d member with listed | ⟨id, digits⟩
      · obtain ⟨i, inScene, same⟩ := List.mem_map.1 listed
        exact same ▸ all i inScene ⟨d, member, same.symm⟩
      · exact digits ▸ isPlain_toString id
  rw [CommandFiles.mismatch?_eq_none_iff, Decision.readExpectations_sheet_iff, plain]
  exact ⟨Iff.rfl, Iff.rfl⟩

namespace Twins

/-- The scene of a single element, whose id begins with a blank. -/
noncomputable def indented : Scene EReal := ⟨scene.surface, [twin " left"]⟩

/-- The row of a press in the corner. -/
noncomputable def pressRow : TraceRow EReal := ⟨0, .down, 0, ⟨0, 0⟩, 0, 0, 0, 0⟩

theorem fault?_indented : indented.fault? = none := by
  have one := Scalar.exact_isPositive_coe one_pos
  have name : (twin " left").trimmedId = "left" := by cbv
  have left : (twin " left").fault? [] = none := fault?_twin (by rw [name]; decide) (by simp)
  rw [Scene.fault?, if_neg (not_not_intro ⟨one, one⟩)]
  simp only [indented, SceneInteractor.firstFault?, left]
  rfl

theorem position_pressRow : (pressRow.toSample scene.surface).position = tap.position := by
  simp [TraceRow.toSample, Surface.normalize, pressRow, tap, scene]

/-- The press is decided on: the element becomes a candidate. -/
theorem decided_indented {ν : Type} : ∃ s : Session EReal ν,
    Session.ofScene .default indented = .ok s ∧
      ∃ d ∈ ((Replay.start s indented.surface).feedAll [pressRow]).decisions,
        d.interactor = " left" := by
  obtain ⟨s, c, built, arbiter, interactors, watches, idle, first⟩ := @ofScene_single ν " left"
  obtain ⟨r, fed⟩ : ∃ r, r = (Replay.start s indented.surface).feedAll [pressRow] := ⟨_, rfl⟩
  obtain ⟨s', waited⟩ : ∃ s', s' = (s.advance 0).session := ⟨_, rfl⟩
  have passed := (Session.isDormant_ofScene built).advance 0
  have session : r.session = (s'.handle [pressRow.toSample scene.surface]).session := by
    rw [fed, waited]
    rfl
  have arbiter' : s'.arbiter = ⟨defaultRuleOutEvidence, []⟩ := by
    rw [waited, passed]
    exact arbiter
  have interactors' : s'.interactors = [c] := by
    rw [waited, passed]
    exact interactors
  obtain ⟨c', pool, contenders, -, first'⟩ :=
    handle_press (x := pressRow.toSample scene.surface) arbiter' interactors' watches idle first
      rfl rfl position_pressRow
  rw [← session] at pool contenders
  have told : r.IsTold := by
    rw [fed]
    exact (Replay.isTold_start fault?_indented built indented.surface).feedAll hasFloor_exact _
  have naming : r.IsNaming [" left"] := by
    rw [fed]
    exact (Replay.isNaming_start built indented.surface).feedAll _
  have name : c'.name = " left" := by
    have names := naming.named
    rw [contenders] at names
    simpa using names
  have candidate : c'.standing.status = .candidate := by
    have inPool : 0 ∈ r.session.arbiter.candidates := by rw [pool]; simp
    obtain ⟨a, member, -, stands⟩ := told.consistent.mem_iff.1 inPool
    rw [contenders] at member
    rwa [← List.mem_singleton.1 member]
  refine ⟨s, built, ?_⟩
  rw [← fed]
  by_contra undecided
  have others : ∀ d ∈ r.decisions, d.interactor ≠ " left" :=
    fun d member same => undecided ⟨d, member, same⟩
  have status := told.told c' (by rw [contenders]; exact List.mem_singleton_self c')
  rw [candidate, name, Decision.told_of_others others] at status
  cases status

end Twins

theorem expectations_read_back_iff_indented : ∃ s : Session EReal Unit,
    Session.ofScene .default Twins.indented = .ok s ∧
      let decisions := ((Replay.start s Twins.indented.surface).feedAll
        [Twins.pressRow]).decisions
      (readExpectations (Decision.sheet decisions) = .ok (decisions.map Decision.key) ↔
        ∀ i ∈ Twins.indented.interactors, (∃ d ∈ decisions, d.interactor = i.id) →
          IsPlain i.id) ∧
      (CommandFiles.mismatch? decisions (some (Decision.sheet decisions)) = none ↔
        ∀ i ∈ Twins.indented.interactors, (∃ d ∈ decisions, d.interactor = i.id) →
          IsPlain i.id) := by
  obtain ⟨s, built, -⟩ := @Twins.decided_indented Unit
  exact ⟨s, built, expectations_read_back_iff built _ _⟩

/-- An element whose id begins with a blank is accepted, and a press makes it a candidate. The
decision does not come back as it was written, and the replay does not meet its own decisions. -/
theorem indented_name_not_read_back : Twins.indented.fault? = none ∧
    ∃ s : Session EReal Unit, Session.ofScene .default Twins.indented = .ok s ∧
      let decisions := ((Replay.start s Twins.indented.surface).feedAll
        [Twins.pressRow]).decisions
      readExpectations (Decision.sheet decisions) ≠ .ok (decisions.map Decision.key) ∧
        CommandFiles.mismatch? decisions (some (Decision.sheet decisions)) ≠ none := by
  obtain ⟨s, built, d, member, name⟩ := @Twins.decided_indented Unit
  have blank : ¬ IsPlain " left" := fun plain => absurd (plain.1.1 ' ' rfl) (by decide)
  have altered := mt (Decision.readExpectations_sheet_iff _).1
    fun all => blank (name ▸ all d member)
  exact ⟨Twins.fault?_indented, s, built, altered,
    mt CommandFiles.mismatch?_eq_none_iff.1 altered⟩

end TouchIntent
