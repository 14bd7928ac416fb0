import TouchIntent.Config.File
import TouchIntent.Replay.Basic

/-!
# The replay command

The command replays a trace through the session of a scene, prints the decisions as comma separated
rows, and compares them with the expected ones if it is given any. Nothing is printed unless the
whole trace has been replayed.
-/

namespace TouchIntent

/-- Why the command fails. -/
inductive CommandError where
  | config (error : ConfigError)
  | scene (error : SceneError)
  | noTrace
  | trace (error : TraceError)
  | noExpectations
  | expectations (error : ExpectationError)
  | mismatch (expected actual : List String)
  deriving DecidableEq

def CommandError.message : CommandError → String
  | config error => error.message
  | scene error => error.message
  | noTrace => "the trace cannot be read"
  | trace error => error.message
  | noExpectations => "the expectations cannot be read"
  | expectations error => error.message
  | mismatch expected actual =>
    let expected := ",".intercalate expected
    let actual := ",".intercalate actual
    s!"expected decisions: {expected}, actual decisions: {actual}"

/-- The files named on the command line; two of them may be left out. A file without a text is
missing, or it is not text. -/
structure CommandFiles where
  trace : Option String
  scene : Option String
  config : Option (Option String) := none
  expectations : Option (Option String) := none

/-- What the command prints, and why it fails if it does. -/
structure CommandResult where
  output : List String := []
  error : Option CommandError := none

def CommandResult.exitCode (r : CommandResult) : Nat := if r.error.isSome then 1 else 0

namespace CommandFiles

variable {R : Type} [Scalar R]

/-- The decisions of the replay. -/
def decisions (R : Type) [Scalar R] (files : CommandFiles) :
    Except CommandError (List Decision) := do
  let settings : Settings R ← match files.config with
    | none => .ok Settings.default
    | some file => (Settings.load file).mapError .config
  let scene ← (Scene.load files.scene).mapError .config
  let session : Session R Empty ← (Session.ofScene settings scene).mapError .scene
  match files.trace with
  | none => .error .noTrace
  | some text =>
    let rows ← (readTrace text).mapError .trace
    return ((Replay.start session scene.surface).feedAll rows).decisions

/-- Compares the decisions with a file of expectations. -/
def mismatch? (decisions : List Decision) : (file : Option String) → Option CommandError
  | none => some .noExpectations
  | some text =>
    match readExpectations text with
    | .error error => some (.expectations error)
    | .ok expected =>
      let actual := decisions.map Decision.key
      if actual = expected then none else some (.mismatch expected actual)

/-- Runs the command. -/
def run (R : Type) [Scalar R] (files : CommandFiles) : CommandResult :=
  match files.decisions R with
  | .error error => { error }
  | .ok decisions => {
      output := Decision.heading :: decisions.map Decision.row
      error := files.expectations.bind (mismatch? decisions) }

end CommandFiles

/-! ## Arguments -/

/-- The paths on the command line. -/
structure CommandPaths where
  trace : String
  scene : String
  config : Option String := none
  expectations : Option String := none

namespace CommandPaths

/-- The paths as far as the arguments have been read. -/
structure Draft where
  trace : Option String := none
  scene : Option String := none
  config : Option String := none
  expectations : Option String := none

/-- Reads the arguments: the path of the trace, and the options with their paths in any order. Each
may be given once. -/
def Draft.read (d : Draft) : List String → Option Draft
  | [] => some d
  | "--scene" :: path :: rest =>
    if d.scene.isSome then none else { d with scene := some path : Draft }.read rest
  | "--config" :: path :: rest =>
    if d.config.isSome then none else { d with config := some path : Draft }.read rest
  | "--expect" :: path :: rest =>
    if d.expectations.isSome then none else { d with expectations := some path : Draft }.read rest
  | path :: rest =>
    if path.startsWith "-" ∨ d.trace.isSome then none
    else { d with trace := some path : Draft }.read rest

/-- The paths that the arguments name. The trace and the scene are needed. -/
def ofArguments? (arguments : List String) : Option CommandPaths := do
  let d ← ({} : Draft).read arguments
  return ⟨← d.trace, ← d.scene, d.config, d.expectations⟩

end CommandPaths

end TouchIntent
