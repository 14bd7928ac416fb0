import TouchIntent.Config.Scene
import TouchIntent.Config.Settings
import TouchIntent.Toml.Document
import TouchIntent.Toml.Record

/-!
# Configuration files

Settings and scenes as TOML files. Settings are grouped in four tables, and everything in them may
be left out. A scene must have its surface; what an interactor must have is its id, its bounds and
its behaviours.

A file is given by its text, which is missing if there is no such file or if it is not text. Reading
asks only for the format; loading also asks that what is read makes sense.
-/

namespace TouchIntent

open Toml (Value)

variable {R : Type} [Scalar R]

namespace Settings

private def recognizerFields (s : Settings R) (v : Value R) : Option (Settings R) := do
  let r ← v.record? ["max_observations", "emission"]
  let maxObservations ← r.withDefault Value.natural? s.maxObservations "max_observations"
  let emission ← r.withDefault (Value.choice? Emission.ofName?) s.emission "emission"
  return { s with maxObservations, emission }

private def grammarFields (s : Settings R) (v : Value R) : Option (Settings R) := do
  let r ← v.record? ["display_density"]
  return { s with displayDensity := ← r.withDefault Value.real? s.displayDensity "display_density" }

private def arbiterFields (s : Settings R) (v : Value R) : Option (Settings R) := do
  let r ← v.record? ["rule_out_mean_evidence"]
  return { s with
    ruleOutEvidence := ← r.withDefault Value.real? s.ruleOutEvidence "rule_out_mean_evidence" }

private def sessionFields (s : Settings R) (v : Value R) : Option (Settings R) := do
  let r ← v.record? ["move_jitter_threshold"]
  return { s with
    jitterThreshold := ← r.withDefault Value.real? s.jitterThreshold "move_jitter_threshold" }

/-- Settings as a value. -/
def ofToml? (v : Value R) : Option (Settings R) := do
  let r ← v.record? ["recognizer", "grammar", "arbiter", "session"]
  let s ← r.withDefault (recognizerFields default) default "recognizer"
  let s ← r.withDefault (grammarFields s) s "grammar"
  let s ← r.withDefault (arbiterFields s) s "arbiter"
  r.withDefault (sessionFields s) s "session"

end Settings

namespace SceneInteractor

private def bounds? (v : Value R) : Option (Bounds R) := do
  let r ← v.record? ["x", "y", "width", "height"]
  return ⟨← r.required Value.real? "x", ← r.required Value.real? "y",
    ← r.required Value.real? "width", ← r.required Value.real? "height"⟩

/-- An interactor of a scene as a value. -/
def ofToml? (v : Value R) : Option (SceneInteractor R) := do
  let r ← v.record? ["id", "bounds", "behaviors", "rules", "claim_on", "prior"]
  return {
    id := ← r.required Value.text? "id"
    bounds := ← r.required bounds? "bounds"
    behaviors := ← r.required (Value.list? Value.text?) "behaviors"
    rules := ← r.withDefault (Value.list? Value.text?) [] "rules"
    claimOn := ← r.optional Value.text? "claim_on"
    prior := ← r.optional (Value.list? Value.real?) "prior" }

end SceneInteractor

namespace Scene

private def surface? (v : Value R) : Option (Surface R) := do
  let r ← v.record? ["width", "height"]
  return ⟨← r.required Value.real? "width", ← r.required Value.real? "height"⟩

/-- A scene as a value. -/
def ofToml? (v : Value R) : Option (Scene R) := do
  let r ← v.record? ["surface", "interactor"]
  return ⟨← r.required surface? "surface",
    ← r.withDefault (Value.list? SceneInteractor.ofToml?) [] "interactor"⟩

end Scene

/-- What a file holds, by the reader of its value. -/
def readToml {α : Type} (ofToml? : Value R → Option α) : (file : Option String) →
    Except ConfigError α
  | none => .error .unreadable
  | some text =>
    match (Toml.document? text).bind ofToml? with
    | some a => .ok a
    | none => .error .malformed

/-- Reads a file of settings. -/
def Settings.read (file : Option String) : Except ConfigError (Settings R) :=
  readToml Settings.ofToml? file

/-- Reads a file of settings, which must make sense. -/
def Settings.load (file : Option String) : Except ConfigError (Settings R) :=
  Settings.read file >>= Settings.validate

/-- Reads a file of a scene. -/
def Scene.read (file : Option String) : Except ConfigError (Scene R) :=
  readToml Scene.ofToml? file

/-- Reads a file of a scene, which must make sense. -/
def Scene.load (file : Option String) : Except ConfigError (Scene R) :=
  Scene.read file >>= Scene.validate

end TouchIntent
