/-!
# Errors in configuration files

A configuration file may be unreadable, it may not say what its format asks for, and what it says
may make no sense.
-/

namespace TouchIntent

/-- What makes no sense in a configuration. Those about an interactor name it by its id. -/
inductive ConfigFault where
  | maxObservations
  | displayDensity
  | ruleOutEvidence
  | jitterThreshold
  | surfaceSize
  | emptyId
  | duplicateId (id : String)
  | boundsPosition (id : String)
  | boundsSize (id : String)
  | noBehaviors (id : String)
  | priorLength (id : String) (length behaviors : Nat)
  | priorEntry (id : String)
  | emptyClaim (id : String)
  deriving DecidableEq

def ConfigFault.message : ConfigFault → String
  | maxObservations => "recognizer.max_observations must be > 0"
  | displayDensity => "grammar.display_density must be > 0"
  | ruleOutEvidence => "arbiter.rule_out_mean_evidence must be finite"
  | jitterThreshold => "session.move_jitter_threshold must be >= 0"
  | surfaceSize => "surface.width and surface.height must be > 0"
  | emptyId => "interactor.id must not be empty"
  | duplicateId id => s!"interactor.id `{id}` is duplicated"
  | boundsPosition id => s!"interactor `{id}` bounds.x/y must be finite"
  | boundsSize id => s!"interactor `{id}` bounds.width and bounds.height must be > 0"
  | noBehaviors id => s!"interactor `{id}` behaviors must list at least one gesture"
  | priorLength id length behaviors =>
    s!"interactor `{id}` prior has {length} entries for {behaviors} behaviors"
  | priorEntry id => s!"interactor `{id}` prior entries must be > 0"
  | emptyClaim id => s!"interactor `{id}` claim_on must not be empty"

/-- Why a configuration file cannot be used. -/
inductive ConfigError where
  /-- The file is missing, or it is not text. -/
  | unreadable
  /-- The text is not of the format, or a field is missing, unknown or of the wrong kind. -/
  | malformed
  | invalid (fault : ConfigFault)
  deriving DecidableEq

def ConfigError.message : ConfigError → String
  | unreadable => "the file cannot be read"
  | malformed => "the file is malformed"
  | invalid fault => s!"validation failed: {fault.message}"

end TouchIntent
