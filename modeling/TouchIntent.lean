import TouchIntent.Arbiter
import TouchIntent.Config.Error
import TouchIntent.Config.File
import TouchIntent.Config.Scene
import TouchIntent.Config.Settings
import TouchIntent.Gesture.Compile
import TouchIntent.Gesture.Fault
import TouchIntent.Gesture.Gaussian
import TouchIntent.Gesture.Model
import TouchIntent.Gesture.Route
import TouchIntent.Gesture.Route.Parser
import TouchIntent.Gesture.Route.Token
import TouchIntent.Gesture.Trellis
import TouchIntent.Interactor.Basic
import TouchIntent.Interactor.Standing
import TouchIntent.Interactor.TaskQueue
import TouchIntent.Layout
import TouchIntent.Main
import TouchIntent.Numeric.Best
import TouchIntent.Numeric.LogSum
import TouchIntent.Numeric.Plane
import TouchIntent.Numeric.Scalar
import TouchIntent.Pattern.Basic
import TouchIntent.Pattern.Check
import TouchIntent.Pattern.Match
import TouchIntent.Proofs.Arbiter.Agreement
import TouchIntent.Proofs.Arbiter.Claims
import TouchIntent.Proofs.Arbiter.Contest
import TouchIntent.Proofs.Arbiter.Pool
import TouchIntent.Proofs.Arbiter.Winner
import TouchIntent.Proofs.Fallible
import TouchIntent.Proofs.Gesture.Arrows
import TouchIntent.Proofs.Gesture.BestPath
import TouchIntent.Proofs.Gesture.Chain
import TouchIntent.Proofs.Gesture.Compiled
import TouchIntent.Proofs.Gesture.Density
import TouchIntent.Proofs.Gesture.Emission
import TouchIntent.Proofs.Gesture.Normalization
import TouchIntent.Proofs.Gesture.Origin
import TouchIntent.Proofs.Gesture.PathSum
import TouchIntent.Proofs.Gesture.SingleState
import TouchIntent.Proofs.Gesture.Tokens
import TouchIntent.Proofs.Interactor.OneStop
import TouchIntent.Proofs.Interactor.Standing
import TouchIntent.Proofs.Numeric.Exact
import TouchIntent.Proofs.Numeric.LogTotal
import TouchIntent.Proofs.Pattern.Language
import TouchIntent.Proofs.Pattern.Markers
import TouchIntent.Proofs.Pattern.Runs
import TouchIntent.Proofs.Pattern.Walk
import TouchIntent.Proofs.Recognizer.Batch
import TouchIntent.Proofs.Recognizer.Position
import TouchIntent.Proofs.Recognizer.Run
import TouchIntent.Proofs.Recognizer.Shapes
import TouchIntent.Proofs.Rule.Cycle
import TouchIntent.Proofs.Rule.Founders
import TouchIntent.Proofs.Rule.Graph
import TouchIntent.Proofs.Rule.Labels
import TouchIntent.Proofs.Rule.Listeners
import TouchIntent.Proofs.Rule.Meaning
import TouchIntent.Proofs.Rule.Memo
import TouchIntent.Proofs.Rule.Run
import TouchIntent.Proofs.Rule.Sharing
import TouchIntent.Proofs.Rule.Text
import TouchIntent.Proofs.Session.ClaimResolution
import TouchIntent.Proofs.Session.PoolConsistency
import TouchIntent.Proofs.Session.Run
import TouchIntent.Proofs.Session.SingleWinner
import TouchIntent.Proofs.Session.Tap
import TouchIntent.Recognizer.Basic
import TouchIntent.Recognizer.View
import TouchIntent.Recognizer.Window
import TouchIntent.Replay.Basic
import TouchIntent.Replay.Command
import TouchIntent.Replay.Decision
import TouchIntent.Replay.Trace
import TouchIntent.Rule.Book
import TouchIntent.Rule.Evaluation
import TouchIntent.Rule.Expr
import TouchIntent.Rule.Parser
import TouchIntent.Rule.Qualifier
import TouchIntent.Rule.Token
import TouchIntent.Session
import TouchIntent.Text.Blank
import TouchIntent.Text.Digit
import TouchIntent.Text.Number
import TouchIntent.Text.Split
import TouchIntent.Toml.Document
import TouchIntent.Toml.Literal
import TouchIntent.Toml.Record
import TouchIntent.Toml.Value
import TouchIntent.Touch
import TouchIntent.Proofs.Arbiter.Ledger
import TouchIntent.Proofs.Interactor.Lasting
import TouchIntent.Proofs.Session.Lasting
import TouchIntent.Proofs.Session.Accounting
import TouchIntent.Proofs.Replay.Statuses
import TouchIntent.Proofs.Session.Host
import TouchIntent.Proofs.Interactor.TaskQueue
import TouchIntent.Proofs.Interactor.Peer
import TouchIntent.Proofs.Arbiter.Peer
import TouchIntent.Proofs.Session.Dormant
import TouchIntent.Proofs.Session.FreshStart
import TouchIntent.Proofs.Rule.Brackets
import TouchIntent.Proofs.Rule.Rendering
import TouchIntent.Proofs.Rule.Respacing
import TouchIntent.Proofs.Rule.Values
import TouchIntent.Proofs.Rule.Words
import TouchIntent.Proofs.Rule.Firings
import TouchIntent.Proofs.Rule.StartingOver
import TouchIntent.Proofs.Session.Timers
import TouchIntent.Proofs.Arbiter.Reordering
import TouchIntent.Proofs.Interactor.Posterior
import TouchIntent.Proofs.Session.RegistrationOrder
import TouchIntent.Proofs.Recognizer.Likelihood
import TouchIntent.Proofs.Session.Inference
import TouchIntent.Proofs.Rule.Registration
import TouchIntent.Proofs.Rule.Interning
import TouchIntent.Proofs.Pattern.Demands
import TouchIntent.Proofs.Gesture.Demands
import TouchIntent.Proofs.Replay.Expectations
import TouchIntent.Proofs.Replay.Lines
import TouchIntent.Proofs.Rule.Spacing
import TouchIntent.Proofs.Rule.References
import TouchIntent.Proofs.Pattern.Trail
import TouchIntent.Proofs.Pattern.Completion
import TouchIntent.Proofs.Pattern.Stays
import TouchIntent.Proofs.Pattern.Marks
import TouchIntent.Proofs.Gesture.Progress
import TouchIntent.Proofs.Session.Jitter
import TouchIntent.Proofs.Recognizer.Ageing
import TouchIntent.Proofs.Gesture.Vanishing
import TouchIntent.Proofs.Recognizer.Dominance
import TouchIntent.Proofs.Interactor.Requests
import TouchIntent.Proofs.Interactor.Cancellation
import TouchIntent.Proofs.Session.LiveTimers
import TouchIntent.Proofs.Gesture.Overlap
import TouchIntent.Proofs.Gesture.Fitting
import TouchIntent.Proofs.Rule.Questions
import TouchIntent.Proofs.Gesture.Blanks
import TouchIntent.Proofs.Gesture.Slices
import TouchIntent.Proofs.Gesture.Faults
import TouchIntent.Proofs.Session.Shares
import TouchIntent.Proofs.Session.Validation
import TouchIntent.Proofs.Text.Trim
import TouchIntent.Proofs.Rule.Watching
import TouchIntent.Proofs.Rule.Listening
import TouchIntent.Proofs.Interactor.Listening
