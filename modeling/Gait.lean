import Gait.Main
import Gait.Drive.Polling
import Gait.Files.Memory
import Gait.Walker.Diagnostics
import Gait.Proofs.Expr.Exactness
import Gait.Proofs.Session
import Gait.Proofs.Walker.Coherence
import Gait.Proofs.Walker.Schedule
import Gait.Proofs.Wire.Receiver
import Gait.Proofs.Wire.Attempts
import Gait.Proofs.Wire.Stream
import Gait.Proofs.Walker.Playing
import Gait.Proofs.WalkFile.Delays
import Gait.Proofs.Wire.Alike
import Gait.Proofs.Walker.Waiting
import Gait.Proofs.Walker.Looping
import Gait.Proofs.Walker.Twins
import Gait.Proofs.Walker.Unlinked
import Gait.Proofs.Walker.LastPass
import Gait.Proofs.Expr.Writing
import Gait.Proofs.WalkFile.Appending
import Gait.Proofs.Drive.Agreement
import Gait.Proofs.StatusQueue.Channel
import Gait.Proofs.Wire.Accepting
import Gait.Proofs.CommandLine.Frames
import Gait.Proofs.CommandLine.Check
import Gait.Proofs.Walker.Edges
import Gait.Proofs.WalkFile.Intervals
import Gait.Proofs.WalkFile.Pairs
import Gait.Proofs.WalkFile.Groups
import Gait.Proofs.WalkFile.Filling
import Gait.Proofs.WalkFile.StepGrammar
import Gait.Proofs.Wire.CutShort
import Gait.Proofs.Drive.Listed
import Gait.Proofs.WalkFile.Layout
import Gait.Proofs.WalkFile.Reports
import Gait.Proofs.CommandLine.Listing
import Gait.Proofs.Walker.Polls
import Gait.Proofs.Walker.Overwriting
import Gait.Proofs.Walker.Refusals
import Gait.Proofs.Wire.Merging
import Gait.Proofs.Expr.Slices
import Gait.Proofs.Expr.Calls
import Gait.Proofs.Drive.Computed
import Gait.Proofs.Expr.Earliest
import Gait.Proofs.Expr.Bounded
import Gait.Proofs.StatusQueue.Discarding
import Gait.Proofs.Setpoint.Truncation
