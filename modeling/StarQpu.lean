import StarQpu.Architecture.Simplified
import StarQpu.Client.Api
import StarQpu.Codec.Architecture
import StarQpu.Codec.Circuit
import StarQpu.Codec.Config
import StarQpu.Codec.Job
import StarQpu.Demo.RoundTrip
import StarQpu.Job.Script
import StarQpu.Json.Printer
import StarQpu.Main
import StarQpu.Proofs.Architecture
import StarQpu.Proofs.Architecture.Comparison
import StarQpu.Proofs.Auth.Login
import StarQpu.Proofs.Auth.Manager
import StarQpu.Proofs.Auth.Token
import StarQpu.Proofs.Bank.Calls
import StarQpu.Proofs.Bank.Candidates
import StarQpu.Proofs.Bank.Moving
import StarQpu.Proofs.Bank.Outcomes
import StarQpu.Proofs.Bank.Ranking
import StarQpu.Proofs.Bank.Setup
import StarQpu.Proofs.Client.Architectures
import StarQpu.Proofs.Codec.Job
import StarQpu.Proofs.Job.Request
import StarQpu.Proofs.Job.Tracking
import StarQpu.Proofs.Job.Waiting
import StarQpu.Proofs.Locus.Numbered
import StarQpu.Proofs.Mapping
import StarQpu.Proofs.Occupation
import StarQpu.Proofs.Removal
import StarQpu.Proofs.Removal.Precondition
import StarQpu.Proofs.Renaming.Insertion
import StarQpu.Proofs.Renaming.Moves
import StarQpu.Proofs.Renaming.Removal
import StarQpu.Proofs.Renaming.Routing
import StarQpu.Proofs.Result
import StarQpu.Proofs.Routing.Agreement
import StarQpu.Proofs.Routing.Calibration
import StarQpu.Proofs.Routing.Clash
import StarQpu.Proofs.Routing.Cost
import StarQpu.Proofs.Routing.Failure
import StarQpu.Proofs.Routing.Following
import StarQpu.Proofs.Routing.Ghz
import StarQpu.Proofs.Routing.Hub
import StarQpu.Proofs.Routing.Identity
import StarQpu.Proofs.Routing.Insertion
import StarQpu.Proofs.Routing.Meaning
import StarQpu.Proofs.Routing.Planned
import StarQpu.Proofs.Routing.Realizable
import StarQpu.Proofs.Routing.RemovalMeaning
import StarQpu.Proofs.Routing.Removed
import StarQpu.Proofs.Routing.Rerouting
import StarQpu.Proofs.Routing.RoundTrip
import StarQpu.Proofs.Routing.Run
import StarQpu.Proofs.Routing.Sandwich
import StarQpu.Proofs.Routing.SingleGate
import StarQpu.Proofs.Routing.Stability
import StarQpu.Proofs.Routing.Star
import StarQpu.Proofs.Routing.Writing
import StarQpu.Proofs.Samples
import StarQpu.Proofs.Simplified
import StarQpu.Proofs.Simplified.View
import StarQpu.Proofs.Sorting
import StarQpu.Proofs.Table
import StarQpu.Proofs.Validation
import StarQpu.Proofs.Validation.Acceptance
import StarQpu.Proofs.Validation.Pairing
import StarQpu.Proofs.Validation.Replay
import StarQpu.Routing.Insertion
