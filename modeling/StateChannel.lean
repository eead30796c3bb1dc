import StateChannel.Bytes
import StateChannel.Hex
import StateChannel.Decimal
import StateChannel.Blank
import StateChannel.Sha256
import StateChannel.ChannelId
import StateChannel.EpochId
import StateChannel.Metadata
import StateChannel.StateProof
import StateChannel.Json.Basic
import StateChannel.Json.Quoted
import StateChannel.Json.Token
import StateChannel.Json.Printer
import StateChannel.Json.Parser
import StateChannel.Json.Record
import StateChannel.Wire.Count
import StateChannel.Wire.Reader
import StateChannel.Wire.Proof
import StateChannel.Rejection
import StateChannel.Violation
import StateChannel.Rules
import StateChannel.Signing
import StateChannel.Verification
import StateChannel.UpdateQueue
import StateChannel.Epoch
import StateChannel.Tracker
import StateChannel.AdditionGame
import StateChannel.AdditionGame.HouseRules
import StateChannel.DigestScheme
import StateChannel.ProofDraft
import StateChannel.AdditionGame.Play
import StateChannel.Config
import StateChannel.Document
import StateChannel.Snapshot
import StateChannel.Service
import StateChannel.Service.Session
import StateChannel.Verification.Valid
import StateChannel.UpdateQueue.Arrivals
import StateChannel.Tracker.Reachable
import StateChannel.Tracker.History
import StateChannel.Proofs.QueueArrivals
import StateChannel.Proofs.TrackerSteps
import StateChannel.Proofs.ValidProofs
import StateChannel.Proofs.SignedDrafts
import StateChannel.Proofs.Coherence
import StateChannel.Proofs.QueuedUpdates
import StateChannel.Proofs.PeerData
import StateChannel.Proofs.Delivery
import StateChannel.Proofs.Convergence
import StateChannel.Proofs.Participation
import StateChannel.Proofs.Freshness
import StateChannel.Proofs.ReportedChanges
import StateChannel.Proofs.SessionSteps
import StateChannel.Proofs.ExportedSnapshots
import StateChannel.Proofs.VersionedSnapshots
import StateChannel.Proofs.Histories
import StateChannel.Proofs.QueueRuns
import StateChannel.Proofs.Redelivery
import StateChannel.Proofs.Replay
import StateChannel.Proofs.ForeignSignatures
import StateChannel.Proofs.SeparateEpochs
import StateChannel.Proofs.Wakeups
import StateChannel.Proofs.WireRoundTrip
import StateChannel.Proofs.EncodedMoves
import StateChannel.Proofs.AdditionMoves
import StateChannel.Proofs.JustifiedProofs
import StateChannel.Proofs.WireTruncation
import StateChannel.Proofs.WireSpellings
import StateChannel.Proofs.WireRelay
import StateChannel.Proofs.AdditionTurns
import StateChannel.Proofs.HonestPlay
import StateChannel.Proofs.MessageBinding
import StateChannel.Proofs.ReceivedProofs
import StateChannel.Proofs.ExtendedProofs
import StateChannel.Proofs.SignatureSets
import StateChannel.Proofs.HexText
import StateChannel.Proofs.DigestSigners
import StateChannel.Proofs.JsonText
import StateChannel.Proofs.JsonRecords
import StateChannel.Proofs.DocumentRoundTrip
