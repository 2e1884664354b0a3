import DiagBus.Bench.Script
import DiagBus.Proofs.AnswerTime
import DiagBus.Proofs.Bursts
import DiagBus.Proofs.Bytes
import DiagBus.Proofs.Capability
import DiagBus.Proofs.CheckedClients
import DiagBus.Proofs.ClockOffset
import DiagBus.Proofs.Codec
import DiagBus.Proofs.Confirmations
import DiagBus.Proofs.Conservation
import DiagBus.Proofs.Conversation
import DiagBus.Proofs.Expiries
import DiagBus.Proofs.FailedRequests
import DiagBus.Proofs.FiringOrder
import DiagBus.Proofs.FlowControl
import DiagBus.Proofs.FrameAccounts
import DiagBus.Proofs.Freshness
import DiagBus.Proofs.Integrity
import DiagBus.Proofs.Invitations
import DiagBus.Proofs.Isolation
import DiagBus.Proofs.Ledger
import DiagBus.Proofs.Offers
import DiagBus.Proofs.Promptness
import DiagBus.Proofs.Reassembly
import DiagBus.Proofs.Refusals
import DiagBus.Proofs.RequestBytes
import DiagBus.Proofs.RoundTrip
import DiagBus.Proofs.Rounds
import DiagBus.Proofs.SendingSteps
import DiagBus.Proofs.Sessions
import DiagBus.Proofs.SlotRuns
import DiagBus.Proofs.Stream
import DiagBus.Proofs.Transmission
import DiagBus.Proofs.Undisturbed
import DiagBus.Proofs.Polling
import DiagBus.Proofs.ConfirmationQueue
