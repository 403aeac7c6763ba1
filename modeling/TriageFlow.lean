import TriageFlow.Engine.Scripted
import TriageFlow.Main
import TriageFlow.Proofs.Forward
import TriageFlow.Proofs.Foretold
import TriageFlow.Proofs.History
import TriageFlow.Proofs.StepLimit
import TriageFlow.Proofs.Calls
import TriageFlow.Proofs.Events
import TriageFlow.Proofs.Noninterference
import TriageFlow.Proofs.Resolution
import TriageFlow.Proofs.Layout
import TriageFlow.Proofs.Spelling
import TriageFlow.Proofs.Addressing
import TriageFlow.Proofs.Webhook
import TriageFlow.Proofs.Interleaving
import TriageFlow.Proofs.StructuredOutput
import TriageFlow.Proofs.WrittenForm
import TriageFlow.Proofs.Answer
import TriageFlow.Proofs.Retrying
import TriageFlow.Proofs.Deposits
import TriageFlow.Proofs.RouteChoice
import TriageFlow.Proofs.Verdict
import TriageFlow.Proofs.Joining
import TriageFlow.Proofs.Height
import TriageFlow.Proofs.Duality
import TriageFlow.Proofs.WholeNumbers
import TriageFlow.Proofs.Depth
import TriageFlow.Proofs.Lines
import TriageFlow.Proofs.Unwrapping
import TriageFlow.Proofs.Leniency
import TriageFlow.Proofs.Attempts
import TriageFlow.Proofs.Hits
import TriageFlow.Proofs.Ranking
import TriageFlow.Proofs.Expansion
import TriageFlow.Proofs.Frame
import TriageFlow.Proofs.Backoff
