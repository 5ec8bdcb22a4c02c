import TokioTungstenite.Execution.Path
import TokioTungstenite.Execution.Simulation
import TokioTungstenite.Execution.Program
import TokioTungstenite.Execution.Accounting
import TokioTungstenite.Execution.Fifo
import TokioTungstenite.Model.Basic
import TokioTungstenite.Model.Compat
import TokioTungstenite.Model.Tungstenite
import TokioTungstenite.Model.Stream
import TokioTungstenite.Model.Steps
import TokioTungstenite.Model.Observations
import TokioTungstenite.Proofs.Receive
import TokioTungstenite.Model.OutputBuffer
import TokioTungstenite.Proofs.SendPath
import TokioTungstenite.Model.Lifecycle
import TokioTungstenite.Proofs.Close
import TokioTungstenite.Proofs.Backpressure
import TokioTungstenite.Proofs.Flush
import TokioTungstenite.Proofs.Retry
import TokioTungstenite.Model.Reference
import TokioTungstenite.Proofs.Reference
import TokioTungstenite.Model.Handshake
import TokioTungstenite.Proofs.Handshake
import TokioTungstenite.Model.Interleaving
import TokioTungstenite.Proofs.Interleaving
import TokioTungstenite.Proofs.Wakeup
import TokioTungstenite.Model.Uri
import TokioTungstenite.Model.Connect
import TokioTungstenite.Proofs.Endpoint
import TokioTungstenite.Proofs.UrlErrors
import TokioTungstenite.Proofs.Life
import TokioTungstenite.Proofs.Waking
import TokioTungstenite.Proofs.Blocking
import TokioTungstenite.Execution.PrefixCode
import TokioTungstenite.Model.Connection
import TokioTungstenite.Proofs.Delivery
import TokioTungstenite.Proofs.SendFuture
import TokioTungstenite.Proofs.Attempt
import TokioTungstenite.Proofs.Progress
import TokioTungstenite.Proofs.History
import TokioTungstenite.Execution.Translation
import TokioTungstenite.Proofs.Features
import TokioTungstenite.Proofs.Synchronous
