import TapeLang.Machine.Run
import TapeLang.Proofs.Bounds
import TapeLang.Proofs.Breakdown
import TapeLang.Proofs.BrokenConsole
import TapeLang.Proofs.ConsoleInput
import TapeLang.Proofs.Counting
import TapeLang.Proofs.Delivery.Switching
import TapeLang.Proofs.Dialogue.LockStep
import TapeLang.Proofs.Entries
import TapeLang.Proofs.Execution.Sequential
import TapeLang.Proofs.Forwarding
import TapeLang.Proofs.Framing.Responses
import TapeLang.Proofs.Freshness
import TapeLang.Proofs.Grammar.Beginnings
import TapeLang.Proofs.Grammar.Locating
import TapeLang.Proofs.Grammar.Placement
import TapeLang.Proofs.Grammar.Printing
import TapeLang.Proofs.Interleaving.Operations
import TapeLang.Proofs.Malformed
import TapeLang.Proofs.Pausing.Idle
import TapeLang.Proofs.Reading
import TapeLang.Proofs.RoundTrip
import TapeLang.Proofs.Routing
import TapeLang.Proofs.Sniffing
import TapeLang.Proofs.TokenRefinement
import TapeLang.Proofs.Verbatim
import TapeLang.Proofs.Window
