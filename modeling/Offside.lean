import Offside.Main
import Offside.Proofs.Arrivals
import Offside.Proofs.Blocks
import Offside.Proofs.Brackets
import Offside.Proofs.Completions
import Offside.Proofs.Continuations
import Offside.Proofs.Conversations
import Offside.Proofs.Dealing
import Offside.Proofs.Documents
import Offside.Proofs.Drains
import Offside.Proofs.Dumps
import Offside.Proofs.Lookahead
import Offside.Proofs.Operations
import Offside.Proofs.Overruns
import Offside.Proofs.Progress
import Offside.Proofs.Reprinting
import Offside.Proofs.Stalling
import Offside.Proofs.Starts
import Offside.Proofs.Tiling
