import Rulebook.Host.Engine
import Rulebook.Host.Handle
import Rulebook.Json.Reader
import Rulebook.Proofs.Addressing
import Rulebook.Proofs.Atomicity
import Rulebook.Proofs.CombinedVerdict
import Rulebook.Proofs.JoinedText
import Rulebook.Proofs.Routes
import Rulebook.Proofs.StoredRules
import Rulebook.Proofs.Transparency
import Rulebook.Proofs.WireFormat
import Rulebook.Proofs.Reachable
import Rulebook.Proofs.References
import Rulebook.Proofs.Permanence
import Rulebook.Proofs.Balance
import Rulebook.Proofs.Attributes
import Rulebook.Proofs.Coherence
import Rulebook.Proofs.Rejoining
import Rulebook.Proofs.ShortCircuit
import Rulebook.Proofs.Stages
import Rulebook.Proofs.CombinedNames
import Rulebook.Proofs.Decoding
import Rulebook.Proofs.FreeNames
import Rulebook.Proofs.Pieces
import Rulebook.Text.Slice
import Rulebook.Proofs.LexicalErrors
import Rulebook.Proofs.Partition
import Rulebook.Proofs.Lookahead
import Rulebook.Proofs.SyntaxErrors
import Rulebook.Proofs.Layout
import Rulebook.Proofs.LeastDepth
import Rulebook.Proofs.Traversal
