import CognitiveLoad.Main
import CognitiveLoad.Proofs.Metric
import CognitiveLoad.Proofs.Partition
import CognitiveLoad.Proofs.Profile
import CognitiveLoad.Proofs.Outline
import CognitiveLoad.Proofs.Flow
import CognitiveLoad.Proofs.Isolation
import CognitiveLoad.Proofs.Outcome
import CognitiveLoad.Proofs.Operators
import CognitiveLoad.Proofs.Batch
import CognitiveLoad.Proofs.Ledger
import CognitiveLoad.Proofs.Registrations
import CognitiveLoad.Proofs.Files
import CognitiveLoad.Proofs.FanOut
import CognitiveLoad.Proofs.Walks
import CognitiveLoad.Proofs.Relocation
import CognitiveLoad.Proofs.Locality
import CognitiveLoad.Proofs.Shape
import CognitiveLoad.Proofs.LetterCase
import CognitiveLoad.Proofs.Tracked
import CognitiveLoad.Proofs.Numerals
import CognitiveLoad.Proofs.Precedence
import CognitiveLoad.Proofs.Runs
import CognitiveLoad.Proofs.Wishes
import CognitiveLoad.Proofs.Shift
import CognitiveLoad.Proofs.Chains
import CognitiveLoad.Proofs.Attribution
import CognitiveLoad.Proofs.Decoding
import CognitiveLoad.Proofs.Reports
import CognitiveLoad.Proofs.Towers
import CognitiveLoad.Proofs.Declarators
import CognitiveLoad.Proofs.Comments
import CognitiveLoad.Proofs.Parameters
import CognitiveLoad.Proofs.Listings
import CognitiveLoad.Proofs.Multiplicity
import CognitiveLoad.Proofs.Positions
import CognitiveLoad.Proofs.Repeats
import CognitiveLoad.Proofs.Ignored
import CognitiveLoad.Proofs.Thresholds
import CognitiveLoad.Proofs.DottedNames
import CognitiveLoad.Proofs.TextReports
import CognitiveLoad.Proofs.Encoding
import CognitiveLoad.Proofs.Slices
import CognitiveLoad.Proofs.Balance
import CognitiveLoad.Proofs.LineEnds
