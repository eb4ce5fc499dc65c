import ScriptTree.Host.Canned
import ScriptTree.Main
import ScriptTree.Proofs.Run
import ScriptTree.Proofs.Composition
import ScriptTree.Proofs.Walk
import ScriptTree.Proofs.NestingLimit
import ScriptTree.Proofs.Splitting
import ScriptTree.Proofs.History
import ScriptTree.Proofs.OperatorDomain
import ScriptTree.Proofs.CodeUnits
import ScriptTree.Proofs.Rounding
import ScriptTree.Proofs.NearestDouble
import ScriptTree.Proofs.Comparison
import ScriptTree.Proofs.ExactOrder
import ScriptTree.Proofs.Decimals
import ScriptTree.Proofs.RoundTrip
import ScriptTree.Proofs.Interchange
import ScriptTree.Proofs.JsonReading
import ScriptTree.Proofs.IntegerTexts
import ScriptTree.Proofs.IntegerOrder
import ScriptTree.Proofs.Decoding
import ScriptTree.Proofs.DocumentHeight
import ScriptTree.Proofs.Rendering
import ScriptTree.Proofs.Blame
import ScriptTree.Proofs.Simulation
import ScriptTree.Proofs.Properties
import ScriptTree.Proofs.HeldValues
import ScriptTree.Proofs.Supply
import ScriptTree.Proofs.Correspondence
import ScriptTree.Proofs.Renaming
import ScriptTree.Proofs.MentionedNames
import ScriptTree.Proofs.Rewording
import ScriptTree.Proofs.Moments
import ScriptTree.Proofs.DepthBalance
import ScriptTree.Proofs.Interruption
import ScriptTree.Proofs.Refusals
import ScriptTree.Proofs.Creation
import ScriptTree.Proofs.Lives
import ScriptTree.Proofs.Identity
import ScriptTree.Proofs.RadixRounding
import ScriptTree.Proofs.WholePart
import ScriptTree.Proofs.BigIntArithmetic
import ScriptTree.Proofs.BigIntBits
import ScriptTree.Proofs.Words
import ScriptTree.Proofs.NumberTexts
import ScriptTree.Proofs.NumericLiterals
import ScriptTree.Proofs.Mirroring
import ScriptTree.Proofs.StringOrder
import ScriptTree.Proofs.Inspection
import ScriptTree.Proofs.BigIntLiterals
import ScriptTree.Proofs.Declarations
