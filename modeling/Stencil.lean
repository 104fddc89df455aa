import Stencil.C.Meaning
import Stencil.Evaluate
import Stencil.Main
import Stencil.Model.Encode
import Stencil.Proofs.Geometry
import Stencil.Proofs.Evaluation
import Stencil.Proofs.ConvolutionSum
import Stencil.Proofs.Execution
import Stencil.Proofs.Resolution
import Stencil.Proofs.Kernel
import Stencil.Proofs.Building
import Stencil.Proofs.RegistryCalls
import Stencil.Proofs.SingleAssignment
import Stencil.Proofs.DistinctNames
import Stencil.C.Token
import Stencil.Proofs.Agreement
import Stencil.C.Reader
import Stencil.Proofs.Tokens
import Stencil.Proofs.Printing
import Stencil.Proofs.Clauses
import Stencil.Proofs.Layout
import Stencil.Proofs.Attributes
import Stencil.Proofs.Requirements
import Stencil.Proofs.Counters
import Stencil.Proofs.References
import Stencil.Proofs.Collisions
import Stencil.Proofs.Coarse
import Stencil.Proofs.QuantizedBuild
import Stencil.Proofs.CarefulNode
import Stencil.Proofs.CarefulBuild
import Stencil.Proofs.CarefulSource
import Stencil.Proofs.Faultless
import Stencil.Proofs.Compilation
import Stencil.Json.Document
import Stencil.Proofs.Documents
import Stencil.Proofs.Writing
import Stencil.Proofs.RoundTrip
import Stencil.Proofs.Constants
import Stencil.Proofs.Files
import Stencil.Proofs.Runs
import Stencil.Proofs.Comments
import Stencil.Proofs.Identifiers
import Stencil.Proofs.Acceptance
import Stencil.Proofs.Padding
import Stencil.Proofs.Coverage
import Stencil.C.Strict
import Stencil.Proofs.ExtendedData
import Stencil.Proofs.Subsampling
import Stencil.Proofs.EightBits
import Stencil.Proofs.Overflow
import Stencil.Proofs.Requantization
import Stencil.Proofs.LifeCycle
import Stencil.Proofs.AttributeOrder
import Stencil.Proofs.ExplicitAttributes
import Stencil.Proofs.FirstFault
import Stencil.Proofs.OutputOrder
import Stencil.Proofs.Indentation
import Stencil.Proofs.Nesting
import Stencil.C.ArrayType
import Stencil.C.Braces
import Stencil.Proofs.Initializers
import Stencil.C.Constant
import Stencil.Proofs.Literals
import Stencil.Proofs.FileComment
import Stencil.Proofs.ArrayTypes
import Stencil.Proofs.SharedIdentifiers
import Stencil.Proofs.Overwriting
import Stencil.Proofs.Flags
