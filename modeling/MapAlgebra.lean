import MapAlgebra.Config
import MapAlgebra.Log
import MapAlgebra.Script.Consoles
import MapAlgebra.Source.Letters
import MapAlgebra.Source.Lexer
import MapAlgebra.Source.Code
import MapAlgebra.Source.Reader
import MapAlgebra.Source.Grammar
import MapAlgebra.Source.Types
import MapAlgebra.Source.Patterns
import MapAlgebra.Source.Expressions
import MapAlgebra.Source.Items
import MapAlgebra.Source.Statements
import MapAlgebra.Source.Expansion
import MapAlgebra.Proofs.Graph.Recurrence
import MapAlgebra.Proofs.Graph.Delivered
import MapAlgebra.Proofs.Graph.Addressed
import MapAlgebra.Proofs.Graph.Agreeing
import MapAlgebra.Proofs.Graph.Merged
import MapAlgebra.Proofs.Graph.Faultless
import MapAlgebra.Proofs.Graph.Refused
import MapAlgebra.Proofs.Handles.Log
import MapAlgebra.Proofs.Graph.Building
import MapAlgebra.Proofs.Loops.Followed
import MapAlgebra.Proofs.Loops.Upkeep
import MapAlgebra.Proofs.Grid.Decoded
import MapAlgebra.Proofs.Graph.Overwritten
import MapAlgebra.Proofs.Graph.Blocked
import MapAlgebra.Proofs.Graph.Lasting
import MapAlgebra.Proofs.Handles.Brackets
import MapAlgebra.Proofs.Handles.Reclaimed
import MapAlgebra.Proofs.Handles.Traceless
import MapAlgebra.Proofs.Graph.Stored
import MapAlgebra.Proofs.Graph.Promoted
import MapAlgebra.Proofs.Graph.Rooted
import MapAlgebra.Proofs.Op.Integers
import MapAlgebra.Proofs.Source.Jumps
import MapAlgebra.Proofs.Source.Scoping
import MapAlgebra.Proofs.Log.Directives
import MapAlgebra.Proofs.Scalar.Conversion
import MapAlgebra.Proofs.Grid.Lines
import MapAlgebra.Proofs.Graph.Zoned
import MapAlgebra.Proofs.Library.Exchanged
