import Dimensional.FileTree
import Dimensional.Main
import Dimensional.Proofs.Annotation
import Dimensional.Proofs.CommandLine.Arguments
import Dimensional.Proofs.CommandLine.Files
import Dimensional.Proofs.Compiler
import Dimensional.Proofs.Derivation.Omission
import Dimensional.Proofs.Derivation.Phrases
import Dimensional.Proofs.Dimension.Declarations
import Dimensional.Proofs.Known
import Dimensional.Proofs.Parser.Balance
import Dimensional.Proofs.Parser.Lookahead
import Dimensional.Proofs.Parser.Mentioned
import Dimensional.Proofs.Parser.Nesting
import Dimensional.Proofs.Parser.Numbers
import Dimensional.Proofs.Parser.Parameters
import Dimensional.Proofs.Prime.Search
import Dimensional.Proofs.Quantity.Factors
import Dimensional.Proofs.Quantity.Grouping
import Dimensional.Proofs.Quantity.Insertion
import Dimensional.Proofs.Quantity.Known
import Dimensional.Proofs.Quantity.Power
import Dimensional.Proofs.Quantity.Refusal
import Dimensional.Proofs.Quantity.Store
import Dimensional.Proofs.Quantity.Text
import Dimensional.Proofs.Raised
import Dimensional.Proofs.Scope.Declared
import Dimensional.Proofs.Scope.Described
import Dimensional.Proofs.Scope.Renumbering
import Dimensional.Proofs.Scope.Stated
import Dimensional.Proofs.Token.EndMark
import Dimensional.Proofs.Token.Reading
import Dimensional.Proofs.Token.Spacing
import Dimensional.Proofs.Tree.Labels
import Dimensional.Proofs.Zeroth
import Dimensional.Quantity.Record
