import ResetMethods.Main
import ResetMethods.Programs.Launch
import ResetMethods.Proofs.Dict
import ResetMethods.Proofs.Text.Cutting
import ResetMethods.Proofs.Execution.Value
import ResetMethods.Proofs.Execution.Semantics
import ResetMethods.Proofs.Execution.Effect
import ResetMethods.Proofs.Execution.Method
import ResetMethods.Proofs.Execution.Guards
import ResetMethods.Proofs.Execution.Promoted
import ResetMethods.Proofs.MethodSet.Pending
import ResetMethods.Proofs.MethodSet.Promotion
import ResetMethods.Proofs.Layout.Closed
import ResetMethods.Proofs.Layout.Types
import ResetMethods.Proofs.Layout.Settled
import ResetMethods.Proofs.Layout.Methods
import ResetMethods.Proofs.Layout.Generated
import ResetMethods.Proofs.Layout.Reading
import ResetMethods.Proofs.Layout.Delimited
import ResetMethods.Proofs.Layout.Visible
import ResetMethods.Proofs.Layout.Shape
import ResetMethods.Proofs.Layout.Repeated
import ResetMethods.Proofs.Layout.RawStrings
import ResetMethods.Proofs.Imports.Bindings
import ResetMethods.Proofs.Imports.Pieces
import ResetMethods.Proofs.Imports.Qualified
import ResetMethods.Proofs.Imports.Block
import ResetMethods.Proofs.Imports.History
import ResetMethods.Proofs.Printing.Unambiguous
import ResetMethods.Proofs.Printing.Parameters
import ResetMethods.Proofs.Printing.Visibility
import ResetMethods.Proofs.Printing.Lengths
import ResetMethods.Proofs.Files.Following
import ResetMethods.Proofs.Files.Trees
import ResetMethods.Proofs.Files.Rewriting
import ResetMethods.Proofs.Runs.Ending
import ResetMethods.Proofs.Runs.Reloading
import ResetMethods.Proofs.Runs.Rerun
import ResetMethods.Proofs.Types.Declared
import ResetMethods.Proofs.Generation.Targets
import ResetMethods.Proofs.Generation.Redeclaration
import ResetMethods.Proofs.Runs.Success
import ResetMethods.Proofs.Generation.Delegation
import ResetMethods.Proofs.Generation.Capture
import ResetMethods.Proofs.Generation.Apart
import ResetMethods.Proofs.Types.Scopes
import ResetMethods.Proofs.Generation.Unrelated
import ResetMethods.Proofs.Generation.Order
import ResetMethods.Proofs.Generation.Served
import ResetMethods.Proofs.Types.Faithful
import ResetMethods.Proofs.Loading.Sources
import ResetMethods.Proofs.Loading.Grouping
import ResetMethods.Proofs.Types.Receivers
import ResetMethods.Proofs.Text.Identifiers
import ResetMethods.Proofs.Imports.Names
import ResetMethods.Proofs.Loading.ImportPaths
import ResetMethods.Proofs.Loading.Governing
import ResetMethods.Proofs.Execution.Transparent
import ResetMethods.Proofs.Source.Documentation
import ResetMethods.Proofs.Source.Header
