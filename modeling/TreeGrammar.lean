import TreeGrammar.Text.Basic
import TreeGrammar.Text.CharSet
import TreeGrammar.Text.Blank
import TreeGrammar.Text.Line
import TreeGrammar.Text.Identifier
import TreeGrammar.Text.LowerCase
import TreeGrammar.Text.Numeral
import TreeGrammar.Text.Quoted
import TreeGrammar.Text.WordBreak
import TreeGrammar.Text.Utf8
import TreeGrammar.Text.Wide
import TreeGrammar.Keyed
import TreeGrammar.Json.Parser
import TreeGrammar.Json.Printer
import TreeGrammar.Json.Shown
import TreeGrammar.TypeRef.Parser
import TreeGrammar.Grammar.Printer
import TreeGrammar.Grammar.Loader
import TreeGrammar.TypeRef.Kind
import TreeGrammar.NodeModule.Render
import TreeGrammar.Document.Codec
import TreeGrammar.Document.Type
import TreeGrammar.Lox
import TreeGrammar.Script.World
import TreeGrammar.Script.Fault
import TreeGrammar.CommandLine.Run
import TreeGrammar.Document.Generation
import TreeGrammar.Main
import TreeGrammar.Number.Binary64
import TreeGrammar.Number.Shortest
import TreeGrammar.Proofs.Publish.Attempt
import TreeGrammar.Proofs.Publish.Preparing
import TreeGrammar.Proofs.Publish.TakingBack
import TreeGrammar.Proofs.Publish.RollingBack
import TreeGrammar.Proofs.Publish.Serving
import TreeGrammar.Proofs.Publish.Restoration
import TreeGrammar.Proofs.Publish.Loss
import TreeGrammar.Proofs.Grammar.Loading
import TreeGrammar.Proofs.NodeModule.Operations
import TreeGrammar.Proofs.Text.Blank
import TreeGrammar.Proofs.Text.Parts
import TreeGrammar.Proofs.Grammar.WellFormed
import TreeGrammar.Proofs.Grammar.Printer
import TreeGrammar.Proofs.Grammar.RoundTrip
import TreeGrammar.Proofs.Grammar.Reference
import TreeGrammar.Proofs.Grammar.Soundness
import TreeGrammar.Proofs.NodeModule.Bindings
import TreeGrammar.Proofs.NodeModule.Annotations
import TreeGrammar.Proofs.NodeModule.Supply
import TreeGrammar.Proofs.Text.Line
import TreeGrammar.Proofs.Grammar.Completeness
import TreeGrammar.Proofs.NodeModule.Unresolved
import TreeGrammar.Proofs.Publish.Targets
import TreeGrammar.Proofs.Publish.Success
import TreeGrammar.Proofs.Publish.Clearing
import TreeGrammar.Proofs.NodeModule.Revision
import TreeGrammar.Proofs.Publish.Residue
import TreeGrammar.Proofs.Publish.BreakingOff
import TreeGrammar.Proofs.Publish.Session
import TreeGrammar.Proofs.Publish.Undoing
import TreeGrammar.Proofs.Document.RoundTrip
import TreeGrammar.Proofs.Publish.Reporting
import TreeGrammar.Proofs.NodeModule.Rendering
import TreeGrammar.Proofs.NodeModule.Dependence
import TreeGrammar.Proofs.CommandLine.Outcome
import TreeGrammar.Proofs.Text.WordStart
import TreeGrammar.Proofs.Document.Imports
import TreeGrammar.Proofs.NodeModule.Freezing
import TreeGrammar.Proofs.NodeModule.Outline
import TreeGrammar.Proofs.Grammar.Joining
import TreeGrammar.Proofs.Text.Identifier
import TreeGrammar.Proofs.NodeModule.Keywords
import TreeGrammar.Proofs.NodeModule.Builtins
import TreeGrammar.Proofs.Grammar.SingleFamily
import TreeGrammar.Proofs.Grammar.Loadable
import TreeGrammar.Proofs.Grammar.Reordering
import TreeGrammar.Proofs.Document.Stability
import TreeGrammar.Proofs.Document.Reordering
import TreeGrammar.Proofs.Document.Containment
import TreeGrammar.Proofs.Grammar.SingleUse
import TreeGrammar.Proofs.Grammar.ErrorLine
import TreeGrammar.Proofs.Grammar.File
