import AsmLens.Assembler.Run
import AsmLens.Json.Parser
import AsmLens.Json.Printer
import AsmLens.Proofs.Assist.Calls
import AsmLens.Proofs.Assist.Completion
import AsmLens.Proofs.Assist.Definition
import AsmLens.Proofs.Assist.Labels
import AsmLens.Proofs.Assist.Shadowing
import AsmLens.Proofs.Assist.Strings
import AsmLens.Proofs.Buffer.Coordinates
import AsmLens.Proofs.Catalogue.LabelBlocks
import AsmLens.Proofs.Catalogue.Marks
import AsmLens.Proofs.Catalogue.Outline
import AsmLens.Proofs.Catalogue.WellFormed
import AsmLens.Proofs.Cursor.Context
import AsmLens.Proofs.Cursor.Identifier
import AsmLens.Proofs.Editor.Columns
import AsmLens.Proofs.Numeral.Grammar
import AsmLens.Proofs.Report.Blocks
import AsmLens.Proofs.Report.Libraries
import AsmLens.Proofs.Scope.Braces
import AsmLens.Proofs.Scope.Extents
import AsmLens.Proofs.Session.Closing
import AsmLens.Proofs.Settings.Overlay
import AsmLens.Proofs.Snapshot.Generations
import AsmLens.Proofs.Snapshot.Isolation
import AsmLens.Proofs.Source.Action
import AsmLens.Proofs.Source.Coverage
import AsmLens.Proofs.Symbol.Annotation
import AsmLens.Proofs.Symbol.Rendering
import AsmLens.Session.Settle
import AsmLens.Proofs.Catalogue.NameIndex
