import FieldShadow.Interface
import FieldShadow.Proofs.HiddenField.Frames
import FieldShadow.Proofs.HiddenField.Exemption
import FieldShadow.Proofs.HiddenField.Shadowing
import FieldShadow.Proofs.SyntaxTree.Schema
import FieldShadow.Proofs.Grammar.Conformance
import FieldShadow.Proofs.HiddenField.Enclosure
import FieldShadow.Proofs.HiddenField.OwnFields
import FieldShadow.Proofs.Grammar.Core
import FieldShadow.Proofs.Grammar.Reading
import FieldShadow.Proofs.Grammar.Reading.Expression
import FieldShadow.Proofs.Grammar.Reading.Member
import FieldShadow.Proofs.Grammar.Reading.Statement
import FieldShadow.Proofs.Grammar.View
import FieldShadow.Proofs.Grammar.Forms
import FieldShadow.Proofs.Grammar.Completeness
import FieldShadow.Proofs.Grammar.Skipping
import FieldShadow.Proofs.Token.Comment
import FieldShadow.Proofs.Concatenation
import FieldShadow.Proofs.Grammar.TokenOrder
import FieldShadow.Proofs.SyntaxTree.Drawn
import FieldShadow.Proofs.SyntaxTree.SourceOrder
import FieldShadow.Proofs.SyntaxTree.Placement
import FieldShadow.Proofs.HiddenField.Order
import FieldShadow.Proofs.HiddenField.Reuse
import FieldShadow.Proofs.HiddenField.Balance
import FieldShadow.Proofs.Scope.Arena
import FieldShadow.Proofs.Diagnostic.Report
import FieldShadow.Proofs.Relayout
import FieldShadow.Proofs.SyntaxTree.ReadBack
import FieldShadow.Proofs.Token.Place
import FieldShadow.Proofs.Text.Line
import FieldShadow.Proofs.Text.Piece
import FieldShadow.Proofs.Text.Zero
import FieldShadow.Proofs.Config.Value
import FieldShadow.Proofs.Config.LastLine
import FieldShadow.Proofs.Wording
import FieldShadow.Proofs.Interface
import FieldShadow.Proofs.Config.Writing
import FieldShadow.Proofs.Grammar.Calls
import FieldShadow.Proofs.Diagnostic.Limit
import FieldShadow.Proofs.HiddenField.AnyOrder
import FieldShadow.Proofs.Token.Progress
import FieldShadow.Proofs.HiddenField.Relaxation
import FieldShadow.Proofs.Grammar.Stateful
import FieldShadow.Proofs.Grammar.Attempt
import FieldShadow.Proofs.Rule.Registry
import FieldShadow.Proofs.SyntaxTree.Visits
import FieldShadow.Proofs.Token.Respelling
import FieldShadow.Proofs.Grammar.Ending
import FieldShadow.Proofs.Grammar.Builder
import FieldShadow.Proofs.Grammar.Builder.Heading
import FieldShadow.Proofs.Grammar.Builder.Body
import FieldShadow.Proofs.Grammar.Builder.Unit
