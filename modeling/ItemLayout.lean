import ItemLayout.Frame.Signed
import ItemLayout.Header.Items
import ItemLayout.Import
import ItemLayout.Main
import ItemLayout.Style.Directive
import ItemLayout.Proofs.Token.Bounds
import ItemLayout.Proofs.Token.Pieces
import ItemLayout.Proofs.Token.Lossless
import ItemLayout.Proofs.Token.Joints
import ItemLayout.Proofs.Token.Comments
import ItemLayout.Proofs.Token.Cuts
import ItemLayout.Proofs.Comment.Reindent
import ItemLayout.Proofs.Comment.Gap
import ItemLayout.Proofs.Token.Windows
import ItemLayout.Proofs.Comment.Trivia
import ItemLayout.Proofs.Comment.Join
import ItemLayout.Proofs.Comment.Stable
import ItemLayout.Proofs.Token.Lookup
import ItemLayout.Proofs.Header.Assembly
import ItemLayout.Proofs.Header.Stable
import ItemLayout.Proofs.Header.Items
import ItemLayout.Proofs.Token.Weave
import ItemLayout.Proofs.ItemList.Write
import ItemLayout.Proofs.ItemList.Layout
import ItemLayout.Proofs.ItemList.Fill
import ItemLayout.Proofs.ItemList.Width
import ItemLayout.Proofs.Import.Items
import ItemLayout.Proofs.Checked.Breaches
import ItemLayout.Proofs.Token.Unclosed
import ItemLayout.Proofs.Token.Locality
import ItemLayout.Proofs.Token.Terminators
import ItemLayout.Proofs.ItemList.OneLine
import ItemLayout.Proofs.ItemList.Rows
import ItemLayout.Proofs.ItemList.Ink
import ItemLayout.Proofs.Header.ClosedForm
import ItemLayout.Proofs.Comment.Margin
import ItemLayout.Proofs.Header.Keyword
import ItemLayout.Proofs.ItemList.Trailing
import ItemLayout.Proofs.ItemList.LineComments
import ItemLayout.Proofs.ItemList.Substantial
import ItemLayout.Proofs.ItemList.LineEnds
import ItemLayout.Proofs.Import.Alignment
import ItemLayout.Proofs.ItemList.CleanLines
import ItemLayout.Proofs.ItemList.OwnLines
import ItemLayout.Proofs.ItemList.LastRow
import ItemLayout.Proofs.ItemList.Padding
import ItemLayout.Proofs.Token.Strings
import ItemLayout.Proofs.Token.LineBreaks
import ItemLayout.Proofs.Style.Override
import ItemLayout.Proofs.Text.Numeral
import ItemLayout.Proofs.Style.Directive
import ItemLayout.Proofs.Comment.Markers
import ItemLayout.Proofs.Token.Reader
