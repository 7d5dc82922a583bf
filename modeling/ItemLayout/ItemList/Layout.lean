import ItemLayout.ItemList.Write

namespace ItemLayout

structure ListSettings where
  packing : Packing := .horizontalVertical
  indentStyle : IndentStyle := .block
  trailing : TrailingPolicy := .multilineOnly
  separator : Text := [',']

structure Brackets where
  opener : Text := []
  closer : Text := []

namespace ListSettings

/-- The trailing policy of a list that is not closed on a line of its own. -/
def trailingInline : TrailingPolicy → TrailingPolicy
  | .always => .always
  | .never | .multilineOnly => .never

def form (style : Style) (frame : Frame) (settings : ListSettings) (brackets : Brackets)
    (nested : Bool) (arrangement : Arrangement) : ListForm :=
  match settings.indentStyle with
  | .block =>
      let ownLines := arrangement != .horizontal
      { frame := ((frame.stepIn style.tabStep).widened style).shrunk 1
        style
        arrangement
        separator := settings.separator
        trailing := if ownLines then settings.trailing else trailingInline settings.trailing
        endsWithBreak := ownLines
        keepsBlankLines := true
        nested }
  | .visual =>
      { frame :=
          ((frame.shifted brackets.opener.length).shrunk
            (brackets.opener.length + brackets.closer.length)).aligned 0
        style
        arrangement
        separator := settings.separator
        trailing := trailingInline settings.trailing
        endsWithBreak := false
        keepsBlankLines := true
        nested }

end ListSettings

def Frame.inside (brackets : Brackets) (frame : Frame) : Nat :=
  frame.width - brackets.opener.length - brackets.closer.length

/-- A list in brackets, to be written where the frame's first line starts. It may be given how many
columns its entries have on one line. -/
def Document.layoutList (doc : Document) (frame : Frame) (settings : ListSettings)
    (brackets : Brackets) (nested : Bool) (lineWidth : Option Int) (entries : List Entry) : Text :=
  let lineWidth := lineWidth.getD (frame.inside brackets)
  let arrangement := Arrangement.choose settings.packing settings.separator lineWidth entries
  let form := settings.form doc.style frame brackets nested arrangement
  let body := form.write entries
  if body = [] then brackets.opener ++ brackets.closer
  else if settings.indentStyle = .block ∧
      ('\n' ∈ body ∨ lineWidth < body.length ∨ arrangement = .vertical) then
    brackets.opener ++ form.newLine ++ body ++ frame.indent.newLine doc.style ++ brackets.closer
  else if brackets.closer ≠ [] ∧ entries.getLast?.any Entry.endsInLineComment then
    brackets.opener ++ body ++ frame.indent.newLine doc.style ++ brackets.closer
  else brackets.opener ++ body ++ brackets.closer

end ItemLayout
