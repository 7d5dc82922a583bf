import ItemLayout.Comment.Gap
import ItemLayout.Comment.Reindent
import ItemLayout.Frame.Basic

/-!
# Joining two texts across a gap

The comments of a gap are put back between the texts that stand on its two sides. Where the style
does not let comments stay inline, each gets lines of its own. Nothing is ever written on the line
of a line comment after it.
-/

namespace ItemLayout

def GapComment.render (style : Style) (indent : Indent) (comment : GapComment) : Text :=
  Comment.reindent (indent.render style) (some comment.column) comment.text

namespace Gap

def renderAfter (style : Style) (indent : Indent) (previous : GapComment) :
    List GapComment → Text
  | [] => []
  | comment :: rest =>
      let inline := style.inlineComments && !previous.isLine && !comment.afterBreak
      (if inline then [' '] else indent.newLine style) ++ comment.render style indent ++
        renderAfter style indent comment rest

def render (style : Style) (indent : Indent) (gap : Gap) : Text :=
  match gap.comments with
  | [] => []
  | comment :: rest => comment.render style indent ++ renderAfter style indent comment rest

def joinBare (style : Style) (frame : Frame) (extend : Bool) (before after : Text) : Text :=
  let space : Text := if before = [] ∨ after = [] ∨ before.lastLine.trim = [] then [] else [' ']
  let width := before.lastLine.length + after.firstLine.length + space.length
  if extend ∧ width ≤ frame.width then before ++ space ++ after
  else if before = [] then after
  else before ++ frame.indent.newLine style ++ after

def separatorBefore (style : Style) (frame : Frame) (before comments : Text) (first : GapComment) :
    Text :=
  if before = [] then []
  else if style.inlineComments ∧ ¬ first.afterBreak ∧
      before.lastLine.length + comments.firstLine.length + 1 ≤ frame.width then [' ']
  else frame.indent.newLine style

/-- What divides comments from the text after them, where `written` is all that stands before. -/
def separatorAfter (style : Style) (frame : Frame) (gap : Gap)
    (before comments written after : Text) (last : GapComment) : Text :=
  if after = [] then []
  else if last.isLine then frame.indent.newLine style
  else if style.inlineComments ∧ '\n' ∉ before ∧ '\n' ∉ after ∧ '\n' ∉ comments ∧
      ¬ gap.endsWithBreak ∧ written.lastLine.length + 1 + after.firstLine.length ≤ frame.width then
    [' ']
  else frame.indent.newLine style

def join (style : Style) (frame : Frame) (extend : Bool) (gap : Gap) (before after : Text) : Text :=
  match gap.comments with
  | [] => joinBare style frame extend before after
  | first :: rest =>
      let comments := gap.render style frame.indent
      let written := before ++ separatorBefore style frame before comments first ++ comments
      written ++ separatorAfter style frame gap before comments written after
        ((first :: rest).getLast (List.cons_ne_nil _ _)) ++ after

end Gap

def Document.join (doc : Document) (frame : Frame) (extend : Bool) (span : Span)
    (before after : Text) : Except Gap.Fault Text := do
  let gap ← Gap.read doc.source span
  return gap.join doc.style frame extend before after

end ItemLayout
