import ItemLayout.Comment.Reindent
import ItemLayout.Frame.Basic
import ItemLayout.ItemList.Arrangement

/-!
# Writing the entries of a list

Entries are written one after another, with separators and comments and without brackets.
Continuation lines start at the indentation of the frame; where the first line starts is up to the
caller. A separator stands between the text of an entry and the comment after it, except that on one
line a block comment stands before the separator.
-/

namespace ItemLayout

structure ListForm where
  frame : Frame
  style : Style := {}
  arrangement : Arrangement := .horizontal
  separator : Text := [',']
  trailing : TrailingPolicy := .never
  endsWithBreak : Bool := true
  keepsBlankLines : Bool := false
  /-- Entries are import trees: in a mixed arrangement paths have lines of their own. -/
  nested : Bool := false

namespace ListForm

def mark (form : ListForm) : Text := form.separator.trimRight

def margin (form : ListForm) : Text := form.frame.indent.render form.style

def newLine (form : ListForm) : Text := form.frame.indent.newLine form.style

def trails (form : ListForm) (multiline : Bool) : Bool :=
  match form.trailing with
  | .always => true
  | .multilineOnly => multiline
  | .never => false

end ListForm

structure ListWriter where
  text : Text := []
  /-- The columns that are used on the current line of a mixed arrangement. -/
  lineWidth : Nat := 0
  previous : Option Entry := none
  /-- The width of the last entry counts a separator. -/
  trailing : Bool

namespace ListWriter

def start (form : ListForm) : ListWriter where
  trailing := form.trails (form.arrangement == .vertical)

def breaksBefore (form : ListForm) (writer : ListWriter) (entry : Entry) (width : Nat) : Bool :=
  (0 < writer.lineWidth && form.frame.width < writer.lineWidth + 1 + width) ||
    writer.previous.any (·.after.isSome) ||
    (form.nested && writer.previous.any fun previous => previous.text.isPath || entry.text.isPath)

def advance (form : ListForm) (entry : Entry) (separatorWidth : Nat) (writer : ListWriter) :
    ListWriter :=
  match form.arrangement with
  | .horizontal =>
      match writer.previous with
      | none => writer
      | some previous =>
          { writer with
            text := writer.text ++ if previous.closesLine then form.newLine else [' '] }
  | .vertical =>
      if writer.previous.isSome ∧ writer.text ≠ [] then
        { writer with text := writer.text ++ form.newLine }
      else writer
  | .mixed =>
      let width := entry.width + separatorWidth
      if writer.breaksBefore form entry width then
        { writer with
          text := writer.text ++ form.newLine
          lineWidth := width
          trailing := writer.trailing || form.endsWithBreak }
      else if 0 < writer.lineWidth then
        { writer with text := writer.text ++ [' '], lineWidth := writer.lineWidth + 1 + width }
      else { writer with lineWidth := width }

/-- Whether a comment, as written before an entry, leaves the entry on its line. -/
def keepsInline (form : ListForm) (entry : Entry) (separatorWidth : Nat) (comment : Text) : Bool :=
  !comment.isLineComment && !comment.contains '\n' &&
    (form.arrangement == .horizontal ||
      (entry.placement == .sameLine && entry.width + separatorWidth + 1 ≤ form.frame.width))

def putBefore (form : ListForm) (entry : Entry) (separatorWidth : Nat) (writer : ListWriter) :
    ListWriter :=
  match entry.before with
  | none | some [] => writer
  | some comment =>
      let written := Comment.reindent form.margin entry.beforeColumn comment
      if entry.text = [] then { writer with text := writer.text ++ written }
      else if keepsInline form entry separatorWidth written then
        { writer with text := writer.text ++ written ++ [' '] }
      else
        { writer with
          text := writer.text ++ written ++ form.newLine
          lineWidth :=
            if form.arrangement = .mixed then entry.text.length + separatorWidth
            else writer.lineWidth }

def ending (form : ListForm) (entry : Entry) (separated : Bool) : Text :=
  let mark := if separated then form.mark else []
  match entry.after with
  | none | some [] => mark
  | some comment =>
      if form.arrangement = .horizontal ∧ ¬ comment.isLineComment then
        ' ' :: Comment.reindent [] entry.afterColumn comment ++ mark
      else mark ++ ' ' :: Comment.reindent form.margin entry.afterColumn comment

def blankLine (form : ListForm) (entry : Entry) (last : Bool) : Text :=
  if form.keepsBlankLines ∧ ¬ last ∧ form.arrangement = .vertical ∧ entry.blankAfter then ['\n']
  else []

def put (form : ListForm) (last : Bool) (writer : ListWriter) (entry : Entry) : ListWriter :=
  let separatorWidth := if !last || writer.trailing then form.mark.length else 0
  let advanced := writer.advance form entry separatorWidth
  let separated :=
    if form.arrangement = .mixed ∧ last then
      form.trails (form.endsWithBreak || advanced.text.contains '\n')
    else !last || writer.trailing
  let prepared := advanced.putBefore form entry separatorWidth
  { prepared with
    text := prepared.text ++ entry.text ++ ending form entry separated ++
      blankLine form entry last
    previous := some entry }

def putAll (form : ListForm) (writer : ListWriter) : List Entry → ListWriter
  | [] => writer
  | entry :: rest => putAll form (writer.put form rest.isEmpty entry) rest

end ListWriter

def ListForm.write (form : ListForm) (entries : List Entry) : Text :=
  (ListWriter.putAll form (.start form) (entries.filter Entry.isSubstantial)).text

end ItemLayout
