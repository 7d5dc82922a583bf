import ItemLayout.Document

namespace ItemLayout

inductive Placement where
  | differentLine
  | sameLine
  deriving DecidableEq, Repr

instance : Labelled Placement where
  all := [.differentLine, .sameLine]
  label
    | .differentLine => "different_line".toList
    | .sameLine => "same_line".toList
  vocabulary := "ListItemCommentStyle"

structure Entry where
  text : Text
  before : Option Text := none
  placement : Placement := .sameLine
  after : Option Text := none
  span : Span := .nowhere
  blankAfter : Bool := false
  beforeColumn : Option Int := none
  afterColumn : Option Int := none
  deriving DecidableEq, Repr

namespace Entry

def ofText (text : Text) : Entry := { text }

/-- The comment at a span of the source, and the column at which the span starts. -/
def commentAt (doc : Document) : Option Span → Except Breach (Option Text × Option Int)
  | none => .ok (none, none)
  | some span => do
      let text ← doc.textAt span
      return (some text.trim, some (doc.source.column span.start))

def ofSource (doc : Document) (text : Text) (span : Span) (before after : Option Span)
    (placement : Placement) (blankAfter : Bool) : Except Breach Entry := do
  let (before, beforeColumn) ← commentAt doc before
  let (after, afterColumn) ← commentAt doc after
  return { text, before, placement, after, span, blankAfter, beforeColumn, afterColumn }

def comments (entry : Entry) : List Text := entry.before.toList ++ entry.after.toList

def isMultiline (entry : Entry) : Bool :=
  entry.text.contains '\n' || entry.comments.any (·.contains '\n')

def hasLineComment (entry : Entry) : Bool := entry.comments.any Text.isLineComment

def isSubstantial (entry : Entry) : Bool := entry.text != [] || entry.comments.any (· != [])

/-- Nothing more can be written on the line that the comment after the entry ends. -/
def closesLine (entry : Entry) : Bool := entry.after.any Text.isLineComment

def endsInLineComment (entry : Entry) : Bool :=
  match entry.after with
  | some comment => comment.isLineComment
  | none => entry.text == [] && entry.before.any Text.isLineComment

def commentWidth : Option Text → Nat
  | none => 0
  | some comment => if comment.trim = [] then 0 else comment.trim.length + 1

def width (entry : Entry) : Nat :=
  commentWidth entry.before + commentWidth entry.after + entry.text.length

end Entry

end ItemLayout
