import ItemLayout.Comment.Join
import ItemLayout.Header.Part

namespace ItemLayout

/-- Where comments between two parts are looked for. Parts without a place, and parts that are not
in order, have an empty gap. -/
def HeaderPart.gap (previous part : HeaderPart) : Span :=
  if previous.span.isEmpty || part.span.isEmpty || previous.span.relation part.span != .lt then
    .emptyAt part.span.start
  else previous.span.gapTo part.span

namespace Document

def headerJoin (doc : Document) (frame : Frame) (written : Text) (previous part : HeaderPart) :
    Text :=
  match doc.join frame true (previous.gap part) written part.text with
  | .ok text => text
  | .error _ => written ++ ' ' :: part.text

def headerFrom (doc : Document) (frame : Frame) (written : Text) (previous : HeaderPart) :
    List HeaderPart → Text
  | [] => written
  | part :: rest => headerFrom doc frame (doc.headerJoin frame written previous part) part rest

def header (doc : Document) (frame : Frame) (parts : List HeaderPart) : Text :=
  match parts.filter (·.text ≠ []) with
  | [] => []
  | part :: rest => headerFrom doc frame.unlimited part.text part rest

end Document

end ItemLayout
