import ItemLayout.Document

namespace ItemLayout

structure Ident where
  name : Text
  span : Span := .nowhere
  deriving DecidableEq, Repr

/-- A path of names. The first segment of a global path is its root and is not written. -/
structure Path where
  segments : List Ident
  isGlobal : Bool := false
  span : Span := .nowhere
  deriving DecidableEq, Repr

namespace Path

def root : Text := "\x7b\x7broot\x7d\x7d".toList

def ofNames (names : List Text) (isGlobal : Bool) : Path where
  segments := (if isGlobal then [root] else []) ++ names |>.map ({ name := · })
  isGlobal

def joinNames (names : List Text) : Text := [':', ':'].intercalate names

end Path

inductive Reach where
  | exported
  | inherited
  | restricted
  deriving DecidableEq, Repr

instance : Labelled Reach where
  all := [.exported, .inherited, .restricted]
  label
    | .exported => "public".toList
    | .inherited => "inherited".toList
    | .restricted => "restricted".toList
  vocabulary := "VisibilityKind"

inductive Visibility where
  | exported (span : Span)
  | inherited (span : Span)
  | restricted (path : Option Path) (span : Span)
  deriving DecidableEq, Repr

namespace Visibility

def ofReach (span : Span) (path : Option Path) : Reach → Visibility
  | .exported => exported span
  | .inherited => inherited span
  | .restricted => restricted path span

def span : Visibility → Span
  | exported span | inherited span | restricted _ span => span

end Visibility

inductive Guarantee where
  | hazard
  | safe
  | unstated
  deriving DecidableEq, Repr

instance : Labelled Guarantee where
  all := [.hazard, .safe, .unstated]
  label
    | .hazard => "unsafe".toList
    | .safe => "safe".toList
    | .unstated => "default".toList
  vocabulary := "SafetyKind"

inductive Safety where
  | hazard (span : Span)
  | safe (span : Span)
  | unstated
  deriving DecidableEq, Repr

def Safety.ofGuarantee (span : Span) : Guarantee → Safety
  | .hazard => hazard span
  | .safe => safe span
  | .unstated => unstated

/-- The text of one part of a header and where it stands. An empty text is no part. -/
structure HeaderPart where
  text : Text
  span : Span
  deriving DecidableEq, Repr

def Document.identText (doc : Document) (ident : Ident) : Except Breach Text :=
  if ident.span.isEmpty then .ok ident.name else doc.textAt ident.span

def Path.written (path : Path) : Except Breach (List Ident) :=
  if path.isGlobal then
    match path.segments with
    | [] => .error .rootlessGlobalPath
    | _ :: rest => .ok rest
  else .ok path.segments

/-- The paths that need no `in`. -/
def Path.keywords : List Text := ["crate".toList, "self".toList, "super".toList]

def Document.restrictedText (doc : Document) (path : Option Path) : Except Breach Text :=
  match path with
  | none => .error .restrictedWithoutPath
  | some path => do
      let segments ← path.written
      let names ← segments.mapM doc.identText
      let joined := Path.joinNames names
      let link : Text := if joined ∈ Path.keywords then [] else "in ".toList
      return "pub(".toList ++ link ++ joined ++ [')']

namespace HeaderPart

def ofIdent (doc : Document) (ident : Ident) : Except Breach HeaderPart := do
  return ⟨← doc.identText ident, ident.span⟩

def ofVisibility (doc : Document) : Visibility → Except Breach HeaderPart
  | .exported span => .ok ⟨"pub".toList, span⟩
  | .inherited span => .ok ⟨[], span⟩
  | .restricted path span => do return ⟨← doc.restrictedText path, span⟩

def ofSafety : Safety → HeaderPart
  | .hazard span => ⟨"unsafe".toList, span⟩
  | .safe span => ⟨"safe".toList, span⟩
  | .unstated => ⟨[], .nowhere⟩

def ofKeyword (doc : Document) (keyword : Text) (span : Span) : Except Breach HeaderPart := do
  let offset ← doc.find span keyword
  return ⟨keyword, .ofLength offset keyword.length⟩

def ofKeyword? (doc : Document) (keyword : Text) : Option Span → Except Breach (List HeaderPart)
  | none => .ok []
  | some span => do return [← ofKeyword doc keyword span]

end HeaderPart

end ItemLayout
