import ItemLayout.Header.Assembly

namespace ItemLayout

/-- The span of a keyword may cover comments around it. -/
structure TraitHeader where
  visibility : Visibility
  safety : Safety
  ident : Ident
  traitSpan : Span
  autoSpan : Option Span := none

structure FnHeader where
  visibility : Visibility
  safety : Safety
  ident : Ident
  fnSpan : Span
  constSpan : Option Span := none
  asyncSpan : Option Span := none

def TraitHeader.parts (doc : Document) (header : TraitHeader) :
    Except Breach (List HeaderPart) := do
  let visibility ← HeaderPart.ofVisibility doc header.visibility
  let auto ← HeaderPart.ofKeyword? doc "auto".toList header.autoSpan
  let trait ← HeaderPart.ofKeyword doc "trait".toList header.traitSpan
  let ident ← HeaderPart.ofIdent doc header.ident
  return visibility :: .ofSafety header.safety :: auto ++ [trait, ident]

def FnHeader.parts (doc : Document) (header : FnHeader) :
    Except Breach (List HeaderPart) := do
  let visibility ← HeaderPart.ofVisibility doc header.visibility
  let const ← HeaderPart.ofKeyword? doc "const".toList header.constSpan
  let async ← HeaderPart.ofKeyword? doc "async".toList header.asyncSpan
  let fn ← HeaderPart.ofKeyword doc "fn".toList header.fnSpan
  let ident ← HeaderPart.ofIdent doc header.ident
  return visibility :: const ++ async ++ [.ofSafety header.safety, fn, ident]

def Document.traitHeader (doc : Document) (frame : Frame) (header : TraitHeader) :
    Except Breach Text := do
  return doc.header frame (← header.parts doc)

def Document.fnHeader (doc : Document) (frame : Frame) (header : FnHeader) :
    Except Breach Text := do
  return doc.header frame (← header.parts doc)

end ItemLayout
