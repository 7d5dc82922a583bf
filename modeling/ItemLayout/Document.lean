import ItemLayout.Style.Basic
import ItemLayout.Token.Cursor

namespace ItemLayout

structure Document where
  source : Text
  style : Style := {}

inductive Breach where
  | outOfBounds (span : Span) (length : Nat)
  | notFound (needle : Text) (span : Span) (found : Text)
  | restrictedWithoutPath
  | rootlessGlobalPath
  deriving DecidableEq, Repr

def Breach.message : Breach → String
  | outOfBounds span length =>
      s!"{span.describe} is out of bounds for a source of length {length}"
  | notFound needle span found =>
      s!"Expected {needle.describe} in {span.describe}: {found.describe}"
  | restrictedWithoutPath => "Restricted visibility without a path"
  | rootlessGlobalPath => "Global path in pub(restricted) has no root segment"

namespace Document

def textAt (doc : Document) (span : Span) : Except Breach Text :=
  if span.stop ≤ doc.source.length then .ok (doc.source.slice span)
  else .error (.outOfBounds span doc.source.length)

/-- Whether a needle stands at a token of code and inside the span. An identifier has to be the
needle; from any other token the needle may reach further. -/
def standsAt (doc : Document) (span : Span) (needle : Text) (token : Token) : Bool :=
  if token.kind.isTrivia || token.kind == .string || token.kind == .character then false
  else if span.stop < token.span.start + needle.length then false
  else if token.kind = .identifier then doc.source.slice token.span == needle
  else needle.isPrefixOf (doc.source.drop token.span.start)

def find? (doc : Document) (span : Span) (needle : Text) : Option Nat :=
  ((tokensIn doc.source span).find? (doc.standsAt span needle)).map (·.span.start)

def find (doc : Document) (span : Span) (needle : Text) : Except Breach Nat :=
  match doc.find? span needle with
  | some offset => .ok offset
  | none => do
      let found ← doc.textAt span
      .error (.notFound needle span found)

end Document

end ItemLayout
