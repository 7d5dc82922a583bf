import ItemLayout.Document

namespace ItemLayout

structure GapComment where
  text : Text
  span : Span
  isLine : Bool
  /-- A line break stands between it and the comment before it, or the start of the gap. -/
  afterBreak : Bool
  column : Nat
  deriving DecidableEq, Repr

structure Gap where
  comments : List GapComment
  /-- A line break stands after the last comment, or anywhere if there is none. -/
  endsWithBreak : Bool
  deriving DecidableEq, Repr

namespace Gap

def isEmpty (gap : Gap) : Bool := gap.comments.isEmpty

inductive Fault where
  | unterminated (span : Span)
  | unexpected (kind : TokenKind) (span : Span)
  deriving DecidableEq, Repr

def Fault.message : Fault → String
  | unterminated span => s!"Unterminated comment in {span.describe}"
  | unexpected kind span => s!"Unexpected {kind.label} token in {span.describe}"

def ofTokens (source : Text) (span : Span) (afterBreak : Bool) : List Token → Except Fault Gap
  | [] => .ok ⟨[], afterBreak⟩
  | token :: rest =>
      match token.kind with
      | .spacing => ofTokens source span afterBreak rest
      | .lineBreak => ofTokens source span true rest
      | .lineComment | .blockComment =>
          if token.unterminated then .error (.unterminated span)
          else do
            let gap ← ofTokens source span false rest
            let comment : GapComment :=
              { text := Text.trimRight (source.slice token.span)
                span := token.span
                isLine := token.kind == .lineComment
                afterBreak
                column := source.column token.span.start }
            return { gap with comments := comment :: gap.comments }
      | kind => .error (.unexpected kind span)

def read (source : Text) (span : Span) : Except Fault Gap :=
  ofTokens source span false (tokensIn source span)

end Gap

end ItemLayout
