import ItemLayout.Text.Span

namespace ItemLayout

inductive TokenKind where
  | endOfText
  | spacing
  | lineBreak
  | lineComment
  | blockComment
  | identifier
  | string
  | character
  | number
  | lifetime
  | punctuation
  | skipped
  deriving DecidableEq, Repr

namespace TokenKind

def label : TokenKind → String
  | endOfText => "EOF"
  | spacing => "WHITESPACE"
  | lineBreak => "NEWLINE"
  | lineComment => "LINE_COMMENT"
  | blockComment => "BLOCK_COMMENT"
  | identifier => "IDENTIFIER"
  | string => "STRING"
  | character => "CHAR"
  | number => "NUMBER"
  | lifetime => "LIFETIME"
  | punctuation => "PUNCT"
  | skipped => "SKIPPED"

def code : TokenKind → Nat
  | endOfText => 1
  | spacing => 10
  | lineBreak => 11
  | lineComment => 12
  | blockComment => 13
  | identifier => 20
  | string => 21
  | character => 22
  | number => 23
  | lifetime => 24
  | punctuation => 30
  | skipped => 40

def isComment : TokenKind → Bool
  | lineComment | blockComment => true
  | _ => false

def isTrivia : TokenKind → Bool
  | spacing | lineBreak | lineComment | blockComment => true
  | _ => false

end TokenKind

structure Token where
  kind : TokenKind
  span : Span
  /-- A line break stands before the token, with only trivia between, or is the token. -/
  afterBreak : Bool := false
  /-- The window ends before the comment or string does. -/
  unterminated : Bool := false
  raw : Bool := false
  deriving DecidableEq, Repr

namespace Token

def flags (token : Token) : Nat :=
  token.afterBreak.toNat + 2 * token.unterminated.toNat + 4 * token.raw.toNat

/-- The text that a token covers; the token at the end covers none. -/
def text (source : Text) (token : Token) : Text :=
  if token.kind = .endOfText then [] else source.slice token.span

end Token

end ItemLayout
