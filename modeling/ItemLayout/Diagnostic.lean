import ItemLayout.Text.Span

namespace ItemLayout

/-- How bad something is. The labels are open; only one of them stands for an error. -/
structure Severity where
  label : String
  deriving DecidableEq, Repr

namespace Severity

def error : Severity := ⟨"error"⟩

def warning : Severity := ⟨"warning"⟩

end Severity

structure Notice where
  code : String
  message : String
  hint : Option String := none
  severity : Severity := .error
  category : Option String := none
  deriving DecidableEq, Repr

structure Diagnostic extends Notice where
  span : Span
  deriving DecidableEq, Repr

namespace Notice

def locate (notice : Notice) (span : Span) : Diagnostic := { notice with span }

def openComment : Notice where
  code := "LEXER_UNTERMINATED_BLOCK_COMMENT"
  message := "Unterminated block comment."
  hint := some "Close every `/*` with a matching `*/`; block comments nest."
  category := some "lexer"

def openString : Notice where
  code := "LEXER_UNTERMINATED_STRING"
  message := "Unterminated string literal."
  hint := some "Close the string with a double quote."
  category := some "lexer"

end Notice

def hasErrors (diagnostics : List Diagnostic) : Bool :=
  diagnostics.any (·.severity == .error)

end ItemLayout
