import ItemLayout.Text.Quoted
import ItemLayout.Text.Utf8
import ItemLayout.Token.Cursor

namespace ItemLayout.Listing

def index (n : Nat) : String :=
  let digits := Nat.toDigits 10 n
  String.ofList (List.replicate (3 - digits.length) '0' ++ digits)

def kindColumn (kind : TokenKind) : String :=
  kind.label ++ String.ofList (List.replicate (14 - kind.label.length) ' ')

def spanColumn (span : Span) : String := s!"range=({span.start}, {span.stop})"

def tokenLine (source : Text) (n : Nat) (token : Token) : String :=
  s!"{index n} {kindColumn token.kind} {spanColumn token.span} flags={token.flags} " ++
    s!"text={(token.text source).describe}\n"

def diagnosticLine (diagnostic : Diagnostic) : String :=
  s!"- {diagnostic.severity.label.toUpper} {diagnostic.code} {spanColumn diagnostic.span} " ++
    s!"message={diagnostic.message}\n"

structure Report where
  output : String
  hasErrors : Bool

def ofText (source : Text) : Report :=
  let (tokens, last) := (Cursor.ofSource source).run
  let tokenLines := tokens.mapIdx (tokenLine source)
  let diagnosticLines := last.diagnostics.map diagnosticLine
  { output := String.join tokenLines ++ "\nDiagnostics:\n" ++ String.join diagnosticLines
    hasErrors := ItemLayout.hasErrors last.diagnostics }

def ofFile (source : Text) : Report := ofText source.unifyBreaks

def ofBytes (bytes : List Nat) : Except Utf8.Fault Report := (Utf8.decode bytes).map ofFile

def Report.status (report : Report) : Nat := report.hasErrors.toNat

end ItemLayout.Listing
