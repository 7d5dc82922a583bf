import ItemLayout.Style.Override

namespace ItemLayout

namespace Directive

def marker : Text := ['r', 's', 'f', 'm', 't', '-']

def isNamePart (c : Char) : Bool := ('a' ≤ c && c ≤ 'z') || c == '_'

def after? (start t : Text) : Option Text :=
  if start.isPrefixOf t then some (t.drop start.length) else none

/-- The name and the value of a directive. A value has no blanks and is not empty. -/
def read? (line : Text) : Option (Text × Text) := do
  let comment ← after? ['/', '/'] line.trim
  let directive ← after? marker comment.trimLeft
  let name := directive.takeWhile isNamePart
  let assigned ← after? [':'] (Text.trimLeft (directive.drop name.length))
  let value := assigned.trimLeft
  if name ≠ [] ∧ value ≠ [] ∧ value.all (!isBlank ·) then some (name, value) else none

def collect : List Text → List (Text × Text)
  | [] => []
  | line :: rest =>
      if line.trim = [] then collect rest
      else if ['/', '/'].isPrefixOf line.trim then
        match read? line with
        | some directive => directive :: collect rest
        | none => collect rest
      else []

end Directive

def Overrides.ofDirectives (source : Text) : Overrides :=
  .ofList ((Directive.collect source.fileLines).map fun entry => (entry.1, .text entry.2))

def Style.withDirectives (style : Style) (source : Text) : Except Style.Fault Style :=
  style.override (.ofDirectives source)

end ItemLayout
