import ItemLayout.Text.Basic

namespace ItemLayout.Comment

def commonMargin (lines : List Text) : Nat :=
  ((lines.filter (· ≠ [])).map Text.leading).min?.getD 0

/-- A line with its margin up to `column` replaced; an empty line stays so. -/
def moveLine (margin : Text) (column : Int) (line : Text) : Text :=
  if line = [] then [] else margin ++ line.dropFrom (min line.leading column)

/-- A comment that stood at `column`, with continuation lines at `margin`. -/
def reindent (margin : Text) (column : Option Int) (comment : Text) : Text :=
  match comment.trim.lines with
  | [] => []
  | [line] => line
  | first :: others =>
      let continuation := others.map Text.trimRight
      let base := column.getD (commonMargin continuation)
      Text.joinLines (first.trimRight :: continuation.map (moveLine margin base))

end ItemLayout.Comment
