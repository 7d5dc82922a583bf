import ItemLayout.Character.Blank

/-!
# Texts

A text is a list of characters, so that every length, width, column and offset counts code points.
Lines of a text are what stands between its line feeds.
-/

namespace ItemLayout

abbrev Text := List Char

namespace Text

/-! ## Blanks at the ends -/

def trimLeft (t : Text) : Text := t.dropWhile isBlank

def trimRight (t : Text) : Text := (t.reverse.dropWhile isBlank).reverse

def trim (t : Text) : Text := trimRight (trimLeft t)

def leading (t : Text) : Nat := (t.takeWhile isBlank).length

/-! ## Lines -/

/-- What stands between the line feeds; one more line than there are line feeds. -/
def lines (t : Text) : List Text := t.splitOn '\n'

def joinLines (ls : List Text) : Text := ['\n'].intercalate ls

def firstLine (t : Text) : Text := t.takeWhile (· != '\n')

def lastLine (t : Text) : Text := (t.reverse.takeWhile (· != '\n')).reverse

/-- The lines of a file, which end at every kind of line boundary. A pair of carriage return and
line feed counts as two, which only adds an empty line. -/
def fileLines (t : Text) : List Text := t.splitOnP isLineBoundary

/-- The column of an offset on its line; past the end the last line is taken to go on. -/
def column (t : Text) (offset : Nat) : Nat :=
  (lastLine (t.take offset)).length + (offset - t.length)

def lastLineStart (t : Text) : Nat := t.length - (lastLine t).length

/-- The column of a signed offset. A negative one counts from the end to find its line, and its
column is its distance to the start of that line. -/
def signedColumn (t : Text) (offset : Int) : Int :=
  if 0 ≤ offset then t.column offset.toNat
  else offset - lastLineStart (t.take (t.length - offset.natAbs))

/-! ## Parts -/

/-- What follows position `i`, which counts from the end if it is negative. -/
def dropFrom (t : Text) (i : Int) : Text :=
  if 0 ≤ i then t.drop i.toNat else t.drop (t.length - i.natAbs)

def isLineComment (t : Text) : Bool := ['/', '/'].isPrefixOf (trimLeft t)

def isPath : Text → Bool
  | ':' :: ':' :: _ => true
  | _ :: rest => isPath rest
  | [] => false

def unifyBreaks : Text → Text
  | '\r' :: '\n' :: rest => '\n' :: unifyBreaks rest
  | '\r' :: rest => '\n' :: unifyBreaks rest
  | c :: rest => c :: unifyBreaks rest
  | [] => []

end Text

end ItemLayout
