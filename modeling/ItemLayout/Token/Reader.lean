import ItemLayout.Token.Scan

/-!
# Reading in place

A reader holds the whole source and stops at a limit. Each access has a guard of its own: a look ahead
sees nothing from the limit on, a step is cut off there, and what is compared with the source itself
has to end before it.
-/

namespace ItemLayout

structure Reader where
  source : Text
  position : Nat
  limit : Nat
  limit_le : limit ≤ source.length

namespace Reader

/-- A window may reach beyond the source, the limit does not. -/
def ofWindow (source : Text) (window : Span) : Reader where
  source
  position := window.start
  limit := min window.stop source.length
  limit_le := Nat.min_le_right _ _

variable (r : Reader)

def atEnd : Bool := r.limit ≤ r.position

/-- The character some places ahead, or a null if the limit is nearer. -/
def peek (ahead : Nat) : Char :=
  if inside : r.position + ahead < r.limit then
    r.source.get ⟨r.position + ahead, Nat.lt_of_lt_of_le inside r.limit_le⟩
  else '\x00'

def advance (steps : Nat) : Reader := { r with position := min (r.position + steps) r.limit }

/-- The source goes on with a text, on whichever side of the limit that ends. -/
def startsWith (t : Text) : Bool := t.isPrefixOf (r.source.drop r.position)

theorem left_advance {r : Reader} {steps : Nat} (more : ¬ r.atEnd = true) (moves : 0 < steps) :
    (r.advance steps).limit - (r.advance steps).position < r.limit - r.position := by
  simp only [atEnd, decide_eq_true_eq] at more
  simp only [advance]
  omega

theorem lt_limit_of_peek {r : Reader} {ahead : Nat} {c : Char} (here : r.peek ahead = c)
    (seen : c ≠ '\x00') : r.position + ahead < r.limit := by
  unfold peek at here
  split at here
  · assumption
  · exact absurd here.symm seen

theorem more_of_peek {r : Reader} {c : Char} (here : r.peek 0 = c) (seen : c ≠ '\x00') :
    ¬ r.atEnd = true := by
  have := lt_limit_of_peek here seen
  simp only [atEnd, decide_eq_true_eq]
  omega

/-! ## Loops

Those that look for a closing say whether they have found it. -/

def passWhile (p : Char → Bool) (r : Reader) : Reader :=
  if r.atEnd then r else if p (r.peek 0) then passWhile p (r.advance 1) else r
termination_by r.limit - r.position
decreasing_by exact left_advance ‹_› Nat.one_pos

def passBlockComment (depth : Nat) (r : Reader) : Bool × Reader :=
  if r.atEnd then (false, r)
  else if r.peek 0 = '/' ∧ r.peek 1 = '*' then passBlockComment (depth + 1) (r.advance 2)
  else if r.peek 0 = '*' ∧ r.peek 1 = '/' then
    match depth with
    | 0 => (true, r.advance 2)
    | outer + 1 => passBlockComment outer (r.advance 2)
  else passBlockComment depth (r.advance 1)
termination_by r.limit - r.position
decreasing_by all_goals exact left_advance ‹_› (by decide)

/-- A backslash hides the character after it, if there is one in front of the limit. -/
def passString (r : Reader) : Bool × Reader :=
  if r.atEnd then (false, r)
  else if r.peek 0 = '"' then (true, r.advance 1)
  else if r.peek 0 = '\\' then
    passString (r.advance (if r.position + 1 < r.limit then 2 else 1))
  else passString (r.advance 1)
termination_by r.limit - r.position
decreasing_by
  · exact left_advance ‹_› (by split <;> decide)
  · exact left_advance ‹_› Nat.one_pos

def passRawString (closing : Text) (r : Reader) : Bool × Reader :=
  if r.atEnd then (false, r)
  else if r.startsWith closing && r.position + closing.length ≤ r.limit then
    (true, r.advance closing.length)
  else passRawString closing (r.advance 1)
termination_by r.limit - r.position
decreasing_by exact left_advance ‹_› Nat.one_pos

def passCharacter (r : Reader) : Reader :=
  if r.atEnd then r
  else if r.peek 0 = '\'' then r.advance 1
  else passCharacter (r.advance 1)
termination_by r.limit - r.position
decreasing_by exact left_advance ‹_› Nat.one_pos

def passNumber (r : Reader) : Reader :=
  if r.atEnd then r
  else if isWordPart (r.peek 0) then passNumber (r.advance 1)
  else if r.peek 0 = '.' ∧ isDigit (r.peek 1) then passNumber (r.advance 1)
  else r
termination_by r.limit - r.position
decreasing_by all_goals exact left_advance ‹_› Nat.one_pos

def passHashes (hashes : Nat) (r : Reader) : Nat × Reader :=
  if hash : r.peek 0 = '#' then passHashes (hashes + 1) (r.advance 1) else (hashes, r)
termination_by r.limit - r.position
decreasing_by exact left_advance (more_of_peek hash (by decide)) Nat.one_pos

def opensRawString (ahead : Nat) (r : Reader) : Bool :=
  if hash : r.peek ahead = '#' then opensRawString (ahead + 1) r else r.peek ahead = '"'
termination_by r.limit - (r.position + ahead)
decreasing_by
  have := lt_limit_of_peek hash (by decide)
  omega

/-! ## The token at the position -/

structure Reading where
  kind : TokenKind
  raw : Bool := false
  unterminated : Bool := false
  behind : Reader

def Reading.delimited (kind : TokenKind) (raw : Bool) (found : Bool × Reader) : Reading where
  kind
  raw
  unterminated := !found.1
  behind := found.2

def lineBreak : Reading where
  kind := .lineBreak
  behind := r.advance (if r.peek 0 = '\r' ∧ r.peek 1 = '\n' then 2 else 1)

def trivia? : Option Reading :=
  if isBreak (r.peek 0) then some r.lineBreak
  else if isSpacing (r.peek 0) then some { kind := .spacing, behind := r.passWhile isSpacing }
  else if r.peek 0 = '/' ∧ r.peek 1 = '/' then
    some { kind := .lineComment, behind := (r.advance 2).passWhile (!isBreak ·) }
  else if r.peek 0 = '/' ∧ r.peek 1 = '*' then
    some (.delimited .blockComment false ((r.advance 2).passBlockComment 0))
  else none

def string : Reading := .delimited .string false (r.advance 1).passString

def rawString : Reading :=
  let hashes := r.passHashes 0
  .delimited .string true
    ((hashes.2.advance 1).passRawString ('"' :: List.replicate hashes.1 '#'))

def quoted : Reading :=
  if r.peek 1 = '\\' then { kind := .character, behind := (r.advance 3).passCharacter }
  else if r.peek 2 = '\'' then { kind := .character, behind := r.advance 3 }
  else { kind := .lifetime, behind := (r.advance 1).passWhile isWordPart }

def literal? : Option Reading :=
  if r.peek 0 = '"' then some r.string
  else if r.peek 0 = '\'' then some r.quoted
  else if r.peek 0 = 'r' ∧ r.opensRawString 1 then some (r.advance 1).rawString
  else if r.peek 0 = 'b' ∧ r.peek 1 = '"' then some (r.advance 1).string
  else if r.peek 0 = 'b' ∧ r.peek 1 = 'r' ∧ r.opensRawString 2 then some (r.advance 2).rawString
  else none

def identifier (raw : Bool) : Reading where
  kind := .identifier
  raw
  behind := (r.advance 1).passWhile isWordPart

def word? : Option Reading :=
  if isDigit (r.peek 0) then some { kind := .number, behind := r.passNumber }
  else if r.peek 0 = 'r' ∧ r.peek 1 = '#' ∧ isWordStart (r.peek 2) then
    some ((r.advance 2).identifier true)
  else if isWordStart (r.peek 0) then some (r.identifier false)
  else none

def symbol : Reading where
  kind := if isPunctuation (r.peek 0) then .punctuation else .skipped
  behind := r.advance 1

def token : Reading := (r.trivia?.or (r.literal?.or r.word?)).getD r.symbol

end Reader

end ItemLayout
