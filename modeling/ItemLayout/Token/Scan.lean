import ItemLayout.Character.Letter
import ItemLayout.Character.Numeric
import ItemLayout.Token.Basic

namespace ItemLayout

/-! ## Classes of characters -/

def isBreak (c : Char) : Bool :=
  c == '\r' || c == '\n' || c == '\u0085' || c == '\u2028' || c == '\u2029'

def isSpacing (c : Char) : Bool :=
  c == ' ' || c == '\t' || c == '\x0b' || c == '\x0c' || c == '\u200e' || c == '\u200f'

/-- ASCII punctuation without the quotes and the underscore. -/
def isPunctuation (c : Char) : Bool :=
  let code := c.toNat
  code == 0x21 || (0x23 ≤ code && code ≤ 0x26) || (0x28 ≤ code && code ≤ 0x2F) ||
    (0x3A ≤ code && code ≤ 0x40) || (0x5B ≤ code && code ≤ 0x5E) || code == 0x60 ||
    (0x7B ≤ code && code ≤ 0x7E)

def isWordStart (c : Char) : Bool := isLetter c || c == '_'

def isWordPart (c : Char) : Bool := isLetter c || isNumeric c || c == '_'

/-! ## Where comments and literals end

Each function is given what follows the opening and returns how many characters there are up to
and with the closing, or nothing if there is no closing. -/

/-- `depth` counts the comments that are open around the innermost one. -/
def blockCommentLength (depth : Nat) : Text → Option Nat
  | '/' :: '*' :: rest => (blockCommentLength (depth + 1) rest).map (· + 2)
  | '*' :: '/' :: rest =>
      match depth with
      | 0 => some 2
      | outer + 1 => (blockCommentLength outer rest).map (· + 2)
  | _ :: rest => (blockCommentLength depth rest).map (· + 1)
  | [] => none

def stringLength : Text → Option Nat
  | '"' :: _ => some 1
  | '\\' :: _ :: rest => (stringLength rest).map (· + 2)
  | _ :: rest => (stringLength rest).map (· + 1)
  | [] => none

def rawStringLength (closing : Text) : Text → Option Nat
  | [] => none
  | c :: rest =>
      if closing.isPrefixOf (c :: rest) then some closing.length
      else (rawStringLength closing rest).map (· + 1)

/-- Up to and with the next single quote, or all of the text. -/
def characterLength : Text → Nat
  | [] => 0
  | c :: rest => if c == '\'' then 1 else characterLength rest + 1

def numberLength : Text → Nat
  | [] => 0
  | c :: rest =>
      if isWordPart c || (c == '.' && rest.head?.any isDigit) then numberLength rest + 1 else 0

def wordLength (t : Text) : Nat := (t.takeWhile isWordPart).length

/-! ## The token -/

structure Lexeme where
  kind : TokenKind
  length : Nat
  raw : Bool := false
  unterminated : Bool := false
  deriving DecidableEq, Repr

/-- A token whose opening has `opening` characters and whose closing is looked for in `body`. -/
def Lexeme.delimited (kind : TokenKind) (raw : Bool) (opening : Nat) (body : Text)
    (closed : Option Nat) : Lexeme :=
  match closed with
  | some n => { kind, length := opening + n, raw }
  | none => { kind, length := opening + body.length, raw, unterminated := true }

def trivia? : Text → Option Lexeme
  | '/' :: '/' :: rest =>
      some { kind := .lineComment, length := 2 + (rest.takeWhile (!isBreak ·)).length }
  | '/' :: '*' :: rest =>
      some (.delimited .blockComment false 2 rest (blockCommentLength 0 rest))
  | '\r' :: '\n' :: _ => some { kind := .lineBreak, length := 2 }
  | c :: rest =>
      if isBreak c then some { kind := .lineBreak, length := 1 }
      else if isSpacing c then
        some { kind := .spacing, length := 1 + (rest.takeWhile isSpacing).length }
      else none
  | [] => none

/-- A raw string whose letters are `letters` many and stand before `t`. -/
def rawString? (letters : Nat) (t : Text) : Option Lexeme :=
  let hashes := t.takeWhile (· == '#')
  match t.drop hashes.length with
  | '"' :: body =>
      some (.delimited .string true (letters + hashes.length + 1) body
        (rawStringLength ('"' :: hashes) body))
  | _ => none

/-- A single quote opens a character if one is escaped or a quote follows one; if not, it opens a
lifetime. A character that is not closed takes all of the text and is not marked. -/
def quoted : Text → Lexeme
  | ['\\'] => { kind := .character, length := 2 }
  | '\\' :: _ :: rest => { kind := .character, length := 3 + characterLength rest }
  | _ :: '\'' :: _ => { kind := .character, length := 3 }
  | rest => { kind := .lifetime, length := 1 + wordLength rest }

def literal? : Text → Option Lexeme
  | '"' :: rest => some (.delimited .string false 1 rest (stringLength rest))
  | '\'' :: rest => some (quoted rest)
  | 'r' :: rest => rawString? 1 rest
  | 'b' :: '"' :: rest => some (.delimited .string false 2 rest (stringLength rest))
  | 'b' :: 'r' :: rest => rawString? 2 rest
  | _ => none

def rawIdentifier? : Text → Option Lexeme
  | 'r' :: '#' :: c :: rest =>
      if isWordStart c then some { kind := .identifier, length := 3 + wordLength rest, raw := true }
      else none
  | _ => none

def word? : Text → Option Lexeme
  | [] => none
  | c :: rest =>
      if isDigit c then some { kind := .number, length := 1 + numberLength rest }
      else (rawIdentifier? (c :: rest)).or
        (if isWordStart c then some { kind := .identifier, length := 1 + wordLength rest }
          else none)

def symbol : Text → Lexeme
  | c :: _ => { kind := if isPunctuation c then .punctuation else .skipped, length := 1 }
  | [] => { kind := .skipped, length := 1 }

def scan (t : Text) : Lexeme :=
  ((trivia? t).or ((literal? t).or (word? t))).getD (symbol t)

/-! ## A token is never empty -/

theorem Lexeme.delimited_length_pos (kind : TokenKind) (raw : Bool) {opening : Nat} (body : Text)
    (closed : Option Nat) (pos : 0 < opening) :
    0 < (Lexeme.delimited kind raw opening body closed).length := by
  cases closed <;> exact Nat.add_pos_left pos _

theorem trivia?_length_pos {t : Text} {lexeme : Lexeme} (found : trivia? t = some lexeme) :
    0 < lexeme.length := by
  unfold trivia? at found
  split at found
  · cases found
    exact Nat.add_pos_left Nat.two_pos _
  · cases found
    exact Lexeme.delimited_length_pos _ _ _ _ Nat.two_pos
  · cases found
    exact Nat.two_pos
  · split at found
    · cases found
      exact Nat.one_pos
    · split at found
      · cases found
        exact Nat.add_pos_left Nat.one_pos _
      · cases found
  · cases found

theorem rawString?_length_pos {letters : Nat} {t : Text} {lexeme : Lexeme}
    (found : rawString? letters t = some lexeme) : 0 < lexeme.length := by
  unfold rawString? at found
  simp only at found
  split at found
  · cases found
    exact Lexeme.delimited_length_pos _ _ _ _ (Nat.succ_pos _)
  · cases found

theorem quoted_length_pos (t : Text) : 0 < (quoted t).length := by
  unfold quoted
  split
  · exact Nat.two_pos
  · exact Nat.add_pos_left (Nat.succ_pos 2) _
  · exact Nat.succ_pos 2
  · exact Nat.add_pos_left Nat.one_pos _

theorem literal?_length_pos {t : Text} {lexeme : Lexeme} (found : literal? t = some lexeme) :
    0 < lexeme.length := by
  unfold literal? at found
  split at found
  · cases found
    exact Lexeme.delimited_length_pos _ _ _ _ Nat.one_pos
  · cases found
    exact quoted_length_pos _
  · exact rawString?_length_pos found
  · cases found
    exact Lexeme.delimited_length_pos _ _ _ _ Nat.two_pos
  · exact rawString?_length_pos found
  · cases found

theorem rawIdentifier?_length_pos {t : Text} {lexeme : Lexeme}
    (found : rawIdentifier? t = some lexeme) : 0 < lexeme.length := by
  unfold rawIdentifier? at found
  split at found
  · split at found
    · cases found
      exact Nat.add_pos_left (Nat.succ_pos 2) _
    · cases found
  · cases found

theorem word?_length_pos {t : Text} {lexeme : Lexeme} (found : word? t = some lexeme) :
    0 < lexeme.length := by
  unfold word? at found
  split at found
  · cases found
  · split at found
    · cases found
      exact Nat.add_pos_left Nat.one_pos _
    · rw [Option.or_eq_some_iff] at found
      rcases found with found | ⟨-, found⟩
      · exact rawIdentifier?_length_pos found
      · split at found
        · cases found
          exact Nat.add_pos_left Nat.one_pos _
        · cases found

theorem symbol_length_pos (t : Text) : 0 < (symbol t).length := by
  cases t <;> exact Nat.one_pos

theorem scan_length_pos (t : Text) : 0 < (scan t).length := by
  unfold scan
  cases found : (trivia? t).or ((literal? t).or (word? t)) with
  | none => exact symbol_length_pos t
  | some lexeme =>
    simp only [Option.or_eq_some_iff] at found
    rcases found with found | ⟨-, found | ⟨-, found⟩⟩
    · exact trivia?_length_pos found
    · exact literal?_length_pos found
    · exact word?_length_pos found

end ItemLayout
