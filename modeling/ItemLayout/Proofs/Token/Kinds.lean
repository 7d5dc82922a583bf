import ItemLayout.Token.Scan

namespace ItemLayout

@[simp] theorem Lexeme.delimited_kind (kind : TokenKind) (raw : Bool) (opening : Nat) (body : Text)
    (closed : Option Nat) : (Lexeme.delimited kind raw opening body closed).kind = kind := by
  cases closed <;> rfl

theorem trivia?_cons {c : Char} (t : Text) (slash : c ≠ '/') :
    trivia? (c :: t) =
      if isBreak c then
        some { kind := .lineBreak, length := if c = '\r' ∧ t.head? = some '\n' then 2 else 1 }
      else if isSpacing c then
        some { kind := .spacing, length := 1 + (t.takeWhile isSpacing).length }
      else none := by
  unfold trivia?
  split
  · simp_all
  · simp_all
  · simp_all [isBreak]
  · rename_i pair split
    obtain ⟨rfl, rfl⟩ := List.cons.inj split
    have single : ¬(c = '\r' ∧ t.head? = some '\n') := by
      rintro ⟨rfl, head⟩
      obtain ⟨rest, rfl⟩ := List.head?_eq_some_iff.mp head
      exact pair rest rfl rfl
    rw [if_neg single]
  · simp_all

theorem trivia?_cases {t : Text} {lexeme : Lexeme} (found : trivia? t = some lexeme) :
    (∃ rest, t = '/' :: '/' :: rest ∧
      lexeme = { kind := .lineComment, length := 2 + (rest.takeWhile (!isBreak ·)).length }) ∨
    (∃ rest, t = '/' :: '*' :: rest ∧
      lexeme = .delimited .blockComment false 2 rest (blockCommentLength 0 rest)) ∨
    (∃ c rest, t = c :: rest ∧ isBreak c = true ∧
      lexeme =
        { kind := .lineBreak, length := if c = '\r' ∧ rest.head? = some '\n' then 2 else 1 }) ∨
    (∃ c rest, t = c :: rest ∧ isSpacing c = true ∧
      lexeme = { kind := .spacing, length := 1 + (rest.takeWhile isSpacing).length }) := by
  cases t with
  | nil => cases found
  | cons c rest =>
      by_cases slash : c = '/'
      · subst slash
        match rest with
        | [] => simp [trivia?, isBreak, isSpacing] at found
        | d :: rest =>
            by_cases line : d = '/'
            · subst line
              exact .inl ⟨rest, rfl, (Option.some.inj found).symm⟩
            · by_cases block : d = '*'
              · subst block
                exact .inr (.inl ⟨rest, rfl, (Option.some.inj found).symm⟩)
              · simp [trivia?, isBreak, isSpacing, line, block] at found
      · rw [trivia?_cons rest slash] at found
        split at found
        · exact .inr (.inr (.inl ⟨c, rest, rfl, ‹_›, (Option.some.inj found).symm⟩))
        · split at found
          · exact .inr (.inr (.inr ⟨c, rest, rfl, ‹_›, (Option.some.inj found).symm⟩))
          · cases found

theorem trivia?_kind {t : Text} {lexeme : Lexeme} (found : trivia? t = some lexeme) :
    lexeme.kind.isTrivia = true := by
  rcases trivia?_cases found with ⟨_, -, rfl⟩ | ⟨_, -, rfl⟩ | ⟨_, _, -, -, rfl⟩ | ⟨_, _, -, -, rfl⟩
  · rfl
  · rw [Lexeme.delimited_kind]
    rfl
  · rfl
  · rfl

theorem rawString?_kind {letters : Nat} {t : Text} {lexeme : Lexeme}
    (found : rawString? letters t = some lexeme) : lexeme.kind = .string := by
  unfold rawString? at found
  simp only at found
  split at found
  · cases found
    simp
  · cases found

theorem quoted_kind (t : Text) : (quoted t).kind = .character ∨ (quoted t).kind = .lifetime := by
  unfold quoted
  split <;> simp

theorem literal?_kind {t : Text} {lexeme : Lexeme} (found : literal? t = some lexeme) :
    lexeme.kind = .string ∨ lexeme.kind = .character ∨ lexeme.kind = .lifetime := by
  unfold literal? at found
  split at found
  · cases found
    simp
  · cases found
    exact .inr (quoted_kind _)
  · exact .inl (rawString?_kind found)
  · cases found
    simp
  · exact .inl (rawString?_kind found)
  · cases found

theorem rawIdentifier?_kind {t : Text} {lexeme : Lexeme}
    (found : rawIdentifier? t = some lexeme) : lexeme.kind = .identifier := by
  unfold rawIdentifier? at found
  split at found
  · split at found
    · cases found
      rfl
    · cases found
  · cases found

theorem word?_kind {t : Text} {lexeme : Lexeme} (found : word? t = some lexeme) :
    lexeme.kind = .number ∨ lexeme.kind = .identifier := by
  unfold word? at found
  split at found
  · cases found
  · split at found
    · cases found
      simp
    · rw [Option.or_eq_some_iff] at found
      rcases found with found | ⟨-, found⟩
      · exact .inr (rawIdentifier?_kind found)
      · split at found
        · cases found
          simp
        · cases found

theorem symbol_kind (t : Text) : (symbol t).kind = .punctuation ∨ (symbol t).kind = .skipped := by
  cases t with
  | nil => simp [symbol]
  | cons c rest => by_cases punctuation : isPunctuation c <;> simp [symbol, punctuation]

theorem scan_cases (t : Text) :
    trivia? t = some (scan t) ∨
      (trivia? t = none ∧ literal? t = some (scan t)) ∨
      (trivia? t = none ∧ literal? t = none ∧ word? t = some (scan t)) ∨
      (trivia? t = none ∧ literal? t = none ∧ word? t = none ∧ scan t = symbol t) := by
  unfold scan
  cases trivia? t with
  | some lexeme => simp
  | none =>
      cases literal? t with
      | some lexeme => simp
      | none => cases word? t <;> simp

theorem scan_eq_of_trivia? {t : Text} {lexeme : Lexeme} (found : trivia? t = some lexeme) :
    scan t = lexeme := by
  simp [scan, found]

theorem trivia?_of_kind {t : Text} (trivial : (scan t).kind.isTrivia = true) :
    trivia? t = some (scan t) := by
  rcases scan_cases t with found | ⟨-, found⟩ | ⟨-, -, found⟩ | ⟨-, -, -, found⟩
  · exact found
  · rcases literal?_kind found with kind | kind | kind <;> simp [kind, TokenKind.isTrivia] at trivial
  · rcases word?_kind found with kind | kind <;> simp [kind, TokenKind.isTrivia] at trivial
  · rw [found] at trivial
    rcases symbol_kind t with kind | kind <;> simp [kind, TokenKind.isTrivia] at trivial

theorem scan_kind_ne_endOfText (t : Text) : (scan t).kind ≠ .endOfText := by
  rcases scan_cases t with found | ⟨-, found⟩ | ⟨-, -, found⟩ | ⟨-, -, -, found⟩
  · intro kind
    have trivial := trivia?_kind found
    simp [kind, TokenKind.isTrivia] at trivial
  · rcases literal?_kind found with kind | kind | kind <;> simp [kind]
  · rcases word?_kind found with kind | kind <;> simp [kind]
  · rw [found]
    rcases symbol_kind t with kind | kind <;> simp [kind]

/-! ## The shapes of comments -/

theorem scan_comment_cases {t : Text} (comment : (scan t).kind.isComment = true) :
    (∃ rest, t = '/' :: '/' :: rest) ∨ (∃ rest, t = '/' :: '*' :: rest) := by
  have found : trivia? t = some (scan t) := by
    apply trivia?_of_kind
    cases kind : (scan t).kind <;> simp [kind, TokenKind.isComment] at comment <;> rfl
  rcases trivia?_cases found with
    ⟨rest, rfl, -⟩ | ⟨rest, rfl, -⟩ | ⟨_, _, -, -, lexeme⟩ | ⟨_, _, -, -, lexeme⟩
  · exact .inl ⟨rest, rfl⟩
  · exact .inr ⟨rest, rfl⟩
  · simp [lexeme, TokenKind.isComment] at comment
  · simp [lexeme, TokenKind.isComment] at comment

theorem scan_lineComment (rest : Text) :
    scan ('/' :: '/' :: rest) =
      { kind := .lineComment, length := 2 + (rest.takeWhile (!isBreak ·)).length } :=
  scan_eq_of_trivia? rfl

theorem scan_blockComment (rest : Text) :
    scan ('/' :: '*' :: rest) =
      .delimited .blockComment false 2 rest (blockCommentLength 0 rest) :=
  scan_eq_of_trivia? rfl

end ItemLayout
