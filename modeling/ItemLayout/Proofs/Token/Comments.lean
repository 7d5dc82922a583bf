import ItemLayout.Proofs.Token.Joints

namespace ItemLayout

/-! ## Where a block comment ends -/

def MarkerAt (c : Char) (t : Text) : Prop :=
  (c = '/' ∧ t.head? = some '*') ∨ (c = '*' ∧ t.head? = some '/')

theorem not_markerAt {c : Char} {t : Text} (opens : ∀ rest, c = '/' → t = '*' :: rest → False)
    (closes : ∀ rest, c = '*' → t = '/' :: rest → False) : ¬MarkerAt c t := by
  rintro (⟨slash, head⟩ | ⟨star, head⟩)
  · obtain ⟨rest, more⟩ := List.head?_eq_some_iff.mp head
    exact opens rest slash more
  · obtain ⟨rest, more⟩ := List.head?_eq_some_iff.mp head
    exact closes rest star more

theorem MarkerAt.of_head? {c : Char} {t u : Text} (marker : MarkerAt c t)
    (same : ∀ d, isBlank d = false → t.head? = some d → u.head? = some d) : MarkerAt c u := by
  rcases marker with ⟨slash, head⟩ | ⟨star, head⟩
  · exact .inl ⟨slash, same '*' (by decide) head⟩
  · exact .inr ⟨star, same '/' (by decide) head⟩

theorem blockCommentLength_other {c : Char} {t : Text} (depth : Nat) (plain : ¬MarkerAt c t) :
    blockCommentLength depth (c :: t) = (blockCommentLength depth t).map (· + 1) := by
  apply blockCommentLength.eq_4
  · rintro rest rfl rfl
    exact plain (.inl ⟨rfl, rfl⟩)
  · rintro rest rfl rfl
    exact plain (.inr ⟨rfl, rfl⟩)

theorem blockCommentLength_append {depth : Nat} {t : Text} {n : Nat} (r : Text)
    (closed : blockCommentLength depth t = some n) :
    blockCommentLength depth (t ++ r) = some n := by
  fun_induction blockCommentLength depth t generalizing n with
  | case1 depth rest ih =>
      obtain ⟨m, inner, rfl⟩ := Option.map_eq_some_iff.mp closed
      simp [blockCommentLength, ih inner]
  | case2 rest => simpa [blockCommentLength] using closed
  | case3 rest outer ih =>
      obtain ⟨m, inner, rfl⟩ := Option.map_eq_some_iff.mp closed
      simp [blockCommentLength, ih inner]
  | case4 depth c rest opens closes ih =>
      obtain ⟨m, inner, rfl⟩ := Option.map_eq_some_iff.mp closed
      cases rest with
      | nil => simp [blockCommentLength] at inner
      | cons d rest =>
          have plain : ¬MarkerAt c (d :: rest ++ r) := not_markerAt (t := d :: rest) opens closes
          rw [List.cons_append, blockCommentLength_other depth plain, ih inner]
          rfl
  | case5 => cases closed

theorem blockCommentLength_take {depth : Nat} {t : Text} {n : Nat}
    (closed : blockCommentLength depth t = some n) :
    blockCommentLength depth (t.take n) = some n := by
  fun_induction blockCommentLength depth t generalizing n with
  | case1 depth rest ih =>
      obtain ⟨m, inner, rfl⟩ := Option.map_eq_some_iff.mp closed
      simp [blockCommentLength, ih inner]
  | case2 rest =>
      cases closed
      simp [blockCommentLength]
  | case3 rest outer ih =>
      obtain ⟨m, inner, rfl⟩ := Option.map_eq_some_iff.mp closed
      simp [blockCommentLength, ih inner]
  | case4 depth c rest opens closes ih =>
      obtain ⟨m, inner, rfl⟩ := Option.map_eq_some_iff.mp closed
      have plain : ¬MarkerAt c (rest.take m) := by
        intro marker
        refine not_markerAt opens closes (marker.of_head? fun d _ head => ?_)
        rw [List.head?_take] at head
        split at head
        · cases head
        · exact head
      rw [List.take_succ_cons, blockCommentLength_other depth plain, ih inner]
      rfl
  | case5 => cases closed

theorem eq_append_of_blockCommentLength {depth : Nat} {t : Text}
    (closed : blockCommentLength depth t = some t.length) : ∃ body, t = body ++ ['*', '/'] := by
  fun_induction blockCommentLength depth t with
  | case1 depth rest ih =>
      obtain ⟨m, inner, length⟩ := Option.map_eq_some_iff.mp closed
      obtain rfl : m = rest.length := by simpa using length
      obtain ⟨body, rfl⟩ := ih inner
      exact ⟨'/' :: '*' :: body, rfl⟩
  | case2 rest =>
      obtain rfl : rest = [] := by simpa using closed
      exact ⟨[], rfl⟩
  | case3 rest outer ih =>
      obtain ⟨m, inner, length⟩ := Option.map_eq_some_iff.mp closed
      obtain rfl : m = rest.length := by simpa using length
      obtain ⟨body, rfl⟩ := ih inner
      exact ⟨'*' :: '/' :: body, rfl⟩
  | case4 depth c rest opens closes ih =>
      obtain ⟨m, inner, length⟩ := Option.map_eq_some_iff.mp closed
      obtain rfl : m = rest.length := by simpa using length
      obtain ⟨body, rfl⟩ := ih inner
      exact ⟨c :: body, rfl⟩
  | case5 => cases closed

/-! ## One closed comment -/

/-- A text that is one comment of a kind and does not leave it open. -/
inductive ClosedComment : TokenKind → Text → Prop
  | line {body : Text} (inside : ∀ c ∈ body, isBreak c = false) :
      ClosedComment .lineComment ('/' :: '/' :: body)
  | block {body : Text} (closed : blockCommentLength 0 body = some body.length) :
      ClosedComment .blockComment ('/' :: '*' :: body)

theorem ClosedComment.atComment {kind : TokenKind} {t : Text} (comment : ClosedComment kind t)
    (r : Text) : AtComment (t ++ r) := by
  intro c head
  have first : (t ++ r).head? = some '/' := by
    cases comment <;> rfl
  rw [first] at head
  exact (Option.some.inj head).symm

theorem ClosedComment.kind_isComment {kind : TokenKind} {t : Text}
    (comment : ClosedComment kind t) : kind.isComment = true := by
  cases comment <;> rfl

theorem pieces_of_scan {t r : Text} {lexeme : Lexeme} (more : t ≠ []) (first : scan (t ++ r) = lexeme)
    (length : lexeme.length = t.length) :
    pieces (t ++ r) =
      { kind := lexeme.kind, text := t, raw := lexeme.raw, unterminated := lexeme.unterminated } ::
        pieces r := by
  have longer : t ++ r ≠ [] := by simp [more]
  rw [pieces_of_ne_nil longer, Piece.front, first, length, List.take_left, List.drop_left]

theorem pieces_comment {kind : TokenKind} {t r : Text} (comment : ClosedComment kind t)
    (ends : kind = .lineComment → AtBreak r) :
    pieces (t ++ r) = { kind, text := t } :: pieces r := by
  cases comment with
  | @line body inside =>
      have all : (body ++ r).takeWhile (!isBreak ·) = body := by
        rw [List.takeWhile_append_of_pos fun c mem => by simp [inside c mem]]
        cases r with
        | nil => simp
        | cons d r => simp [ends rfl d rfl]
      have first : scan ('/' :: '/' :: body ++ r) =
          { kind := .lineComment, length := 2 + body.length } := by
        rw [List.cons_append, List.cons_append, scan_lineComment, all]
      refine pieces_of_scan (List.cons_ne_nil _ _) first ?_
      simp only [List.length_cons]
      omega
  | @block body closed =>
      have first : scan ('/' :: '*' :: body ++ r) =
          { kind := .blockComment, length := 2 + body.length } := by
        rw [List.cons_append, List.cons_append, scan_blockComment,
          blockCommentLength_append r closed]
        rfl
      refine pieces_of_scan (List.cons_ne_nil _ _) first ?_
      simp only [List.length_cons]
      omega

theorem closedComment_front {t : Text} (comment : (scan t).kind.isComment = true)
    (closed : (scan t).unterminated = false) :
    ClosedComment (Piece.front t).kind (Piece.front t).text := by
  rcases scan_comment_cases comment with ⟨rest, rfl⟩ | ⟨rest, rfl⟩
  · have inside : ∀ c ∈ rest.takeWhile (!isBreak ·), isBreak c = false := by
      intro c mem
      simpa using List.all_eq_true.mp List.all_takeWhile c mem
    rw [Piece.front, scan_lineComment, Nat.add_comm, List.take_succ_cons, List.take_succ_cons,
      (List.prefix_iff_eq_take.mp (List.takeWhile_prefix _)).symm]
    exact .line inside
  · rw [scan_blockComment] at closed
    cases found : blockCommentLength 0 rest with
    | none => simp [found, Lexeme.delimited] at closed
    | some n =>
        have length : (rest.take n).length = n :=
          List.length_take_of_le (blockCommentLength_le found)
        rw [Piece.front, scan_blockComment, found]
        simp only [Lexeme.delimited, Nat.add_comm 2 n, List.take_succ_cons]
        refine .block ?_
        rw [blockCommentLength_take found, length]

theorem closedComment_of_mem_pieces {t : Text} {piece : Piece} (mem : piece ∈ pieces t)
    (comment : piece.kind.isComment = true) (closed : piece.unterminated = false) :
    ClosedComment piece.kind piece.text := by
  induction t using pieces_induction with
  | nil => simp at mem
  | cut t more ih =>
      rw [pieces_of_ne_nil more] at mem
      rcases List.mem_cons.mp mem with rfl | mem
      · exact closedComment_front comment closed
      · exact ih mem

/-! ## No comment in plain code -/

theorem word?_unterminated {t : Text} {lexeme : Lexeme} (found : word? t = some lexeme) :
    lexeme.unterminated = false := by
  unfold word? rawIdentifier? at found
  repeat' split at found
  all_goals simp_all
  all_goals rw [← found]

theorem scan_plain {t : Text} (more : t ≠ []) (plain : Plain t) :
    (scan t).kind.isComment = false ∧ (scan t).unterminated = false := by
  obtain ⟨c, t, rfl⟩ := List.exists_cons_of_ne_nil more
  have slash := (plain c List.mem_cons_self).1
  constructor
  · rw [Bool.eq_false_iff]
    intro comment
    rcases scan_comment_cases comment with ⟨rest, split⟩ | ⟨rest, split⟩
    · exact slash (List.cons.inj split).1
    · exact slash (List.cons.inj split).1
  · rcases scan_cases (c :: t) with found | ⟨-, found⟩ | ⟨-, -, found⟩ | ⟨-, -, -, found⟩
    · rw [trivia?_cons t slash] at found
      split at found
      · rw [← Option.some.inj found]
      · split at found
        · rw [← Option.some.inj found]
        · cases found
    · have none := literal?_append (r := []) plain (by simp [AtJoint])
      rw [List.append_nil, found] at none
      cases none
    · exact word?_unterminated found
    · rw [found]
      rfl

theorem pieces_plain {t : Text} (plain : Plain t) {piece : Piece} (mem : piece ∈ pieces t) :
    piece.kind.isComment = false ∧ piece.unterminated = false := by
  induction t using pieces_induction with
  | nil => simp at mem
  | cut t more ih =>
      rw [pieces_of_ne_nil more] at mem
      rcases List.mem_cons.mp mem with rfl | mem
      · exact scan_plain more plain
      · exact ih (plain.drop _) mem

theorem Plain.filter_comment {t : Text} (plain : Plain t) :
    (pieces t).filter (·.kind.isComment) = [] :=
  List.filter_eq_nil_iff.mpr fun _ mem => by simp [(pieces_plain plain mem).1]

theorem Plain.filter_code {t : Text} (plain : Plain t) :
    (pieces t).filter (!·.kind.isComment) = pieces t :=
  List.filter_eq_self.mpr fun _ mem => by simp [(pieces_plain plain mem).1]

theorem unterminated_of_isWhite {t : Text} {piece : Piece} (mem : piece ∈ pieces t)
    (white : piece.isWhite = true) : piece.unterminated = false := by
  induction t using pieces_induction with
  | nil => simp at mem
  | cut t more ih =>
      rw [pieces_of_ne_nil more] at mem
      rcases List.mem_cons.mp mem with rfl | mem
      · change (scan t).unterminated = false
        have kind : (scan t).kind = .spacing ∨ (scan t).kind = .lineBreak := by
          simpa [Piece.isWhite, Piece.front] using white
        have found : trivia? t = some (scan t) := by
          apply trivia?_of_kind
          rcases kind with kind | kind <;> rw [kind] <;> rfl
        rcases trivia?_cases found with
          ⟨_, -, lexeme⟩ | ⟨_, -, lexeme⟩ | ⟨_, _, -, -, lexeme⟩ | ⟨_, _, -, -, lexeme⟩
        · rw [lexeme]
        · rw [lexeme, Lexeme.delimited_kind] at kind
          simp at kind
        · rw [lexeme]
        · rw [lexeme]
      · exact ih mem

end ItemLayout
