import ItemLayout.Proofs.Token.Comments

namespace ItemLayout

def LeavesNothingOpen (t : Text) : Prop :=
  ∀ token ∈ (Cursor.ofSource t).run.1, token.unterminated = false

def commentsOf (t : Text) : List (TokenKind × Text) :=
  ((Cursor.ofSource t).run.1.filter (·.kind.isComment)).map fun token =>
    (token.kind, token.text t)

def codeOf (t : Text) : List Text :=
  ((Cursor.ofSource t).run.1.dropLast.filter (!·.kind.isTrivia)).map (Token.text t)

def withoutComments (t : Text) : Text :=
  ((Cursor.ofSource t).run.1.filter (!·.kind.isComment)).flatMap (Token.text t)

variable (t : Text)

theorem run_ofSource : ∃ last : Token, last.kind = .endOfText ∧ last.unterminated = false ∧
    (Cursor.ofSource t).run.1 = tokensIn t (.ofLength 0 t.length) ++ [last] :=
  ⟨_, rfl, rfl, run_ofWindow t _⟩

theorem map_piece_tokensIn_whole :
    (tokensIn t (.ofLength 0 t.length)).map (Token.piece t) = pieces t := by
  rw [map_piece_tokensIn]
  simp [Text.slice, Span.ofLength, Span.length]

variable {t} in
theorem pieces_of_single {token : Token} (single : tokensIn t (.ofLength 0 t.length) = [token]) :
    pieces t = [token.piece t] := by
  rw [← map_piece_tokensIn_whole, single]
  rfl

theorem leavesNothingOpen_iff :
    LeavesNothingOpen t ↔ ∀ piece ∈ pieces t, piece.unterminated = false := by
  obtain ⟨last, -, closed, tokens⟩ := run_ofSource t
  rw [LeavesNothingOpen, tokens, List.forall_mem_append, List.forall_mem_singleton,
    ← map_piece_tokensIn_whole, List.forall_mem_map]
  exact and_iff_left closed

theorem commentsOf_eq :
    commentsOf t = ((pieces t).filter (·.kind.isComment)).map fun piece =>
      (piece.kind, piece.text) := by
  obtain ⟨last, kind, -, tokens⟩ := run_ofSource t
  have skip : [last].filter (·.kind.isComment) = [] := by
    simp [kind, TokenKind.isComment]
  rw [commentsOf, tokens, List.filter_append, skip, List.append_nil, ← map_piece_tokensIn_whole,
    List.filter_map, List.map_map]
  rfl

theorem codeOf_eq :
    codeOf t = ((pieces t).filter (!·.kind.isTrivia)).map Piece.text := by
  obtain ⟨last, -, -, tokens⟩ := run_ofSource t
  rw [codeOf, tokens, List.dropLast_concat, ← map_piece_tokensIn_whole, List.filter_map,
    List.map_map]
  rfl

theorem withoutComments_eq :
    withoutComments t = ((pieces t).filter (!·.kind.isComment)).flatMap Piece.text := by
  obtain ⟨last, kind, -, tokens⟩ := run_ofSource t
  have skip : ([last].filter (!·.kind.isComment)).flatMap (Token.text t) = [] := by
    simp [kind, TokenKind.isComment, Token.text]
  rw [withoutComments, tokens, List.filter_append, List.flatMap_append, skip, List.append_nil,
    ← map_piece_tokensIn_whole, List.filter_map, List.flatMap_map]
  rfl

/-! ## Without white space -/

theorem filter_solid {p : Piece → Bool} (dark : ∀ piece, p piece = true → piece.isWhite = false) :
    (solid t).filter p = (pieces t).filter p := by
  rw [solid, List.filter_filter]
  refine List.filter_congr fun piece _ => ?_
  cases shown : p piece with
  | false => rfl
  | true => rw [dark piece shown]; rfl

theorem Piece.isWhite_of_not_isTrivia {piece : Piece} (code : (!piece.kind.isTrivia) = true) :
    piece.isWhite = false := by
  unfold Piece.isWhite
  cases kind : piece.kind <;> simp_all [TokenKind.isTrivia]

theorem Piece.isWhite_of_isComment {piece : Piece} (comment : piece.kind.isComment = true) :
    piece.isWhite = false := by
  unfold Piece.isWhite
  cases kind : piece.kind <;> simp_all [TokenKind.isComment]

theorem Plain.filter_comment_solid {t : Text} (plain : Plain t) :
    (solid t).filter (·.kind.isComment) = [] := by
  rw [filter_solid t fun _ => Piece.isWhite_of_isComment, plain.filter_comment]

theorem leavesNothingOpen_of_solid (closed : ∀ piece ∈ solid t, piece.unterminated = false) :
    LeavesNothingOpen t := by
  refine (leavesNothingOpen_iff t).mpr fun piece mem => ?_
  cases white : piece.isWhite with
  | false => exact closed piece (List.mem_filter.mpr ⟨mem, by rw [white]; rfl⟩)
  | true => exact unterminated_of_isWhite mem white

theorem commentsOf_eq_solid :
    commentsOf t = ((solid t).filter (·.kind.isComment)).map fun piece =>
      (piece.kind, piece.text) := by
  rw [commentsOf_eq, filter_solid t fun _ => Piece.isWhite_of_isComment]

theorem codeOf_eq_solid : codeOf t = ((solid t).filter (!·.kind.isTrivia)).map Piece.text := by
  rw [codeOf_eq, filter_solid t fun _ => Piece.isWhite_of_not_isTrivia]

theorem Reads.views {t : Text} {ps : List Piece} (reads : Reads t ps)
    (closed : ∀ piece ∈ ps, piece.unterminated = false) :
    LeavesNothingOpen t ∧
      commentsOf t = (ps.filter (·.kind.isComment)).map (fun piece => (piece.kind, piece.text)) ∧
      codeOf t = (ps.filter (!·.kind.isTrivia)).map Piece.text := by
  rw [← reads.solid_eq] at closed ⊢
  exact ⟨leavesNothingOpen_of_solid t closed, commentsOf_eq_solid t, codeOf_eq_solid t⟩

/-! ## Single comments -/

theorem ClosedComment.pieces_eq {kind : TokenKind} {t : Text} (closed : ClosedComment kind t) :
    pieces t = [{ kind, text := t }] := by
  have alone := pieces_comment (r := []) closed (by simp [AtBreak])
  rwa [List.append_nil, pieces_nil] at alone

theorem ClosedComment.run_ofSource {kind : TokenKind} {t : Text} (closed : ClosedComment kind t) :
    (Cursor.ofSource t).run.1 =
      [{ kind, span := .ofLength 0 t.length },
        { kind := .endOfText, span := .emptyAt t.length }] := by
  have rest : (Cursor.ofSource t).rest = t := by
    simp [Cursor.ofSource, Cursor.ofWindow, Text.slice, Span.ofLength, Span.length]
  have unbroken : (kind == .lineBreak) = false := by
    cases closed <;> rfl
  rw [Cursor.run_eq_place, rest, closed.pieces_eq]
  simp [place, unbroken, Cursor.ofSource, Cursor.ofWindow, Span.ofLength]

theorem closedComment_of_single {t : Text} {token : Token}
    (single : tokensIn t (.ofLength 0 t.length) = [token]) (kind : token.kind.isComment = true)
    (closed : token.unterminated = false) : ClosedComment token.kind t := by
  have cut := pieces_of_single single
  have text : (token.piece t).text = t := by
    have whole := flatMap_text_pieces t
    rwa [cut, List.flatMap_singleton] at whole
  have found : ClosedComment (token.piece t).kind (token.piece t).text :=
    closedComment_of_mem_pieces (by rw [cut]; exact List.mem_cons_self) kind closed
  exact text ▸ found

def IsComment (t : Text) : Prop :=
  ∃ token, tokensIn t (.ofLength 0 t.length) = [token] ∧ token.kind.isComment = true ∧
    token.unterminated = false

theorem IsComment.closed {t : Text} (comment : IsComment t) :
    ∃ kind, ClosedComment kind t ∧ commentsOf t = [(kind, t)] := by
  obtain ⟨token, single, kind, closed⟩ := comment
  have found := closedComment_of_single single kind closed
  refine ⟨token.kind, found, ?_⟩
  rw [commentsOf_eq, found.pieces_eq, List.filter_cons_of_pos (by exact kind)]
  rfl

end ItemLayout
