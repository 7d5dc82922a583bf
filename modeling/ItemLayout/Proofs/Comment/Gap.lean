import ItemLayout.Comment.Gap
import ItemLayout.Proofs.Comment.Reindent
import ItemLayout.Proofs.Outcome

namespace ItemLayout

def Token.fillsGap (token : Token) : Prop :=
  token.kind.isTrivia = true ∧ (token.kind.isComment = true → token.unterminated = false)

def GapComment.kind (comment : GapComment) : TokenKind :=
  if comment.isLine then .lineComment else .blockComment

theorem GapComment.kind_isComment (comment : GapComment) : comment.kind.isComment = true := by
  unfold GapComment.kind
  split <;> rfl

theorem GapComment.kind_isTrivia (comment : GapComment) : comment.kind.isTrivia = true := by
  unfold GapComment.kind
  split <;> rfl

namespace Gap

variable (source : Text) (span : Span) (afterBreak : Bool) (tokens : List Token) {token : Token}

theorem ofTokens_of_white (white : token.kind = .spacing ∨ token.kind = .lineBreak) :
    ∃ afterBreak', ofTokens source span afterBreak (token :: tokens) =
      ofTokens source span afterBreak' tokens := by
  rcases white with kind | kind
  · exact ⟨afterBreak, by simp [ofTokens, kind]⟩
  · exact ⟨true, by simp [ofTokens, kind]⟩

theorem ofTokens_of_comment (comment : token.kind.isComment = true)
    (closed : token.unterminated = false) :
    ofTokens source span afterBreak (token :: tokens) =
      (ofTokens source span false tokens).map fun gap =>
        { gap with
          comments :=
            { text := (source.slice token.span).trimRight
              span := token.span
              isLine := token.kind == .lineComment
              afterBreak
              column := source.column token.span.start } :: gap.comments } := by
  cases kind : token.kind <;> simp [kind, TokenKind.isComment] at comment
  all_goals
    simp only [ofTokens, kind, closed]
    cases ofTokens source span false tokens <;> rfl

theorem ofTokens_of_other (other : ¬token.fillsGap) :
    ∃ fault, ofTokens source span afterBreak (token :: tokens) = .error fault := by
  cases kind : token.kind
  all_goals simp [Token.fillsGap, kind, TokenKind.isTrivia, TokenKind.isComment] at other
  all_goals simp [ofTokens, kind, other]

theorem white_or_comment (fills : token.fillsGap) :
    (token.kind = .spacing ∨ token.kind = .lineBreak) ∨
      (token.kind.isComment = true ∧ token.unterminated = false) := by
  obtain ⟨trivia, closed⟩ := fills
  cases kind : token.kind <;> simp_all [TokenKind.isTrivia, TokenKind.isComment]

theorem ofTokens_isOk_iff :
    (∃ gap, ofTokens source span afterBreak tokens = .ok gap) ↔
      ∀ token ∈ tokens, token.fillsGap := by
  induction tokens generalizing afterBreak with
  | nil => simp [ofTokens]
  | cons token tokens ih =>
      rw [List.forall_mem_cons]
      by_cases fills : token.fillsGap
      · rcases white_or_comment fills with white | ⟨comment, closed⟩
        · obtain ⟨afterBreak', same⟩ := ofTokens_of_white source span afterBreak tokens white
          rw [same, ih afterBreak']
          simp [fills]
        · rw [ofTokens_of_comment source span afterBreak tokens comment closed, ← ih false]
          cases ofTokens source span false tokens <;> simp [Except.map, fills]
      · obtain ⟨fault, error⟩ := ofTokens_of_other source span afterBreak tokens fills
        simp [error, fills]

variable {source span afterBreak tokens} in
theorem ofTokens_comments {gap : Gap} (read : ofTokens source span afterBreak tokens = .ok gap) :
    gap.comments.map (fun comment => (comment.span, comment.kind, comment.text)) =
      (tokens.filter (·.kind.isComment)).map fun token =>
        (token.span, token.kind, (source.slice token.span).trimRight) := by
  induction tokens generalizing afterBreak gap with
  | nil =>
      cases read
      rfl
  | cons token tokens ih =>
      have fills := (ofTokens_isOk_iff source span afterBreak (token :: tokens)).mp ⟨gap, read⟩
      rcases white_or_comment (fills token List.mem_cons_self) with white | ⟨comment, closed⟩
      · obtain ⟨afterBreak', same⟩ := ofTokens_of_white source span afterBreak tokens white
        rw [same] at read
        rw [ih read]
        rcases white with kind | kind <;> simp [kind, TokenKind.isComment]
      · rw [ofTokens_of_comment source span afterBreak tokens comment closed] at read
        cases inner : ofTokens source span false tokens with
        | error fault => simp [inner, Except.map] at read
        | ok rest =>
            rw [inner] at read
            cases read
            simp only [List.filter_cons, comment, if_true, List.map_cons, ih inner]
            cases kind : token.kind <;> simp_all [TokenKind.isComment, GapComment.kind]

/-! ## The comments of a window -/

variable {source span}

theorem read_isOk_iff : (∃ gap, read source span = .ok gap) ↔
    ∀ piece ∈ pieces (source.slice span), piece.kind.isTrivia = true ∧
      (piece.kind.isComment = true → piece.unterminated = false) := by
  rw [read, ofTokens_isOk_iff, ← map_piece_tokensIn]
  simp only [List.forall_mem_map]
  rfl

theorem read_comments {gap : Gap} (found : read source span = .ok gap) :
    gap.comments.map (fun comment => (comment.kind, comment.text)) =
      ((pieces (source.slice span)).filter (·.kind.isComment)).map fun piece =>
        (piece.kind, piece.text.trimRight) := by
  have located := congrArg (List.map Prod.snd) (ofTokens_comments found)
  rw [List.map_map, List.map_map] at located
  rw [← map_piece_tokensIn, List.filter_map, List.map_map]
  refine located.trans (List.map_congr_left fun token mem => ?_)
  have comment := (List.mem_filter.mp mem).2
  have inside : token.kind ≠ .endOfText := by
    intro kind
    simp [kind, TokenKind.isComment] at comment
  simp [Token.piece, Token.text, inside]

theorem read_of_solid
    (comments : ∀ piece ∈ solid (source.slice span),
      piece.kind.isComment = true ∧ piece.unterminated = false) :
    ∃ gap, read source span = .ok gap ∧
      gap.comments.map (fun comment => (comment.kind, comment.text)) =
        (solid (source.slice span)).map fun piece => (piece.kind, piece.text.trimRight) := by
  have fills : ∀ piece ∈ pieces (source.slice span), piece.kind.isTrivia = true ∧
      (piece.kind.isComment = true → piece.unterminated = false) := by
    intro piece mem
    cases white : piece.isWhite with
    | true =>
        refine ⟨?_, fun _ => unterminated_of_isWhite mem white⟩
        cases kind : piece.kind <;> simp_all [Piece.isWhite, TokenKind.isTrivia]
    | false =>
        obtain ⟨comment, closed⟩ := comments piece (List.mem_filter.mpr ⟨mem, by simp [white]⟩)
        refine ⟨?_, fun _ => closed⟩
        cases kind : piece.kind <;> simp_all [TokenKind.isComment, TokenKind.isTrivia]
  obtain ⟨gap, found⟩ := read_isOk_iff.mpr fills
  refine ⟨gap, found, ?_⟩
  rw [read_comments found, solid]
  congr 1
  refine List.filter_congr fun piece mem => ?_
  cases white : piece.isWhite with
  | true => cases kind : piece.kind <;> simp_all [Piece.isWhite, TokenKind.isComment]
  | false => exact (comments piece (List.mem_filter.mpr ⟨mem, by simp [white]⟩)).1

theorem closedComment_of_read {gap : Gap} (found : read source span = .ok gap)
    {comment : GapComment} (mem : comment ∈ gap.comments) :
    ClosedComment comment.kind comment.text.trim := by
  have fills := read_isOk_iff.mp ⟨gap, found⟩
  have mem := List.mem_map_of_mem (f := fun comment => (comment.kind, comment.text)) mem
  rw [read_comments found] at mem
  obtain ⟨piece, mem, same⟩ := List.mem_map.mp mem
  obtain ⟨mem, kind⟩ := List.mem_filter.mp mem
  have closed := closedComment_of_mem_pieces mem kind ((fills piece mem).2 kind)
  obtain ⟨kind, text⟩ := Prod.mk.inj same
  rw [← kind, ← text]
  exact closed.trimRight.trim

theorem stop_of_getLast? {gap : Gap} (found : read source span = .ok gap) {ps qs : List Piece}
    {piece : Piece} (cut : pieces (source.slice span) = ps ++ piece :: qs)
    (comment : piece.kind.isComment = true) (last : ∀ q ∈ qs, q.kind.isComment = false) :
    ∀ final ∈ gap.comments.getLast?,
      final.span.stop = span.start + (ps.flatMap Piece.text).length + piece.text.length := by
  intro final here
  have located := congrArg List.getLast? (ofTokens_comments found)
  obtain ⟨afterBreak', placed⟩ := place_append span.start false ps (piece :: qs)
  rw [tokensIn_eq_place, cut, placed, place] at located
  have none (offset : Nat) (afterBreak : Bool) :
      (place offset afterBreak qs).filter (·.kind.isComment) = [] := by
    refine List.filter_eq_nil_iff.mpr fun token mem => ?_
    have kind := List.mem_map_of_mem (f := Token.kind) mem
    rw [map_kind_place] at kind
    obtain ⟨q, mem, same⟩ := List.mem_map.mp kind
    simp [← same, last q mem]
  rw [List.filter_append, List.filter_cons_of_pos (by exact comment), none, List.map_append,
    List.map_singleton, List.getLast?_concat, List.getLast?_map, here] at located
  have span := congrArg (Span.stop ∘ Prod.fst) (Option.some.inj located)
  exact span

theorem read_emptyAt (source : Text) (offset : Nat) :
    read source (.emptyAt offset) = .ok ⟨[], false⟩ := by
  have nothing : source.slice (.emptyAt offset) = [] := by
    simp [Text.slice, Span.emptyAt, Span.length]
  rw [read, tokensIn_eq_place, nothing, pieces_nil]
  rfl

end Gap

end ItemLayout
