import ItemLayout.Proofs.Token.Bounds
import ItemLayout.Proofs.Token.Kinds
import ItemLayout.Token.Cursor

namespace ItemLayout

structure Piece where
  kind : TokenKind
  text : Text
  raw : Bool := false
  unterminated : Bool := false
  deriving DecidableEq, Repr

def Piece.front (t : Text) : Piece where
  kind := (scan t).kind
  text := t.take (scan t).length
  raw := (scan t).raw
  unterminated := (scan t).unterminated

def pieces (t : Text) : List Piece :=
  if t = [] then [] else .front t :: pieces (t.drop (scan t).length)
termination_by t.length
decreasing_by
  have := scan_length_pos t
  have := List.length_pos_iff.mpr ‹t ≠ []›
  simp only [List.length_drop]
  omega

@[simp] theorem pieces_nil : pieces [] = [] := by
  rw [pieces, if_pos rfl]

theorem pieces_of_ne_nil {t : Text} (more : t ≠ []) :
    pieces t = .front t :: pieces (t.drop (scan t).length) := by
  rw [pieces, if_neg more]

theorem pieces_induction {motive : Text → Prop} (nil : motive [])
    (cut : ∀ t, t ≠ [] → motive (t.drop (scan t).length) → motive t) (t : Text) : motive t := by
  induction t using pieces.induct with
  | case1 => exact nil
  | case2 t more ih => exact cut t more ih

@[simp] theorem Piece.length_front {t : Text} (more : t ≠ []) :
    (Piece.front t).text.length = (scan t).length :=
  List.length_take_of_le (scan_length_le more)

theorem flatMap_text_pieces (t : Text) : (pieces t).flatMap Piece.text = t := by
  induction t using pieces_induction with
  | nil => simp
  | cut t more ih =>
      rw [pieces_of_ne_nil more, List.flatMap_cons, ih]
      exact List.take_append_drop _ _

theorem text_ne_nil_of_mem_pieces {t : Text} {piece : Piece} (mem : piece ∈ pieces t) :
    piece.text ≠ [] := by
  induction t using pieces_induction with
  | nil => simp at mem
  | cut t more ih =>
      rw [pieces_of_ne_nil more] at mem
      rcases List.mem_cons.mp mem with rfl | mem
      · rw [← List.length_pos_iff, Piece.length_front more]
        exact scan_length_pos t
      · exact ih mem

/-! ## Placing -/

/-- Pieces one behind the other, where `afterBreak` says that a line break stands before them. -/
def place (offset : Nat) (afterBreak : Bool) : List Piece → List Token
  | [] => []
  | piece :: rest =>
      { kind := piece.kind
        span := .ofLength offset piece.text.length
        afterBreak := afterBreak || piece.kind == .lineBreak
        unterminated := piece.unterminated
        raw := piece.raw } ::
        place (offset + piece.text.length)
          ((afterBreak || piece.kind == .lineBreak) && piece.kind.isTrivia) rest

namespace Cursor

theorem run_of_done {cursor : Cursor} (done : cursor.rest = []) :
    cursor.run = ([cursor.next.1], cursor.next.2) := by
  rw [run, dif_pos done]

theorem run_of_more {cursor : Cursor} (more : cursor.rest ≠ []) :
    cursor.run = (cursor.next.1 :: cursor.next.2.run.1, cursor.next.2.run.2) := by
  rw [run, dif_neg more]

theorem run_of_rest_nil {cursor : Cursor} (done : cursor.rest = []) :
    cursor.run.1 = [{ kind := .endOfText, span := .emptyAt cursor.offset }] := by
  rw [run_of_done done]
  simp only [next]
  split
  · rfl
  · simp_all

theorem run_of_rest_ne_nil {cursor : Cursor} (more : cursor.rest ≠ []) :
    cursor.run.1 = cursor.next.1 :: cursor.next.2.run.1 := by
  rw [run_of_more more]

theorem run_induction {motive : Cursor → Prop}
    (done : ∀ cursor, cursor.rest = [] → motive cursor)
    (step : ∀ cursor, cursor.rest ≠ [] → motive cursor.next.2 → motive cursor) (cursor : Cursor) :
    motive cursor := by
  induction cursor using run.induct with
  | case1 cursor rest => exact done cursor rest
  | case2 cursor more _ _ _ ih => exact step cursor more ih

theorem next_of_rest_ne_nil {cursor : Cursor} (more : cursor.rest ≠ []) :
    cursor.next.1 =
        { kind := (scan cursor.rest).kind
          span := .ofLength cursor.offset (scan cursor.rest).length
          afterBreak := cursor.afterBreak || (scan cursor.rest).kind == .lineBreak
          unterminated := (scan cursor.rest).unterminated
          raw := (scan cursor.rest).raw } ∧
      cursor.next.2.rest = cursor.rest.drop (scan cursor.rest).length ∧
      cursor.next.2.offset = cursor.offset + (scan cursor.rest).length ∧
      cursor.next.2.afterBreak =
        ((cursor.afterBreak || (scan cursor.rest).kind == .lineBreak) &&
          (scan cursor.rest).kind.isTrivia) := by
  obtain ⟨c, cs, left⟩ := List.exists_cons_of_ne_nil more
  unfold next
  split
  · simp_all
  · rename_i left'
    rw [left'] at left ⊢
    exact ⟨rfl, rfl, rfl, rfl⟩

theorem run_eq_place (cursor : Cursor) :
    cursor.run.1 = place cursor.offset cursor.afterBreak (pieces cursor.rest) ++
      [{ kind := .endOfText, span := .emptyAt (cursor.offset + cursor.rest.length) }] := by
  generalize left : cursor.rest = t
  induction t using pieces_induction generalizing cursor with
  | nil =>
      rw [run_of_rest_nil left]
      simp [place]
  | cut t more ih =>
      have unfinished : cursor.rest ≠ [] := by rwa [left]
      obtain ⟨token, rest, offset, afterBreak⟩ := next_of_rest_ne_nil unfinished
      have bound := scan_length_le more
      rw [left] at token rest offset afterBreak
      rw [run_of_rest_ne_nil unfinished, ih cursor.next.2 rest, pieces_of_ne_nil more, place,
        token, offset, afterBreak, Piece.length_front more, List.length_drop, List.cons_append,
        Nat.add_assoc, Nat.add_sub_cancel' bound]
      rfl

end Cursor

theorem run_ofWindow (source : Text) (window : Span) :
    (Cursor.ofWindow source window).run.1 = tokensIn source window ++
      [{ kind := .endOfText, span := .emptyAt (window.start + (source.slice window).length) }] := by
  rw [tokensIn, Cursor.run_eq_place, List.dropLast_concat]
  rfl

theorem tokensIn_eq_place (source : Text) (window : Span) :
    tokensIn source window = place window.start false (pieces (source.slice window)) := by
  rw [tokensIn, Cursor.run_eq_place, List.dropLast_concat]
  rfl

theorem place_append (offset : Nat) (afterBreak : Bool) (before after : List Piece) :
    ∃ afterBreak', place offset afterBreak (before ++ after) =
      place offset afterBreak before ++
        place (offset + (before.flatMap Piece.text).length) afterBreak' after := by
  induction before generalizing offset afterBreak with
  | nil => exact ⟨afterBreak, rfl⟩
  | cons piece before ih =>
      obtain ⟨afterBreak', placed⟩ := ih (offset + piece.text.length)
        ((afterBreak || piece.kind == .lineBreak) && piece.kind.isTrivia)
      refine ⟨afterBreak', ?_⟩
      rw [List.cons_append, place, placed, place, List.flatMap_cons, List.length_append,
        Nat.add_assoc, List.cons_append]

theorem map_kind_place (offset : Nat) (afterBreak : Bool) (ps : List Piece) :
    (place offset afterBreak ps).map Token.kind = ps.map Piece.kind := by
  induction ps generalizing offset afterBreak with
  | nil => rfl
  | cons piece ps ih => rw [place, List.map_cons, List.map_cons, ih]

def Token.piece (source : Text) (token : Token) : Piece where
  kind := token.kind
  text := token.text source
  raw := token.raw
  unterminated := token.unterminated

theorem map_piece_place {source : Text} {offset : Nat} {afterBreak : Bool} {ps : List Piece}
    (located : ps.flatMap Piece.text <+: source.drop offset)
    (inside : ∀ piece ∈ ps, piece.kind ≠ .endOfText) :
    (place offset afterBreak ps).map (Token.piece source) = ps := by
  induction ps generalizing offset afterBreak with
  | nil => rfl
  | cons piece ps ih =>
      rw [List.flatMap_cons] at located
      obtain ⟨behind, split⟩ := located
      rw [List.append_assoc] at split
      have text : source.slice (.ofLength offset piece.text.length) = piece.text := by
        simp [Text.slice, Span.ofLength, Span.length, ← split]
      have rest : ps.flatMap Piece.text <+: source.drop (offset + piece.text.length) :=
        ⟨behind, by rw [← List.drop_drop, ← split, List.drop_left]⟩
      rw [place, List.map_cons, ih rest fun p mem => inside p (List.mem_cons_of_mem _ mem)]
      simp [Token.piece, Token.text, inside piece, text]

theorem kind_ne_endOfText_of_mem_pieces {t : Text} {piece : Piece} (mem : piece ∈ pieces t) :
    piece.kind ≠ .endOfText := by
  induction t using pieces_induction with
  | nil => simp at mem
  | cut t more ih =>
      rw [pieces_of_ne_nil more] at mem
      rcases List.mem_cons.mp mem with rfl | mem
      · exact scan_kind_ne_endOfText t
      · exact ih mem

theorem map_piece_tokensIn (source : Text) (window : Span) :
    (tokensIn source window).map (Token.piece source) = pieces (source.slice window) := by
  rw [tokensIn_eq_place]
  refine map_piece_place ?_ fun piece mem => kind_ne_endOfText_of_mem_pieces mem
  rw [flatMap_text_pieces]
  exact List.take_prefix _ _

end ItemLayout
