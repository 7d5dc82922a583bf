import ItemLayout.Proofs.Token.Pieces

namespace ItemLayout

/-- Tokens cover what lies from `start` to `stop`: none of them is empty, and each starts where the
one before it ends. -/
def Tiles (start stop : Nat) : List Token → Prop
  | [] => start = stop
  | token :: rest =>
      token.span.start = start ∧ start < token.span.stop ∧ Tiles token.span.stop stop rest

theorem tiles_place (offset : Nat) (afterBreak : Bool) {ps : List Piece}
    (filled : ∀ piece ∈ ps, piece.text ≠ []) :
    Tiles offset (offset + (ps.flatMap Piece.text).length) (place offset afterBreak ps) := by
  induction ps generalizing offset afterBreak with
  | nil => rfl
  | cons piece ps ih =>
      have pos := List.length_pos_iff.mpr (filled piece List.mem_cons_self)
      refine ⟨rfl, Nat.lt_add_of_pos_right pos, ?_⟩
      rw [List.flatMap_cons, List.length_append, ← Nat.add_assoc]
      exact ih _ _ fun p mem => filled p (List.mem_cons_of_mem _ mem)

theorem Tiles.length_le {start stop : Nat} {tokens : List Token} (tiles : Tiles start stop tokens) :
    start + tokens.length ≤ stop := by
  induction tokens generalizing start with
  | nil => exact Nat.le_of_eq tiles
  | cons token rest ih =>
      obtain ⟨-, pos, tiles⟩ := tiles
      have := ih tiles
      rw [List.length_cons]
      omega

theorem Text.length_slice (t : Text) (s : Span) :
    (t.slice s).length = min s.stop t.length - s.start := by
  have := s.ordered
  simp only [Text.slice, Span.length, List.length_take, List.length_drop]
  omega

theorem Text.slice_eq_drop_take (t : Text) (s : Span) :
    t.slice s = (t.take (min s.stop t.length)).drop s.start := by
  rw [← List.take_eq_take_min, List.drop_take]
  rfl

namespace Cursor

theorem ofWindow_lossless (source : Text) (window : Span) :
    ∃ body last, (ofWindow source window).run.1 = body ++ [last] ∧
      last.kind = .endOfText ∧
      last.span = .emptyAt (max window.start (min window.stop source.length)) ∧
      (∀ token ∈ body, token.kind ≠ .endOfText) ∧
      Tiles window.start (max window.start (min window.stop source.length)) body ∧
      body.flatMap (Token.text source) = source.slice window := by
  have length := Text.length_slice source window
  have stop : window.start + (source.slice window).length =
      max window.start (min window.stop source.length) := by
    omega
  refine ⟨tokensIn source window,
    { kind := .endOfText, span := .emptyAt (window.start + (source.slice window).length) },
    run_ofWindow source window, rfl, ?_, ?_, ?_, ?_⟩
  · exact congrArg Span.emptyAt stop
  · intro token mem kind
    have mem := List.mem_map_of_mem (f := Token.piece source) mem
    rw [map_piece_tokensIn] at mem
    exact kind_ne_endOfText_of_mem_pieces mem kind
  · rw [tokensIn_eq_place, ← stop]
    have covered := tiles_place window.start false
      fun piece mem => text_ne_nil_of_mem_pieces (t := source.slice window) mem
    rwa [flatMap_text_pieces] at covered
  · have texts := congrArg (List.flatMap Piece.text) (map_piece_tokensIn source window)
    rwa [List.flatMap_map, flatMap_text_pieces] at texts

theorem run_lossless (source : Text) (window : Option Span) :
    let cursor := window.elim (ofSource source) (ofWindow source)
    let start := window.elim 0 Span.start
    let limit := window.elim source.length fun window => min window.stop source.length
    ∃ body last, cursor.run.1 = body ++ [last] ∧
      last.kind = .endOfText ∧ last.span = .emptyAt (max start limit) ∧
      (∀ token ∈ body, token.kind ≠ .endOfText) ∧
      Tiles start (max start limit) body ∧
      body.flatMap (Token.text source) = (source.take limit).drop start ∧
      body.length ≤ limit - start ∧ (limit ≤ start → body = []) := by
  obtain ⟨window, cursor, start, limit⟩ : ∃ covered : Span,
      window.elim (ofSource source) (ofWindow source) = ofWindow source covered ∧
        window.elim 0 Span.start = covered.start ∧
        (window.elim source.length fun window => min window.stop source.length) =
          min covered.stop source.length := by
    cases window with
    | none => exact ⟨.ofLength 0 source.length, rfl, rfl, by simp [Span.ofLength]⟩
    | some window => exact ⟨window, rfl, rfl, rfl⟩
  obtain ⟨body, last, tokens, kind, place, inside, tiles, texts⟩ :=
    ofWindow_lossless source window
  have few : body.length ≤ min window.stop source.length - window.start := by
    have := tiles.length_le
    omega
  simp only [cursor, start, limit]
  refine ⟨body, last, tokens, kind, place, inside, tiles, ?_, few, ?_⟩
  · rw [texts, Text.slice_eq_drop_take]
  · intro empty
    exact List.length_eq_zero_iff.mp (by omega)

end Cursor

end ItemLayout
