import ItemLayout.Diagnostic
import ItemLayout.Token.Scan

namespace ItemLayout

structure Cursor where
  rest : Text
  offset : Nat
  mark : Nat
  /-- Only trivia stands between the latest line break and here. -/
  afterBreak : Bool := false
  diagnostics : List Diagnostic := []
  mark_le : mark ≤ offset

namespace Cursor

/-- A cursor at the start of a window, which may reach beyond the source. -/
def ofWindow (source : Text) (window : Span) : Cursor where
  rest := source.slice window
  offset := window.start
  mark := window.start
  mark_le := Nat.le_refl _

def ofSource (source : Text) : Cursor := ofWindow source (.ofLength 0 source.length)

def atEnd (cursor : Cursor) : Bool := cursor.rest.isEmpty

def current (cursor : Cursor) : Span := ⟨cursor.mark, cursor.offset, cursor.mark_le⟩

def openNotice (kind : TokenKind) : Notice :=
  if kind = .blockComment then .openComment else .openString

def next (cursor : Cursor) : Token × Cursor :=
  match cursor.rest with
  | [] =>
      ({ kind := .endOfText, span := .emptyAt cursor.offset },
        { cursor with mark := cursor.offset, mark_le := Nat.le_refl _ })
  | c :: cs =>
      let lexeme := scan (c :: cs)
      let span := Span.ofLength cursor.offset lexeme.length
      let afterBreak := cursor.afterBreak || lexeme.kind == .lineBreak
      ({ kind := lexeme.kind, span, afterBreak, unterminated := lexeme.unterminated,
          raw := lexeme.raw },
        { rest := (c :: cs).drop lexeme.length
          offset := span.stop
          mark := span.start
          afterBreak := afterBreak && lexeme.kind.isTrivia
          diagnostics :=
            if lexeme.unterminated then
              cursor.diagnostics ++ [(openNotice lexeme.kind).locate span]
            else cursor.diagnostics
          mark_le := span.ordered })

theorem next_rest_length_lt {cursor : Cursor} (more : cursor.rest ≠ []) :
    cursor.next.2.rest.length < cursor.rest.length := by
  unfold next
  split
  · contradiction
  · rename_i c cs left
    have := scan_length_pos (c :: cs)
    simp only [left, List.length_drop, List.length_cons]
    omega

def run (cursor : Cursor) : List Token × Cursor :=
  if _ : cursor.rest = [] then ([cursor.next.1], cursor.next.2)
  else
    let (tokens, last) := run cursor.next.2
    (cursor.next.1 :: tokens, last)
termination_by cursor.rest.length
decreasing_by exact next_rest_length_lt ‹_›

end Cursor

def tokensIn (source : Text) (window : Span) : List Token :=
  (Cursor.ofWindow source window).run.1.dropLast

end ItemLayout
