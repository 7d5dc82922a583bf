import ItemLayout.Proofs.Comment.Join
import ItemLayout.Proofs.Comment.Margin
import ItemLayout.Proofs.Comment.Trivia
import ItemLayout.Proofs.Text.Lines

/-!
# Comments that stay where they are

A comment that was moved to a margin is not changed by moving it there from that margin. Comments that
are put back are read again with the same dividers between them, a new line or a space each. So putting
back what was put back changes nothing unless it moves a comment, which it does not if all of them are
single lines or start lines (`Gap.join_again`).
-/

namespace ItemLayout

theorem ClosedComment.trim_eq_self {kind : TokenKind} {t : Text} (closed : ClosedComment kind t)
    (ends : EndsInk t) : t.trim = t := by
  have same : t.trimLeft = t := by
    cases closed with
    | line _ => exact Text.trimLeft_cons _ (by decide)
    | block _ => exact Text.trimLeft_cons _ (by decide)
  rw [Text.trim, same, Text.trimRight_of_endsInk ends]

/-! ## Comments and what divides them -/

def Indent.divider (style : Style) (indent : Indent) (breaks : Bool) : Text :=
  if breaks then indent.newLine style else [' ']

namespace Gap

variable {style : Style} {indent : Indent}

def rows (style : Style) (indent : Indent) (comments : List (Bool × Piece)) : Text :=
  comments.flatMap fun row => indent.divider style row.1 ++ row.2.text

/-- Comments as they are written, where `line` says that a line comment stands before them. -/
def rowsAfter (style : Style) (indent : Indent) (line : Bool) : List GapComment → List (Bool × Piece)
  | [] => []
  | comment :: rest =>
      (!style.inlineComments || line || comment.afterBreak, comment.piece style indent) ::
        rowsAfter style indent comment.isLine rest

def breaksAfter (style : Style) (indent : Indent) (gap : Gap) (before after : Text) : Bool :=
  !style.inlineComments || gap.comments.getLast?.any (·.isLine) || decide ('\n' ∈ before) ||
    decide ('\n' ∈ after) || decide ('\n' ∈ gap.render style indent) || gap.endsWithBreak

theorem rows_cons (row : Bool × Piece) (comments : List (Bool × Piece)) :
    rows style indent (row :: comments) =
      indent.divider style row.1 ++ row.2.text ++ rows style indent comments :=
  List.flatMap_cons

theorem renderAfter_eq_rows (previous : GapComment) (comments : List GapComment) :
    renderAfter style indent previous comments =
      rows style indent (rowsAfter style indent previous.isLine comments) := by
  induction comments generalizing previous with
  | nil => rfl
  | cons comment rest ih =>
      have divider : (if (style.inlineComments && !previous.isLine && !comment.afterBreak) = true
          then [' '] else indent.newLine style) =
            indent.divider style (!style.inlineComments || previous.isLine || comment.afterBreak) := by
        unfold Indent.divider
        cases style.inlineComments <;> cases previous.isLine <;> cases comment.afterBreak <;> rfl
      rw [renderAfter, ih, rowsAfter, rows_cons, ← divider]
      rfl

theorem separatorBefore_eq {frame : Frame} {before comments : Text} (first : GapComment)
    (more : before ≠ [])
    (room : before.lastLine.length + comments.firstLine.length + 1 ≤ frame.width) :
    separatorBefore style frame before comments first =
      frame.indent.divider style (!style.inlineComments || false || first.afterBreak) := by
  unfold Indent.divider
  cases inline : style.inlineComments <;> cases broken : first.afterBreak <;>
    simp [separatorBefore, more, room, inline, broken]

theorem separatorAfter_eq {frame : Frame} {gap : Gap} {before written after : Text}
    {last : GapComment} (final : gap.comments.getLast? = some last) (shown : after ≠ [])
    (room : written.lastLine.length + 1 + after.firstLine.length ≤ frame.width) :
    separatorAfter style frame gap before (gap.render style frame.indent) written after last =
      frame.indent.divider style (gap.breaksAfter style frame.indent before after) := by
  unfold Indent.divider separatorAfter breaksAfter
  rw [final, Option.any_some, if_neg shown]
  cases line : last.isLine with
  | true => simp
  | false =>
      by_cases flat : style.inlineComments = true ∧ '\n' ∉ before ∧ '\n' ∉ after ∧
          '\n' ∉ gap.render style frame.indent ∧ ¬gap.endsWithBreak = true
      · simp [flat, room]
      · simp only [Bool.false_eq_true, if_false]
        rw [if_neg (by grind), if_pos (by grind)]

theorem separatorAfter_ne_nil (frame : Frame) (gap : Gap) (before comments written : Text)
    (last : GapComment) {after : Text} (shown : after ≠ []) :
    separatorAfter style frame gap before comments written after last ≠ [] := by
  unfold separatorAfter
  rw [if_neg shown]
  split
  · exact List.cons_ne_nil _ _
  · split <;> exact List.cons_ne_nil _ _

theorem join_cons {gap : Gap} {frame : Frame} {extend : Bool} {before after : Text}
    {first : GapComment} {rest : List GapComment} (comments : gap.comments = first :: rest) :
    let opened := before ++
      separatorBefore style frame before (gap.render style frame.indent) first ++
      gap.render style frame.indent
    gap.join style frame extend before after =
      opened ++ separatorAfter style frame gap before (gap.render style frame.indent) opened after
        ((first :: rest).getLast (List.cons_ne_nil _ _)) ++ after := by
  unfold join
  split
  · simp_all
  · rename_i first' rest' same
    obtain ⟨rfl, rfl⟩ := List.cons.inj (comments.symm.trans same)
    rfl

theorem render_cons {gap : Gap} {first : GapComment} {rest : List GapComment}
    (comments : gap.comments = first :: rest) :
    gap.render style indent = first.render style indent ++
      rows style indent (rowsAfter style indent first.isLine rest) := by
  rw [← renderAfter_eq_rows, render, comments]

theorem join_rows {gap : Gap} {frame : Frame} {extend : Bool} {before after : Text}
    (some : gap.comments ≠ []) (more : before ≠ []) (shown : after ≠ [])
    (room : (gap.join style frame extend before after).length ≤ frame.width) :
    gap.join style frame extend before after =
      before ++ (rows style frame.indent (rowsAfter style frame.indent false gap.comments) ++
        frame.indent.divider style (gap.breaksAfter style frame.indent before after)) ++ after := by
  obtain ⟨first, rest, comments⟩ := List.exists_cons_of_ne_nil some
  have final : gap.comments.getLast? =
      Option.some ((first :: rest).getLast (List.cons_ne_nil _ _)) := by
    rw [comments, List.getLast?_eq_some_getLast]
  rw [join_cons comments] at room ⊢
  generalize opened : before ++
    separatorBefore style frame before (gap.render style frame.indent) first ++
    gap.render style frame.indent = written at room ⊢
  -- No line is wider than all that is written, for which the frame has room.
  have opening := List.length_pos_iff.mpr ((separatorBefore_spec style frame before
    (gap.render style frame.indent) first).2 more)
  have closing : 0 < (separatorAfter style frame gap before (gap.render style frame.indent) written
      after ((first :: rest).getLast (List.cons_ne_nil _ _))).length :=
    List.length_pos_iff.mpr (separatorAfter_ne_nil frame gap before _ written _ shown)
  have length := congrArg List.length opened
  have lines := before.length_lastLine_le
  have lines' := written.length_lastLine_le
  have heads := after.length_firstLine_le
  have heads' := (gap.render style frame.indent).length_firstLine_le
  simp only [List.length_append] at room length
  rw [separatorAfter_eq final shown (by omega), ← opened, separatorBefore_eq first more (by omega),
    render_cons comments, comments, rowsAfter, rows_cons]
  simp only [List.append_assoc]
  rfl

end Gap

/-! ## Reading them again -/

namespace Trivium

def newLine (style : Style) (indent : Indent) : List Trivium :=
  .lineBreak ['\n'] :: (indent.render style).map .spacing

variable {style : Style} {indent : Indent}

theorem flatMap_text_newLine :
    (newLine style indent).flatMap Trivium.text = indent.newLine style := by
  simp [newLine, List.flatMap_map, Trivium.text, Indent.newLine]

theorem isComment_of_mem_newLine {item : Trivium} (mem : item ∈ newLine style indent) :
    item.isComment = false := by
  rcases List.mem_cons.mp mem with rfl | mem
  · rfl
  · obtain ⟨c, -, rfl⟩ := List.mem_map.mp mem
    rfl

def divider (style : Style) (indent : Indent) (breaks : Bool) : List Trivium :=
  if breaks then newLine style indent else [.spacing ' ']

theorem flatMap_text_divider (breaks : Bool) :
    (divider style indent breaks).flatMap Trivium.text = indent.divider style breaks := by
  cases breaks with
  | false => rfl
  | true => exact flatMap_text_newLine

theorem isComment_of_mem_divider {breaks : Bool} {item : Trivium}
    (mem : item ∈ divider style indent breaks) : item.isComment = false := by
  cases breaks with
  | false =>
      obtain rfl := List.mem_singleton.mp mem
      rfl
  | true => exact isComment_of_mem_newLine mem

theorem breakSince_append (before : List Trivium) {items : List Trivium}
    (none : ∀ item ∈ items, item.isComment = false) :
    breakSince (before ++ items) = (items.any isBreak || breakSince before) := by
  have inside : ∀ item ∈ items.reverse, (!item.isComment) = true := by
    intro item mem
    rw [none item (List.mem_reverse.mp mem)]
    rfl
  rw [breakSince, List.reverse_append, List.takeWhile_append_of_pos inside, List.any_append,
    List.any_reverse]
  rfl

theorem breakSince_divider (before : List Trivium) (breaks : Bool) :
    breakSince (before ++ divider style indent breaks) = (breaks || breakSince before) := by
  rw [breakSince_append before fun _ => isComment_of_mem_divider]
  cases breaks with
  | false => rfl
  | true => rfl

def rows (style : Style) (indent : Indent) (comments : List (Bool × Piece)) : List Trivium :=
  comments.flatMap fun row => divider style indent row.1 ++ row.2.trivia

end Trivium

section

variable {style : Style} {indent : Indent}

theorem Trivia.newLine {t : Text} {items : List Trivium} (rest : Trivia t items) :
    Trivia (indent.newLine style ++ t) (Trivium.newLine style indent ++ items) := by
  have spacing : ∀ c ∈ indent.render style, isSpacing c = true := by
    intro c mem
    rcases Indent.mem_render style indent mem with rfl | rfl <;> rfl
  exact .single rfl (by simp) (rest.spaced spacing)

theorem Trivia.divider {t : Text} {items : List Trivium} (rest : Trivia t items) (breaks : Bool) :
    Trivia (indent.divider style breaks ++ t) (Trivium.divider style indent breaks ++ items) := by
  cases breaks with
  | false => exact .spacing rfl rest
  | true => exact rest.newLine

theorem Text.column_newLine (before after : Text) :
    (before ++ indent.newLine style ++ after).column
      (before.length + (indent.newLine style).length) = (indent.render style).length := by
  have last : Text.lastLine (before ++ indent.newLine style) = indent.render style :=
    Text.lastLine_append_break before (indent.not_mem_render style)
  have inside : (before ++ indent.newLine style).length ≤
      (before ++ indent.newLine style ++ after).length := (List.prefix_append _ _).length_le
  rw [Text.column, ← List.length_append, List.take_left, last, Nat.sub_eq_zero_of_le inside,
    Nat.add_zero]

theorem Piece.trivia_of_closed {piece : Piece} (closed : ClosedComment piece.kind piece.text) :
    ∃ item, piece.trivia = [item] ∧ item.isComment = true ∧ item.text = piece.text ∧
      item.isLine = (piece.kind == .lineComment) := by
  obtain ⟨kind, text⟩ := piece
  cases closed with
  | line inside => exact ⟨_, rfl, rfl, rfl, rfl⟩
  | block inside => exact ⟨_, rfl, rfl, rfl, rfl⟩

structure Piece.Rests (style : Style) (indent : Indent) (piece : Piece) : Prop where
  closed : ClosedComment piece.kind piece.text
  endsInk : EndsInk piece.text
  fixed : Comment.reindent (indent.render style) (some (indent.render style).length) piece.text =
    piece.text

theorem ClosedComment.rests {comment : GapComment}
    (closed : ClosedComment comment.kind comment.text.trim) (style : Style) (indent : Indent) :
    (comment.piece style indent).Rests style indent where
  closed := closed.render style indent
  endsInk := comment.endsInk_render style indent
  fixed := by
    refine Comment.reindent_again (indent.blank_render style) ?_ (indent.not_mem_render style) _
    rintro n ⟨⟩
    exact Int.natCast_nonneg _

/-- What decides how a comment is written. Its column does so only at the start of a line. -/
def GapComment.sight (comment : GapComment) : Text × Bool × Bool × Option Nat :=
  (comment.text, comment.isLine, comment.afterBreak,
    if comment.afterBreak then some comment.column else none)

def GapComment.Stays (style : Style) (indent : Indent) (comment : GapComment) : Prop :=
  comment.render style indent = comment.text

namespace Gap

theorem read_white {middle : Text} (white : White middle) (before after : Text) :
    ∃ again, read (before ++ middle ++ after) (.ofLength before.length middle.length) = .ok again ∧
      again.comments = [] := by
  have none : solid ((before ++ middle ++ after).slice (.ofLength before.length middle.length)) =
      [] := by
    rw [Text.slice_middle]
    exact white.pieces
  obtain ⟨again, reread, same⟩ := read_of_solid (by rw [none]; simp)
  rw [none] at same
  exact ⟨again, reread, List.map_eq_nil_iff.mp same⟩

/-- Comments that can be told from each other: a line comment ends where the next row starts a line,
or where the last divider does. -/
def Legible (style : Style) (indent : Indent) (last : Bool) : List (Bool × Piece) → Prop
  | [] => True
  | row :: rest =>
      row.2.Rests style indent ∧
      (row.2.kind = .lineComment → (rest.head?.map Prod.fst).getD last = true) ∧
      Legible style indent last rest

theorem legible_rowsAfter {last : Bool} (line : Bool) {comments : List GapComment}
    (closed : ∀ comment ∈ comments, ClosedComment comment.kind comment.text.trim)
    (final : comments.getLast?.any (·.isLine) = true → last = true) :
    Legible style indent last (rowsAfter style indent line comments) := by
  induction comments generalizing line with
  | nil => trivial
  | cons comment rest ih =>
      obtain ⟨first, closed⟩ := List.forall_mem_cons.mp closed
      cases rest with
      | nil =>
          refine ⟨first.rests style indent, fun kind => final ?_, trivial⟩
          exact GapComment.isLine_of_kind kind
      | cons second rest =>
          rw [List.getLast?_cons_cons] at final
          refine ⟨first.rests style indent, fun kind => ?_, ih comment.isLine closed final⟩
          rw [GapComment.isLine_of_kind kind]
          simp [rowsAfter]

variable {last : Bool} {comments : List (Bool × Piece)}

theorem atBreak_rows (starts : (comments.head?.map Prod.fst).getD last = true) (r : Text) :
    AtBreak (rows style indent comments ++ indent.divider style last ++ r) := by
  cases comments with
  | nil =>
      obtain rfl : last = true := starts
      exact indent.atBreak_newLine style r
  | cons row rest =>
      obtain ⟨breaks, piece⟩ := row
      obtain rfl : breaks = true := starts
      rw [rows_cons, List.append_assoc, List.append_assoc, List.append_assoc]
      exact indent.atBreak_newLine style _

theorem trivia_rows (legible : Legible style indent last comments) :
    Trivia (rows style indent comments ++ indent.divider style last)
      (Trivium.rows style indent comments ++ Trivium.divider style indent last) := by
  induction comments with
  | nil =>
      have line : Trivia (indent.divider style last ++ []) (Trivium.divider style indent last ++ []) :=
        Trivia.nil.divider last
      rwa [List.append_nil, List.append_nil] at line
  | cons row rest ih =>
      obtain ⟨rests, ends, legible⟩ := legible
      have comment := rests.closed.trivia (fun kind => by
        simpa using atBreak_rows (ends kind) []) (ih legible)
      rw [rows_cons, Trivium.rows, List.flatMap_cons]
      simp only [List.append_assoc]
      exact comment.divider row.1

theorem comments_rows (written after : Text) (start : Nat) (before : List Trivium)
    (legible : Legible style indent last comments)
    (reached : start + (before.flatMap Trivium.text).length = written.length)
    (fresh : Trivium.breakSince before = false) :
    (Trivium.comments (written ++ (rows style indent comments ++ indent.divider style last) ++ after)
        start before (Trivium.rows style indent comments ++ Trivium.divider style indent last)).map
          GapComment.sight =
      comments.map fun row => (row.2.text, row.2.kind == .lineComment, row.1,
        if row.1 then some (indent.render style).length else none) := by
  induction comments generalizing written before with
  | nil =>
      rw [Trivium.rows, List.flatMap_nil, List.nil_append,
        Trivium.comments_of_none _ _ _ fun _ => Trivium.isComment_of_mem_divider]
      rfl
  | cons row rest ih =>
      obtain ⟨rests, -, legible⟩ := legible
      obtain ⟨item, trivia, comment, text, line⟩ := Piece.trivia_of_closed rests.closed
      have items : Trivium.rows style indent (row :: rest) ++ Trivium.divider style indent last =
          Trivium.divider style indent row.1 ++
            ([item] ++ (Trivium.rows style indent rest ++ Trivium.divider style indent last)) := by
        rw [Trivium.rows, List.flatMap_cons, trivia]
        simp only [List.append_assoc]
        rfl
      have source : written ++ (rows style indent (row :: rest) ++ indent.divider style last) ++ after =
          written ++ indent.divider style row.1 ++ row.2.text ++
            (rows style indent rest ++ indent.divider style last) ++ after := by
        rw [rows_cons]
        simp only [List.append_assoc]
      have offset : start +
          ((before ++ Trivium.divider style indent row.1).flatMap Trivium.text).length =
            written.length + (indent.divider style row.1).length := by
        rw [List.flatMap_append, List.length_append, Trivium.flatMap_text_divider, ← reached]
        exact (Nat.add_assoc _ _ _).symm
      have column (breaks : row.1 = true) : (written ++ indent.divider style row.1 ++ row.2.text ++
          (rows style indent rest ++ indent.divider style last) ++ after).column
            (written.length + (indent.divider style row.1).length) = (indent.render style).length := by
        rw [breaks, List.append_assoc, List.append_assoc]
        exact Text.column_newLine _ _
      have later := ih (written ++ indent.divider style row.1 ++ row.2.text)
        (before ++ Trivium.divider style indent row.1 ++ [item]) legible (by
          rw [List.flatMap_append, List.length_append, ← Nat.add_assoc, offset,
            List.flatMap_singleton, text, List.length_append, List.length_append]) (by
          rw [Trivium.breakSince_concat, comment]
          rfl)
      rw [items, source, Trivium.comments_append, Trivium.comments_append,
        Trivium.comments_of_none _ _ _ fun _ => Trivium.isComment_of_mem_divider,
        List.nil_append, List.map_append, later]
      simp only [Trivium.comments, comment, if_true, text, offset, line, Trivium.breakSince_divider,
        fresh, Bool.or_false, Text.trimRight_of_endsInk rests.endsInk, List.append_nil, List.map_cons,
        List.map_nil, GapComment.sight]
      cases breaks : row.1 with
      | false => rfl
      | true =>
          rw [breaks] at column
          simp only [column]
          rfl

theorem breakSince_rows {before : List Trivium} (fresh : Trivium.breakSince before = false)
    (legible : Legible style indent last comments) :
    Trivium.breakSince (before ++ Trivium.rows style indent comments) = false := by
  induction comments generalizing before with
  | nil =>
      rw [Trivium.rows, List.flatMap_nil, List.append_nil]
      exact fresh
  | cons row rest ih =>
      obtain ⟨rests, -, legible⟩ := legible
      obtain ⟨item, trivia, comment, -, -⟩ := Piece.trivia_of_closed rests.closed
      rw [Trivium.rows, List.flatMap_cons, trivia, ← List.append_assoc, ← List.append_assoc]
      refine ih ?_ legible
      rw [Trivium.breakSince_concat, comment]
      rfl

theorem read_rows (legible : Legible style indent last comments) (before after : Text) :
    ∃ again,
      read (before ++ (rows style indent comments ++ indent.divider style last) ++ after)
        (.ofLength before.length (rows style indent comments ++ indent.divider style last).length) =
          .ok again ∧
      again.comments.map GapComment.sight =
        comments.map (fun row => (row.2.text, row.2.kind == .lineComment, row.1,
          if row.1 then some (indent.render style).length else none)) ∧
      again.endsWithBreak = last := by
  have trivia : Trivia
      ((before ++ (rows style indent comments ++ indent.divider style last) ++ after).slice
        (.ofLength before.length (rows style indent comments ++ indent.divider style last).length))
      (Trivium.rows style indent comments ++ Trivium.divider style indent last) := by
    rw [Text.slice_middle]
    exact trivia_rows legible
  refine ⟨_, read_of_trivia trivia, ?_, ?_⟩
  · exact comments_rows before after before.length [] legible rfl rfl
  · have fresh : Trivium.breakSince ([] ++ Trivium.rows style indent comments) = false :=
      breakSince_rows rfl legible
    rw [ofTrivia, Trivium.breakSince_divider, ← List.nil_append (Trivium.rows style indent comments),
      fresh, Bool.or_false]

def KeepsLines (style : Style) (comments : List GapComment) : Prop :=
  style.inlineComments = true →
    ∀ comment ∈ comments, '\n' ∈ comment.text → comment.afterBreak = true

/-! ## Putting them back again -/

theorem rowsAfter_again {line : Bool} {first again : List GapComment}
    (sights : again.map GapComment.sight = (rowsAfter style indent line first).map fun row =>
      (row.2.text, row.2.kind == .lineComment, row.1,
        if row.1 then some (indent.render style).length else none))
    (fixed : ∀ comment ∈ again, comment.Stays style indent) :
    rowsAfter style indent line again = rowsAfter style indent line first := by
  induction first generalizing line again with
  | nil =>
      obtain rfl := List.map_eq_nil_iff.mp sights
      rfl
  | cons comment rest ih =>
      obtain ⟨comment', rest', rfl, here, later⟩ := List.map_eq_cons_iff.mp sights
      obtain ⟨settled, fixed⟩ := List.forall_mem_cons.mp fixed
      obtain ⟨text, rest⟩ := Prod.mk.inj here
      obtain ⟨isLine, rest⟩ := Prod.mk.inj rest
      obtain ⟨breaks, -⟩ := Prod.mk.inj rest
      have line' : comment'.isLine = comment.isLine := isLine.trans comment.kind_beq
      have piece : comment'.piece style indent = comment.piece style indent := by
        rw [GapComment.piece, GapComment.kind, line', settled.trans text]
        rfl
      rw [rowsAfter, rowsAfter, line', ih later fixed, piece, breaks]
      congr 2
      cases style.inlineComments <;> cases line <;> rfl

theorem map_snd_rowsAfter (style : Style) (indent : Indent) (line : Bool)
    (comments : List GapComment) :
    (rowsAfter style indent line comments).map Prod.snd =
      comments.map (GapComment.piece style indent) := by
  induction comments generalizing line with
  | nil => rfl
  | cons comment rest ih => rw [rowsAfter, List.map_cons, List.map_cons, ih]

theorem join_eq_of_rows {gap again : Gap} {frame : Frame} {before after : Text}
    (same : rowsAfter style frame.indent false again.comments =
      rowsAfter style frame.indent false gap.comments)
    (ends : again.endsWithBreak = gap.breaksAfter style frame.indent before after)
    (some : gap.comments ≠ []) (extend : Bool) :
    again.join style frame extend before after = gap.join style frame extend before after := by
  obtain ⟨first, rest, comments⟩ := List.exists_cons_of_ne_nil some
  obtain ⟨first', rest', comments'⟩ : ∃ first' rest', again.comments = first' :: rest' := by
    refine List.exists_cons_of_ne_nil fun none => ?_
    rw [none, comments] at same
    cases same
  have lines := congrArg (List.map fun piece : Piece => piece.kind == .lineComment)
    (congrArg (List.map Prod.snd) same)
  rw [map_snd_rowsAfter, map_snd_rowsAfter, comments, comments', List.map_map, List.map_map] at lines
  have last : ((first' :: rest').getLast (List.cons_ne_nil _ _)).isLine =
      ((first :: rest).getLast (List.cons_ne_nil _ _)).isLine := by
    have last := congrArg List.getLast? lines
    rw [List.getLast?_map, List.getLast?_map, List.getLast?_eq_some_getLast (List.cons_ne_nil _ _),
      List.getLast?_eq_some_getLast (List.cons_ne_nil first rest)] at last
    simpa [GapComment.piece, GapComment.kind_beq] using last
  rw [comments, comments'] at same
  obtain ⟨head, tail⟩ := List.cons.inj same
  obtain ⟨breaks, piece⟩ := Prod.mk.inj head
  have text : again.render style frame.indent = gap.render style frame.indent := by
    rw [render_cons comments', render_cons comments, tail]
    exact congrArg (· ++ _) (congrArg Piece.text piece)
  have opening (comments : Text) : separatorBefore style frame before comments first' =
      separatorBefore style frame before comments first := by
    cases inline : style.inlineComments with
    | false => simp [separatorBefore, inline]
    | true =>
        have broken : first'.afterBreak = first.afterBreak := by simpa [inline] using breaks
        simp only [separatorBefore, broken]
  have closing (written : Text) : separatorAfter style frame again before
      (gap.render style frame.indent) written after
        ((first' :: rest').getLast (List.cons_ne_nil _ _)) =
      separatorAfter style frame gap before (gap.render style frame.indent) written after
        ((first :: rest).getLast (List.cons_ne_nil _ _)) := by
    have final : gap.comments.getLast? =
        Option.some ((first :: rest).getLast (List.cons_ne_nil _ _)) := by
      rw [comments, List.getLast?_eq_some_getLast]
    unfold separatorAfter
    rw [last, ends, breaksAfter, final, Option.any_some]
    cases ((first :: rest).getLast (List.cons_ne_nil _ _)).isLine with
    | true => rfl
    | false =>
        -- A line break that is read stands for one of the reasons for which it was written.
        grind
  rw [join_cons comments', join_cons comments, text, opening, closing]

theorem mem_rowsAfter {line : Bool} {comments : List GapComment} {row : Bool × Piece}
    (mem : row ∈ rowsAfter style indent line comments) :
    ∃ comment ∈ comments, row.2 = comment.piece style indent ∧
      (row.1 = false → style.inlineComments = true ∧ comment.afterBreak = false) := by
  induction comments generalizing line with
  | nil => cases mem
  | cons comment rest ih =>
      rcases List.mem_cons.mp mem with rfl | mem
      · refine ⟨comment, List.mem_cons_self, rfl, fun inline => ?_⟩
        simp only [Bool.or_eq_false_iff, Bool.not_eq_false'] at inline
        exact ⟨inline.1.1, inline.2⟩
      · obtain ⟨other, among, facts⟩ := ih mem
        exact ⟨other, List.mem_cons_of_mem _ among, facts⟩

theorem render_again {gap again : Gap}
    (closed : ∀ comment ∈ gap.comments, ClosedComment comment.kind comment.text.trim)
    (sights : again.comments.map GapComment.sight =
      (rowsAfter style indent false gap.comments).map fun row =>
        (row.2.text, row.2.kind == .lineComment, row.1,
          if row.1 then some (indent.render style).length else none))
    (keeps : KeepsLines style gap.comments) :
    ∀ comment ∈ again.comments, comment.Stays style indent := by
  intro comment mem
  have among := List.mem_map_of_mem (f := GapComment.sight) mem
  rw [sights] at among
  obtain ⟨row, inside, same⟩ := List.mem_map.mp among
  obtain ⟨original, here, piece, inline⟩ := mem_rowsAfter inside
  have rests := (closed original here).rests style indent
  rw [← piece] at rests
  obtain ⟨text, rest⟩ := Prod.mk.inj same
  obtain ⟨-, rest⟩ := Prod.mk.inj rest
  obtain ⟨breaks, column⟩ := Prod.mk.inj rest
  rw [GapComment.Stays, GapComment.render, ← text]
  cases broken : row.1 with
  | true =>
      rw [← breaks, broken] at column
      rw [← Option.some.inj column]
      exact rests.fixed
  | false =>
      obtain ⟨allowed, unbroken⟩ := inline broken
      have single : '\n' ∉ original.text.trim := by
        intro feed
        rw [keeps allowed original here (Text.mem_of_mem_trim feed)] at unbroken
        cases unbroken
      have written : row.2.text = original.text.trim :=
        (congrArg Piece.text piece).trans (Comment.reindent_of_single single _ _)
      have trimmed := rests.closed.trim_eq_self rests.endsInk
      rw [Comment.reindent_of_single (by rwa [trimmed, written]), trimmed]

theorem join_again {gap : Gap}
    (closed : ∀ comment ∈ gap.comments, ClosedComment comment.kind comment.text.trim)
    (frame : Frame) (extend : Bool) {before after : Text} (more : before ≠ []) (shown : after ≠ []) :
    ∃ middle, gap.join style frame extend before after = before ++ middle ++ after ∧
      ((before ++ middle ++ after).length ≤ frame.width → ∀ rest, ∃ again,
        read (before ++ middle ++ (after ++ rest)) (.ofLength before.length middle.length) =
          .ok again ∧
        again.comments.map (·.text) = gap.comments.map (GapComment.render style frame.indent) ∧
        ((∀ comment ∈ again.comments, comment.Stays style frame.indent) →
          again.join style frame extend before after = before ++ middle ++ after) ∧
        (KeepsLines style gap.comments →
          ∀ comment ∈ again.comments, comment.Stays style frame.indent)) := by
  by_cases bare : gap.comments = []
  · obtain ⟨divider, white, text, -⟩ := joinBare_eq style frame extend before after
    refine ⟨divider, (join_of_bare style bare frame extend before after).trans text,
      fun _ rest => ?_⟩
    obtain ⟨again, reread, none⟩ := read_white white before (after ++ rest)
    refine ⟨again, reread, by rw [none, bare]; rfl, fun _ => ?_, by simp [none]⟩
    exact (join_of_bare style none frame extend before after).trans text
  · obtain ⟨first, others, comments⟩ := List.exists_cons_of_ne_nil bare
    obtain ⟨opening, closing, -, -, -, -, -, text⟩ :=
      join_eq style comments frame extend before after
    refine ⟨_, text, fun room rest => ?_⟩
    have written := join_rows bare more shown (text ▸ room)
    rw [text] at written
    obtain middle := List.append_cancel_left (List.append_cancel_right written)
    have legible : Legible style frame.indent (gap.breaksAfter style frame.indent before after)
        (rowsAfter style frame.indent false gap.comments) :=
      legible_rowsAfter false closed fun line => by simp [breaksAfter, line]
    obtain ⟨again, reread, sights, ends⟩ := read_rows legible before (after ++ rest)
    rw [← middle] at reread
    refine ⟨again, reread, ?_, fun fixed => ?_, render_again closed sights⟩
    · have texts := congrArg (List.map Prod.fst) sights
      have pieces := congrArg (List.map Piece.text)
        (map_snd_rowsAfter style frame.indent false gap.comments)
      simp only [List.map_map] at texts pieces
      exact texts.trans pieces
    · rw [join_eq_of_rows (rowsAfter_again sights fixed) ends bare, text]

end Gap

end

end ItemLayout
