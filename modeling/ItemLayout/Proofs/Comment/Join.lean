import ItemLayout.Comment.Join
import ItemLayout.Proofs.Comment.Gap

namespace ItemLayout

theorem ClosedComment.render {comment : GapComment}
    (closed : ClosedComment comment.kind comment.text.trim) (style : Style) (indent : Indent) :
    ClosedComment comment.kind (comment.render style indent) := by
  refine closed.reindent (indent.blank_render style) ?_
  rintro n ⟨⟩
  exact Int.natCast_nonneg _

theorem GapComment.endsInk_render (style : Style) (indent : Indent) (comment : GapComment) :
    EndsInk (comment.render style indent) := by
  refine Comment.endsInk_reindent (indent.blank_render style) ?_ comment.text
  rintro n ⟨⟩
  exact Int.natCast_nonneg _

def GapComment.piece (style : Style) (indent : Indent) (comment : GapComment) : Piece where
  kind := comment.kind
  text := comment.render style indent

theorem GapComment.kind_beq (comment : GapComment) :
    (comment.kind == .lineComment) = comment.isLine := by
  unfold GapComment.kind
  cases comment.isLine <;> rfl

theorem GapComment.isLine_of_kind {comment : GapComment} (kind : comment.kind = .lineComment) :
    comment.isLine = true := by
  rw [← comment.kind_beq, kind]
  rfl

theorem GapComment.piece_isWhite (style : Style) (indent : Indent) (comment : GapComment) :
    (comment.piece style indent).isWhite = false := by
  unfold Piece.isWhite GapComment.piece GapComment.kind
  split <;> rfl

namespace Gap

variable (style : Style) (indent : Indent)

theorem renderAfter_cons (previous comment : GapComment) (rest : List GapComment) :
    ∃ divider, White divider ∧ (previous.isLine = true → ∀ t, AtBreak (divider ++ t)) ∧
      renderAfter style indent previous (comment :: rest) =
        divider ++ (comment.render style indent ++ renderAfter style indent comment rest) := by
  rw [renderAfter]
  split
  · rename_i inline
    refine ⟨[' '], white_space, ?_, by simp⟩
    intro line
    simp [line] at inline
  · exact ⟨indent.newLine style, indent.white_newLine style, fun _ => indent.atBreak_newLine style,
      by simp⟩

theorem pieces_renderAfter (first : GapComment) (rest : List GapComment)
    (closed : ∀ comment ∈ first :: rest, ClosedComment comment.kind comment.text.trim) :
    ∃ ps, (ps.filter (!·.isWhite) ++
        [((first :: rest).getLast (List.cons_ne_nil _ _)).piece style indent] =
          (first :: rest).map (GapComment.piece style indent)) ∧
      ∀ r, (((first :: rest).getLast (List.cons_ne_nil _ _)).isLine = true → AtBreak r) →
        pieces (first.render style indent ++ renderAfter style indent first rest ++ r) =
          ps ++ ((first :: rest).getLast (List.cons_ne_nil _ _)).piece style indent :: pieces r := by
  induction rest generalizing first with
  | nil =>
      have comment := (closed first List.mem_cons_self).render style indent
      refine ⟨[], rfl, fun r ends => ?_⟩
      rw [renderAfter, List.append_nil]
      exact pieces_comment comment fun kind => ends (GapComment.isLine_of_kind kind)
  | cons second rest ih =>
      have comment := (closed first List.mem_cons_self).render style indent
      have next := (closed second (List.mem_cons_of_mem _ List.mem_cons_self)).render style indent
      obtain ⟨ps, solids, later⟩ := ih second fun c mem => closed c (List.mem_cons_of_mem _ mem)
      obtain ⟨divider, white, ends, written⟩ := renderAfter_cons style indent first second rest
      refine ⟨first.piece style indent :: (pieces divider ++ ps), ?_, fun r ends' => ?_⟩
      · rw [List.filter_cons, GapComment.piece_isWhite, List.filter_append, white.pieces]
        exact congrArg _ solids
      · rw [written, List.append_assoc, List.append_assoc, List.append_assoc,
          pieces_comment comment fun kind => ends (GapComment.isLine_of_kind kind) _,
          pieces_append white.plain (next.atComment _), ← List.append_assoc (second.render _ _),
          later r ends']
        simp [GapComment.piece]

theorem solid_renderAfter {first : GapComment} {rest : List GapComment} {closing : Text}
    (closed : ∀ comment ∈ first :: rest, ClosedComment comment.kind comment.text.trim)
    (white : White closing) (r : Text)
    (ends : ((first :: rest).getLast (List.cons_ne_nil _ _)).isLine = true →
      AtBreak (closing ++ r)) :
    solid (first.render style indent ++ renderAfter style indent first rest ++ (closing ++ r)) =
      (first :: rest).map (GapComment.piece style indent) ++ solid r := by
  obtain ⟨ps, solids, cut⟩ := pieces_renderAfter style indent first rest closed
  rw [solid, cut _ ends, List.filter_append, List.filter_cons, GapComment.piece_isWhite,
    ← solid_white_append r white, ← solids, List.append_assoc]
  rfl

/-! ## What is written between two texts -/

theorem joinBare_eq (frame : Frame) (extend : Bool) (before after : Text) :
    ∃ divider, White divider ∧
      joinBare style frame extend before after = before ++ divider ++ after ∧
      (before ≠ [] → after ≠ [] → before.lastLine.trim ≠ [] → divider ≠ []) := by
  have spaced : White (if before = [] ∨ after = [] ∨ before.lastLine.trim = [] then [] else [' ']) ∧
      (before ≠ [] → after ≠ [] → before.lastLine.trim ≠ [] →
        (if before = [] ∨ after = [] ∨ before.lastLine.trim = [] then [] else [' ']) ≠ []) := by
    split
    · rename_i nothing
      refine ⟨white_nil, fun b a t => ?_⟩
      simp [b, a, t] at nothing
    · exact ⟨white_space, by simp⟩
  unfold joinBare
  simp only
  generalize (if before = [] ∨ after = [] ∨ before.lastLine.trim = [] then [] else [' ']) = space
    at spaced ⊢
  split
  · exact ⟨space, spaced.1, rfl, spaced.2⟩
  · split
    · rename_i none
      exact ⟨[], white_nil, by simp [none], fun b => absurd none b⟩
    · exact ⟨_, frame.indent.white_newLine style, rfl, by simp [Indent.newLine]⟩

theorem separatorBefore_spec (frame : Frame) (before comments : Text) (first : GapComment) :
    White (separatorBefore style frame before comments first) ∧
      (before ≠ [] → separatorBefore style frame before comments first ≠ []) := by
  unfold separatorBefore
  split
  · rename_i none
    exact ⟨white_nil, fun b => absurd none b⟩
  · split
    · exact ⟨white_space, by simp⟩
    · exact ⟨frame.indent.white_newLine style, by simp [Indent.newLine]⟩

theorem separatorAfter_spec (frame : Frame) (gap : Gap) (before comments written after : Text)
    (last : GapComment) :
    White (separatorAfter style frame gap before comments written after last) ∧
      (after ≠ [] → last.isLine = true →
        separatorAfter style frame gap before comments written after last =
          frame.indent.newLine style) ∧
      (after = [] → separatorAfter style frame gap before comments written after last = []) := by
  unfold separatorAfter
  split
  · rename_i none
    exact ⟨white_nil, fun a => absurd none a, fun _ => rfl⟩
  · rename_i some
    split
    · exact ⟨frame.indent.white_newLine style, fun _ _ => rfl, fun none => absurd none some⟩
    · rename_i block
      split
      · exact ⟨white_space, fun _ line => absurd line block, fun none => absurd none some⟩
      · exact ⟨frame.indent.white_newLine style, fun _ _ => rfl, fun none => absurd none some⟩

theorem join_of_bare {gap : Gap} (bare : gap.comments = []) (frame : Frame) (extend : Bool)
    (before after : Text) :
    gap.join style frame extend before after = joinBare style frame extend before after := by
  rw [join]
  split
  · rfl
  · simp_all

theorem join_eq {gap : Gap} {first : GapComment} {rest : List GapComment}
    (comments : gap.comments = first :: rest) (frame : Frame) (extend : Bool)
    (before after : Text) :
    ∃ opening closing, White opening ∧ White closing ∧ (before ≠ [] → opening ≠ []) ∧
      (after ≠ [] → ((first :: rest).getLast (List.cons_ne_nil _ _)).isLine = true →
        closing = frame.indent.newLine style) ∧
      (after = [] → closing = []) ∧
      gap.join style frame extend before after =
        before ++ (opening ++ (first.render style frame.indent ++
          renderAfter style frame.indent first rest ++ closing)) ++ after := by
  unfold join
  split
  · rename_i none
    rw [none] at comments
    cases comments
  · rename_i first' rest' same
    obtain ⟨rfl, rfl⟩ := List.cons.inj (comments.symm.trans same)
    have text : gap.render style frame.indent =
        first.render style frame.indent ++ renderAfter style frame.indent first rest := by
      rw [render, comments]
    have opening := separatorBefore_spec style frame before (gap.render style frame.indent) first
    have closing := separatorAfter_spec style frame gap before (gap.render style frame.indent)
      (before ++ separatorBefore style frame before (gap.render style frame.indent) first ++
        gap.render style frame.indent) after ((first :: rest).getLast (List.cons_ne_nil _ _))
    exact ⟨_, _, opening.1, closing.1, opening.2, closing.2.1, closing.2.2, by simp [text]⟩

theorem join_solid {gap : Gap}
    (closed : ∀ comment ∈ gap.comments, ClosedComment comment.kind comment.text.trim)
    (frame : Frame) (extend : Bool) (before after : Text) :
    ∃ middle, gap.join style frame extend before after = before ++ middle ++ after ∧
      solid middle = gap.comments.map (GapComment.piece style frame.indent) ∧
      ∀ last ∈ gap.comments.getLast?, last.isLine = true → after ≠ [] →
        ∃ ps, pieces middle =
          ps ++ last.piece style frame.indent :: pieces (frame.indent.newLine style) := by
  cases comments : gap.comments with
  | nil =>
      obtain ⟨divider, white, text, -⟩ := joinBare_eq style frame extend before after
      exact ⟨divider, (join_of_bare style comments frame extend before after).trans text,
        white.pieces, by simp⟩
  | cons first rest =>
      obtain ⟨opening, closing, white, white', -, breaks, empty, text⟩ :=
        join_eq style comments frame extend before after
      rw [comments] at closed
      have ends : ((first :: rest).getLast (List.cons_ne_nil _ _)).isLine = true →
          AtBreak closing := by
        intro line
        by_cases none : after = []
        · simp [empty none, AtBreak]
        · have newLine := frame.indent.atBreak_newLine style []
          rwa [List.append_nil, ← breaks none line] at newLine
      refine ⟨_, text, ?_, ?_⟩
      · rw [solid_white_append _ white]
        simpa using solid_renderAfter style frame.indent closed white' [] (by simpa using ends)
      · intro last here line some
        rw [List.getLast?_eq_some_getLast (List.cons_ne_nil _ _)] at here
        obtain rfl := Option.some.inj here
        obtain ⟨ps, -, cut⟩ := pieces_renderAfter style frame.indent first rest closed
        have next := (closed first List.mem_cons_self).render style frame.indent
        refine ⟨pieces opening ++ ps, ?_⟩
        rw [List.append_assoc, pieces_append white.plain (next.atComment _), ← List.append_assoc,
          cut closing ends, List.append_assoc, breaks some line]

theorem join_reads {gap : Gap}
    (closed : ∀ comment ∈ gap.comments, ClosedComment comment.kind comment.text.trim)
    (frame : Frame) (extend : Bool) {before after : Text} (ends : EndsInk before)
    (more : before ≠ []) (shown : after ≠ []) (plain : Plain after) :
    ∃ divider rest, White divider ∧ divider ≠ [] ∧
      gap.join style frame extend before after = before ++ divider ++ (rest ++ after) ∧
      Reads (rest ++ after)
        (gap.comments.map (GapComment.piece style frame.indent) ++ solid after) := by
  cases comments : gap.comments with
  | nil =>
      obtain ⟨divider, white, text, apart⟩ := joinBare_eq style frame extend before after
      refine ⟨divider, [], white, apart more shown (Text.trim_lastLine_ne_nil ends more), ?_,
        by simpa using plain.reads⟩
      rw [join_of_bare style comments, text, List.nil_append]
  | cons first rest =>
      obtain ⟨opening, closing, white, white', apart, breaks, -, text⟩ :=
        join_eq style comments frame extend before after
      rw [comments] at closed
      refine ⟨opening, first.render style frame.indent ++
        renderAfter style frame.indent first rest ++ closing, white, apart more, ?_, ?_⟩
      · rw [text]
        simp only [List.append_assoc]
      · intro r joint
        rw [List.append_assoc, List.append_assoc,
          solid_renderAfter style frame.indent closed white', solid_append plain joint,
          List.append_assoc]
        intro line
        rw [breaks shown line]
        exact frame.indent.atBreak_newLine style _

end Gap

theorem Text.slice_middle (before middle after : Text) :
    (before ++ middle ++ after).slice (.ofLength before.length middle.length) = middle := by
  simp [Text.slice, Span.ofLength, Span.length]

theorem Text.ofLength_middle (before middle after : Text) :
    ∃ ordered : before.length ≤ (before ++ middle ++ after).length - after.length,
      (⟨before.length, (before ++ middle ++ after).length - after.length, ordered⟩ : Span) =
        .ofLength before.length middle.length := by
  have length :
      (before ++ middle ++ after).length - after.length = before.length + middle.length := by
    rw [List.length_append, Nat.add_sub_cancel, List.length_append]
  refine ⟨by rw [length]; exact Nat.le_add_right _ _, ?_⟩
  simp only [Span.ofLength, length]

namespace Gap

variable {gap : Gap} {before middle after : Text}

theorem read_of_solid_middle (style : Style) (indent : Indent)
    (closed : ∀ comment ∈ gap.comments, ClosedComment comment.kind comment.text.trim)
    (solids : solid middle = gap.comments.map (GapComment.piece style indent)) :
    ∃ again, Gap.read (before ++ middle ++ after) (.ofLength before.length middle.length) = .ok again ∧
      again.comments.map (fun comment => (comment.isLine, comment.text)) =
        gap.comments.map (fun comment => (comment.isLine, comment.render style indent)) := by
  have comments : ∀ piece ∈ solid ((before ++ middle ++ after).slice
      (.ofLength before.length middle.length)),
      piece.kind.isComment = true ∧ piece.unterminated = false := by
    rw [Text.slice_middle, solids]
    intro piece mem
    obtain ⟨comment, inside, rfl⟩ := List.mem_map.mp mem
    exact ⟨(closed comment inside).kind_isComment, rfl⟩
  obtain ⟨again, reread, same⟩ := Gap.read_of_solid comments
  refine ⟨again, reread, ?_⟩
  rw [Text.slice_middle, solids, List.map_map] at same
  have lines := congrArg (List.map fun pair => (pair.1 == TokenKind.lineComment, pair.2)) same
  simp only [List.map_map, Function.comp_def, GapComment.kind_beq] at lines
  refine lines.trans (List.map_congr_left fun comment _ => ?_)
  have ends := comment.endsInk_render style indent
  simp [GapComment.piece, GapComment.kind_beq, Text.trimRight_of_endsInk ends]

theorem drop_stop_of_getLast? {again : Gap} {ps : List Piece} {piece : Piece} {rest : Text}
    (reread :
      Gap.read (before ++ middle ++ after) (.ofLength before.length middle.length) = .ok again)
    (cut : pieces middle = ps ++ piece :: pieces rest) (comment : piece.kind.isComment = true)
    (plain : Plain rest) :
    ∀ last ∈ again.comments.getLast?, (before ++ middle).drop last.span.stop = rest := by
  intro last here
  have whole := congrArg (List.flatMap Piece.text) cut
  rw [flatMap_text_pieces, List.flatMap_append, List.flatMap_cons, flatMap_text_pieces] at whole
  rw [← Text.slice_middle before middle after] at cut
  have stop : last.span.stop =
      before.length + (ps.flatMap Piece.text).length + piece.text.length :=
    Gap.stop_of_getLast? reread cut comment (fun piece mem => (pieces_plain plain mem).1) last here
  rw [stop, whole, ← List.append_assoc, ← List.append_assoc]
  refine List.drop_left' ?_
  simp only [List.length_append, Nat.add_assoc]

end Gap

namespace Document

variable {doc : Document} {span : Span} {gap : Gap}

theorem join_of_read (found : Gap.read doc.source span = .ok gap) (frame : Frame) (extend : Bool)
    (before after : Text) :
    doc.join frame extend span before after = .ok (gap.join doc.style frame extend before after) := by
  rw [join, found]
  rfl

theorem join_rereads (frame : Frame) (extend : Bool) (before after : Text)
    (found : Gap.read doc.source span = .ok gap) :
    ∃ out again, doc.join frame extend span before after = .ok out ∧
      before <+: out ∧ after <:+ out ∧
      ∃ ordered : before.length ≤ out.length - after.length,
        Gap.read out ⟨before.length, out.length - after.length, ordered⟩ = .ok again ∧
        again.comments.map (fun comment => (comment.isLine, comment.text)) =
          gap.comments.map (fun comment =>
            (comment.isLine, comment.render doc.style frame.indent)) ∧
        ∀ last ∈ again.comments.getLast?, last.isLine = true → after ≠ [] →
          ∃ rest, (out.take (out.length - after.length)).drop last.span.stop = '\n' :: rest := by
  have closed : ∀ comment ∈ gap.comments, ClosedComment comment.kind comment.text.trim :=
    fun comment mem => Gap.closedComment_of_read found mem
  obtain ⟨middle, text, solids, lastLine⟩ :=
    Gap.join_solid doc.style closed frame extend before after
  obtain ⟨ordered, window⟩ := Text.ofLength_middle before middle after
  obtain ⟨again, reread, agree⟩ := Gap.read_of_solid_middle doc.style frame.indent closed solids
  refine ⟨before ++ middle ++ after, again, ?_, ?_, ?_, ordered, ?_, agree, ?_⟩
  · rw [join_of_read found, text]
  · rw [List.append_assoc]
    exact List.prefix_append _ _
  · exact List.suffix_append _ _
  · rw [window, reread]
  · intro last here line some
    have ends := congrArg List.getLast? agree
    rw [List.getLast?_map, List.getLast?_map, here] at ends
    obtain ⟨last', here', pair⟩ := Option.map_eq_some_iff.mp ends.symm
    obtain ⟨line', -⟩ := Prod.mk.inj pair
    obtain ⟨ps, cut⟩ := lastLine last' here' (line'.trans line) some
    refine ⟨frame.indent.render doc.style, ?_⟩
    have length :
        (before ++ middle ++ after).length - after.length = (before ++ middle).length := by
      rw [List.length_append, Nat.add_sub_cancel]
    rw [length, List.take_left]
    exact Gap.drop_stop_of_getLast? reread cut
      (closed last' (List.mem_of_getLast? here')).kind_isComment
      (frame.indent.white_newLine doc.style).plain last here

theorem join_rereads_two_comments :
    let doc : Document := { source := "a /* b\n  c */ // d\n e".toList }
    let gap : Gap :=
      ⟨[⟨"/* b\n  c */".toList, .ofLength 2 11, false, false, 2⟩,
        ⟨"// d".toList, .ofLength 14 4, true, false, 7⟩], true⟩
    Gap.read doc.source (.ofLength 1 18) = .ok gap ∧
      ∃ out again, doc.join { width := 9 } true (.ofLength 1 18) ['a'] ['e'] = .ok out ∧
        ['a'] <+: out ∧ ['e'] <:+ out ∧
        ∃ ordered : 1 ≤ out.length - 1,
          Gap.read out ⟨1, out.length - 1, ordered⟩ = .ok again ∧
          again.comments.map (fun comment => (comment.isLine, comment.text)) =
            gap.comments.map (fun comment => (comment.isLine, comment.render doc.style {})) ∧
          ∀ last ∈ again.comments.getLast?, last.isLine = true → ['e'] ≠ [] →
            ∃ rest, (out.take (out.length - 1)).drop last.span.stop = '\n' :: rest := by
  intro doc gap
  have found : Gap.read doc.source (.ofLength 1 18) = .ok gap := by
    have some : (Gap.read doc.source (.ofLength 1 18)).toOption = some gap := by decide +kernel
    cases read : Gap.read doc.source (.ofLength 1 18) with
    | error fault => simp [read, Except.toOption] at some
    | ok again => simpa [read, Except.toOption] using some
  exact ⟨found, join_rereads { width := 9 } true ['a'] ['e'] found⟩

end Document

end ItemLayout
