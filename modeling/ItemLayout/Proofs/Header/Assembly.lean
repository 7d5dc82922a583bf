import ItemLayout.Header.Assembly
import ItemLayout.Proofs.Comment.Join
import ItemLayout.Proofs.Token.Views

namespace ItemLayout

namespace Document

variable (doc : Document)

/-! ## What belongs between two parts -/

/-- The comments between two parts: those of the gap between them, if both have a place in the
source, the second after the first, and nothing but comments stands there. -/
def commentsBetween (previous part : HeaderPart) : List GapComment :=
  if previous.span.isEmpty = false ∧ part.span.isEmpty = false ∧
      previous.span.relation part.span = .lt then
    match Gap.read doc.source (previous.span.gapTo part.span) with
    | .ok gap => gap.comments
    | .error _ => []
  else []

def headerComments : List HeaderPart → List GapComment
  | previous :: part :: rest =>
      doc.commentsBetween previous part ++ headerComments (part :: rest)
  | _ => []

theorem commentsBetween_eq (previous part : HeaderPart) :
    doc.commentsBetween previous part =
      match Gap.read doc.source (previous.gap part) with
      | .ok gap => gap.comments
      | .error _ => [] := by
  unfold commentsBetween HeaderPart.gap
  by_cases located : previous.span.isEmpty = false ∧ part.span.isEmpty = false ∧
      previous.span.relation part.span = .lt
  · rw [if_pos located, if_neg (by simp [located])]
  · -- Without a gap of its own a part reads an empty one, which has no comments.
    rw [if_neg located, if_pos (by grind), Gap.read_emptyAt]

/-! ## One more part -/

theorem headerJoin_eq (frame : Frame) {written : Text} (previous : HeaderPart) {part : HeaderPart}
    (ends : EndsInk written) (more : written ≠ []) (shown : part.text ≠ []) (plain : Plain part.text) :
    ∃ divider rest, White divider ∧ divider ≠ [] ∧
      doc.headerJoin frame written previous part = written ++ divider ++ (rest ++ part.text) ∧
      Reads (rest ++ part.text)
        ((doc.commentsBetween previous part).map (GapComment.piece doc.style frame.indent) ++
          solid part.text) := by
  rw [commentsBetween_eq, headerJoin]
  cases found : Gap.read doc.source (previous.gap part) with
  | error fault =>
      refine ⟨[' '], [], white_space, by simp, ?_, by simpa using plain.reads⟩
      rw [join, found]
      simp [Functor.map, Except.map]
  | ok gap =>
      rw [join_of_read found]
      exact Gap.join_reads doc.style (fun comment mem => Gap.closedComment_of_read found mem) frame
        true ends more shown plain

/-! ## All parts -/

def headerPieces (indent : Indent) (previous : HeaderPart) : List HeaderPart → List Piece
  | [] => []
  | part :: rest =>
      (doc.commentsBetween previous part).map (GapComment.piece doc.style indent) ++
        solid part.text ++ headerPieces indent part rest

theorem headerFrom_reads (frame : Frame) {written : Text} {ps : List Piece} (previous : HeaderPart)
    {parts : List HeaderPart} (reads : Reads written ps) (ends : EndsInk written)
    (more : written ≠ [])
    (tidy : ∀ part ∈ parts, part.text ≠ [] ∧ EndsInk part.text ∧ Plain part.text) :
    Reads (doc.headerFrom frame written previous parts)
      (ps ++ doc.headerPieces frame.indent previous parts) := by
  -- What is written ends in ink, so each part is divided from the one before it.
  induction parts generalizing written ps previous with
  | nil => simpa [headerFrom, headerPieces] using reads
  | cons part rest ih =>
      obtain ⟨⟨shown, ink, plain⟩, tidy⟩ := List.forall_mem_cons.mp tidy
      obtain ⟨divider, middle, white, apart, text, next⟩ :=
        doc.headerJoin_eq frame previous ends more shown plain
      rw [headerFrom, headerPieces, ← List.append_assoc]
      refine ih part ?_ ?_ ?_ tidy
      · rw [text]
        exact reads.append white apart next
      · rw [text, ← List.append_assoc]
        exact ink.append shown
      · simp [text, shown]

theorem headerPieces_unterminated (indent : Indent) (previous : HeaderPart) {parts : List HeaderPart}
    (plain : ∀ part ∈ parts, Plain part.text) :
    ∀ piece ∈ doc.headerPieces indent previous parts, piece.unterminated = false := by
  induction parts generalizing previous with
  | nil => simp [headerPieces]
  | cons part rest ih =>
      obtain ⟨here, plain⟩ := List.forall_mem_cons.mp plain
      intro piece mem
      rw [headerPieces, List.mem_append, List.mem_append] at mem
      obtain (comment | code) | later := mem
      · obtain ⟨comment, -, rfl⟩ := List.mem_map.mp comment
        rfl
      · exact (pieces_plain here (List.mem_filter.mp code).1).2
      · exact ih part plain piece later

theorem filter_comment_headerPieces (indent : Indent) (previous : HeaderPart)
    {parts : List HeaderPart} (plain : ∀ part ∈ parts, Plain part.text) :
    (doc.headerPieces indent previous parts).filter (·.kind.isComment) =
      (doc.headerComments (previous :: parts)).map (GapComment.piece doc.style indent) := by
  induction parts generalizing previous with
  | nil => rfl
  | cons part rest ih =>
      obtain ⟨here, plain⟩ := List.forall_mem_cons.mp plain
      rw [headerPieces, headerComments, List.filter_append, List.filter_append, ih part plain,
        here.filter_comment_solid, List.append_nil, List.map_append, List.filter_eq_self.mpr]
      intro piece mem
      obtain ⟨comment, -, rfl⟩ := List.mem_map.mp mem
      exact comment.kind_isComment

theorem filter_code_headerPieces (indent : Indent) (previous : HeaderPart) (parts : List HeaderPart) :
    ((doc.headerPieces indent previous parts).filter (!·.kind.isTrivia)).map Piece.text =
      parts.flatMap fun part => codeOf part.text := by
  induction parts generalizing previous with
  | nil => rfl
  | cons part rest ih =>
      have comments : ((doc.commentsBetween previous part).map
          (GapComment.piece doc.style indent)).filter (!·.kind.isTrivia) = [] := by
        refine List.filter_eq_nil_iff.mpr fun piece mem => ?_
        obtain ⟨comment, -, rfl⟩ := List.mem_map.mp mem
        simp [GapComment.piece, comment.kind_isTrivia]
      rw [headerPieces, List.filter_append, List.filter_append, comments, List.nil_append,
        List.map_append, ih, List.flatMap_cons, codeOf_eq_solid]

theorem solid_header (frame : Frame) {parts : List HeaderPart}
    (tidy : ∀ part ∈ parts, EndsInk part.text ∧ Plain part.text) :
    let shown := parts.filter (·.text ≠ [])
    (shown = [] ∧ solid (doc.header frame parts) = []) ∨
      ∃ first rest, shown = first :: rest ∧ (∀ part ∈ first :: rest, Plain part.text) ∧
        solid (doc.header frame parts) =
          solid first.text ++ doc.headerPieces frame.indent first rest := by
  intro shown
  have tidy : ∀ part ∈ shown, part.text ≠ [] ∧ EndsInk part.text ∧ Plain part.text := by
    intro part mem
    obtain ⟨mem, shown⟩ := List.mem_filter.mp mem
    exact ⟨of_decide_eq_true shown, tidy part mem⟩
  unfold header
  cases split : parts.filter (·.text ≠ []) with
  | nil => exact .inl ⟨split, solid_nil⟩
  | cons first rest =>
      simp only [shown, split] at tidy
      refine .inr ⟨first, rest, split, fun part mem => (tidy part mem).2.2, ?_⟩
      obtain ⟨⟨more, ink, plain⟩, tidy⟩ := List.forall_mem_cons.mp tidy
      exact (doc.headerFrom_reads frame.unlimited first plain.reads ink more tidy).solid_eq

theorem filter_comment_header (frame : Frame) {parts : List HeaderPart}
    (tidy : ∀ part ∈ parts, EndsInk part.text ∧ Plain part.text) :
    (solid (doc.header frame parts)).filter (·.kind.isComment) =
      (doc.headerComments (parts.filter (·.text ≠ []))).map
        (GapComment.piece doc.style frame.indent) := by
  rcases doc.solid_header frame tidy with ⟨none, solids⟩ | ⟨first, rest, split, plains, solids⟩
  · rw [solids, none]
    rfl
  · obtain ⟨plain, plains⟩ := List.forall_mem_cons.mp plains
    rw [solids, split, List.filter_append, plain.filter_comment_solid, List.nil_append]
    exact doc.filter_comment_headerPieces frame.indent first plains

theorem header_tokens (frame : Frame) (parts : List HeaderPart)
    (tidy : ∀ part ∈ parts, part.text.trim = part.text ∧ Plain part.text) :
    let shown := parts.filter (·.text ≠ [])
    LeavesNothingOpen (doc.header frame parts) ∧
      commentsOf (doc.header frame parts) =
        (doc.headerComments shown).map (fun comment =>
          (comment.kind, comment.render doc.style frame.indent)) ∧
      codeOf (doc.header frame parts) = shown.flatMap fun part => codeOf part.text := by
  intro shown
  have tidy : ∀ part ∈ parts, EndsInk part.text ∧ Plain part.text := by
    intro part mem
    obtain ⟨trimmed, plain⟩ := tidy part mem
    exact ⟨trimmed ▸ Text.endsInk_trim part.text, plain⟩
  have comments : commentsOf (doc.header frame parts) = (doc.headerComments shown).map
      (fun comment => (comment.kind, comment.render doc.style frame.indent)) := by
    rw [commentsOf_eq_solid, doc.filter_comment_header frame tidy, List.map_map]
    rfl
  rcases doc.solid_header frame tidy with ⟨none, solids⟩ | ⟨first, rest, split, plains, solids⟩
  · refine ⟨leavesNothingOpen_of_solid _ (by simp [solids]), comments, ?_⟩
    rw [codeOf_eq_solid, solids, show shown = [] from none]
    rfl
  · obtain ⟨plain, plains⟩ := List.forall_mem_cons.mp plains
    refine ⟨leavesNothingOpen_of_solid _ ?_, comments, ?_⟩
    · rw [solids]
      refine List.forall_mem_append.mpr ⟨fun piece mem => ?_,
        doc.headerPieces_unterminated frame.indent first plains⟩
      exact (pieces_plain plain (List.mem_filter.mp mem).1).2
    · rw [codeOf_eq_solid, solids, show shown = first :: rest from split, List.filter_append,
        List.map_append, doc.filter_code_headerPieces, List.flatMap_cons, codeOf_eq_solid first.text]

theorem header_tokens_two_comments :
    let doc : Document := { source := "pub /* a */ // b\nfn f".toList }
    let parts : List HeaderPart :=
      [⟨"pub".toList, .ofLength 0 3⟩, ⟨[], .nowhere⟩, ⟨"fn".toList, .ofLength 17 2⟩,
        ⟨"f<T>".toList, .nowhere⟩]
    (∀ part ∈ parts, part.text.trim = part.text ∧ Plain part.text) ∧
      LeavesNothingOpen (doc.header { width := 40 } parts) ∧
      commentsOf (doc.header { width := 40 } parts) =
        [(.blockComment, "/* a */".toList), (.lineComment, "// b".toList)] ∧
      codeOf (doc.header { width := 40 } parts) =
        ["pub".toList, "fn".toList, "f".toList, "<".toList, "T".toList, ">".toList] := by
  intro doc parts
  have tidy : ∀ part ∈ parts, part.text.trim = part.text ∧ Plain part.text := by decide +kernel
  obtain ⟨closed, comments, code⟩ := doc.header_tokens { width := 40 } parts tidy
  exact ⟨tidy, closed, comments.trans (by decide +kernel),
    code.trans (by decide +kernel)⟩

end Document

end ItemLayout
