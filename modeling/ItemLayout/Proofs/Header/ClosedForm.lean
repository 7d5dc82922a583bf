import ItemLayout.Proofs.Header.Stable

namespace ItemLayout

namespace Gap

variable {style : Style} {frame : Frame} {gap : Gap}

def ownLines (style : Style) (indent : Indent) (comments : List GapComment) : Text :=
  let newLine := indent.newLine style
  newLine ++ newLine.intercalate (comments.map (GapComment.render style indent)) ++ newLine

theorem renderAfter_own (own : style.inlineComments = false) (indent : Indent) (previous : GapComment)
    (comments : List GapComment) :
    renderAfter style indent previous comments =
      (comments.map (GapComment.render style indent)).flatMap (indent.newLine style ++ ·) := by
  induction comments generalizing previous with
  | nil => rfl
  | cons comment rest ih =>
      rw [renderAfter, own, ih, List.map_cons, List.flatMap_cons]
      rfl

theorem render_own (own : style.inlineComments = false) (indent : Indent) (gap : Gap) :
    gap.render style indent =
      (indent.newLine style).intercalate (gap.comments.map (GapComment.render style indent)) := by
  unfold render
  cases gap.comments with
  | nil => rfl
  | cons first rest => rw [List.map_cons, intercalate_cons, ← renderAfter_own own]

theorem separatorBefore_own (own : style.inlineComments = false) (frame : Frame) {before : Text}
    (more : before ≠ []) (comments : Text) (first : GapComment) :
    separatorBefore style frame before comments first = frame.indent.newLine style := by
  simp [separatorBefore, more, own]

theorem separatorAfter_own (own : style.inlineComments = false) (frame : Frame) (gap : Gap)
    (before comments written : Text) {after : Text} (shown : after ≠ []) (last : GapComment) :
    separatorAfter style frame gap before comments written after last =
      frame.indent.newLine style := by
  simp [separatorAfter, shown, own]

theorem join_own (own : style.inlineComments = false) (some : gap.comments ≠ []) (extend : Bool)
    {before after : Text} (more : before ≠ []) (shown : after ≠ []) :
    gap.join style frame extend before after =
      before ++ ownLines style frame.indent gap.comments ++ after := by
  obtain ⟨first, rest, comments⟩ := List.exists_cons_of_ne_nil some
  rw [join_cons comments, separatorBefore_own own frame more, separatorAfter_own own frame _ _ _ _ shown,
    render_own own, ownLines]
  simp only [List.append_assoc]

end Gap

namespace Document

variable (doc : Document)

def joint (indent : Indent) (previous part : HeaderPart) : Text :=
  if doc.commentsBetween previous part = [] then [' ']
  else Gap.ownLines doc.style indent (doc.commentsBetween previous part)

def headerRest (indent : Indent) (previous : HeaderPart) : List HeaderPart → Text
  | [] => []
  | part :: rest => doc.joint indent previous part ++ part.text ++ headerRest indent part rest

def headerText (indent : Indent) : List HeaderPart → Text
  | [] => []
  | first :: rest => first.text ++ doc.headerRest indent first rest

variable {doc} {frame : Frame} {written : Text} {previous part : HeaderPart}

theorem headerJoin_own (own : doc.style.inlineComments = false) (ends : EndsInk written)
    (more : written ≠ []) (shown : part.text ≠ [])
    (room : doc.joint frame.indent previous part = [' '] →
      written.lastLine.length + 1 + part.text.firstLine.length ≤ frame.width) :
    doc.headerJoin frame written previous part =
      written ++ doc.joint frame.indent previous part ++ part.text := by
  unfold joint at room ⊢
  rw [commentsBetween_eq] at room ⊢
  rw [headerJoin]
  cases found : Gap.read doc.source (previous.gap part) with
  | error fault =>
      rw [join, found]
      show written ++ ' ' :: part.text = _
      rw [if_pos rfl, List.append_assoc]
      rfl
  | ok gap =>
      rw [found] at room
      rw [join_of_read found]
      by_cases bare : gap.comments = []
      · simp only [if_pos bare]
        rw [Gap.join_of_bare doc.style bare,
          Gap.joinBare_space ends more shown (room (if_pos bare))]
      · simp only [if_neg bare]
        rw [Gap.join_own own bare true more shown]

theorem lineWidth_joint (written rest : Text) (part : HeaderPart) :
    written.lastLine.length + 1 + part.text.firstLine.length ≤
      Text.lineWidth 0 (written ++ ([' '] ++ part.text ++ rest)) written.length := by
  have line : Text.firstLine ([' '] ++ part.text ++ rest) =
      ' ' :: Text.firstLine (part.text ++ rest) := rfl
  have first := part.text.length_firstLine_le_append rest
  rw [Text.lineWidth_append, Text.endColumn_zero, line, List.length_cons]
  omega

theorem headerFrom_own (own : doc.style.inlineComments = false) {parts : List HeaderPart}
    (ends : EndsInk written) (more : written ≠ [])
    (tidy : ∀ part ∈ parts, part.text ≠ [] ∧ EndsInk part.text)
    (room : ∀ offset, Text.lineWidth 0 (written ++ doc.headerRest frame.indent previous parts) offset ≤
      frame.width) :
    doc.headerFrom frame written previous parts =
      written ++ doc.headerRest frame.indent previous parts := by
  induction parts generalizing written previous with
  | nil => exact (List.append_nil written).symm
  | cons part rest ih =>
      obtain ⟨⟨shown, ink⟩, tidy⟩ := List.forall_mem_cons.mp tidy
      have step : doc.headerJoin frame written previous part =
          written ++ doc.joint frame.indent previous part ++ part.text := by
        apply headerJoin_own own ends more shown
        intro space
        have line := room written.length
        rw [headerRest, space] at line
        exact Nat.le_trans (lineWidth_joint written _ part) line
      have regroup : written ++ doc.headerRest frame.indent previous (part :: rest) =
          written ++ doc.joint frame.indent previous part ++ part.text ++
            doc.headerRest frame.indent part rest := by
        rw [headerRest]
        simp only [List.append_assoc]
      rw [regroup] at room ⊢
      rw [headerFrom, step]
      exact ih (ink.append shown) (by simp [shown]) tidy room

theorem header_eq_headerText (own : doc.style.inlineComments = false) {parts : List HeaderPart}
    (tidy : ∀ part ∈ parts, part.text.trim = part.text)
    (room : ∀ offset, Text.lineWidth 0
      (doc.headerText frame.indent (parts.filter (·.text ≠ []))) offset ≤ Frame.unbounded) :
    doc.header frame parts = doc.headerText frame.indent (parts.filter (·.text ≠ [])) := by
  have tidy : ∀ part ∈ parts.filter (·.text ≠ []), part.text ≠ [] ∧ EndsInk part.text := by
    intro part mem
    obtain ⟨mem, shown⟩ := List.mem_filter.mp mem
    exact ⟨of_decide_eq_true shown, tidy part mem ▸ Text.endsInk_trim part.text⟩
  unfold header
  cases split : parts.filter (·.text ≠ []) with
  | nil => rfl
  | cons first rest =>
      rw [split] at tidy room
      obtain ⟨⟨more, ink⟩, tidy⟩ := List.forall_mem_cons.mp tidy
      exact headerFrom_own own ink more tidy room

theorem headerText_bare (indent : Indent) {shown : List HeaderPart}
    (none : doc.headerComments shown = []) :
    doc.headerText indent shown = [' '].intercalate (shown.map (·.text)) := by
  cases shown with
  | nil => rfl
  | cons first rest =>
      rw [headerText, List.map_cons, intercalate_cons]
      congr 1
      induction rest generalizing first with
      | nil => rfl
      | cons part rest ih =>
          obtain ⟨here, later⟩ := List.append_eq_nil_iff.mp none
          rw [headerRest, joint, if_pos here, List.map_cons, List.flatMap_cons, ih part later]

theorem mem_spaced_iff (shown : List HeaderPart) :
    '\n' ∈ [' '].intercalate (shown.map (·.text)) ↔ ∃ part ∈ shown, '\n' ∈ part.text := by
  have space : [' '].count '\n' = 0 := by decide
  rw [← List.count_pos_iff, count_intercalate, space, Nat.mul_zero, Nat.zero_add,
    List.count_pos_iff, ← List.flatMap_def, List.mem_flatMap]

/-- The parts in order, each divided from the one before it by a space or by the comments between
them, whatever the width of the frame. A line is never too wide in a header that is no longer than
`Frame.unbounded`. -/
theorem header_closedForm (own : doc.style.inlineComments = false) (frame : Frame)
    {parts : List HeaderPart} (tidy : ∀ part ∈ parts, part.text.trim = part.text)
    (room : ∀ offset, Text.lineWidth 0
      (doc.headerText frame.indent (parts.filter (·.text ≠ []))) offset ≤ Frame.unbounded) :
    let shown := parts.filter (·.text ≠ [])
    doc.header frame parts = doc.headerText frame.indent shown ∧
      (doc.headerComments shown = [] →
        doc.header frame parts = [' '].intercalate (shown.map (·.text)) ∧
        ('\n' ∈ doc.header frame parts ↔ ∃ part ∈ shown, '\n' ∈ part.text)) := by
  intro shown
  have text := header_eq_headerText own tidy room
  refine ⟨text, fun none => ?_⟩
  rw [text, headerText_bare frame.indent none]
  exact ⟨rfl, mem_spaced_iff shown⟩

theorem header_closedForm_no_width :
    let doc : Document :=
      { source := "pub /* a\n  b */ // c\nfn f".toList, style := { hardTabs := true } }
    let frame : Frame := { width := 0, indent := { block := 4 } }
    let parts : List HeaderPart :=
      [⟨"pub".toList, .ofLength 0 3⟩, ⟨[], .nowhere⟩, ⟨"fn".toList, .ofLength 21 2⟩,
        ⟨"f<T>".toList, .nowhere⟩]
    (∀ part ∈ parts, part.text.trim = part.text) ∧
      doc.header frame parts = "pub\n\t/* a\n\tb */\n\t// c\n\tfn f<T>".toList ∧
      doc.header frame (parts.drop 1) = "fn f<T>".toList := by
  intro doc frame parts
  have own : doc.style.inlineComments = false := rfl
  have tidy : ∀ part ∈ parts, part.text.trim = part.text := by decide +kernel
  have fits (t : Text) (short : 0 + t.length ≤ Frame.unbounded) (offset : Nat) :
      Text.lineWidth 0 t offset ≤ Frame.unbounded :=
    Nat.le_trans (Text.lineWidth_le 0 t offset) short
  have later : ∀ part ∈ parts.drop 1, part.text.trim = part.text :=
    fun part mem => tidy part (List.mem_of_mem_drop mem)
  obtain ⟨text, -⟩ := header_closedForm own frame tidy (fits _ (by decide +kernel))
  obtain ⟨-, spaced⟩ := header_closedForm own frame later (fits _ (by decide +kernel))
  exact ⟨tidy, text.trans (by decide +kernel), (spaced (by decide +kernel)).1.trans (by decide +kernel)⟩

end Document

end ItemLayout
