import ItemLayout.Proofs.Comment.Stable
import ItemLayout.Proofs.Header.Assembly
import ItemLayout.Proofs.Text.Lines

namespace ItemLayout

theorem Span.eq_of_bounds {a b : Span} (start : a.start = b.start) (stop : a.stop = b.stop) :
    a = b := by
  cases a
  cases b
  cases start
  cases stop
  rfl

theorem Span.isEmpty_ofLength {t : Text} (more : t ≠ []) (start : Nat) :
    (ofLength start t.length).isEmpty = false := by
  have size : 0 < t.length := List.length_pos_iff.mpr more
  simp only [isEmpty, ofLength, beq_eq_false_iff_ne]
  omega

/-- Spans at which texts stand in a text, one after another. -/
structure Placed (t : Text) (texts : List Text) (spans : List Span) : Prop where
  ordered : spans.Pairwise fun a b => a.stop ≤ b.start
  inside : ∀ span ∈ spans, span.stop ≤ t.length
  slices : spans.map t.slice = texts

theorem Placed.nil (t : Text) : Placed t [] [] := ⟨.nil, by simp, rfl⟩

theorem Placed.cons (before text after : Text) {texts : List Text} {spans : List Span}
    (placed : Placed (before ++ text ++ after) texts spans)
    (behind : ∀ span ∈ spans, (before ++ text).length ≤ span.start) :
    Placed (before ++ text ++ after) (text :: texts)
      (.ofLength before.length text.length :: spans) where
  ordered := List.pairwise_cons.mpr
    ⟨fun span mem => by simpa [Span.ofLength] using behind span mem, placed.ordered⟩
  inside := List.forall_mem_cons.mpr ⟨by simp [Span.ofLength], placed.inside⟩
  slices := by rw [List.map_cons, Text.slice_middle, placed.slices]

theorem Gap.joinBare_space {style : Style} {frame : Frame} {before after : Text} (ends : EndsInk before)
    (more : before ≠ []) (shown : after ≠ [])
    (room : before.lastLine.length + 1 + after.firstLine.length ≤ frame.width) :
    joinBare style frame true before after = before ++ [' '] ++ after := by
  have fits : before.lastLine.length + after.firstLine.length + [' '].length ≤ frame.width := by
    rw [List.length_singleton]
    omega
  unfold joinBare
  simp only [more, shown, Text.trim_lastLine_ne_nil ends more, or_self, if_false, fits, and_self,
    if_true]

namespace HeaderPart

def movedTo (part : HeaderPart) (span : Span) : HeaderPart := { part with span }

theorem gap_movedTo {previous part : HeaderPart} (located : previous.span.isEmpty = false)
    (shown : part.text ≠ []) (middle : Nat) :
    previous.gap (part.movedTo (.ofLength (previous.span.stop + middle) part.text.length)) =
      .ofLength previous.span.stop middle := by
  have visible := Span.isEmpty_ofLength shown (previous.span.stop + middle)
  have after : previous.span.stop ≤
      (Span.ofLength (previous.span.stop + middle) part.text.length).start := Nat.le_add_right _ _
  have order : previous.span.relation
      (.ofLength (previous.span.stop + middle) part.text.length) = .lt := if_pos after
  have gap : previous.gap (part.movedTo (.ofLength (previous.span.stop + middle) part.text.length)) =
      previous.span.gapTo (.ofLength (previous.span.stop + middle) part.text.length) := by
    simp [HeaderPart.gap, movedTo, located, visible, order]
  obtain ⟨start, stop⟩ := Span.gapTo_bounds after
  rw [gap]
  exact Span.eq_of_bounds start stop

theorem mem_movedTo {parts : List HeaderPart} {spans : List Span} {moved : HeaderPart}
    (mem : moved ∈ List.zipWith movedTo parts spans) : ∃ part ∈ parts, moved.text = part.text := by
  rw [← List.map_uncurry_zip_eq_zipWith] at mem
  obtain ⟨⟨part, span⟩, pair, rfl⟩ := List.mem_map.mp mem
  exact ⟨part, (List.of_mem_zip pair).1, rfl⟩

theorem filter_movedTo {parts : List HeaderPart} (shown : ∀ part ∈ parts, part.text ≠ [])
    (spans : List Span) :
    (List.zipWith movedTo parts spans).filter (·.text ≠ []) = List.zipWith movedTo parts spans := by
  refine List.filter_eq_self.mpr fun moved mem => ?_
  obtain ⟨part, listed, same⟩ := mem_movedTo mem
  exact decide_eq_true (same ▸ shown part listed)

end HeaderPart

namespace Document

variable (doc : Document)

/-! ## One more part -/

theorem headerJoin_again {frame : Frame} {written : Text} (previous : HeaderPart) {part : HeaderPart}
    (ends : EndsInk written) (more : written ≠ []) (shown : part.text ≠ []) :
    ∃ middle, doc.headerJoin frame written previous part = written ++ middle ++ part.text ∧
      ((written ++ middle ++ part.text).length ≤ frame.width → ∀ rest, ∃ gap,
        Gap.read (written ++ middle ++ (part.text ++ rest)) (.ofLength written.length middle.length) =
          .ok gap ∧
        gap.comments.map (·.text) = (doc.commentsBetween previous part).map
          (GapComment.render doc.style frame.indent) ∧
        ((∀ comment ∈ gap.comments, comment.Stays doc.style frame.indent) →
          gap.join doc.style frame true written part.text = written ++ middle ++ part.text) ∧
        (Gap.KeepsLines doc.style (doc.commentsBetween previous part) →
          ∀ comment ∈ gap.comments, comment.Stays doc.style frame.indent)) := by
  rw [commentsBetween_eq, headerJoin]
  cases found : Gap.read doc.source (previous.gap part) with
  | error fault =>
      refine ⟨[' '], ?_, fun room rest => ?_⟩
      · rw [join, found]
        simp [Functor.map, Except.map]
      · obtain ⟨again, reread, bare⟩ := Gap.read_white white_space written (part.text ++ rest)
        refine ⟨again, reread, by rw [bare]; rfl, fun _ => ?_, by simp [bare]⟩
        have line := written.length_line_le part.text
        rw [Gap.join_of_bare doc.style bare,
          Gap.joinBare_space ends more shown (Nat.le_trans line room)]
  | ok gap =>
      rw [join_of_read found]
      exact Gap.join_again (fun comment mem => Gap.closedComment_of_read found mem) frame true more
        shown

/-! ## All parts -/

theorem headerFrom_reread {frame : Frame} {written : Text} (previous : HeaderPart)
    {parts : List HeaderPart} (ends : EndsInk written) (more : written ≠ [])
    (tidy : ∀ part ∈ parts, part.text ≠ [] ∧ EndsInk part.text) {out : Text}
    (result : doc.headerFrom frame written previous parts = out) (room : out.length ≤ frame.width) :
    written <+: out ∧ ∃ spans, Placed out (parts.map (·.text)) spans ∧
      (∀ span ∈ spans, written.length ≤ span.start) ∧
      ∀ last : HeaderPart, last.span.isEmpty = false → last.span.stop = written.length →
        let again : Document := { doc with source := out }
        let moved := List.zipWith HeaderPart.movedTo parts spans
        (again.headerComments (last :: moved)).map (·.text) =
            (doc.headerComments (previous :: parts)).map (GapComment.render doc.style frame.indent) ∧
          ((∀ comment ∈ again.headerComments (last :: moved), comment.Stays doc.style frame.indent) →
            again.headerFrom frame written last moved = out) ∧
          (Gap.KeepsLines doc.style (doc.headerComments (previous :: parts)) →
            ∀ comment ∈ again.headerComments (last :: moved), comment.Stays doc.style frame.indent) := by
  -- A part is placed behind all that is written, and the gap in front of it is what was put there.
  induction parts generalizing written previous with
  | nil =>
      obtain rfl : written = out := result
      refine ⟨List.prefix_rfl, [], .nil _, by simp, fun _ _ _ => ⟨rfl, fun _ => rfl, ?_⟩⟩
      simp [headerComments]
  | cons part rest ih =>
      obtain ⟨⟨shown, ink⟩, tidy⟩ := List.forall_mem_cons.mp tidy
      obtain ⟨middle, text, again⟩ := doc.headerJoin_again previous ends more shown
      rw [headerFrom, text] at result
      obtain ⟨⟨tail, split⟩, spans, placed, behind, rerun⟩ :=
        ih part (ink.append shown) (by simp [shown]) tidy result
      subst split
      have here : written.length ≤ (written ++ middle).length := (List.prefix_append _ _).length_le
      have there : (written ++ middle).length ≤ (written ++ middle ++ part.text).length :=
        (List.prefix_append _ _).length_le
      refine ⟨⟨middle ++ part.text ++ tail, by simp⟩, _, placed.cons _ _ _ behind, ?_, ?_⟩
      · refine List.forall_mem_cons.mpr ⟨here, fun span mem => ?_⟩
        exact Nat.le_trans (Nat.le_trans here there) (behind span mem)
      · intro last located reached
        have fits : (written ++ middle ++ part.text).length ≤ frame.width :=
          Nat.le_trans (List.prefix_append _ tail).length_le room
        obtain ⟨gap, reread, texts, joined, kept⟩ := again fits tail
        have place := HeaderPart.gap_movedTo located shown middle.length
        rw [reached, ← List.length_append] at place
        rw [← List.append_assoc, ← place] at reread
        have between := commentsBetween_eq { doc with source := written ++ middle ++ part.text ++ tail }
          last (part.movedTo (.ofLength (written ++ middle).length part.text.length))
        rw [reread] at between
        obtain ⟨laterTexts, laterSame, laterKept⟩ :=
          rerun (part.movedTo (.ofLength (written ++ middle).length part.text.length))
            (Span.isEmpty_ofLength shown _) List.length_append.symm
        intro again moved
        have comments : again.headerComments (last :: moved) =
            gap.comments ++ again.headerComments
              (part.movedTo (.ofLength (written ++ middle).length part.text.length) ::
                List.zipWith HeaderPart.movedTo rest spans) := congrArg (· ++ _) between
        rw [comments, headerComments]
        refine ⟨?_, fun stays => ?_, fun keeps => ?_⟩
        · rw [List.map_append, List.map_append, texts, laterTexts]
        · obtain ⟨stay, stays⟩ := List.forall_mem_append.mp stays
          refine Eq.trans ?_ (laterSame stays)
          simp only [moved, List.zipWith_cons_cons, headerFrom, headerJoin]
          rw [join_of_read reread]
          exact congrArg (fun t => headerFrom _ frame t _ _) (joined stay)
        · refine List.forall_mem_append.mpr ⟨kept fun inline comment mem => ?_,
            laterKept fun inline comment mem => ?_⟩
          · exact keeps inline comment (List.mem_append_left _ mem)
          · exact keeps inline comment (List.mem_append_right _ mem)

theorem header_reread (frame : Frame) (parts : List HeaderPart)
    (tidy : ∀ part ∈ parts, part.text.trim = part.text)
    (room : (doc.header frame parts).length < Frame.unbounded) :
    let shown := parts.filter (·.text ≠ [])
    let out := doc.header frame parts
    ∃ spans, Placed out (shown.map (·.text)) spans ∧
      let again : Document := { doc with source := out }
      let moved := List.zipWith HeaderPart.movedTo shown spans
      (again.headerComments moved).map (·.text) =
          (doc.headerComments shown).map (GapComment.render doc.style frame.indent) ∧
        ((∀ comment ∈ again.headerComments moved, comment.Stays doc.style frame.indent) →
          again.header frame moved = out) ∧
        (Gap.KeepsLines doc.style (doc.headerComments shown) →
          ∀ comment ∈ again.headerComments moved, comment.Stays doc.style frame.indent) := by
  intro shown out
  have visible : ∀ part ∈ shown, part.text ≠ [] := fun part mem =>
    of_decide_eq_true (List.mem_filter.mp mem).2
  have ink : ∀ part ∈ shown, part.text ≠ [] ∧ EndsInk part.text := by
    intro part mem
    have trimmed := tidy part (List.mem_filter.mp mem).1
    exact ⟨visible part mem, trimmed ▸ Text.endsInk_trim part.text⟩
  cases split : parts.filter (·.text ≠ []) with
  | nil =>
      have none : out = [] := by
        simp only [out, header, split]
      simp only [shown, split, none]
      exact ⟨[], .nil _, rfl, fun _ => rfl, by simp [headerComments]⟩
  | cons first rest =>
      have result : doc.headerFrom frame.unlimited first.text first rest = out := by
        simp only [out, header, split]
      change shown = _ at split
      rw [split] at visible ink ⊢
      obtain ⟨⟨more, ink⟩, tidy⟩ := List.forall_mem_cons.mp ink
      obtain ⟨⟨tail, text⟩, spans, placed, behind, again⟩ :=
        doc.headerFrom_reread first ink more tidy result (Nat.le_of_lt room)
      rw [← text] at placed again ⊢
      obtain ⟨texts, same, kept⟩ := again (first.movedTo (.ofLength 0 first.text.length))
        (Span.isEmpty_ofLength more 0) (Nat.zero_add _)
      refine ⟨_, placed.cons [] first.text tail behind, texts, fun stays => ?_, kept⟩
      rw [header, HeaderPart.filter_movedTo visible]
      exact same stays

theorem header_idempotent (frame : Frame) (parts : List HeaderPart)
    (apart : doc.style.inlineComments = false)
    (tidy : ∀ part ∈ parts, part.text.trim = part.text)
    (room : (doc.header frame parts).length < Frame.unbounded) :
    let shown := parts.filter (·.text ≠ [])
    let out := doc.header frame parts
    ∃ spans, Placed out (shown.map (·.text)) spans ∧
      ({ doc with source := out } : Document).header frame
        (List.zipWith HeaderPart.movedTo shown spans) = out := by
  intro shown out
  obtain ⟨spans, placed, -, same, stays⟩ := doc.header_reread frame parts tidy room
  have keeps : Gap.KeepsLines doc.style (doc.headerComments shown) := by
    intro inline
    simp [apart] at inline
  exact ⟨spans, placed, same (stays keeps)⟩

theorem header_idempotent_tabs :
    let source : Text := "pub /* a\n     b */ const // c\n fn{}f".toList
    let doc : Document := { source, style := { hardTabs := true } }
    let frame : Frame := { width := 8, indent := { block := 4, align := 1 } }
    let parts : List HeaderPart :=
      [⟨"pub".toList, .ofLength 0 3⟩, ⟨"const".toList, .ofLength 19 5⟩, ⟨[], .nowhere⟩,
        ⟨"fn".toList, .ofLength 31 2⟩, ⟨"f".toList, .ofLength 35 1⟩]
    let out : Text := "pub\n\t /* a\n\t  b */\n\t const\n\t // c\n\t fn f".toList
    doc.header frame parts = out ∧
      ∃ spans, Placed out ["pub".toList, "const".toList, "fn".toList, "f".toList] spans ∧
        ({ doc with source := out } : Document).header frame
          (List.zipWith HeaderPart.movedTo (parts.filter (·.text ≠ [])) spans) = out := by
  intro source doc frame parts out
  have written : doc.header frame parts = out := by decide +kernel
  have again := doc.header_idempotent frame parts rfl (by decide +kernel) (by decide +kernel)
  simp only [written] at again
  exact ⟨written, again⟩

/-! ## Comments that stay inline -/

theorem header_again_iff (frame : Frame) (parts : List HeaderPart)
    (tidy : ∀ part ∈ parts, part.text.trim = part.text ∧ Plain part.text)
    (room : (doc.header frame parts).length < Frame.unbounded) :
    let shown := parts.filter (·.text ≠ [])
    let out := doc.header frame parts
    ∃ spans, Placed out (shown.map (·.text)) spans ∧
      let again : Document := { doc with source := out }
      let moved := List.zipWith HeaderPart.movedTo shown spans
      (again.header frame moved = out ↔ ∀ comment ∈ again.headerComments moved,
          comment.render doc.style frame.indent = comment.text) ∧
        ((∀ comment ∈ doc.headerComments shown, '\n' ∈ comment.text → comment.afterBreak = true) →
          again.header frame moved = out) := by
  intro shown out
  have ink : ∀ part ∈ parts, EndsInk part.text ∧ Plain part.text := by
    intro part mem
    obtain ⟨trimmed, plain⟩ := tidy part mem
    exact ⟨trimmed ▸ Text.endsInk_trim part.text, plain⟩
  obtain ⟨spans, placed, texts, same, kept⟩ :=
    doc.header_reread frame parts (fun part mem => (tidy part mem).1) room
  refine ⟨spans, placed, ⟨fun rerun => ?_, same⟩, fun keeps => same (kept fun _ => keeps)⟩
  -- Both runs write one text, so the comments that the second one renders are those it reads.
  have moved : ∀ part ∈ List.zipWith HeaderPart.movedTo shown spans,
      EndsInk part.text ∧ Plain part.text := by
    intro part mem
    obtain ⟨origin, listed, text⟩ := HeaderPart.mem_movedTo mem
    exact text ▸ ink origin (List.mem_filter.mp listed).1
  have visible : ∀ part ∈ shown, part.text ≠ [] := fun part mem =>
    of_decide_eq_true (List.mem_filter.mp mem).2
  have first := doc.filter_comment_header frame ink
  have second := filter_comment_header { doc with source := out } frame moved
  rw [rerun, HeaderPart.filter_movedTo visible] at second
  have pieces := congrArg (List.map Piece.text) (second.symm.trans first)
  rw [List.map_map, List.map_map] at pieces
  exact List.map_inj_left.mp (pieces.trans texts.symm)

theorem header_again_own_line :
    let source : Text := "pub // c\n     /* a\n       b */ fn /* d */ f".toList
    let doc : Document := { source, style := { inlineComments := true } }
    let frame : Frame := { width := 100 }
    let parts : List HeaderPart :=
      [⟨"pub".toList, .ofLength 0 3⟩, ⟨"fn".toList, .ofLength 31 2⟩, ⟨"f".toList, .ofLength 42 1⟩]
    let out : Text := "pub // c\n/* a\n  b */\nfn /* d */\nf".toList
    doc.header frame parts = out ∧
      ∃ spans, Placed out ["pub".toList, "fn".toList, "f".toList] spans ∧
        ({ doc with source := out } : Document).header frame
          (List.zipWith HeaderPart.movedTo (parts.filter (·.text ≠ [])) spans) = out := by
  intro source doc frame parts out
  have written : doc.header frame parts = out := by decide +kernel
  obtain ⟨spans, placed, -, again⟩ :=
    doc.header_again_iff frame parts (by decide +kernel) (by decide +kernel)
  simp only [written] at placed again
  exact ⟨written, spans, placed, again (by decide +kernel)⟩

/-- A block comment behind `pub` moves its second line with the indent, not with its own opener:
read again, the line stands too far left by the columns in front of the comment. -/
theorem header_not_again_inline :
    let source : Text := "pub /* a\n       b */ fn".toList
    let doc : Document := { source, style := { inlineComments := true } }
    let frame : Frame := { width := 100 }
    let parts : List HeaderPart := [⟨"pub".toList, .ofLength 0 3⟩, ⟨"fn".toList, .ofLength 21 2⟩]
    let out : Text := "pub /* a\n   b */\nfn".toList
    let spans : List Span := [.ofLength 0 3, .ofLength 17 2]
    doc.header frame parts = out ∧ Placed out ["pub".toList, "fn".toList] spans ∧
      ({ doc with source := out } : Document).header frame
        (List.zipWith HeaderPart.movedTo parts spans) = "pub /* a\nb */\nfn".toList := by
  intro source doc frame parts out spans
  refine ⟨by decide +kernel, ⟨?_, ?_, ?_⟩, by decide +kernel⟩
  · simp [spans, Span.ofLength]
  · simp [spans, Span.ofLength, out]
  · decide +kernel

end Document

end ItemLayout
