import ItemLayout.Proofs.ItemList.Fill

namespace ItemLayout

theorem Indent.render_spaces {style : Style} (spaces : style.hardTabs = false) (indent : Indent) :
    indent.render style = List.replicate indent.width ' ' := by
  simp [Indent.render, spaces]

theorem Indent.length_render {style : Style} (spaces : style.hardTabs = false) (indent : Indent) :
    (indent.render style).length = indent.width := by
  rw [render_spaces spaces, List.length_replicate]

theorem Frame.width_shrunk {frame : Frame} (bounded : frame.width < unbounded) (columns : Nat) :
    (frame.shrunk columns).width = frame.width - columns := by
  have : frame.isUnbounded = false := by
    simp only [isUnbounded, beq_eq_false_iff_ne]
    omega
  rw [shrunk, this]
  rfl

theorem Frame.width_behind {frame : Frame} (bounded : frame.width < unbounded) (columns : Nat) :
    (frame.behind columns).width = frame.width - columns := by
  have shifted : (frame.shifted columns).width < unbounded := bounded
  exact width_shrunk shifted columns

theorem Frame.indent_shrunk (frame : Frame) (columns : Nat) :
    (frame.shrunk columns).indent = frame.indent := by
  unfold shrunk
  split <;> rfl

theorem Frame.offset_shrunk (frame : Frame) (columns : Nat) :
    (frame.shrunk columns).offset = frame.offset := by
  unfold shrunk
  split <;> rfl

structure ListSettings.Flexible (settings : ListSettings) : Prop where
  packing : settings.packing = .mixed ∨ settings.packing = .horizontalVertical
  trailing : settings.trailing ≠ .always
  single : '\n' ∉ settings.separator.trimRight
  short : settings.separator.trimRight.length ≤ 1

namespace ListSettings

variable {style : Style} {frame : Frame} {settings : ListSettings} {brackets : Brackets}
  {nested : Bool} {arrangement : Arrangement}

theorem form_style : (settings.form style frame brackets nested arrangement).style = style := by
  unfold form
  split <;> rfl

theorem form_frame_block (block : settings.indentStyle = .block) :
    (settings.form style frame brackets nested arrangement).frame =
      ((frame.stepIn style.tabStep).widened style).shrunk 1 := by
  simp only [form, block]

theorem form_frame_visual (visual : settings.indentStyle = .visual) :
    (settings.form style frame brackets nested arrangement).frame =
      ((frame.shifted brackets.opener.length).shrunk
        (brackets.opener.length + brackets.closer.length)).aligned 0 := by
  simp only [form, visual]

theorem length_margin (spaces : style.hardTabs = false) :
    (settings.form style frame brackets nested arrangement).margin.length =
      (settings.form style frame brackets nested arrangement).frame.indent.width := by
  rw [ListForm.margin, form_style]
  exact Indent.length_render spaces _

theorem length_margin_visual (visual : settings.indentStyle = .visual)
    (spaces : style.hardTabs = false) :
    (settings.form style frame brackets nested arrangement).margin.length =
      frame.indent.block + frame.offset + brackets.opener.length := by
  rw [length_margin spaces, form_frame_visual visual]
  simp only [Frame.aligned, Indent.width, Frame.indent_shrunk, Frame.offset_shrunk, Frame.shifted]
  omega

theorem spare_block (block : settings.indentStyle = .block) (spaces : style.hardTabs = false)
    (bounded : style.maxWidth < Frame.unbounded) (short : settings.separator.trimRight.length ≤ 1)
    {close : Text} (closes : close.firstLine = []) :
    ListWriter.Spare (settings.form style frame brackets nested arrangement) close
      style.maxWidth.toNat := by
  intro positive
  have mark : (settings.form style frame brackets nested arrangement).mark.length ≤ 1 := by
    rwa [ListForm.mark, form_separator]
  have narrow : ((frame.stepIn style.tabStep).widened style).width < Frame.unbounded := by
    simp only [Frame.widened, Frame.roomBeside, Frame.unbounded] at *
    omega
  rw [form_frame_block block, Frame.width_shrunk narrow] at positive
  rw [length_margin spaces, form_frame_block block, Frame.width_shrunk narrow, Frame.indent_shrunk,
    closes, List.length_nil]
  simp only [Frame.widened, Frame.roomBeside] at positive ⊢
  split <;> omega

theorem form_trails_false (optional : settings.trailing ≠ .always) :
    (settings.form style frame brackets nested arrangement).trails false = false := by
  unfold form ListForm.trails trailingInline
  cases policy : settings.trailing with
  | always => exact absurd policy optional
  | never | multilineOnly => cases settings.indentStyle <;> cases arrangement <;> rfl

theorem spare_visual (visual : settings.indentStyle = .visual) (spaces : style.hardTabs = false)
    (optional : settings.trailing ≠ .always) (narrow : frame.width < Frame.unbounded)
    {tail : Text} {limit : Nat}
    (room : 0 < frame.width →
      frame.indent.block + frame.offset + frame.width + tail.length ≤ limit) :
    ListWriter.Spare (settings.form style frame brackets nested arrangement)
      (brackets.closer ++ tail) limit := by
  intro positive
  have untrailed : (settings.form style frame brackets nested arrangement).trails true = false := by
    simp only [form, visual, ListForm.trails]
    cases policy : settings.trailing with
    | always => exact absurd policy optional
    | never | multilineOnly => rfl
  have width : (settings.form style frame brackets nested arrangement).frame.width =
      frame.width - (brackets.opener.length + brackets.closer.length) := by
    rw [form_frame_visual visual]
    have shifted : (frame.shifted brackets.opener.length).width < Frame.unbounded := narrow
    exact Frame.width_shrunk shifted _
  have closing := Text.length_firstLine_le (brackets.closer ++ tail)
  rw [List.length_append] at closing
  rw [length_margin_visual visual spaces, width, untrailed]
  rw [width] at positive
  have limited := room (by omega)
  simp only [Bool.false_eq_true, if_false]
  omega

end ListSettings

namespace Document

variable {doc : Document} {frame : Frame} {settings : ListSettings} {brackets : Brackets}
  {nested : Bool} {lineWidth : Int} {entries : List Entry} {form : ListForm}

theorem write_flat
    (formed : doc.listForm frame settings brackets nested (some lineWidth) entries = form)
    (flexible : settings.Flexible) (single : '\n' ∉ form.mark)
    (bare : ∀ entry ∈ entries, entry.Bare) (more : entries ≠ [])
    (horizontal : form.arrangement = .horizontal) :
    '\n' ∉ form.write entries ∧ ((form.write entries).length : Int) ≤ lineWidth := by
  have untrailed : form.trails false = false :=
    formed ▸ ListSettings.form_trails_false flexible.trailing
  have separator : form.separator = settings.separator := formed ▸ settings.form_separator ..
  have chosen : Arrangement.choose settings.packing settings.separator lineWidth entries =
      form.arrangement := formed ▸ (settings.form_arrangement ..).symm
  obtain ⟨links, text, -, flat, width⟩ := ListForm.write_horizontal horizontal bare more []
  rw [List.append_nil] at text
  rw [text, width, untrailed, separator]
  refine ⟨fun feed => List.not_mem_nil (flat single feed), ?_⟩
  exact ((Arrangement.choose_eq_horizontal_iff flexible.packing).mp (chosen.trans horizontal)).2.2

theorem write_fits_block
    (formed : doc.listForm frame settings brackets nested (some lineWidth) entries = form)
    (flexible : settings.Flexible) (single : '\n' ∉ form.mark)
    (spaces : doc.style.hardTabs = false) (bounded : doc.style.maxWidth < Frame.unbounded)
    (bare : ∀ entry ∈ entries, entry.Bare) (more : entries ≠ []) (block : settings.indentStyle = .block)
    (broken : '\n' ∈ form.write entries ∨ lineWidth < (form.write entries).length ∨
      form.arrangement = .vertical) (close : Text) (closes : close.firstLine = []) :
    ∃ links, form.write entries ++ close = chain links ∧
      Linked form.mark close (entries.map Entry.text) links ∧
      Fits doc.style.maxWidth.toNat form.margin.length links := by
  cases arranged : form.arrangement with
  | horizontal =>
      -- What fits on one line is not broken.
      obtain ⟨unbroken, width⟩ := write_flat formed flexible single bare more arranged
      rcases broken with feed | wide | vertical
      · exact absurd feed unbroken
      · omega
      · rw [arranged] at vertical
        cases vertical
  | vertical =>
      obtain ⟨links, text, linked, feeds⟩ := ListForm.write_vertical arranged bare more close
      exact ⟨links, text, linked, fits_of_feeds feeds _ _⟩
  | mixed =>
      have spare : ListWriter.Spare form close doc.style.maxWidth.toNat :=
        formed ▸ ListSettings.spare_block block spaces bounded flexible.short closes
      obtain ⟨links, text, linked, fits⟩ := ListForm.write_mixed arranged single bare more close
      exact ⟨links, text, linked, fits _ _ spare (Nat.le_refl _)⟩

theorem write_fits_inline {tail : Text} {column : Nat}
    (formed : doc.listForm frame settings brackets nested (some lineWidth) entries = form)
    (flexible : settings.Flexible) (single : '\n' ∉ form.mark)
    (spaces : doc.style.hardTabs = false) (narrow : frame.width < Frame.unbounded)
    (bare : ∀ entry ∈ entries, entry.Bare) (more : entries ≠ [])
    (inline : settings.indentStyle = .block → ¬ lineWidth < (form.write entries).length)
    (inside : 0 < lineWidth →
      lineWidth + brackets.opener.length + brackets.closer.length ≤ frame.width)
    (start : column ≤ frame.indent.block + frame.offset)
    (room : 0 < frame.width →
      frame.indent.block + frame.offset + frame.width + tail.length ≤ doc.style.maxWidth.toNat) :
    ∃ links, form.write entries ++ (brackets.closer ++ tail) = chain links ∧
      Linked form.mark (brackets.closer ++ tail) (entries.map Entry.text) links ∧
      Fits doc.style.maxWidth.toNat (column + brackets.opener.length) links := by
  have oneLine (width : ((form.write entries).length : Int) ≤ lineWidth) :
      ∃ links, form.write entries ++ (brackets.closer ++ tail) = chain links ∧
        Linked form.mark (brackets.closer ++ tail) (entries.map Entry.text) links ∧
        Fits doc.style.maxWidth.toNat (column + brackets.opener.length) links := by
    obtain ⟨links, text, linked⟩ := form.write_linked single bare more (brackets.closer ++ tail)
    have shown := List.length_pos_iff.mpr (form.write_ne_nil bare more)
    have within := inside (by omega)
    have limited := room (by omega)
    refine ⟨links, text, linked, fits_of_length ?_⟩
    rw [← text, List.length_append, List.length_append]
    omega
  cases indented : settings.indentStyle with
  | block => exact oneLine (Int.not_lt.mp (inline indented))
  | visual =>
      cases arranged : form.arrangement with
      | horizontal => exact oneLine (write_flat formed flexible single bare more arranged).2
      | vertical =>
          obtain ⟨links, text, linked, feeds⟩ :=
            ListForm.write_vertical arranged bare more (brackets.closer ++ tail)
          exact ⟨links, text, linked, fits_of_feeds feeds _ _⟩
      | mixed =>
          have spare : ListWriter.Spare form (brackets.closer ++ tail) doc.style.maxWidth.toNat :=
            formed ▸ ListSettings.spare_visual indented spaces flexible.trailing narrow room
          have margin : form.margin.length =
              frame.indent.block + frame.offset + brackets.opener.length :=
            formed ▸ ListSettings.length_margin_visual indented spaces
          obtain ⟨links, text, linked, fits⟩ :=
            ListForm.write_mixed arranged single bare more (brackets.closer ++ tail)
          exact ⟨links, text, linked, fits _ _ spare (by omega)⟩

theorem layoutList_fits (tail : Text) {column : Nat} (flexible : settings.Flexible)
    (spaces : doc.style.hardTabs = false) (bounded : doc.style.maxWidth < Frame.unbounded)
    (narrow : frame.width < Frame.unbounded) (bare : ∀ entry ∈ entries, entry.Bare)
    (more : entries ≠ []) (opens : '\n' ∉ brackets.opener)
    (inside : 0 < lineWidth →
      lineWidth + brackets.opener.length + brackets.closer.length ≤ frame.width)
    (start : column ≤ frame.indent.block + frame.offset)
    (room : 0 < frame.width →
      frame.indent.block + frame.offset + frame.width + tail.length ≤ doc.style.maxWidth.toNat) :
    ∃ opening closing links, White closing ∧
      doc.layoutList frame settings brackets nested (some lineWidth) entries ++ tail =
        brackets.opener ++ opening ++ chain links ∧
      Linked settings.separator.trimRight (closing ++ (brackets.closer ++ tail))
        (entries.map Entry.text) links ∧
      Fits doc.style.maxWidth.toNat (Text.endColumn column (brackets.opener ++ opening)) links := by
  obtain ⟨form, formed⟩ :
      ∃ form, doc.listForm frame settings brackets nested (some lineWidth) entries = form := ⟨_, rfl⟩
  have mark : form.mark = settings.separator.trimRight :=
    formed ▸ congrArg Text.trimRight (settings.form_separator ..)
  have single : '\n' ∉ form.mark := mark ▸ flexible.single
  rw [← mark, layoutList_bare formed bare more]
  split
  · rename_i broken
    obtain ⟨links, text, linked, fits⟩ := write_fits_block formed flexible single spaces
      bounded bare more broken.1 broken.2
      (frame.indent.newLine doc.style ++ (brackets.closer ++ tail)) rfl
    refine ⟨form.newLine, frame.indent.newLine doc.style, links,
      frame.indent.white_newLine doc.style, ?_, linked, ?_⟩
    · rw [← text]
      simp only [List.append_assoc]
    · rwa [Text.endColumn_append, form.endColumn_newLine]
  · rename_i inline
    obtain ⟨links, text, linked, fits⟩ := write_fits_inline formed flexible single spaces
      narrow bare more (fun block wide => inline ⟨block, .inr (.inl wide)⟩) inside start room
    refine ⟨[], [], links, white_nil, ?_, linked, ?_⟩
    · rw [← text]
      simp only [List.append_assoc, List.append_nil]
    · rwa [List.append_nil, Text.endColumn_of_not_mem column opens]

end Document

end ItemLayout
