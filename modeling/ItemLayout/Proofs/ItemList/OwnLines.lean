import ItemLayout.Proofs.ItemList.Fill

namespace ItemLayout

/-! ## Line feeds of a chain -/

section

variable {mark close : Text} {texts : List Text} {links : List Link}

theorem Linked.feeds_of_mark (linked : Linked mark close texts links) (marked : '\n' ∈ mark)
    (closes : '\n' ∈ close) : ∀ link ∈ links, '\n' ∈ link.glue := by
  induction linked with
  | nil => simp
  | last => simp [closes]
  | cons text blank apart more rest ih => simpa [marked] using ih

theorem Linked.feeds_of_front (linked : Linked mark close texts links) (closes : '\n' ∈ close)
    (front : ∀ link ∈ links.dropLast, '\n' ∈ link.glue) : ∀ link ∈ links, '\n' ∈ link.glue := by
  induction linked with
  | nil => simp
  | last => simp [closes]
  | @cons text white texts links blank apart more rest ih =>
      rw [List.dropLast_cons_of_ne_nil (rest.ne_nil more), List.forall_mem_cons] at front
      exact List.forall_mem_cons.mpr ⟨front.1, ih front.2⟩

theorem Linked.mem_chain (linked : Linked mark close texts links) (two : 2 ≤ texts.length)
    (marked : '\n' ∈ mark) : '\n' ∈ chain links := by
  cases linked with
  | nil => cases two
  | last => exact absurd two (by simp)
  | cons text blank apart more rest => simp [chain_cons, marked]

theorem length_le_count_chain (feeds : ∀ link ∈ links, '\n' ∈ link.glue) :
    links.length ≤ (chain links).count '\n' := by
  induction links with
  | nil => exact Nat.le_refl _
  | cons link links ih =>
      obtain ⟨first, feeds⟩ := List.forall_mem_cons.mp feeds
      have here := List.count_pos_iff.mpr first
      have later := ih feeds
      rw [chain_cons, List.count_append, List.count_append, List.length_cons]
      omega

end

/-- Between the brackets each text stands on a line of its own, with a mark behind it at most. -/
def OwnLines (brackets : Brackets) (mark : Text) (texts : List Text) (out : Text) : Prop :=
  ∃ gap close links, out = brackets.opener ++ gap ++ chain links ++ brackets.closer ∧
    White gap ∧ White close ∧ Linked mark close texts links ∧
    '\n' ∈ gap ∧ ∀ link ∈ links, '\n' ∈ link.glue

theorem OwnLines.count_le {brackets : Brackets} {mark out : Text} {texts : List Text}
    (own : OwnLines brackets mark texts out) :
    (brackets.opener ++ brackets.closer).count '\n' + texts.length + 1 ≤ out.count '\n' := by
  obtain ⟨gap, close, links, rfl, -, -, linked, feed, feeds⟩ := own
  have before := List.count_pos_iff.mpr feed
  have inside := length_le_count_chain feeds
  rw [linked.length_eq] at inside
  simp only [List.count_append]
  omega

/-! ## Lists without comments -/

theorem Arrangement.choose_bare {separator : Text} {width : Int} {entries : List Entry}
    (bare : ∀ entry ∈ entries, entry.Bare) :
    choose .horizontalVertical separator width entries =
      if (oneLineWidth separator entries : Int) ≤ width then .horizontal else .vertical := by
  have unclosed : entries.any Entry.hasLineComment = false :=
    List.any_eq_false.mpr fun entry mem => by simp [(bare entry mem).compact.hasLineComment]
  have flat : entries.any Entry.isMultiline = false := by
    refine List.any_eq_false.mpr fun entry mem => ?_
    simp [Entry.isMultiline, Entry.comments, (bare entry mem).single, (bare entry mem).before,
      (bare entry mem).after]
  simp [choose, unclosed, flat]

theorem ListSettings.form_trails_horizontal (style : Style) (frame : Frame) (settings : ListSettings)
    (brackets : Brackets) (nested : Bool) :
    (settings.form style frame brackets nested .horizontal).trails false =
      decide (settings.trailing = .always) := by
  unfold form ListForm.trails trailingInline
  cases settings.indentStyle <;> cases settings.trailing <;> rfl

namespace ListForm

variable {form : ListForm} {entries : List Entry}

theorem write_ownLines
    (apart : form.arrangement = .vertical ∨ form.arrangement = .horizontal ∧ '\n' ∈ form.mark)
    (bare : ∀ entry ∈ entries, entry.Bare) (more : entries ≠ []) (brackets : Brackets)
    (indent : Indent) (style : Style) :
    OwnLines brackets form.mark (entries.map Entry.text)
      (brackets.opener ++ form.newLine ++ form.write entries ++ indent.newLine style ++
        brackets.closer) := by
  have closes : '\n' ∈ indent.newLine style := List.mem_cons_self
  obtain ⟨links, text, linked, feeds⟩ : ∃ links,
      form.write entries ++ indent.newLine style = chain links ∧
      Linked form.mark (indent.newLine style) (entries.map Entry.text) links ∧
      ∀ link ∈ links, '\n' ∈ link.glue := by
    rcases apart with vertical | ⟨horizontal, marked⟩
    · obtain ⟨links, text, linked, front⟩ := write_vertical vertical bare more (indent.newLine style)
      exact ⟨links, text, linked, linked.feeds_of_front closes front⟩
    · obtain ⟨links, text, linked, -⟩ := write_horizontal horizontal bare more (indent.newLine style)
      exact ⟨links, text, linked, linked.feeds_of_mark marked closes⟩
  refine ⟨form.newLine, indent.newLine style, links, ?_, form.white_newLine,
    indent.white_newLine style, linked, List.mem_cons_self, feeds⟩
  rw [← text]
  simp only [List.append_assoc]

theorem mem_write_of_mark (horizontal : form.arrangement = .horizontal)
    (bare : ∀ entry ∈ entries, entry.Bare) (two : 2 ≤ entries.length) (marked : '\n' ∈ form.mark) :
    '\n' ∈ form.write entries := by
  have more : entries ≠ [] := List.ne_nil_of_length_pos (Nat.lt_of_succ_lt two)
  obtain ⟨links, text, linked, -⟩ := write_horizontal horizontal bare more []
  rw [List.append_nil] at text
  rw [text]
  exact linked.mem_chain (by rwa [List.length_map]) marked

theorem write_horizontal_flat (horizontal : form.arrangement = .horizontal) (flat : '\n' ∉ form.mark)
    (bare : ∀ entry ∈ entries, entry.Bare) (more : entries ≠ []) :
    '\n' ∉ form.write entries ∧
      (form.write entries).length = oneLineWidth form.separator entries +
        if form.trails false then form.mark.length else 0 := by
  obtain ⟨links, text, -, single, width⟩ := write_horizontal horizontal bare more []
  rw [List.append_nil] at text
  rw [← text] at single width
  exact ⟨fun feed => List.not_mem_nil (single flat feed), width⟩

end ListForm

namespace Document

section

variable (doc : Document) (frame : Frame) {settings : ListSettings} (brackets : Brackets)
  (nested : Bool) (lineWidth : Option Int) {entries : List Entry}
  (block : settings.indentStyle = .block) (bare : ∀ entry ∈ entries, entry.Bare)
  (two : 2 ≤ entries.length) {form : ListForm}
  (formed : doc.listForm frame settings brackets nested lineWidth entries = form)
include block bare two formed

theorem layoutList_block :
    doc.layoutList frame settings brackets nested lineWidth entries =
      if '\n' ∈ form.write entries ∨
          lineWidth.getD (frame.inside brackets) < (form.write entries).length ∨
          form.arrangement = .vertical then
        brackets.opener ++ form.newLine ++ form.write entries ++ frame.indent.newLine doc.style ++
          brackets.closer
      else brackets.opener ++ form.write entries ++ brackets.closer := by
  have more : entries ≠ [] := List.ne_nil_of_length_pos (Nat.lt_of_succ_lt two)
  have given : doc.listForm frame settings brackets nested
      (some (lineWidth.getD (frame.inside brackets))) entries = form := formed
  have laid := layoutList_bare given bare more
  simp only [block, true_and] at laid
  exact laid

theorem layoutList_ownLines
    (apart : form.arrangement = .vertical ∨ form.arrangement = .horizontal ∧ '\n' ∈ form.mark) :
    OwnLines brackets form.mark (entries.map Entry.text)
      (doc.layoutList frame settings brackets nested lineWidth entries) := by
  have more : entries ≠ [] := List.ne_nil_of_length_pos (Nat.lt_of_succ_lt two)
  rw [doc.layoutList_block frame brackets nested lineWidth block bare two formed, if_pos]
  · exact ListForm.write_ownLines apart bare more brackets frame.indent doc.style
  · rcases apart with vertical | ⟨horizontal, marked⟩
    · exact .inr (.inr vertical)
    · exact .inl (ListForm.mem_write_of_mark horizontal bare two marked)

theorem layoutList_flat_iff (horizontal : form.arrangement = .horizontal)
    (single : '\n' ∉ form.write entries) (mark : Text) :
    ((doc.layoutList frame settings brackets nested lineWidth entries).count '\n' =
          (brackets.opener ++ brackets.closer).count '\n' ∨
        OwnLines brackets mark (entries.map Entry.text)
          (doc.layoutList frame settings brackets nested lineWidth entries)) ↔
      ((form.write entries).length : Int) ≤ lineWidth.getD (frame.inside brackets) := by
  have none := List.count_eq_zero.mpr single
  have laid := doc.layoutList_block frame brackets nested lineWidth block bare two formed
  simp only [single, horizontal, false_or, reduceCtorEq, or_false] at laid
  by_cases wide : lineWidth.getD (frame.inside brackets) < (form.write entries).length
  · rw [if_pos wide] at laid
    have counted := congrArg (List.count '\n') laid
    simp only [List.count_append, none, ListForm.newLine, Indent.count_newLine] at counted
    refine iff_of_false ?_ (Int.not_le.mpr wide)
    rintro (same | own)
    · rw [List.count_append] at same
      omega
    · -- Two line feeds are fewer than two entries on lines of their own take.
      have lines := own.count_le
      rw [List.length_map, List.count_append] at lines
      omega
  · rw [if_neg wide] at laid
    refine iff_of_true (.inl ?_) (Int.not_lt.mp wide)
    rw [laid]
    simp only [List.count_append, none, Nat.add_zero]

end

theorem layoutList_ownLines_iff (doc : Document) (frame : Frame) (settings : ListSettings)
    (brackets : Brackets) (nested : Bool) (lineWidth : Option Int) {entries : List Entry}
    (packing : settings.packing = .horizontalVertical) (block : settings.indentStyle = .block)
    (bare : ∀ entry ∈ entries, entry.Bare) (two : 2 ≤ entries.length) :
    let out := doc.layoutList frame settings brackets nested lineWidth entries
    let mark := settings.separator.trimRight
    let room := lineWidth.getD (frame.inside brackets)
    let width := oneLineWidth settings.separator entries
    (out.count '\n' = (brackets.opener ++ brackets.closer).count '\n' ∨
        OwnLines brackets mark (entries.map Entry.text) out) ↔
      ¬(settings.trailing = .always ∧ '\n' ∉ mark ∧ (width : Int) ≤ room ∧
        room < width + mark.length) := by
  intro out mark room width
  have chosen : listArrangement frame settings brackets lineWidth entries =
      if (width : Int) ≤ room then .horizontal else .vertical := by
    rw [listArrangement, packing, Arrangement.choose_bare bare]
  obtain ⟨form, formed⟩ :
      ∃ form, doc.listForm frame settings brackets nested lineWidth entries = form := ⟨_, rfl⟩
  have arranged := settings.form_arrangement doc.style frame brackets nested
    (listArrangement frame settings brackets lineWidth entries)
  have separator := settings.form_separator doc.style frame brackets nested
    (listArrangement frame settings brackets lineWidth entries)
  rw [← listForm, formed] at arranged separator
  have marked : form.mark = mark := congrArg Text.trimRight separator
  have own := doc.layoutList_ownLines frame brackets nested lineWidth block bare two formed
  rw [marked] at own
  by_cases fits : (width : Int) ≤ room
  · rw [if_pos fits] at chosen
    by_cases feed : '\n' ∈ mark
    · exact iff_of_true (.inr (own (.inr ⟨arranged.trans chosen, feed⟩))) fun tight => tight.2.1 feed
    · have horizontal := arranged.trans chosen
      obtain ⟨single, length⟩ := ListForm.write_horizontal_flat horizontal (marked.symm ▸ feed) bare
        (List.ne_nil_of_length_pos (Nat.lt_of_succ_lt two))
      have trails : form.trails false = decide (settings.trailing = .always) := by
        rw [← formed, listForm, chosen, settings.form_trails_horizontal]
      rw [doc.layoutList_flat_iff frame brackets nested lineWidth block bare two formed horizontal
        single, length, trails, separator, marked]
      by_cases always : settings.trailing = .always
      · rw [decide_eq_true always, if_pos rfl, Int.natCast_add]
        refine ⟨fun whole tight => Int.not_le.mpr tight.2.2.2 whole, fun loose => ?_⟩
        exact Int.not_lt.mp fun tight => loose ⟨always, feed, fits, tight⟩
      · rw [decide_eq_false always, if_neg Bool.false_ne_true]
        exact iff_of_true fits fun tight => always tight.1
  · rw [if_neg fits] at chosen
    exact iff_of_true (.inr (own (.inl (arranged.trans chosen)))) fun tight => fits tight.2.2.1

theorem layoutList_ownLines_narrow :
    let doc : Document := { source := [] }
    let settings : ListSettings := { trailing := .always, separator := "; ".toList }
    let brackets : Brackets := { opener := ['('], closer := [')'] }
    let entries := ["aa", "b", "ccc"].map (Entry.ofText ·.toList)
    let out (width : Int) :=
      doc.layoutList { width := 40, indent := { block := 2 } } settings brackets false (some width)
        entries
    (settings.packing = .horizontalVertical ∧ settings.indentStyle = .block ∧
      (∀ entry ∈ entries, entry.Bare) ∧ 2 ≤ entries.length) ∧
      out 11 = "(aa; b; ccc;)".toList ∧
      out 9 = "(\n      aa;\n      b;\n      ccc;\n  )".toList ∧
      OwnLines brackets [';'] (entries.map Entry.text) (out 9) := by
  intro doc settings brackets entries out
  have bare : ∀ entry ∈ entries, entry.Bare := by decide +kernel
  have narrow : out 9 = "(\n      aa;\n      b;\n      ccc;\n  )".toList := by decide +kernel
  have mark : settings.separator.trimRight = [';'] := by decide +kernel
  have own := (doc.layoutList_ownLines_iff { width := 40, indent := { block := 2 } } settings brackets
    false (some 9) rfl rfl bare (by decide)).mpr (by decide +kernel)
  rw [mark] at own
  refine ⟨⟨rfl, rfl, bare, by decide⟩, by decide +kernel, narrow, own.resolve_left ?_⟩
  rw [show doc.layoutList _ settings brackets false (some 9) entries = _ from narrow]
  decide +kernel

theorem layoutList_entries_share_line :
    let doc : Document := { source := [] }
    let settings : ListSettings := { trailing := .always }
    let brackets : Brackets := { opener := ['('], closer := [')'] }
    let entries : List Entry := [.ofText ['a'], .ofText ['b']]
    let out : Text := "(\n    a, b,\n)".toList
    doc.layoutList { width := 6 } settings brackets false none entries = out ∧
      ¬('\n' ∉ out ∨ OwnLines brackets [','] (entries.map Entry.text) out) := by
  intro doc settings brackets entries out
  refine ⟨by decide +kernel, ?_⟩
  rintro (flat | own)
  · exact flat (by decide +kernel)
  · exact absurd own.count_le (by decide +kernel)

end Document

end ItemLayout
