import ItemLayout.Proofs.ItemList.Rows

/-!
# The last entry of a mixed arrangement

Whether the last entry starts a line is decided with the columns that are counted for its separator,
and whether the separator is written is decided later and by another rule. Main statement: what is
really written decides, unless the two rules differ and the separator is all that has no room
(`ListForm.write_last_iff`).
-/

namespace ItemLayout.ListForm

variable {form : ListForm} {init : List Entry} {last : Entry}

def Counts (form : ListForm) (full : List (List Entry)) : Prop :=
  form.trailing = .always ∨ form.endsWithBreak = true ∧ full ≠ []

theorem counts_iff (form : ListForm) (full : List (List Entry)) :
    (form.trails false || form.endsWithBreak && !full.isEmpty) = true ↔ form.Counts full := by
  rw [Bool.or_eq_true, trails_iff, Counts]
  simp

theorem overflows_reserve (plain : form.nested = false) {rows : Rows} (more : rows.line ≠ [])
    (entry : Entry) :
    form.overflows (form.reserve rows) rows.line entry = true ↔
      form.frame.width < (form.row rows.line ++ [' '] ++ entry.text).length ∨
      form.Counts rows.full ∧
        form.frame.width < (form.row rows.line ++ [' '] ++ entry.text).length + form.mark.length := by
  have size : (form.row rows.line ++ [' '] ++ entry.text).length =
      (form.row rows.line).length + 1 + entry.text.length := by
    rw [List.length_append, List.length_append, List.length_singleton]
  rw [overflows_iff more, plain, size, reserve]
  simp only [Bool.false_eq_true, false_and, or_false]
  by_cases counted : form.Counts rows.full
  · rw [if_pos ((form.counts_iff rows.full).mpr counted)]
    simp only [counted, true_and]
    omega
  · rw [if_neg (mt (form.counts_iff rows.full).mp counted)]
    simp only [counted, false_and, or_false]
    omega

theorem write_behind_rows (mixed : form.arrangement = .mixed) (more : init ≠ [])
    (bare : ∀ entry ∈ init ++ [last], entry.Bare) :
    ∃ (rows : Rows) (gap : Text) (closed : Bool),
      rows.full.flatten ++ rows.line = init ∧ rows.line ≠ [] ∧
      form.write (init ++ [last]) = form.above rows.full ++ form.row rows.line ++ gap ++ last.text ++
        (if closed then form.mark else []) ∧
      (closed = true ↔ form.trailing = .always ∨ form.trailing = .multilineOnly ∧
        (form.endsWithBreak = true ∨ '\n' ∈ form.above rows.full ++ form.row rows.line ++ gap)) ∧
      gap = if form.overflows (form.reserve rows) rows.line last then form.newLine else [' '] := by
  obtain ⟨before, text, filled⟩ := write_concat mixed bare
  have placed := Rows.flatten_foldl (form.overflows form.mark.length) {} init
  have shown := Rows.line_foldl_ne_nil (form.overflows form.mark.length) {} more
  rw [fill, rowsText_add, Rows.toList, rowsText_concat, ← List.append_assoc] at filled
  have before_eq := List.append_cancel_right filled
  rw [divider, if_neg shown] at before_eq
  refine ⟨init.foldl (Rows.add (form.overflows form.mark.length)) {}, _,
    form.trails (form.endsWithBreak || before.contains '\n'), ?_, shown, ?_, ?_, rfl⟩
  · simpa [Rows.toList] using placed
  · rw [before_eq]
    exact text
  · rw [before_eq, trails_iff, Bool.or_eq_true, List.contains_iff_mem]

theorem counted_iff_written {counted : Prop} {written : Bool} (room size mark : Nat) :
    ((room < size ∨ counted ∧ room < size + mark) ↔ room < size + if written then mark else 0) ↔
      ((written = true ↔ counted) ∨ room < size ∨ size + mark ≤ room) := by
  by_cases counts : counted <;> cases written <;> simp [counts] <;> omega

/-- Behind the rows, the last entry starts a line just if it has no room with the separator that is
written, unless the separator is all that has no room and is counted but not written or written but not
counted. -/
theorem write_last_iff (mixed : form.arrangement = .mixed) (plain : form.nested = false)
    (more : init ≠ []) (bare : ∀ entry ∈ init ++ [last], entry.Bare) :
    ∃ (full : List (List Entry)) (line : List Entry) (gap : Text) (closed : Bool),
      full.flatten ++ line = init ∧ line ≠ [] ∧
      ('\n' ∉ form.mark → ∀ row ∈ full ++ [line], '\n' ∉ form.row row) ∧
      form.write (init ++ [last]) = form.above full ++ form.row line ++ gap ++ last.text ++
        (if closed then form.mark else []) ∧
      (closed = true ↔ form.trailing = .always ∨ form.trailing = .multilineOnly ∧
        (form.endsWithBreak = true ∨ '\n' ∈ form.above full ++ form.row line ++ gap)) ∧
      (gap = form.newLine ∨ gap = [' ']) ∧
      ((gap = form.newLine ↔ form.frame.width < (form.row line ++ [' '] ++ last.text ++
          if closed then form.mark else []).length) ↔
        ((closed = true ↔ form.trailing = .always ∨ form.endsWithBreak = true ∧ full ≠ []) ∨
          form.frame.width < (form.row line ++ [' '] ++ last.text).length ∨
          (form.row line ++ [' '] ++ last.text ++ form.mark).length ≤ form.frame.width)) := by
  obtain ⟨rows, gap, closed, placed, shown, text, ends, between⟩ := write_behind_rows mixed more bare
  have single : '\n' ∉ form.mark → ∀ row ∈ rows.full ++ [rows.line], '\n' ∉ form.row row := by
    intro flat row mem
    apply form.not_mem_row flat
    intro entry inside
    have listed : entry ∈ (rows.full ++ [rows.line]).flatten :=
      List.mem_flatten.mpr ⟨row, mem, inside⟩
    apply bare entry
    apply List.mem_append_left
    simpa [placed] using listed
  have starts : gap = form.newLine ↔ form.overflows (form.reserve rows) rows.line last = true := by
    rw [between]
    simp [newLine, Indent.newLine]
  have either : gap = form.newLine ∨ gap = [' '] := by
    rw [between]
    split
    · exact .inl rfl
    · exact .inr rfl
  refine ⟨rows.full, rows.line, gap, closed, placed, shown, single, text, ends, either, ?_⟩
  rw [starts, overflows_reserve plain shown]
  generalize form.row rows.line ++ [' '] ++ last.text = joined
  rw [List.length_append, apply_ite List.length, List.length_nil, List.length_append]
  apply counted_iff_written

theorem write_last_multiline_only :
    let form : ListForm :=
      { frame := { width := 4, indent := { block := 2 } }, arrangement := .mixed,
        trailing := .multilineOnly }
    let init : List Entry := [.ofText "aaaa".toList, .ofText ['b']]
    let last : Entry := .ofText ['c']
    init ≠ [] ∧ (∀ entry ∈ init ++ [last], entry.Bare) ∧
      form.write (init ++ [last]) = "aaaa,\n  b,\n  c,".toList ∧
      ∃ (full : List (List Entry)) (line : List Entry) (gap : Text), full.flatten ++ line = init ∧
        form.write (init ++ [last]) = form.above full ++ form.row line ++ gap ++ ['c'] ++ [','] ∧
        (gap = form.newLine ↔ 4 < (form.row line ++ [' '] ++ ['c'] ++ [',']).length) := by
  intro form init last
  have mixed : form.arrangement = .mixed := rfl
  have more : init ≠ [] := by simp [init]
  have bare : ∀ entry ∈ init ++ [last], entry.Bare := by decide +kernel
  obtain ⟨full, line, gap, closed, placed, -, -, text, ends, -, room⟩ :=
    write_last_iff mixed rfl more bare
  have written : closed = true := ends.mpr (.inr ⟨rfl, .inl rfl⟩)
  rw [written] at text room
  refine ⟨more, bare, by decide +kernel, full, line, gap, placed, text, room.mpr ?_⟩
  by_cases none : full = []
  · obtain rfl : line = init := by rw [← placed, none]; rfl
    exact .inr (.inl (by decide +kernel))
  · exact .inl ⟨fun _ => .inr ⟨rfl, none⟩, fun _ => rfl⟩

theorem write_last_miscounted :
    let form (trailing : TrailingPolicy) (endsWithBreak : Bool) : ListForm :=
      { frame := { width := 4 }, arrangement := .mixed, trailing, endsWithBreak }
    let entries : List Entry := [.ofText "aaaa".toList, .ofText ['b'], .ofText ['c']]
    ((form .never true).write entries = "aaaa,\nb,\nc".toList ∧ "b, c".toList.length ≤ 4) ∧
      (form .multilineOnly false).write entries = "aaaa,\nb, c,".toList ∧
        4 < "b, c,".toList.length := by
  decide +kernel

end ItemLayout.ListForm
