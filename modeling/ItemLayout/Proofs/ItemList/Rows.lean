import ItemLayout.Proofs.ItemList.Fill

/-!
# Rows of a mixed arrangement

Entries without comments are filled into rows one by one, and each of them opens a row just if the row
before it has no room for it. The writer of a mixed arrangement keeps to this fill
(`ListForm.write_concat`). So its text is a greedy fill (`ListForm.write_greedy`), and more room never
makes more lines of it (`ListForm.count_write_le`).
-/

namespace ItemLayout

/-! ## Filling rows -/

structure Rows where
  full : List (List Entry) := []
  line : List Entry := []

namespace Rows

def toList (rows : Rows) : List (List Entry) := rows.full ++ [rows.line]

def add (breaks : List Entry → Entry → Bool) (rows : Rows) (entry : Entry) : Rows :=
  if breaks rows.line entry then ⟨rows.full ++ [rows.line], [entry]⟩
  else ⟨rows.full, rows.line ++ [entry]⟩

variable (breaks : List Entry → Entry → Bool) (rows : Rows) (entry : Entry)

theorem flatten_add : (rows.add breaks entry).toList.flatten = rows.toList.flatten ++ [entry] := by
  unfold add
  split <;> simp [toList]

theorem flatten_foldl (entries : List Entry) :
    (entries.foldl (add breaks) rows).toList.flatten = rows.toList.flatten ++ entries := by
  induction entries generalizing rows with
  | nil => simp
  | cons entry entries ih => simp [ih, flatten_add]

theorem getLast?_line_add : (rows.add breaks entry).line.getLast? = some entry := by
  unfold add
  split <;> simp

theorem line_add_ne_nil : (rows.add breaks entry).line ≠ [] := by
  intro none
  have last := getLast?_line_add breaks rows entry
  rw [none] at last
  cases last

theorem line_foldl_ne_nil {entries : List Entry} (more : entries ≠ []) :
    (entries.foldl (add breaks) rows).line ≠ [] := by
  rw [← List.dropLast_concat_getLast more, List.foldl_append]
  exact line_add_ne_nil _ _ _

theorem mem_line_add {breaks : List Entry → Entry → Bool} {rows : Rows} {entry other : Entry}
    (mem : other ∈ (rows.add breaks entry).line) : other ∈ rows.line ∨ other = entry := by
  unfold add at mem
  split at mem
  · exact .inr (List.mem_singleton.mp mem)
  · simpa using mem

theorem toList_foldl_add (breaks' : List Entry → Entry → Bool) (entries : List Entry) (last : Entry) :
    ∃ more right, ((entries.foldl (add breaks) rows).add breaks' last).toList =
      rows.full ++ (rows.line ++ more) :: right := by
  induction entries generalizing rows with
  | nil =>
      rw [List.foldl_nil]
      unfold add
      split
      · exact ⟨[], [[last]], by simp [toList]⟩
      · exact ⟨[last], [], by simp [toList]⟩
  | cons entry entries ih =>
      obtain ⟨more, right, later⟩ := ih (rows.add breaks entry)
      rw [List.foldl_cons, later]
      unfold add
      split
      · exact ⟨[], ([entry] ++ more) :: right, by simp⟩
      · exact ⟨entry :: more, right, by simp⟩

end Rows

namespace ListForm

variable (form : ListForm)

def piece (entry : Entry) : Text := entry.text ++ form.mark

def row (line : List Entry) : Text := [' '].intercalate (line.map form.piece)

def rowsText (rows : List (List Entry)) : Text := form.newLine.intercalate (rows.map form.row)

def above (full : List (List Entry)) : Text := full.flatMap fun line => form.row line ++ form.newLine

/-- A row has no room for one more entry and `columns` columns of its separator. -/
def overflows (columns : Nat) (line : List Entry) (entry : Entry) : Bool :=
  !line.isEmpty &&
    (decide (form.frame.width < (form.row line).length + 1 + (entry.text.length + columns)) ||
      form.nested && line.getLast?.any fun previous => previous.text.isPath || entry.text.isPath)

def divider (columns : Nat) (rows : Rows) (entry : Entry) : Text :=
  if form.overflows columns rows.line entry then form.newLine
  else if rows.line = [] then [] else [' ']

def reserve (rows : Rows) : Nat :=
  if form.trails false || form.endsWithBreak && !rows.full.isEmpty then form.mark.length else 0

/-- The last entry is placed with what is counted for its own separator. -/
def fill (init : List Entry) (last : Entry) : Rows :=
  let rows := init.foldl (Rows.add (form.overflows form.mark.length)) {}
  rows.add (form.overflows (form.reserve rows)) last

variable {form} {line : List Entry} {rows : Rows} {entry : Entry}

theorem row_nil : form.row [] = [] := rfl

theorem row_singleton (entry : Entry) : form.row [entry] = form.piece entry :=
  List.intercalate_singleton

theorem row_concat (more : line ≠ []) (entry : Entry) :
    form.row (line ++ [entry]) = form.row line ++ ([' '] ++ form.piece entry) := by
  rw [row, List.map_append, List.map_singleton, intercalate_concat]
  · rfl
  · simpa using more

theorem length_row_concat (more : line ≠ []) (entry : Entry) :
    (form.row (line ++ [entry])).length = (form.row line).length + 1 + (form.piece entry).length := by
  rw [row_concat more, List.length_append, List.length_append, List.length_singleton, Nat.add_assoc]

theorem length_piece (entry : Entry) :
    (form.piece entry).length = entry.text.length + form.mark.length :=
  List.length_append

theorem row_ne_nil (form : ListForm) (bare : ∀ entry ∈ line, entry.Bare) (more : line ≠ []) :
    form.row line ≠ [] := by
  obtain ⟨first, rest, rfl⟩ := List.exists_cons_of_ne_nil more
  have shown := (bare first List.mem_cons_self).shown
  rw [row, List.map_cons, intercalate_cons, piece]
  simp [shown]

theorem overflows_nil (columns : Nat) (entry : Entry) : form.overflows columns [] entry = false := rfl

theorem overflows_iff (more : line ≠ []) (columns : Nat) (entry : Entry) :
    form.overflows columns line entry = true ↔
      form.frame.width < (form.row line).length + 1 + (entry.text.length + columns) ∨
      form.nested = true ∧
        (line.getLast?.any (·.text.isPath) = true ∨ entry.text.isPath = true) := by
  have filled : line.isEmpty = false := List.isEmpty_eq_false_iff.mpr more
  rw [overflows, filled, List.getLast?_eq_some_getLast more]
  simp

theorem rowsText_concat (full : List (List Entry)) (line : List Entry) :
    form.rowsText (full ++ [line]) = form.above full ++ form.row line := by
  induction full with
  | nil => exact List.intercalate_singleton
  | cons first full ih =>
      have more : (full ++ [line]).map form.row ≠ [] := by simp
      rw [above, List.flatMap_cons, List.append_assoc, ← above, ← ih, List.cons_append, rowsText,
        List.map_cons, List.intercalate_cons_of_ne_nil more]
      rfl

theorem rowsText_add (columns : Nat) (rows : Rows) (entry : Entry) :
    form.rowsText (rows.add (form.overflows columns) entry).toList =
      form.rowsText rows.toList ++ (form.divider columns rows entry ++ form.piece entry) := by
  unfold Rows.add divider
  split
  · have more : (rows.full ++ [rows.line]).map form.row ≠ [] := by simp
    rw [Rows.toList, rowsText, List.map_append, List.map_singleton, row_singleton,
      intercalate_concat _ _ more]
    rfl
  · rw [Rows.toList, Rows.toList, rowsText_concat, rowsText_concat]
    split
    · rename_i none
      rw [none, List.nil_append, row_singleton, row_nil, List.append_nil, List.nil_append]
    · rename_i more
      rw [row_concat more, List.append_assoc]

/-! ## Line feeds -/

theorem count_newLine (form : ListForm) : form.newLine.count '\n' = 1 :=
  form.frame.indent.count_newLine form.style

theorem count_row (form : ListForm) (bare : ∀ entry ∈ line, entry.Bare) :
    (form.row line).count '\n' = line.length * form.mark.count '\n' := by
  have space : [' '].count '\n' = 0 := by decide
  rw [row, count_intercalate, space, Nat.mul_zero, Nat.zero_add]
  induction line with
  | nil => simp
  | cons entry line ih =>
      obtain ⟨first, bare⟩ := List.forall_mem_cons.mp bare
      rw [List.map_cons, List.flatten_cons, List.count_append, ih bare, piece, List.count_append,
        List.count_eq_zero.mpr first.single, List.length_cons, Nat.add_mul]
      omega

theorem not_mem_row (form : ListForm) (flat : '\n' ∉ form.mark) (bare : ∀ entry ∈ line, entry.Bare) :
    '\n' ∉ form.row line := by
  rw [← List.count_eq_zero, form.count_row bare, List.count_eq_zero.mpr flat, Nat.mul_zero]

theorem count_rowsText (form : ListForm) {rows : List (List Entry)}
    (bare : ∀ entry ∈ rows.flatten, entry.Bare) :
    (form.rowsText rows).count '\n' =
      (rows.length - 1) + rows.flatten.length * form.mark.count '\n' := by
  rw [rowsText, count_intercalate, form.count_newLine, List.length_map, Nat.mul_one,
    Nat.add_left_cancel_iff]
  induction rows with
  | nil => simp
  | cons line rows ih =>
      obtain ⟨first, bare⟩ := List.forall_mem_append.mp bare
      rw [List.map_cons, List.flatten_cons, List.count_append, ih bare, form.count_row first,
        List.flatten_cons, List.length_append, Nat.add_mul]

theorem lines_rowsText {form : ListForm} (flat : '\n' ∉ form.mark) {first : List Entry}
    {others : List (List Entry)} (bare : ∀ entry ∈ (first :: others).flatten, entry.Bare) :
    (form.rowsText (first :: others)).lines =
      form.row first :: others.map fun line => form.margin ++ form.row line := by
  have single : ∀ line ∈ first :: others, '\n' ∉ form.row line := by
    intro line mem
    have inside : ∀ entry ∈ line, entry.Bare := fun entry here =>
      bare entry (List.mem_flatten.mpr ⟨line, mem, here⟩)
    exact form.not_mem_row flat inside
  obtain ⟨here, there⟩ := List.forall_mem_cons.mp single
  have joined : form.rowsText (first :: others) =
      Text.joinLines (form.row first :: others.map fun line => form.margin ++ form.row line) := by
    rw [rowsText, List.map_cons, intercalate_cons, Text.joinLines_cons, Text.moreLines,
      List.flatMap_map, List.flatMap_map]
    rfl
  rw [joined]
  refine Text.lines_joinLines (List.forall_mem_cons.mpr ⟨here, fun text mem => ?_⟩)
    (List.cons_ne_nil _ _)
  obtain ⟨line, listed, rfl⟩ := List.mem_map.mp mem
  rw [List.mem_append, not_or]
  exact ⟨form.not_mem_margin, there line listed⟩

end ListForm

/-! ## The writer fills rows -/

namespace ListWriter

structure Shows (form : ListForm) (writer : ListWriter) (rows : Rows) : Prop where
  text : writer.text = form.rowsText rows.toList
  lineWidth : writer.lineWidth = (form.row rows.line).length
  previous : writer.previous = rows.line.getLast?
  trailing : writer.trailing = (form.trails false || form.endsWithBreak && !rows.full.isEmpty)
  bare : ∀ entry ∈ rows.line, entry.Bare

variable {form : ListForm} {writer : ListWriter} {rows : Rows} {entry : Entry}

theorem start_shows (mixed : form.arrangement = .mixed) : (start form).Shows form {} where
  text := rfl
  lineWidth := rfl
  previous := rfl
  trailing := by
    rw [start, mixed]
    show form.trails false = (form.trails false || (form.endsWithBreak && false))
    rw [Bool.and_false, Bool.or_false]
  bare := by simp

theorem Shows.breaksBefore (shows : writer.Shows form rows) (entry : Entry) (columns : Nat) :
    writer.breaksBefore form entry (entry.text.length + columns) =
      form.overflows columns rows.line entry := by
  unfold ListWriter.breaksBefore ListForm.overflows
  rw [shows.lineWidth, shows.previous]
  by_cases none : rows.line = []
  · simp [none, ListForm.row_nil]
  · have width := List.length_pos_iff.mpr (form.row_ne_nil shows.bare none)
    have last := List.getLast?_eq_some_getLast none
    have silent := (shows.bare _ (List.getLast_mem none)).after
    simp [last, silent, none, width]

theorem Shows.advance (mixed : form.arrangement = .mixed) (shows : writer.Shows form rows)
    (bare : entry.Bare) (columns : Nat) :
    let next := rows.add (form.overflows columns) entry
    let advanced := writer.advance form entry columns
    advanced.text = writer.text ++ form.divider columns rows entry ∧
      advanced.lineWidth + form.mark.length = (form.row next.line).length + columns ∧
      advanced.trailing = (form.trails false || form.endsWithBreak && !next.full.isEmpty) := by
  have breaks := shows.breaksBefore entry columns
  unfold ListWriter.advance Rows.add ListForm.divider
  simp only [mixed, bare.width, breaks]
  by_cases full : form.overflows columns rows.line entry = true
  · simp only [if_pos full, true_and]
    constructor
    · rw [ListForm.row_singleton, ListForm.length_piece]
      omega
    · rw [shows.trailing]
      cases form.trails false <;> cases form.endsWithBreak <;> simp
  · simp only [if_neg full]
    by_cases none : rows.line = []
    · have unused : ¬ 0 < writer.lineWidth := by simp [shows.lineWidth, none, ListForm.row_nil]
      simp only [if_neg unused, if_pos none]
      refine ⟨(List.append_nil _).symm, ?_, shows.trailing⟩
      rw [none, List.nil_append, ListForm.row_singleton, ListForm.length_piece]
      omega
    · have used : 0 < writer.lineWidth := by
        rw [shows.lineWidth]
        exact List.length_pos_iff.mpr (form.row_ne_nil shows.bare none)
      simp only [if_pos used, if_neg none, true_and]
      refine ⟨?_, shows.trailing⟩
      rw [ListForm.length_row_concat none, ListForm.length_piece, shows.lineWidth]
      omega

theorem Shows.put (mixed : form.arrangement = .mixed) (shows : writer.Shows form rows)
    (bare : entry.Bare) :
    (writer.put form false entry).Shows form (rows.add (form.overflows form.mark.length) entry) := by
  obtain ⟨separated, step, middle, -⟩ := put_bare form writer bare false
  obtain rfl := middle rfl
  obtain ⟨text, width, trailing⟩ := shows.advance mixed bare form.mark.length
  have noLine : blankLine form entry false = [] := by simp [blankLine, mixed]
  have columns : writer.separatorWidth form false = form.mark.length := rfl
  rw [step, columns, noLine]
  constructor
  · show _ ++ entry.text ++ form.mark ++ [] = _
    rw [text, shows.text, ListForm.rowsText_add, ListForm.piece]
    simp only [List.append_assoc, List.append_nil]
  · exact Nat.add_right_cancel width
  · exact (Rows.getLast?_line_add ..).symm
  · exact trailing
  · intro other mem
    rcases Rows.mem_line_add mem with mem | rfl
    · exact shows.bare other mem
    · exact bare

theorem Shows.foldl (mixed : form.arrangement = .mixed) (shows : writer.Shows form rows)
    {entries : List Entry} (bare : ∀ entry ∈ entries, entry.Bare) :
    (entries.foldl (ListWriter.put form false) writer).Shows form
      (entries.foldl (Rows.add (form.overflows form.mark.length)) rows) := by
  induction entries generalizing writer rows with
  | nil => exact shows
  | cons entry entries ih =>
      obtain ⟨first, bare⟩ := List.forall_mem_cons.mp bare
      exact ih (shows.put mixed first) bare

theorem Shows.put_last (mixed : form.arrangement = .mixed) (shows : writer.Shows form rows)
    (bare : entry.Bare) :
    ∃ before,
      (writer.put form true entry).text = before ++ entry.text ++
        (if form.trails (form.endsWithBreak || before.contains '\n') then form.mark else []) ∧
      form.rowsText (rows.add (form.overflows (form.reserve rows)) entry).toList =
        before ++ form.piece entry := by
  obtain ⟨separated, step, -, exactly⟩ := put_bare form writer bare true
  have columns : writer.separatorWidth form true = form.reserve rows := by
    rw [separatorWidth, shows.trailing]
    rfl
  rw [columns] at step exactly
  obtain ⟨text, -, -⟩ := shows.advance mixed bare (form.reserve rows)
  have noLine : blankLine form entry true = [] := by simp [blankLine, mixed]
  refine ⟨(writer.advance form entry (form.reserve rows)).text, ?_, ?_⟩
  · rw [step, noLine, List.append_nil, exactly mixed rfl]
  · rw [ListForm.rowsText_add, text, shows.text, List.append_assoc]

end ListWriter

namespace ListForm

variable {form : ListForm}

theorem write_concat (mixed : form.arrangement = .mixed) {init : List Entry} {last : Entry}
    (bare : ∀ entry ∈ init ++ [last], entry.Bare) :
    ∃ before,
      form.write (init ++ [last]) = before ++ last.text ++
        (if form.trails (form.endsWithBreak || before.contains '\n') then form.mark else []) ∧
      form.rowsText (form.fill init last).toList = before ++ form.piece last := by
  obtain ⟨first, final⟩ := List.forall_mem_append.mp bare
  rw [write, Entry.filter_isSubstantial fun entry mem => (bare entry mem).shown,
    ListWriter.putAll_concat]
  exact ((ListWriter.start_shows mixed).foldl mixed first).put_last mixed
    (final last (List.mem_singleton.mpr rfl))

/-! ## Greedy rows -/

theorem flatten_fill (form : ListForm) (init : List Entry) (last : Entry) :
    (form.fill init last).toList.flatten = init ++ [last] := by
  rw [fill, Rows.flatten_add, Rows.flatten_foldl]
  rfl

def Settled (form : ListForm) (line : List Entry) : Prop :=
  line ≠ [] ∧ (2 ≤ line.length → (form.row line).length ≤ form.frame.width)

theorem settled_full_add {rows : Rows} {columns : Nat} (entry : Entry)
    (full : ∀ line ∈ rows.full, form.Settled line)
    (open' : rows.line ≠ [] → form.Settled rows.line) :
    ∀ line ∈ (rows.add (form.overflows columns) entry).full, form.Settled line := by
  unfold Rows.add
  split
  · rename_i breaks
    refine List.forall_mem_append.mpr ⟨full, List.forall_mem_singleton.mpr (open' ?_)⟩
    intro none
    rw [none, overflows_nil] at breaks
    cases breaks
  · exact full

theorem settled_line_add {rows : Rows} (entry : Entry) :
    form.Settled (rows.add (form.overflows form.mark.length) entry).line := by
  refine ⟨Rows.line_add_ne_nil _ rows entry, ?_⟩
  unfold Rows.add
  split
  · intro two
    exact absurd two (by simp)
  · rename_i room
    by_cases none : rows.line = []
    · intro two
      exact absurd two (by simp [none])
    · intro _
      rw [overflows_iff none, not_or, Nat.not_lt] at room
      rw [length_row_concat none, length_piece]
      exact room.1

theorem settled_full_foldl {rows : Rows} (entries : List Entry)
    (full : ∀ line ∈ rows.full, form.Settled line)
    (open' : rows.line ≠ [] → form.Settled rows.line) :
    let rows := entries.foldl (Rows.add (form.overflows form.mark.length)) rows
    (∀ line ∈ rows.full, form.Settled line) ∧ (rows.line ≠ [] → form.Settled rows.line) := by
  induction entries generalizing rows with
  | nil => exact ⟨full, open'⟩
  | cons entry entries ih =>
      exact ih (settled_full_add entry full open') fun _ => settled_line_add entry

theorem settled_full_fill (form : ListForm) (init : List Entry) (last : Entry) :
    ∀ line ∈ (form.fill init last).full, form.Settled line := by
  have empty : ∀ line ∈ ({} : Rows).full, form.Settled line := by simp
  obtain ⟨full, open'⟩ := settled_full_foldl init empty (by simp)
  exact settled_full_add last full open'

theorem nil_not_mem_fill (form : ListForm) (init : List Entry) (last : Entry) :
    [] ∉ (form.fill init last).toList := by
  rw [Rows.toList, List.mem_append, List.mem_singleton]
  rintro (empty | empty)
  · exact (form.settled_full_fill init last [] empty).1 rfl
  · exact Rows.line_add_ne_nil _ _ last empty.symm

theorem fill_greedy (form : ListForm) {before : List Entry} (more : before ≠ []) (entry : Entry)
    (after : List Entry) (last : Entry) :
    ∃ full line rest right,
      (form.fill (before ++ entry :: after) last).toList = full ++ (line ++ rest) :: right ∧
      full.flatten ++ line = before ∧ line ≠ [] ∧
      (rest = [] ↔ form.overflows form.mark.length line entry = true) := by
  have placed := Rows.flatten_foldl (form.overflows form.mark.length) {} before
  have shown := Rows.line_foldl_ne_nil (form.overflows form.mark.length) {} more
  rw [fill, List.foldl_append, List.foldl_cons]
  generalize before.foldl (Rows.add (form.overflows form.mark.length)) {} = rows at placed shown ⊢
  obtain ⟨rest, right, later⟩ := Rows.toList_foldl_add (form.overflows form.mark.length)
    (rows.add (form.overflows form.mark.length) entry) (form.overflows _) after last
  have before : rows.full.flatten ++ rows.line = before := by simpa [Rows.toList] using placed
  rw [later]
  unfold Rows.add
  split
  · rename_i breaks
    exact ⟨rows.full, rows.line, [], ([entry] ++ rest) :: right, by simp, before, shown,
      by simp [breaks]⟩
  · rename_i room
    exact ⟨rows.full, rows.line, entry :: rest, right, by simp, before, shown, by simp [room]⟩

theorem write_greedy (mixed : form.arrangement = .mixed) {entries : List Entry}
    (bare : ∀ entry ∈ entries, entry.Bare) :
    ∃ (rows : List (List Entry)) (closed : Bool), rows.flatten = entries ∧ [] ∉ rows ∧
      form.write entries ++ (if closed then [] else form.mark) =
        form.newLine.intercalate (rows.map form.row) ∧
      (∀ before entry after, entries = before ++ entry :: after → before ≠ [] → after ≠ [] →
        ∃ full line rest right, rows = full ++ (line ++ rest) :: right ∧
          full.flatten ++ line = before ∧ line ≠ [] ∧
          (rest = [] ↔ form.frame.width < (form.row line ++ [' '] ++ form.piece entry).length ∨
            form.nested = true ∧
              (line.getLast?.any (·.text.isPath) = true ∨ entry.text.isPath = true))) ∧
      (∀ line ∈ rows.dropLast, 2 ≤ line.length → (form.row line).length ≤ form.frame.width) ∧
      ('\n' ∉ form.mark → ∀ first others, rows = first :: others →
        Text.lines (form.write entries ++ if closed then [] else form.mark) =
          form.row first :: others.map fun line => form.margin ++ form.row line) := by
  by_cases none : entries = []
  · subst none
    exact ⟨[], true, rfl, by simp, rfl, by simp, by simp, by simp⟩
  obtain ⟨init, last, rfl⟩ : ∃ init last, entries = init ++ [last] :=
    ⟨_, _, (List.dropLast_concat_getLast none).symm⟩
  obtain ⟨before, text, rows⟩ := write_concat mixed bare
  generalize form.trails (form.endsWithBreak || before.contains '\n') = closed at text
  have whole : form.write (init ++ [last]) ++ (if closed then [] else form.mark) =
      form.rowsText (form.fill init last).toList := by
    rw [text, rows, piece]
    cases closed <;> simp
  refine ⟨(form.fill init last).toList, closed, form.flatten_fill init last,
    form.nil_not_mem_fill init last, whole, ?_, ?_, ?_⟩
  · intro before entry after split more later
    obtain ⟨middle, final, rfl⟩ : ∃ middle final, after = middle ++ [final] :=
      ⟨_, _, (List.dropLast_concat_getLast later).symm⟩
    rw [← List.cons_append, ← List.append_assoc] at split
    obtain ⟨rfl, same⟩ := List.append_inj' split rfl
    obtain ⟨full, line, rest, right, cut, behind, shown, greedy⟩ :=
      form.fill_greedy more entry middle last
    refine ⟨full, line, rest, right, cut, behind, shown, ?_⟩
    rw [greedy, overflows_iff shown, ← length_piece, List.length_append, List.length_append,
      List.length_singleton]
  · rw [Rows.toList, List.dropLast_concat]
    exact fun line mem => (form.settled_full_fill init last line mem).2
  · intro flat first others split
    rw [whole, split]
    refine lines_rowsText flat ?_
    rwa [← split, form.flatten_fill]

theorem write_greedy_paths :
    let form : ListForm :=
      { frame := { width := 8, indent := { block := 2 } }, arrangement := .mixed, nested := true,
        trailing := .multilineOnly }
    let entries : List Entry :=
      [.ofText ['a'], .ofText ['b'], .ofText ['c'], .ofText "d::e".toList, .ofText ['f']]
    (∀ entry ∈ entries, entry.Bare) ∧
      form.write entries = "a, b, c,\n  d::e,\n  f,".toList ∧
      ∃ (rows : List (List Entry)) (closed : Bool), rows.flatten = entries ∧
        form.write entries ++ (if closed then [] else form.mark) =
          form.newLine.intercalate (rows.map form.row) ∧
        ∀ line ∈ rows.dropLast, 2 ≤ line.length → (form.row line).length ≤ 8 := by
  intro form entries
  have mixed : form.arrangement = .mixed := rfl
  have bare : ∀ entry ∈ entries, entry.Bare := by decide +kernel
  obtain ⟨rows, closed, flat, -, text, -, fits, -⟩ := write_greedy mixed bare
  exact ⟨bare, by decide +kernel, rows, closed, flat, text, fits⟩

theorem write_row_over_lines :
    let form : ListForm :=
      { frame := { width := 6 }, arrangement := .mixed, separator := "\n,".toList }
    let entries : List Entry := [.ofText ['a'], .ofText ['b'], .ofText ['c']]
    (∀ entry ∈ entries, entry.Bare) ∧
      form.write entries = "a\n,".toList ++ form.newLine ++ "b\n,".toList ++ form.newLine ++ ['c'] ∧
      ¬(form.frame.width <
          (Text.lastLine "a\n,".toList ++ [' '] ++ form.piece (.ofText ['b'])).length ∨
        form.nested = true) := by
  intro form entries
  exact ⟨by decide +kernel, by decide +kernel, by decide +kernel⟩

/-! ## More room -/

def withWidth (form : ListForm) (width : Nat) : ListForm :=
  { form with frame := { form.frame with width } }

variable {width : Nat} {wide narrow : Rows} {columns columns' : Nat}

theorem overflows_of_wider (wider : form.frame.width ≤ width) (fewer : columns' ≤ columns)
    {line line' : List Entry} {entry : Entry} (last : line'.getLast? = line.getLast?)
    (shorter : (form.row line').length ≤ (form.row line).length)
    (breaks : (form.withWidth width).overflows columns' line' entry = true) :
    form.overflows columns line entry = true := by
  by_cases none : line' = []
  · rw [none, overflows_nil] at breaks
    cases breaks
  have more : line ≠ [] := by
    rintro rfl
    exact none (List.getLast?_eq_none_iff.mp last)
  rw [overflows_iff none] at breaks
  rw [overflows_iff more, ← last]
  refine breaks.imp (fun (tight : width < (form.row line').length + 1 + _) => ?_) id
  omega

/-- Fewer full rows, or as many and no more on the row that may still grow. -/
structure Behind (form : ListForm) (wide narrow : Rows) : Prop where
  last : wide.line.getLast? = narrow.line.getLast?
  less : wide.full.length < narrow.full.length ∨
    wide.full.length = narrow.full.length ∧
      (form.row wide.line).length ≤ (form.row narrow.line).length

theorem Behind.length_full_le (behind : form.Behind wide narrow) :
    wide.full.length ≤ narrow.full.length := by
  rcases behind.less with fewer | ⟨same, -⟩
  · exact Nat.le_of_lt fewer
  · exact Nat.le_of_eq same

theorem length_piece_le_row (line : List Entry) (entry : Entry) :
    (form.row [entry]).length ≤ (form.row (line ++ [entry])).length := by
  by_cases none : line = []
  · exact Nat.le_of_eq (by rw [none, List.nil_append])
  · rw [row_singleton, length_row_concat none]
    exact Nat.le_add_left _ _

theorem length_row_concat_le {line line' : List Entry} (last : line'.getLast? = line.getLast?)
    (shorter : (form.row line').length ≤ (form.row line).length) (entry : Entry) :
    (form.row (line' ++ [entry])).length ≤ (form.row (line ++ [entry])).length := by
  by_cases none : line = []
  · subst none
    exact Nat.le_of_eq (by rw [List.getLast?_eq_none_iff.mp last])
  · have more : line' ≠ [] := by
      rintro rfl
      exact none (List.getLast?_eq_none_iff.mp last.symm)
    rw [length_row_concat none, length_row_concat more]
    omega

theorem Behind.add (behind : form.Behind wide narrow) (wider : form.frame.width ≤ width)
    (fewer : columns' ≤ columns) (entry : Entry) :
    form.Behind (wide.add ((form.withWidth width).overflows columns') entry)
      (narrow.add (form.overflows columns) entry) := by
  refine ⟨by rw [Rows.getLast?_line_add, Rows.getLast?_line_add], ?_⟩
  have least := form.length_piece_le_row narrow.line entry
  unfold Rows.add
  split
  · rename_i wideBreaks
    split
    · rcases behind.less with less | ⟨same, -⟩
      · exact .inl (by simpa using less)
      · exact .inr ⟨by simpa using same, Nat.le_refl _⟩
    · rename_i room
      rcases behind.less with less | ⟨-, shorter⟩
      · rw [List.length_append, List.length_singleton]
        rcases Nat.lt_or_eq_of_le (Nat.succ_le_of_lt less) with less | same
        · exact .inl less
        · exact .inr ⟨same, least⟩
      · exact absurd (overflows_of_wider wider fewer behind.last shorter wideBreaks) room
  · split
    · left
      rw [List.length_append]
      exact Nat.lt_succ_of_le behind.length_full_le
    · rcases behind.less with less | ⟨same, shorter⟩
      · exact .inl less
      · exact .inr ⟨same, length_row_concat_le behind.last shorter entry⟩

theorem Behind.foldl (behind : form.Behind wide narrow) (wider : form.frame.width ≤ width)
    (entries : List Entry) :
    form.Behind
      (entries.foldl (Rows.add ((form.withWidth width).overflows form.mark.length)) wide)
      (entries.foldl (Rows.add (form.overflows form.mark.length)) narrow) := by
  induction entries generalizing wide narrow with
  | nil => exact behind
  | cons entry entries ih => exact ih (behind.add wider (Nat.le_refl _) entry)

theorem Behind.reserve_le (behind : form.Behind wide narrow) :
    (form.withWidth width).reserve wide ≤ form.reserve narrow := by
  have fewer := behind.length_full_le
  by_cases none : narrow.full = []
  · rw [none, List.length_nil, Nat.le_zero, List.length_eq_zero_iff] at fewer
    unfold reserve
    rw [none, fewer]
    exact Nat.le_refl _
  · unfold reserve
    split
    · rename_i counted
      have counted : (form.trails false || form.endsWithBreak && !wide.full.isEmpty) = true := counted
      have counts : (form.trails false || form.endsWithBreak && !narrow.full.isEmpty) = true := by
        rw [List.isEmpty_eq_false_iff.mpr none]
        grind
      rw [if_pos counts]
      exact Nat.le_refl _
    · exact Nat.zero_le _

theorem fill_behind (wider : form.frame.width ≤ width) (init : List Entry) (last : Entry) :
    form.Behind ((form.withWidth width).fill init last) (form.fill init last) := by
  have start : form.Behind {} {} := ⟨rfl, .inr ⟨rfl, Nat.le_refl _⟩⟩
  have behind := start.foldl wider init
  exact behind.add wider behind.reserve_le last

theorem count_before {init : List Entry} {last : Entry} {before : Text}
    (bare : ∀ entry ∈ init ++ [last], entry.Bare)
    (rows : form.rowsText (form.fill init last).toList = before ++ form.piece last) :
    before.count '\n' = (form.fill init last).full.length + init.length * form.mark.count '\n' := by
  have listed : ∀ entry ∈ (form.fill init last).toList.flatten, entry.Bare := by
    rwa [form.flatten_fill]
  have counted := form.count_rowsText listed
  have single := (bare last (by simp)).single
  rw [rows, form.flatten_fill, Rows.toList, piece, List.count_append, List.count_append,
    List.count_eq_zero.mpr single, List.length_append, List.length_append, List.length_singleton,
    List.length_singleton, Nat.add_mul] at counted
  omega

theorem count_write_le (mixed : form.arrangement = .mixed) {entries : List Entry}
    (bare : ∀ entry ∈ entries, entry.Bare) (wider : form.frame.width ≤ width) :
    ((form.withWidth width).write entries).count '\n' ≤ (form.write entries).count '\n' := by
  by_cases none : entries = []
  · subst none
    exact Nat.le_refl 0
  obtain ⟨init, last, rfl⟩ : ∃ init last, entries = init ++ [last] :=
    ⟨_, _, (List.dropLast_concat_getLast none).symm⟩
  have mixed' : (form.withWidth width).arrangement = .mixed := mixed
  obtain ⟨before, text, rows⟩ := write_concat mixed bare
  obtain ⟨before', text', rows'⟩ := write_concat mixed' bare
  have fewer : before'.count '\n' ≤ before.count '\n' := by
    have counted := count_before bare rows
    have counted' := count_before bare rows'
    have behind := (fill_behind wider init last).length_full_le
    have same : (form.withWidth width).mark = form.mark := rfl
    rw [same] at counted'
    omega
  have broken : (form.endsWithBreak || before'.contains '\n') = true →
      (form.endsWithBreak || before.contains '\n') = true := by
    rw [Bool.or_eq_true, Bool.or_eq_true, List.contains_iff_mem, List.contains_iff_mem,
      ← List.count_pos_iff, ← List.count_pos_iff]
    exact Or.imp_right fun feed => Nat.lt_of_lt_of_le feed fewer
  -- The width has no say in the last separator but through the text in front of it.
  have text' : (form.withWidth width).write (init ++ [last]) = before' ++ last.text ++
      (if form.trails (form.endsWithBreak || before'.contains '\n') then form.mark else []) := text'
  rw [text, text']
  simp only [List.count_append]
  refine Nat.add_le_add (Nat.add_le_add_right fewer _) ?_
  split
  · rename_i closes
    exact Nat.le_of_eq (by rw [if_pos (trails_mono broken closes)])
  · exact Nat.zero_le _

theorem count_write_le_seven :
    let form : ListForm := { frame := { width := 4 }, arrangement := .mixed, trailing := .multilineOnly }
    let entries : List Entry := [.ofText ['a'], .ofText ['b'], .ofText "cd".toList]
    (∀ entry ∈ entries, entry.Bare) ∧ form.frame.width ≤ 7 ∧
      form.write entries = "a,\nb,\ncd,".toList ∧
      (form.withWidth 7).write entries = "a, b,\ncd,".toList ∧
      ((form.withWidth 7).write entries).count '\n' ≤ (form.write entries).count '\n' := by
  intro form entries
  have mixed : form.arrangement = .mixed := rfl
  have bare : ∀ entry ∈ entries, entry.Bare := by decide +kernel
  have wider : form.frame.width ≤ 7 := by decide
  exact ⟨bare, wider, by decide +kernel, by decide +kernel, count_write_le mixed bare wider⟩

end ListForm

end ItemLayout
