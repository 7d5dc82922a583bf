import ItemLayout.Proofs.ItemList.Write

namespace ItemLayout

namespace Text

def ink (t : Text) : Text := t.filter fun c => !isBlank c

theorem ink_append (a b : Text) : (a ++ b).ink = a.ink ++ b.ink := List.filter_append ..

theorem ink_of_blank {t : Text} (blank : Blank t) : t.ink = [] := by
  apply List.filter_eq_nil_iff.mpr
  intro c mem
  simp [blank c mem]

theorem ink_trimRight (t : Text) : t.trimRight.ink = t.ink := by
  obtain ⟨tail, split, blank⟩ := t.trimRight_append_blanks
  calc t.trimRight.ink = t.trimRight.ink ++ tail.ink := by rw [ink_of_blank blank, List.append_nil]
    _ = t.ink := by rw [← ink_append, ← split]

theorem ink_trim (t : Text) : t.trim.ink = t.ink := by
  calc t.trim.ink = t.trimLeft.ink := ink_trimRight t.trimLeft
    _ = ink (t.takeWhile isBlank) ++ t.trimLeft.ink := by rw [ink_of_blank t.blank_takeWhile, List.nil_append]
    _ = t.ink := by rw [← ink_append, trimLeft, List.takeWhile_append_dropWhile]

end Text

theorem Reflow.ink_eq {a b : Text} (flow : Reflow a b) : a.ink = b.ink := by
  induction flow with
  | nil => rfl
  | keep c _ ih =>
      show Text.ink ([c] ++ _) = Text.ink ([c] ++ _)
      rw [Text.ink_append, Text.ink_append, ih]
  | run _ _ blank blank' _ ih =>
      rw [Text.ink_append, Text.ink_append, Text.ink_of_blank blank, Text.ink_of_blank blank', ih]

theorem Comment.ink_reindent {margin : Text} (blank : Blank margin) {column : Option Int}
    (nonneg : ∀ n ∈ column, 0 ≤ n) (comment : Text) :
    (reindent margin column comment).ink = comment.ink := by
  rw [← (reflow_reindent blank nonneg comment).ink_eq, Text.ink_trim]

structure Entry.Located (entry : Entry) : Prop where
  before : ∀ column ∈ entry.beforeColumn, 0 ≤ column
  after : ∀ column ∈ entry.afterColumn, 0 ≤ column

instance (entry : Entry) : Decidable entry.Located :=
  decidable_of_iff ((∀ column ∈ entry.beforeColumn, 0 ≤ column) ∧
      ∀ column ∈ entry.afterColumn, 0 ≤ column)
    ⟨fun ⟨before, after⟩ => ⟨before, after⟩, fun located => ⟨located.before, located.after⟩⟩

namespace ListForm

variable (form : ListForm)

def movedBefore (entry : Entry) : Text :=
  entry.before.elim [] (Comment.reindent form.margin entry.beforeColumn)

def endingInk (separated : Bool) (entry : Entry) : Text :=
  let mark := if separated then form.separator.ink else []
  let comment := (entry.after.getD []).ink
  if form.arrangement = .horizontal ∧ ¬ entry.closesLine then comment ++ mark else mark ++ comment

def entryInk (separated : Bool) (entry : Entry) : Text :=
  (entry.before.getD []).ink ++ entry.text.ink ++ form.endingInk separated entry

def writtenBefore (init : List Entry) (last : Entry) : Text :=
  let writer := init.foldl (ListWriter.put form false) (.start form)
  (writer.advance form last (writer.separatorWidth form true)).text

theorem blank_newLine : Blank form.newLine := .cons (by decide) form.blank_margin

theorem ink_movedBefore {entry : Entry} (located : entry.Located) :
    (form.movedBefore entry).ink = (entry.before.getD []).ink := by
  unfold movedBefore
  cases entry.before with
  | none => rfl
  | some comment => exact Comment.ink_reindent form.blank_margin located.before comment

theorem closesWithMark_iff (broken : Bool) :
    form.closesWithMark broken = true ↔
      form.trailing = .always ∨ form.trailing = .multilineOnly ∧
        (form.arrangement = .vertical ∨
          form.arrangement = .mixed ∧ (form.endsWithBreak = true ∨ broken = true)) := by
  unfold closesWithMark trails
  cases form.trailing <;> cases form.arrangement <;> simp

end ListForm

namespace ListWriter

variable {form : ListForm} {entry : Entry} {writer : ListWriter}

theorem blank_space : Blank [' '] := .cons (by decide) (by simp [Blank])

theorem putBefore_blank (form : ListForm) (entry : Entry) (width : Nat) (writer : ListWriter) :
    ∃ gap, Blank gap ∧
      (writer.putBefore form entry width).text = writer.text ++ form.movedBefore entry ++ gap := by
  have nothing : Blank [] := by simp [Blank]
  unfold putBefore ListForm.movedBefore
  split
  · rename_i none
    exact ⟨[], nothing, by simp [none]⟩
  · rename_i empty
    have unwritten : Comment.reindent form.margin entry.beforeColumn [] = [] :=
      Comment.reindent_of_single List.not_mem_nil ..
    exact ⟨[], nothing, by simp [empty, unwritten]⟩
  · rename_i comment _ before
    rw [before]
    simp only
    split
    · exact ⟨[], nothing, (List.append_nil _).symm⟩
    · split
      · exact ⟨_, blank_space, rfl⟩
      · exact ⟨_, form.blank_newLine, rfl⟩

theorem ink_ending (form : ListForm) (located : entry.Located) (separated : Bool) :
    (ending form entry separated).ink = form.endingInk separated entry := by
  have mark : Text.ink (if separated then form.mark else []) =
      if separated then form.separator.ink else [] := by
    cases separated with
    | false => rfl
    | true => exact form.separator.ink_trimRight
  have moved {margin : Text} (blank : Blank margin) (comment : Text) :
      Text.ink (' ' :: Comment.reindent margin entry.afterColumn comment) = comment.ink := by
    rw [← Comment.ink_reindent blank located.after comment]
    exact Text.ink_append [' '] _
  have nothing : Text.ink [] = [] := rfl
  unfold ListForm.endingInk Entry.closesLine
  cases after : entry.after with
  | none => simp [ending, after, mark, nothing]
  | some comment =>
      by_cases empty : comment = []
      · simp [ending, after, empty, mark, nothing]
      · rw [ending_of_some after empty, Option.any_some, Option.getD_some]
        split
        · rw [Text.ink_append, moved (by simp [Blank]), mark]
        · rw [Text.ink_append, moved form.blank_margin, mark]

theorem blank_blankLine (form : ListForm) (entry : Entry) (last : Bool) :
    Blank (blankLine form entry last) := by
  unfold blankLine
  split
  · exact .cons (by decide) (by simp [Blank])
  · simp [Blank]

theorem put_blank (form : ListForm) (located : entry.Located) (last : Bool) (writer : ListWriter) :
    let front := (writer.advance form entry (writer.separatorWidth form last)).text
    ∃ gap tail separated,
      (writer.put form last entry).text = front ++ form.movedBefore entry ++ gap ++ entry.text ++ tail ∧
      Blank gap ∧ tail.ink = form.endingInk separated entry ∧
      (last = false → separated = true) ∧
      (last = true → writer.Steady form →
        separated = form.closesWithMark (front.contains '\n')) := by
  obtain ⟨separated, text, middle, final⟩ := writer.put_text form last entry
  obtain ⟨gap, blank, before⟩ := putBefore_blank form entry (writer.separatorWidth form last)
    (writer.advance form entry (writer.separatorWidth form last))
  refine ⟨gap, ending form entry separated ++ blankLine form entry last, separated, ?_, blank, ?_,
    middle, final⟩
  · rw [text, before, List.append_assoc _ (ending ..)]
  · rw [Text.ink_append, ink_ending form located, Text.ink_of_blank (blank_blankLine _ _ _),
      List.append_nil]

theorem ink_advance (form : ListForm) (entry : Entry) (width : Nat) (writer : ListWriter) :
    (writer.advance form entry width).text.ink = writer.text.ink := by
  obtain ⟨divider, place, text, -⟩ := advance_text form entry width writer
  have blank : Blank divider := by
    rcases place with rfl | rfl | rfl
    · simp [Blank]
    · exact blank_space
    · exact form.blank_newLine
  rw [text, Text.ink_append, Text.ink_of_blank blank, List.append_nil]

theorem ink_step (located : entry.Located) {gap tail : Text} {separated : Bool} (blank : Blank gap)
    (ending : tail.ink = form.endingInk separated entry) (front : Text) :
    (front ++ form.movedBefore entry ++ gap ++ entry.text ++ tail).ink =
      front.ink ++ form.entryInk separated entry := by
  rw [Text.ink_append, Text.ink_append, Text.ink_append, Text.ink_append,
    form.ink_movedBefore located, Text.ink_of_blank blank, ending, ListForm.entryInk]
  simp only [List.append_assoc, List.nil_append]

theorem ink_put (form : ListForm) (located : entry.Located) (writer : ListWriter) :
    (writer.put form false entry).text.ink = writer.text.ink ++ form.entryInk true entry := by
  obtain ⟨gap, tail, separated, text, blank, ending, middle, -⟩ :=
    put_blank form located false writer
  obtain rfl := middle rfl
  rw [text, ink_step located blank ending, ink_advance]

theorem ink_foldl (form : ListForm) {entries : List Entry}
    (located : ∀ entry ∈ entries, entry.Located) (writer : ListWriter) :
    (entries.foldl (ListWriter.put form false) writer).text.ink =
      writer.text.ink ++ entries.flatMap (form.entryInk true) := by
  induction entries generalizing writer with
  | nil => exact (List.append_nil _).symm
  | cons entry entries ih =>
      obtain ⟨first, located⟩ := List.forall_mem_cons.mp located
      rw [List.foldl_cons, ih located, ink_put form first, List.flatMap_cons, List.append_assoc]

theorem steady_foldl (steady : writer.Steady form) (entries : List Entry) :
    (entries.foldl (ListWriter.put form false) writer).Steady form := by
  induction entries generalizing writer with
  | nil => exact steady
  | cons entry entries ih => exact ih (put_steady steady false entry)

end ListWriter

namespace ListForm

theorem ink_writtenBefore (form : ListForm) {init : List Entry}
    (located : ∀ entry ∈ init, entry.Located) (last : Entry) :
    (form.writtenBefore init last).ink = init.flatMap (form.entryInk true) := by
  rw [writtenBefore, ListWriter.ink_advance, ListWriter.ink_foldl form located]
  rfl

theorem write_ink (form : ListForm) {entries : List Entry}
    (located : ∀ entry ∈ entries, entry.Located) :
    (entries.filter Entry.isSubstantial = [] → form.write entries = []) ∧
    ∀ init last, entries.filter Entry.isSubstantial = init ++ [last] →
      ∃ gap tail closed,
        (form.write entries).ink =
          init.flatMap (form.entryInk true) ++ form.entryInk closed last ∧
        (closed = true ↔
          form.trailing = .always ∨ form.trailing = .multilineOnly ∧
            (form.arrangement = .vertical ∨ form.arrangement = .mixed ∧
              (form.endsWithBreak = true ∨ '\n' ∈ form.writtenBefore init last))) ∧
        form.write entries =
          form.writtenBefore init last ++ form.movedBefore last ++ gap ++ last.text ++ tail ∧
        (form.writtenBefore init last).ink = init.flatMap (form.entryInk true) ∧
        Blank gap := by
  constructor
  · intro none
    rw [write, none]
    rfl
  intro init last shown
  have inside : ∀ entry ∈ init ++ [last], entry.Located := by
    intro entry mem
    exact located entry (List.mem_filter.mp (shown ▸ mem)).1
  obtain ⟨before, final⟩ := List.forall_mem_append.mp inside
  have located := final last (List.mem_singleton.mpr rfl)
  have steady : (ListWriter.start form).Steady form := fun _ => rfl
  obtain ⟨gap, tail, closed, text, blank, ending, -, closes⟩ :=
    ListWriter.put_blank form located true (init.foldl (ListWriter.put form false) (.start form))
  have written : form.write entries =
      form.writtenBefore init last ++ form.movedBefore last ++ gap ++ last.text ++ tail := by
    rw [write, shown, ListWriter.putAll_concat]
    exact text
  have front := form.ink_writtenBefore before last
  refine ⟨gap, tail, closed, ?_, ?_, written, front, blank⟩
  · rw [written, ListWriter.ink_step located blank ending, front]
  · rw [closes rfl (ListWriter.steady_foldl steady init), closesWithMark_iff,
      List.contains_iff_mem]
    rfl

theorem write_ink_blank_comment :
    let form : ListForm :=
      { frame := { width := 12, indent := { block := 2 } }, arrangement := .mixed,
        separator := ", ".toList, trailing := .multilineOnly, endsWithBreak := false }
    let first : Entry :=
      { text := "a b".toList, before := some "/* x\n   y */".toList, beforeColumn := some 2 }
    let second : Entry := { text := [], after := some "  ".toList }
    let last : Entry := { text := ['c'], after := some "// z ".toList }
    let entries := [first, .ofText [], second, last]
    (∀ entry ∈ entries, entry.Located) ∧
      entries.filter Entry.isSubstantial = [first, second] ++ [last] ∧
      form.write entries = "/* x\n   y */\n  a b, , \n  c, // z".toList ∧
      (form.write entries).ink =
        [first, second].flatMap (form.entryInk true) ++ form.entryInk true last := by
  intro form first second last entries
  have located : ∀ entry ∈ entries, entry.Located := by decide +kernel
  have shown : entries.filter Entry.isSubstantial = [first, second] ++ [last] := by decide +kernel
  obtain ⟨gap, tail, closed, ink, closes, -⟩ := (form.write_ink located).2 _ _ shown
  have marked : closed = true := closes.mpr (.inr ⟨rfl, .inr ⟨rfl, .inr (by decide +kernel)⟩⟩)
  rw [marked] at ink
  exact ⟨located, shown, by decide +kernel, ink⟩

end ListForm

end ItemLayout
