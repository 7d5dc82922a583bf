import ItemLayout.Proofs.ItemList.Write

namespace ItemLayout

/-! ## Comments on the line of an entry -/

namespace ListForm

def lead (form : ListForm) (column : Option Int) (comment : Text) : Text :=
  let written := Comment.reindent form.margin column comment
  written ++ if '\n' ∈ written then form.newLine else [' ']

def tail (column : Option Int) (comment : Text) : Text := ' ' :: Comment.reindent [] column comment

section

variable {comment : Text} (trimmed : comment.trim = comment) (form : ListForm) (column : Option Int)
include trimmed

theorem reindent_single (single : '\n' ∉ comment) (margin : Text) :
    Comment.reindent margin column comment = comment := by
  rw [Comment.reindent_of_single (trimmed.symm ▸ single), trimmed]

theorem mem_lead_iff : '\n' ∈ form.lead column comment ↔ '\n' ∈ comment := by
  have feed := Comment.mem_reindent_iff form.margin column comment
  by_cases several : '\n' ∈ comment <;> simp [lead, feed, trimmed, several]

theorem mem_tail_iff : '\n' ∈ tail column comment ↔ '\n' ∈ comment := by
  simp [tail, Comment.mem_reindent_iff, trimmed]

theorem length_lead (single : '\n' ∉ comment) :
    (form.lead column comment).length = comment.length + 1 := by
  rw [lead, reindent_single trimmed column single, if_neg single]
  exact List.length_append

theorem length_tail (single : '\n' ∉ comment) :
    (tail column comment).length = comment.length + 1 := by
  rw [tail, reindent_single trimmed column single]
  rfl

end

def inline (form : ListForm) (entry : Entry) : Text :=
  entry.before.elim [] (form.lead entry.beforeColumn) ++ entry.text ++
    entry.after.elim [] (tail entry.afterColumn)

def oneLine (form : ListForm) (entries : List Entry) : Text :=
  (form.mark ++ [' ']).intercalate (entries.map form.inline)

theorem oneLine_cons_cons (form : ListForm) (first second : Entry) (rest : List Entry) :
    form.oneLine (first :: second :: rest) =
      form.inline first ++ (form.mark ++ [' ']) ++ form.oneLine (second :: rest) :=
  List.intercalate_cons_cons

end ListForm

structure Entry.Compact (entry : Entry) : Prop where
  shown : entry.text ≠ []
  comments : ∀ comment ∈ entry.comments,
    comment ≠ [] ∧ comment.trim = comment ∧ comment.isLineComment = false

instance (entry : Entry) : Decidable entry.Compact :=
  decidable_of_iff
    (entry.text ≠ [] ∧ ∀ comment ∈ entry.comments,
      comment ≠ [] ∧ comment.trim = comment ∧ comment.isLineComment = false)
    ⟨fun ⟨shown, comments⟩ => ⟨shown, comments⟩, fun ⟨shown, comments⟩ => ⟨shown, comments⟩⟩

namespace Entry.Compact

variable {entry : Entry} {comment : Text}

theorem of_before (compact : entry.Compact) (before : entry.before = some comment) :
    comment ≠ [] ∧ comment.trim = comment ∧ comment.isLineComment = false :=
  compact.comments comment (by simp [Entry.comments, before])

theorem of_after (compact : entry.Compact) (after : entry.after = some comment) :
    comment ≠ [] ∧ comment.trim = comment ∧ comment.isLineComment = false :=
  compact.comments comment (by simp [Entry.comments, after])

theorem closesLine (compact : entry.Compact) : entry.closesLine = false := by
  cases after : entry.after with
  | none => simp [Entry.closesLine, after]
  | some comment => simp [Entry.closesLine, after, (compact.of_after after).2.2]

theorem hasLineComment (compact : entry.Compact) : entry.hasLineComment = false := by
  refine List.any_eq_false.mpr fun comment mem => ?_
  rw [(compact.comments comment mem).2.2]
  exact Bool.false_ne_true

theorem mem_inline_iff (compact : entry.Compact) (form : ListForm) :
    '\n' ∈ form.inline entry ↔ entry.isMultiline = true := by
  have before : '\n' ∈ entry.before.elim [] (form.lead entry.beforeColumn) ↔
      entry.before.toList.any (·.contains '\n') = true := by
    cases before : entry.before with
    | none => simp
    | some comment => simp [ListForm.mem_lead_iff (compact.of_before before).2.1]
  have after : '\n' ∈ entry.after.elim [] (ListForm.tail entry.afterColumn) ↔
      entry.after.toList.any (·.contains '\n') = true := by
    cases after : entry.after with
    | none => simp
    | some comment => simp [ListForm.mem_tail_iff (compact.of_after after).2.1]
  rw [ListForm.inline, List.mem_append, List.mem_append, before, after, Entry.isMultiline,
    Entry.comments, List.any_append, Bool.or_eq_true, Bool.or_eq_true, List.contains_iff_mem]
  grind

theorem length_inline (compact : entry.Compact) (single : entry.isMultiline = false)
    (form : ListForm) : (form.inline entry).length = entry.width := by
  obtain ⟨-, single⟩ := Bool.or_eq_false_iff.mp single
  have before : (entry.before.elim [] (form.lead entry.beforeColumn)).length =
      commentWidth entry.before := by
    cases before : entry.before with
    | none => rfl
    | some comment =>
        obtain ⟨more, trimmed, -⟩ := compact.of_before before
        have single : '\n' ∉ comment := by simp_all [Entry.comments]
        simp [commentWidth, trimmed, more, ListForm.length_lead trimmed form _ single]
  have after : (entry.after.elim [] (ListForm.tail entry.afterColumn)).length =
      commentWidth entry.after := by
    cases after : entry.after with
    | none => rfl
    | some comment =>
        obtain ⟨more, trimmed, -⟩ := compact.of_after after
        have single : '\n' ∉ comment := by simp_all [Entry.comments]
        simp [commentWidth, trimmed, more, ListForm.length_tail trimmed _ single]
  rw [ListForm.inline, List.length_append, List.length_append, before, after, Entry.width]
  omega

end Entry.Compact

/-! ## Writing entries -/

namespace ListWriter

variable {form : ListForm} {entry : Entry} {writer : ListWriter}

theorem putBefore_compact (horizontal : form.arrangement = .horizontal) (compact : entry.Compact)
    (separatorWidth : Nat) :
    writer.putBefore form entry separatorWidth =
      { writer with
        text := writer.text ++ entry.before.elim [] (form.lead entry.beforeColumn) } := by
  cases before : entry.before with
  | none => simp [putBefore, before]
  | some comment =>
      obtain ⟨more, trimmed, open'⟩ := compact.of_before before
      have feed := Comment.mem_reindent_iff form.margin entry.beforeColumn comment
      rw [trimmed] at feed
      -- A comment without a line feed is written as it stands, so it leaves the line open.
      have stays : keepsInline form entry separatorWidth
          (Comment.reindent form.margin entry.beforeColumn comment) = !comment.contains '\n' := by
        by_cases several : '\n' ∈ comment
        · simp [keepsInline, feed, several]
        · simp [keepsInline, ListForm.reindent_single trimmed _ several, several, open', horizontal]
      obtain ⟨c, rest, rfl⟩ := List.exists_cons_of_ne_nil more
      simp only [putBefore, before, if_neg compact.shown, stays]
      by_cases several : '\n' ∈ c :: rest
      · simp [ListForm.lead, feed, several, horizontal]
      · simp [ListForm.lead, feed, several]

theorem ending_compact (horizontal : form.arrangement = .horizontal) (compact : entry.Compact)
    (separated : Bool) :
    ending form entry separated =
      entry.after.elim [] (ListForm.tail entry.afterColumn) ++
        if separated then form.mark else [] := by
  cases after : entry.after with
  | none => simp [ending, after]
  | some comment =>
      obtain ⟨more, -, open'⟩ := compact.of_after after
      rw [ending_of_some after more, if_pos ⟨horizontal, by simp [open']⟩]
      rfl

theorem put_horizontal (horizontal : form.arrangement = .horizontal) (compact : entry.Compact)
    (last : Bool) (unclosed : writer.previous.any Entry.closesLine = false) :
    writer.put form last entry =
      { writer with
        text := writer.text ++ (if writer.previous.isSome then [' '] else []) ++ form.inline entry ++
          if !last || writer.trailing then form.mark else []
        previous := some entry } := by
  have divided (width : Nat) : writer.advance form entry width =
      { writer with text := writer.text ++ if writer.previous.isSome then [' '] else [] } := by
    obtain ⟨text, lineWidth, previous, trailing⟩ := writer
    cases previous with
    | none => simp [advance, horizontal]
    | some previous => simp_all [advance]
  simp only [put, divided, putBefore_compact horizontal compact, ending_compact horizontal compact]
  simp [ListForm.inline, blankLine, horizontal]

theorem putAll_singleton (form : ListForm) (writer : ListWriter) (entry : Entry) :
    writer.putAll form [entry] = writer.put form true entry :=
  rfl

theorem putAll_cons_cons (form : ListForm) (writer : ListWriter) (first second : Entry)
    (rest : List Entry) :
    writer.putAll form (first :: second :: rest) =
      (writer.put form false first).putAll form (second :: rest) :=
  rfl

theorem putAll_oneLine (horizontal : form.arrangement = .horizontal) {entries : List Entry}
    (compact : ∀ entry ∈ entries, entry.Compact) (more : entries ≠ [])
    (unclosed : writer.previous.any Entry.closesLine = false) :
    (writer.putAll form entries).text =
      writer.text ++ (if writer.previous.isSome then [' '] else []) ++ form.oneLine entries ++
        if writer.trailing then form.mark else [] := by
  induction entries generalizing writer with
  | nil => exact absurd rfl more
  | cons entry rest ih =>
      obtain ⟨first, compact⟩ := List.forall_mem_cons.mp compact
      cases rest with
      | nil =>
          rw [putAll_singleton, put_horizontal horizontal first true unclosed]
          simp [ListForm.oneLine]
      | cons second rest =>
          have step := put_horizontal horizontal first false unclosed
          have after : (writer.put form false entry).previous.any Entry.closesLine = false := by
            rw [step]
            exact first.closesLine
          rw [putAll_cons_cons, ih compact (List.cons_ne_nil _ _) after, step,
            ListForm.oneLine_cons_cons]
          simp

end ListWriter

theorem ListForm.write_oneLine {form : ListForm} (horizontal : form.arrangement = .horizontal)
    (never : form.trailing = .never) {entries : List Entry}
    (compact : ∀ entry ∈ entries, entry.Compact) : form.write entries = form.oneLine entries := by
  rw [write, Entry.filter_isSubstantial fun entry mem => (compact entry mem).shown]
  by_cases more : entries = []
  · subst more
    rfl
  · have trailing : (ListWriter.start form).trailing = false := by
      simp [ListWriter.start, trails, never]
    rw [ListWriter.putAll_oneLine horizontal compact more rfl, trailing]
    simp [ListWriter.start]

/-! ## The width of one line -/

theorem oneLineWidth_cons_cons (separator : Text) (first second : Entry) (rest : List Entry) :
    oneLineWidth separator (first :: second :: rest) =
      first.width + separator.trimRight.length + 1 + oneLineWidth separator (second :: rest) := by
  simp only [oneLineWidth, List.foldr_cons, List.length_cons, Nat.add_sub_cancel, Nat.mul_add,
    Nat.mul_one]
  omega

theorem ListForm.length_oneLine (form : ListForm) {entries : List Entry}
    (compact : ∀ entry ∈ entries, entry.Compact)
    (single : ∀ entry ∈ entries, entry.isMultiline = false) :
    (form.oneLine entries).length = oneLineWidth form.separator entries := by
  induction entries with
  | nil => rfl
  | cons entry rest ih =>
      obtain ⟨first, compact⟩ := List.forall_mem_cons.mp compact
      obtain ⟨flat, single⟩ := List.forall_mem_cons.mp single
      have width := first.length_inline flat form
      cases rest with
      | nil => simp [oneLine, oneLineWidth, width]
      | cons second rest =>
          rw [oneLine_cons_cons, oneLineWidth_cons_cons, ← ih compact single, ← width]
          simp only [List.length_append, List.length_singleton, mark]
          omega

theorem ListForm.count_oneLine (form : ListForm) (entries : List Entry) :
    (form.oneLine entries).count '\n' =
      (entries.length - 1) * form.mark.count '\n' + (entries.flatMap form.inline).count '\n' := by
  have space : [' '].count '\n' = 0 := by decide
  rw [oneLine, count_intercalate, List.count_append, space, List.length_map, ← List.flatMap_def]
  rfl

theorem ListForm.count_oneLine_iff (form : ListForm) {entries : List Entry}
    (compact : ∀ entry ∈ entries, entry.Compact) :
    (form.oneLine entries).count '\n' = (entries.length - 1) * form.mark.count '\n' ↔
      ∀ entry ∈ entries, entry.isMultiline = false := by
  rw [count_oneLine, Nat.add_eq_left, List.count_eq_zero, List.mem_flatMap, not_exists]
  refine forall_congr' fun entry => ?_
  rw [not_and]
  refine forall_congr' fun mem => ?_
  rw [(compact entry mem).mem_inline_iff, Bool.not_eq_true]

/-! ## Choosing one line -/

namespace Arrangement

variable {packing : Packing} {entries : List Entry}

theorem choose_eq_horizontal_iff {separator : Text} {width : Int}
    (flexible : packing = .mixed ∨ packing = .horizontalVertical) :
    choose packing separator width entries = .horizontal ↔
      (∀ entry ∈ entries, entry.hasLineComment = false) ∧
      (∀ entry ∈ entries, entry.isMultiline = false) ∧
      (oneLineWidth separator entries : Int) ≤ width := by
  unfold choose
  rcases flexible with rfl | rfl <;> grind

theorem choose_iff_oneLine (form : ListForm) (width : Int)
    (flexible : packing = .mixed ∨ packing = .horizontalVertical)
    (compact : ∀ entry ∈ entries, entry.Compact) :
    choose packing form.separator width entries = .horizontal ↔
      (form.oneLine entries).count '\n' = (entries.length - 1) * form.mark.count '\n' ∧
      ((form.oneLine entries).length : Int) ≤ width := by
  rw [choose_eq_horizontal_iff flexible, form.count_oneLine_iff compact]
  constructor
  · rintro ⟨-, single, fits⟩
    rw [form.length_oneLine compact single]
    exact ⟨single, fits⟩
  · rintro ⟨single, fits⟩
    rw [form.length_oneLine compact single] at fits
    exact ⟨fun entry mem => (compact entry mem).hasLineComment, single, fits⟩

theorem choose_iff_write (form : ListForm) (width : Int)
    (horizontal : form.arrangement = .horizontal) (never : form.trailing = .never)
    (flexible : packing = .mixed ∨ packing = .horizontalVertical)
    (compact : ∀ entry ∈ entries, entry.Compact) :
    (choose packing form.separator width entries = .horizontal ↔
      (form.write entries).count '\n' = (entries.length - 1) * form.separator.trimRight.count '\n' ∧
      ((form.write entries).length : Int) ≤ width) ∧
    ('\n' ∉ form.separator.trimRight ∨ entries.length ≤ 1 →
      (choose packing form.separator width entries = .horizontal ↔
        '\n' ∉ form.write entries ∧ ((form.write entries).length : Int) ≤ width)) := by
  have counted := choose_iff_oneLine form width flexible compact
  rw [ListForm.mark] at counted
  rw [ListForm.write_oneLine horizontal never compact]
  refine ⟨counted, fun flat => ?_⟩
  -- What is allowed for the separators is nothing then.
  have none : (entries.length - 1) * form.separator.trimRight.count '\n' = 0 := by
    rcases flat with flat | few
    · rw [List.count_eq_zero.mpr flat, Nat.mul_zero]
    · rw [Nat.sub_eq_zero_of_le few, Nat.zero_mul]
  rw [counted, none, List.count_eq_zero]

theorem choose_iff_write_comments :
    let form : ListForm := { frame := { width := 3 }, separator := ", ".toList }
    let entries : List Entry :=
      [{ text := ['a'], before := some "/* x */".toList, after := some "/*y*/".toList }, .ofText ['b']]
    (∀ entry ∈ entries, entry.Compact) ∧ form.write entries = "/* x */ a /*y*/, b".toList ∧
      choose .mixed form.separator 18 entries = .horizontal ∧
      choose .horizontalVertical form.separator 17 entries ≠ .horizontal := by
  intro form entries
  have compact : ∀ entry ∈ entries, entry.Compact := by decide +kernel
  have written : form.write entries = "/* x */ a /*y*/, b".toList := by decide +kernel
  obtain ⟨-, room⟩ := choose_iff_write form 18 rfl rfl (.inl rfl) compact
  obtain ⟨-, less⟩ := choose_iff_write form 17 rfl rfl (.inr rfl) compact
  have flat : '\n' ∉ form.separator.trimRight := by decide +kernel
  refine ⟨compact, written, (room (.inl flat)).mpr ?_, fun chosen => ?_⟩
  · rw [written]
    decide
  · have fits := ((less (.inl flat)).mp chosen).2
    rw [written] at fits
    exact absurd fits (by decide)

theorem choose_feed_in_separator :
    let form : ListForm := { frame := { width := 100 }, separator := "\n,".toList }
    let entries : List Entry := [.ofText ['a'], .ofText ['b']]
    (∀ entry ∈ entries, entry.Compact) ∧ form.write entries = "a\n, b".toList ∧
      choose .mixed form.separator 100 entries = .horizontal ∧
      ¬('\n' ∉ form.write entries ∧ ((form.write entries).length : Int) ≤ 100) := by
  intro form entries
  have compact : ∀ entry ∈ entries, entry.Compact := by decide +kernel
  have written : form.write entries = "a\n, b".toList := by decide +kernel
  refine ⟨compact, written, by decide +kernel, ?_⟩
  rw [written]
  decide

end Arrangement

end ItemLayout
