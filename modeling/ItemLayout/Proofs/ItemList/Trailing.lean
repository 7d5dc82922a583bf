import ItemLayout.Proofs.ItemList.Ink
import ItemLayout.Proofs.ItemList.Layout
import ItemLayout.Proofs.ItemList.OneLine

/-!
# The separator after the last entry

Whether the last entry has a separator is settled while the entries are written, and whether the list
stands on lines of its own only when its text is known. In block style the two agree: entries that are
not arranged on one line have more text than fits there, so where a separator is left for lists of
several lines the list is one (`Document.layoutList_trailing`).
-/

namespace ItemLayout

/-! ## Texts on one line -/

/-- If a text is one line, then `flat` holds of what it is made of, and it has as many columns. -/
def IfFlat (flat : Prop) (columns : Nat) (t : Text) : Prop :=
  '\n' ∉ t → flat ∧ columns ≤ t.length

namespace IfFlat

variable {p q : Prop} {m n : Nat} {a b : Text}

theorem of_mem (feed : '\n' ∈ a) : IfFlat p m a := fun single => absurd feed single

theorem of_text (t : Text) : IfFlat ('\n' ∉ t) t.length t := fun single => ⟨single, Nat.le_refl _⟩

theorem of_length (t : Text) : IfFlat True t.length t := fun _ => ⟨trivial, Nat.le_refl _⟩

theorem append (left : IfFlat p m a) (right : IfFlat q n b) : IfFlat (p ∧ q) (m + n) (a ++ b) := by
  intro single
  rw [List.mem_append, not_or] at single
  obtain ⟨first, width⟩ := left single.1
  obtain ⟨second, width'⟩ := right single.2
  rw [List.length_append]
  exact ⟨⟨first, second⟩, Nat.add_le_add width width'⟩

theorem imp (left : IfFlat p m a) (weaker : p → q) (fewer : n ≤ m) : IfFlat q n a := by
  intro single
  obtain ⟨first, width⟩ := left single
  exact ⟨weaker first, Nat.le_trans fewer width⟩

end IfFlat

theorem Comment.ifFlat_reindent {comment : Text} (trimmed : comment.trim = comment) (margin : Text)
    (column : Option Int) :
    IfFlat ('\n' ∉ comment) comment.length (reindent margin column comment) := by
  by_cases several : '\n' ∈ comment
  · exact .of_mem ((mem_reindent_iff margin column comment).mpr (trimmed.symm ▸ several))
  · rw [ListForm.reindent_single trimmed column several]
    exact .of_text comment

theorem ListForm.ifFlat_newLine (form : ListForm) (columns : Nat) : IfFlat True columns form.newLine :=
  .of_mem List.mem_cons_self

/-! ## The columns of a mixed arrangement -/

namespace Entry

theorem isMultiline_eq_false_iff (entry : Entry) :
    entry.isMultiline = false ↔
      ((∀ comment ∈ entry.before, '\n' ∉ comment) ∧ '\n' ∉ entry.text) ∧
        ∀ comment ∈ entry.after, '\n' ∉ comment := by
  unfold isMultiline comments
  cases entry.before <;> cases entry.after <;> simp [and_comm, and_left_comm, and_assoc]

theorem commentWidth_some {comment : Text} (more : comment ≠ []) (trimmed : comment.trim = comment) :
    commentWidth (some comment) = comment.length + 1 := by
  simp [commentWidth, trimmed, more]

end Entry

namespace ListWriter

variable {form : ListForm} {entry : Entry} {writer : ListWriter}

theorem ifFlat_putBefore (form : ListForm) (compact : entry.Compact) (width : Nat)
    (writer : ListWriter) :
    ∃ lead, (writer.putBefore form entry width).text = writer.text ++ lead ∧
      IfFlat (∀ comment ∈ entry.before, '\n' ∉ comment) (Entry.commentWidth entry.before) lead := by
  cases before : entry.before with
  | none => exact ⟨[], by simp [putBefore, before], fun _ => ⟨by simp, Nat.le_refl _⟩⟩
  | some comment =>
      obtain ⟨more, trimmed, -⟩ := compact.of_before before
      have gap : IfFlat True 1 (if keepsInline form entry width
          (Comment.reindent form.margin entry.beforeColumn comment) then [' '] else form.newLine) := by
        split
        · exact .of_length [' ']
        · exact form.ifFlat_newLine 1
      refine ⟨_, (putBefore_text before more compact.shown width).trans (List.append_assoc ..), ?_⟩
      rw [Entry.commentWidth_some more trimmed]
      refine ((Comment.ifFlat_reindent trimmed form.margin _).append gap).imp ?_ (Nat.le_refl _)
      rintro ⟨single, -⟩ _ ⟨⟩
      exact single

theorem ifFlat_ending (form : ListForm) (compact : entry.Compact) (separated : Bool) :
    IfFlat (∀ comment ∈ entry.after, '\n' ∉ comment)
      (Entry.commentWidth entry.after + if separated then form.mark.length else 0)
      (ending form entry separated) := by
  have mark : IfFlat True (if separated then form.mark.length else 0)
      (if separated then form.mark else []) := by
    cases separated <;> exact .of_length _
  cases after : entry.after with
  | none =>
      have bare : ending form entry separated = if separated then form.mark else [] := by
        simp only [ending, after]
      rw [bare]
      exact mark.imp (by simp) (Nat.le_of_eq (Nat.zero_add _))
  | some comment =>
      obtain ⟨more, trimmed, -⟩ := compact.of_after after
      have space : IfFlat True 1 [' '] := .of_length [' ']
      have moved (margin : Text) := space.append
        (Comment.ifFlat_reindent trimmed margin entry.afterColumn)
      rw [ending_of_some after more, Entry.commentWidth_some more trimmed]
      by_cases inline : form.arrangement = .horizontal ∧ ¬comment.isLineComment
      · rw [if_pos inline]
        refine ((moved []).append mark).imp ?_ ?_
        · rintro ⟨⟨-, single⟩, -⟩ _ ⟨⟩
          exact single
        · omega
      · rw [if_neg inline]
        refine (mark.append (moved form.margin)).imp ?_ ?_
        · rintro ⟨-, -, single⟩ _ ⟨⟩
          exact single
        · omega

theorem putBefore_lineWidth_pos (shown : entry.text ≠ []) (used : 0 < writer.lineWidth)
    (width : Nat) : 0 < (writer.putBefore form entry width).lineWidth := by
  have more : 0 < entry.text.length := List.length_pos_iff.mpr shown
  unfold putBefore
  split
  · exact used
  · exact used
  · simp only [if_neg shown]
    split
    · exact used
    · simp only
      split
      · exact Nat.add_pos_left more _
      · exact used

section

variable (mixed : form.arrangement = .mixed)
  (started : writer.previous.isSome = true → 0 < writer.lineWidth) (compact : entry.Compact)
include mixed started compact

theorem ifFlat_advance (width : Nat) :
    ∃ divider, (writer.advance form entry width).text = writer.text ++ divider ∧
      IfFlat True (if writer.previous.isSome then 1 else 0) divider ∧
      0 < (writer.advance form entry width).lineWidth := by
  have wide : 0 < entry.width := Nat.add_pos_right _ (List.length_pos_iff.mpr compact.shown)
  unfold advance
  simp only [mixed]
  split
  · exact ⟨form.newLine, rfl, form.ifFlat_newLine _, Nat.add_pos_left wide _⟩
  · split
    · rename_i used
      refine ⟨[' '], rfl, fun _ => ⟨trivial, ?_⟩, Nat.add_pos_left (Nat.succ_pos _) _⟩
      split
      · exact Nat.le_refl _
      · exact Nat.zero_le _
    · rename_i unused
      have first : ¬writer.previous.isSome = true := fun later => unused (started later)
      refine ⟨[], (List.append_nil _).symm, fun _ => ⟨trivial, ?_⟩, Nat.add_pos_left wide _⟩
      rw [if_neg first]
      exact Nat.zero_le _

theorem ifFlat_put (last : Bool) :
    ∃ piece, (writer.put form last entry).text = writer.text ++ piece ∧
      IfFlat (entry.isMultiline = false)
        ((if writer.previous.isSome then 1 else 0) + entry.width +
          if last then 0 else form.mark.length) piece ∧
      0 < (writer.put form last entry).lineWidth := by
  obtain ⟨separated, text, middle, -⟩ := writer.put_text form last entry
  obtain ⟨divider, advanced, apart, used⟩ :=
    ifFlat_advance mixed started compact (writer.separatorWidth form last)
  obtain ⟨lead, prepared, before⟩ := ifFlat_putBefore form compact
    (writer.separatorWidth form last) (writer.advance form entry (writer.separatorWidth form last))
  have after := ifFlat_ending form compact separated
  refine ⟨divider ++ (lead ++ entry.text ++ ending form entry separated) ++ blankLine form entry last,
    ?_, ?_, ?_⟩
  · rw [text, prepared, advanced]
    simp only [List.append_assoc]
  · have blank : IfFlat True 0 (blankLine form entry last) := fun _ => ⟨trivial, Nat.zero_le _⟩
    refine ((apart.append ((before.append (.of_text entry.text)).append after)).append blank).imp ?_ ?_
    · rintro ⟨⟨-, flat⟩, -⟩
      exact entry.isMultiline_eq_false_iff.mpr flat
    · have mark : (if last then 0 else form.mark.length) ≤
          if separated then form.mark.length else 0 := by
        cases last with
        | true => exact Nat.zero_le _
        | false => rw [middle rfl]; exact Nat.le_refl _
      rw [Entry.width]
      omega
  · exact putBefore_lineWidth_pos compact.shown used _

end

theorem ifFlat_putAll (mixed : form.arrangement = .mixed)
    (started : writer.previous.isSome = true → 0 < writer.lineWidth) {entries : List Entry}
    (compact : ∀ entry ∈ entries, entry.Compact) (more : entries ≠ []) :
    ∃ piece, (writer.putAll form entries).text = writer.text ++ piece ∧
      IfFlat (∀ entry ∈ entries, entry.isMultiline = false)
        ((if writer.previous.isSome then 1 else 0) + oneLineWidth form.separator entries) piece := by
  induction entries generalizing writer with
  | nil => exact absurd rfl more
  | cons entry rest ih =>
      obtain ⟨first, compact⟩ := List.forall_mem_cons.mp compact
      cases rest with
      | nil =>
          obtain ⟨piece, text, flat, -⟩ := ifFlat_put mixed started first true
          refine ⟨piece, text, flat.imp (fun single => List.forall_mem_singleton.mpr single) ?_⟩
          simp [oneLineWidth]
      | cons second rest =>
          obtain ⟨piece, text, flat, used⟩ := ifFlat_put mixed started first false
          obtain ⟨pieces, later, flats⟩ := ih (fun _ => used) compact (List.cons_ne_nil _ _)
          refine ⟨piece ++ pieces, ?_,
            (flat.append flats).imp (fun both => List.forall_mem_cons.mpr both) ?_⟩
          · rw [putAll_cons_cons, later, text, List.append_assoc]
          · have next : (writer.put form false entry).previous.isSome = true := rfl
            rw [oneLineWidth_cons_cons, if_pos next, if_neg Bool.false_ne_true, ListForm.mark]
            omega

end ListWriter

theorem ListForm.ifFlat_write {form : ListForm} (mixed : form.arrangement = .mixed)
    {entries : List Entry} (compact : ∀ entry ∈ entries, entry.Compact) (more : entries ≠ []) :
    IfFlat (∀ entry ∈ entries, entry.isMultiline = false) (oneLineWidth form.separator entries)
      (form.write entries) := by
  have unused : (ListWriter.start form).previous.isSome = true →
      0 < (ListWriter.start form).lineWidth := fun later => by cases later
  obtain ⟨piece, text, flat⟩ := ListWriter.ifFlat_putAll mixed unused compact more
  rw [write, Entry.filter_isSubstantial fun entry mem => (compact entry mem).shown, text]
  exact flat.imp id (Nat.le_add_left _ _)

/-! ## The last entry -/

theorem Text.ink_ne_nil {t : Text} (ends : EndsInk t) (more : t ≠ []) : t.ink ≠ [] := by
  have last := List.getLast?_eq_some_getLast more
  refine List.ne_nil_of_mem (List.mem_filter.mpr ⟨List.getLast_mem more, ?_⟩)
  rw [ends _ last]
  rfl

theorem Indent.ink_newLine (style : Style) (indent : Indent) : (indent.newLine style).ink = [] :=
  Text.ink_of_blank (.cons (by decide) (indent.blank_render style))

namespace ListForm

variable {form : ListForm} {init : List Entry} {last : Entry}

theorem write_last (form : ListForm) (shown : ∀ entry ∈ init ++ [last], entry.text ≠ [])
    (located : ∀ entry ∈ init ++ [last], entry.Located) :
    ∃ front broken, form.write (init ++ [last]) =
        front ++ last.text ++ ListWriter.ending form last (form.closesWithMark broken) ∧
      front.ink = init.flatMap (form.entryInk true) ++ (last.before.getD []).ink := by
  obtain ⟨before, final⟩ := List.forall_mem_append.mp located
  have located := final last (List.mem_singleton.mpr rfl)
  rw [write, Entry.filter_isSubstantial shown, ListWriter.putAll_concat]
  have written := form.ink_writtenBefore before last
  have steady : (init.foldl (ListWriter.put form false) (.start form)).Steady form :=
    ListWriter.steady_foldl (fun _ => rfl) init
  unfold writtenBefore at written
  generalize init.foldl (ListWriter.put form false) (.start form) = writer at written steady
  obtain ⟨separated, text, -, closes⟩ := writer.put_text form true last
  obtain rfl := closes rfl steady
  obtain ⟨gap, blank, prepared⟩ := ListWriter.putBefore_blank form last
    (writer.separatorWidth form true) (writer.advance form last (writer.separatorWidth form true))
  have bare : ListWriter.blankLine form last true = [] := by simp [ListWriter.blankLine]
  rw [bare, List.append_nil] at text
  refine ⟨_, _, text, ?_⟩
  rw [prepared, Text.ink_append, Text.ink_append, written, form.ink_movedBefore located,
    Text.ink_of_blank blank, List.append_nil]

/-- In a list between brackets a separator follows the last entry. White space apart, the opener and
the other entries with their separators stand before the entry, and its comment and the closer behind
it. -/
def Trailed (form : ListForm) (brackets : Brackets) (init : List Entry) (last : Entry) (out : Text) :
    Prop :=
  ∃ front middle tail, out = front ++ last.text ++ middle ++ form.mark ++ tail ∧
    front.ink = brackets.opener.ink ++ init.flatMap (form.entryInk true) ++
      (last.before.getD []).ink ∧
    (middle ++ tail).ink = (last.after.getD []).ink ++ brackets.closer.ink

theorem not_trailed {brackets : Brackets} {out : Text} (visible : form.mark ≠ [])
    (ink : out.ink = brackets.opener.ink ++ init.flatMap (form.entryInk true) ++
      (last.before.getD []).ink ++ last.text.ink ++ (last.after.getD []).ink ++ brackets.closer.ink) :
    ¬form.Trailed brackets init last out := by
  rintro ⟨front, middle, tail, rfl, before, after⟩
  have mark := List.length_pos_iff.mpr
    (Text.ink_ne_nil (Text.endsInk_trimRight form.separator) visible)
  have behind := congrArg List.length after
  have whole := congrArg List.length ink
  simp only [Text.ink_append, before, List.length_append] at behind whole
  change 0 < form.mark.ink.length at mark
  omega

def commentBehind (form : ListForm) (entry : Entry) : Text :=
  entry.after.elim [] fun comment => ' ' :: Comment.reindent form.margin entry.afterColumn comment

theorem endingInk_false (form : ListForm) (entry : Entry) :
    form.endingInk false entry = (entry.after.getD []).ink := by
  simp [endingInk]

theorem ending_apart (apart : form.arrangement ≠ .horizontal)
    (comments : ∀ comment ∈ last.comments, comment ≠ []) (separated : Bool) :
    ListWriter.ending form last separated =
      (if separated then form.mark else []) ++ form.commentBehind last := by
  unfold commentBehind
  cases after : last.after with
  | none => simp [ListWriter.ending, after]
  | some comment =>
      have more : comment ≠ [] := comments comment (by simp [Entry.comments, after])
      rw [ListWriter.ending_of_some after more, if_neg fun inline => apart inline.1]
      rfl

theorem ink_commentBehind (apart : form.arrangement ≠ .horizontal)
    (comments : ∀ comment ∈ last.comments, comment ≠ []) (located : last.Located) :
    (form.commentBehind last).ink = (last.after.getD []).ink := by
  rw [← form.endingInk_false, ← ListWriter.ink_ending form located, ending_apart apart comments]
  rfl

end ListForm

/-! ## Lists on lines of their own -/

theorem Arrangement.of_choose_mixed {packing : Packing} {separator : Text} {width : Int}
    {entries : List Entry} (chosen : choose packing separator width entries = .mixed) :
    (∀ entry ∈ entries, entry.hasLineComment = false) ∧
      ((∀ entry ∈ entries, entry.isMultiline = false) →
        width < oneLineWidth separator entries) := by
  unfold choose at chosen
  cases packing <;> grind

namespace Document

variable (doc : Document) (frame : Frame) (settings : ListSettings) (brackets : Brackets)
  (nested : Bool) (lineWidth : Option Int)

section

variable {entries : List Entry} (trimmed : ∀ entry ∈ entries, ∀ comment ∈ entry.comments,
    comment ≠ [] ∧ comment.trim = comment)
  (shown : ∀ entry ∈ entries, entry.text ≠ []) (some : entries ≠ [])
include trimmed shown some

theorem overflows_of_apart
    (apart : listArrangement frame settings brackets lineWidth entries ≠ .horizontal) :
    let body := (doc.listForm frame settings brackets nested lineWidth entries).write entries
    '\n' ∈ body ∨ lineWidth.getD (frame.inside brackets) < body.length ∨
      listArrangement frame settings brackets lineWidth entries = .vertical := by
  intro body
  cases chosen : listArrangement frame settings brackets lineWidth entries with
  | horizontal => exact absurd chosen apart
  | vertical => exact .inr (.inr rfl)
  | mixed =>
      obtain ⟨unclosed, wide⟩ := Arrangement.of_choose_mixed chosen
      have compact : ∀ entry ∈ entries, entry.Compact := by
        intro entry mem
        refine ⟨shown entry mem, fun comment inside => ?_⟩
        obtain ⟨more, same⟩ := trimmed entry mem comment inside
        have line := List.any_eq_false.mp (unclosed entry mem) comment inside
        exact ⟨more, same, Bool.eq_false_iff.mpr line⟩
      have mixed : (doc.listForm frame settings brackets nested lineWidth entries).arrangement =
          .mixed := (settings.form_arrangement ..).trans chosen
      have columns := ListForm.ifFlat_write mixed compact some
      rw [show (doc.listForm frame settings brackets nested lineWidth entries).separator =
        settings.separator from settings.form_separator ..] at columns
      by_cases feed : '\n' ∈ body
      · exact .inl feed
      · obtain ⟨single, fits⟩ := columns feed
        have long : (oneLineWidth settings.separator entries : Int) ≤ body.length :=
          Int.ofNat_le.mpr fits
        exact .inr (.inl (Int.lt_of_lt_of_le (wide single) long))

theorem layoutList_apart (block : settings.indentStyle = .block)
    (apart : listArrangement frame settings brackets lineWidth entries ≠ .horizontal)
    (more : (doc.listForm frame settings brackets nested lineWidth entries).write entries ≠ []) :
    doc.layoutList frame settings brackets nested lineWidth entries =
      brackets.opener ++ (doc.listForm frame settings brackets nested lineWidth entries).newLine ++
        (doc.listForm frame settings brackets nested lineWidth entries).write entries ++
        frame.indent.newLine doc.style ++ brackets.closer := by
  have broken :=
    doc.overflows_of_apart frame settings brackets nested lineWidth trimmed shown some apart
  unfold layoutList
  simp only [listForm, listArrangement] at more broken ⊢
  rw [if_neg more, if_pos ⟨block, broken⟩]

end

theorem ink_layoutList {entries : List Entry}
    (more : (doc.listForm frame settings brackets nested lineWidth entries).write entries ≠ []) :
    (doc.layoutList frame settings brackets nested lineWidth entries).ink =
      brackets.opener.ink ++
        ((doc.listForm frame settings brackets nested lineWidth entries).write entries).ink ++
        brackets.closer.ink := by
  obtain ⟨opening, closing, before, behind, text, -⟩ :=
    doc.layoutList_eq frame settings brackets nested lineWidth entries more
  have none : opening.ink = [] := by
    rcases before with rfl | rfl
    · rfl
    · exact Indent.ink_newLine ..
  have none' : closing.ink = [] := by
    rcases behind with rfl | rfl
    · rfl
    · exact Indent.ink_newLine ..
  simp only [text, Text.ink_append, none, none', List.append_nil]

section

variable {init : List Entry} {last : Entry}
  (block : settings.indentStyle = .block) (policy : settings.trailing = .multilineOnly)
  (shown : ∀ entry ∈ init ++ [last], entry.text ≠ [])
  (located : ∀ entry ∈ init ++ [last], entry.Located)
include block policy shown located

theorem write_multilineOnly :
    let arrangement := listArrangement frame settings brackets lineWidth (init ++ [last])
    let form := doc.listForm frame settings brackets nested lineWidth (init ++ [last])
    form.write (init ++ [last]) ≠ [] ∧
      ∃ front, form.write (init ++ [last]) = front ++ last.text ++
          ListWriter.ending form last (arrangement ≠ .horizontal) ∧
        front.ink = init.flatMap (form.entryInk true) ++ (last.before.getD []).ink := by
  intro arrangement form
  obtain ⟨front, broken, body, before⟩ := form.write_last shown located
  have trails : form.closesWithMark broken = decide (arrangement ≠ .horizontal) := by
    rw [show form.closesWithMark broken = settings.trails arrangement from
      settings.form_closesWithMark .., ListSettings.trails, policy, block]
    cases arrangement <;> rfl
  rw [trails] at body
  refine ⟨?_, front, body, before⟩
  rw [body]
  simp [shown last (by simp)]

theorem not_trailed_of_horizontal (visible : settings.separator.trimRight ≠ [])
    (inline : listArrangement frame settings brackets lineWidth (init ++ [last]) = .horizontal) :
    ¬(doc.listForm frame settings brackets nested lineWidth (init ++ [last])).Trailed brackets init
      last (doc.layoutList frame settings brackets nested lineWidth (init ++ [last])) := by
  obtain ⟨more, front, body, before⟩ :=
    doc.write_multilineOnly frame settings brackets nested lineWidth block policy shown located
  have ink := doc.ink_layoutList frame settings brackets nested lineWidth more
  generalize formed : doc.listForm frame settings brackets nested lineWidth (init ++ [last]) = form
    at body before ink ⊢
  have mark : form.mark ≠ [] := by
    rwa [ListForm.mark, ← formed, listForm, ListSettings.form_separator]
  refine ListForm.not_trailed mark ?_
  rw [ink, body, inline, Text.ink_append, Text.ink_append, before,
    ListWriter.ink_ending form (located last (by simp))]
  simp [form.endingInk_false]

theorem trailed_of_apart (trimmed : ∀ entry ∈ init ++ [last], ∀ comment ∈ entry.comments,
      comment ≠ [] ∧ comment.trim = comment)
    (apart : listArrangement frame settings brackets lineWidth (init ++ [last]) ≠ .horizontal) :
    let form := doc.listForm frame settings brackets nested lineWidth (init ++ [last])
    let out := doc.layoutList frame settings brackets nested lineWidth (init ++ [last])
    form.Trailed brackets init last out ∧
      (∃ front, form.write (init ++ [last]) =
        front ++ last.text ++ form.mark ++ form.commentBehind last) ∧
      out = brackets.opener ++ form.newLine ++ form.write (init ++ [last]) ++
        frame.indent.newLine doc.style ++ brackets.closer := by
  intro form out
  obtain ⟨more, front, body, before⟩ :=
    doc.write_multilineOnly frame settings brackets nested lineWidth block policy shown located
  have final : last ∈ init ++ [last] := by simp
  have comments : ∀ comment ∈ last.comments, comment ≠ [] :=
    fun comment inside => (trimmed last final comment inside).1
  have arranged : form.arrangement ≠ .horizontal := by
    rwa [show form.arrangement = _ from settings.form_arrangement ..]
  have text : out = brackets.opener ++ form.newLine ++ form.write (init ++ [last]) ++
      frame.indent.newLine doc.style ++ brackets.closer :=
    doc.layoutList_apart frame settings brackets nested lineWidth trimmed shown (by simp) block apart
      more
  have body : form.write (init ++ [last]) =
      front ++ last.text ++ form.mark ++ form.commentBehind last := by
    rw [body, ListForm.ending_apart arranged comments, decide_eq_true apart]
    simp
  refine ⟨⟨brackets.opener ++ form.newLine ++ front, [],
    form.commentBehind last ++ frame.indent.newLine doc.style ++ brackets.closer, ?_, ?_, ?_⟩,
    ⟨front, body⟩, text⟩
  · rw [text, body]
    simp only [List.append_assoc, List.nil_append]
  · rw [Text.ink_append, Text.ink_append, before, ListForm.newLine, Indent.ink_newLine,
      List.append_nil, List.append_assoc]
  · rw [List.nil_append, Text.ink_append, Text.ink_append, Indent.ink_newLine,
      ListForm.ink_commentBehind arranged comments (located last final), List.append_nil]

end

theorem layoutList_trailing (init : List Entry) (last : Entry)
    (block : settings.indentStyle = .block) (policy : settings.trailing = .multilineOnly)
    (visible : settings.separator.trimRight ≠ [])
    (shown : ∀ entry ∈ init ++ [last], entry.text ≠ [])
    (trimmed : ∀ entry ∈ init ++ [last], ∀ comment ∈ entry.comments,
      comment ≠ [] ∧ comment.trim = comment)
    (located : ∀ entry ∈ init ++ [last], entry.Located) :
    let arrangement := listArrangement frame settings brackets lineWidth (init ++ [last])
    let form := doc.listForm frame settings brackets nested lineWidth (init ++ [last])
    let out := doc.layoutList frame settings brackets nested lineWidth (init ++ [last])
    (form.Trailed brackets init last out ↔ arrangement ≠ .horizontal) ∧
      (form.Trailed brackets init last out →
        (∃ front, form.write (init ++ [last]) =
          front ++ last.text ++ form.mark ++ form.commentBehind last) ∧
        out = brackets.opener ++ form.newLine ++ form.write (init ++ [last]) ++
          frame.indent.newLine doc.style ++ brackets.closer) ∧
      ('\n' ∉ out → ¬form.Trailed brackets init last out) := by
  intro arrangement form out
  have bare : arrangement = .horizontal → ¬form.Trailed brackets init last out :=
    doc.not_trailed_of_horizontal frame settings brackets nested lineWidth block policy shown located
      visible
  have broken := doc.trailed_of_apart frame settings brackets nested lineWidth block policy shown
    located trimmed
  have apart : form.Trailed brackets init last out → arrangement ≠ .horizontal :=
    fun trailed inline => bare inline trailed
  refine ⟨⟨apart, fun several => (broken several).1⟩, fun trailed => (broken (apart trailed)).2, ?_⟩
  intro single trailed
  obtain ⟨-, -, text⟩ := broken (apart trailed)
  refine single ?_
  rw [show out = _ from text]
  simp [Indent.newLine]

-- One column decides, though the entries stand on one row either way.
theorem layoutList_trailing_one_column :
    let doc : Document := { source := [] }
    let frame : Frame := { width := 60, indent := { block := 4 } }
    let settings : ListSettings := { packing := .mixed, separator := ", ".toList }
    let brackets : Brackets := { opener := ['\x7b'], closer := ['\x7d'] }
    let first : Entry := { text := "aa".toList, before := some "/* x */".toList }
    let last : Entry :=
      { text := "b c".toList, after := some "/* y */".toList, afterColumn := some 4 }
    let entries := [first] ++ [last]
    let form (width : Int) := doc.listForm frame settings brackets true (some width) entries
    let out (width : Int) := doc.layoutList frame settings brackets true (some width) entries
    (settings.indentStyle = .block ∧ settings.trailing = .multilineOnly ∧
      settings.separator.trimRight ≠ [] ∧ (∀ entry ∈ entries, entry.text ≠ []) ∧
      (∀ entry ∈ entries, ∀ comment ∈ entry.comments, comment ≠ [] ∧ comment.trim = comment) ∧
      ∀ entry ∈ entries, entry.Located) ∧
      out 23 = "\x7b/* x */ aa, b c /* y */\x7d".toList ∧
      ¬(form 23).Trailed brackets [first] last (out 23) ∧
      out 22 = "\x7b\n        /* x */ aa, b c, /* y */\n    \x7d".toList ∧
      (form 22).Trailed brackets [first] last (out 22) := by
  intro doc frame settings brackets first last entries form out
  have visible : settings.separator.trimRight ≠ [] := by decide +kernel
  have shown : ∀ entry ∈ entries, entry.text ≠ [] := by decide +kernel
  have trimmed : ∀ entry ∈ entries, ∀ comment ∈ entry.comments,
      comment ≠ [] ∧ comment.trim = comment := by decide +kernel
  have located : ∀ entry ∈ entries, entry.Located := by decide +kernel
  have trailing (width : Int) := doc.layoutList_trailing frame settings brackets true (some width)
    [first] last rfl rfl visible shown trimmed located
  refine ⟨⟨rfl, rfl, visible, shown, trimmed, located⟩, by decide +kernel, ?_, by decide +kernel, ?_⟩
  · exact (trailing 23).2.2 (by decide +kernel)
  · exact (trailing 22).1.mpr (by decide +kernel)

end Document

end ItemLayout
