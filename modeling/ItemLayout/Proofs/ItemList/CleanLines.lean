import ItemLayout.Proofs.Comment.Margin
import ItemLayout.Proofs.ItemList.Ink
import ItemLayout.Proofs.ItemList.Layout
import ItemLayout.Proofs.Text.Lines

namespace ItemLayout

/-! ## Clean texts -/

namespace Text

def Clean (t : Text) : Prop := ∀ line ∈ t.lines, EndsInk line

instance (t : Text) : Decidable (Clean t) :=
  decidable_of_iff (t.lines.all fun line => line.getLast?.all (!isBlank ·)) <| by
    rw [List.all_eq_true]
    refine forall_congr' fun line => imp_congr_right fun _ => ?_
    unfold EndsInk
    cases line.getLast? <;> simp

structure Firm (t : Text) : Prop where
  clean : Clean t
  starts : t.firstLine ≠ []

variable {a b t : Text}

theorem clean_nil : Clean [] := by
  intro line mem
  obtain rfl : line = [] := List.mem_singleton.mp mem
  simp [EndsInk]

theorem clean_of_single (single : '\n' ∉ t) (ends : EndsInk t) : Clean t := by
  rw [Clean, lines_of_not_mem single]
  exact List.forall_mem_singleton.mpr ends

theorem clean_feed_iff : Clean ('\n' :: t) ↔ Clean t := by
  have empty : EndsInk [] := by simp [EndsInk]
  rw [Clean, lines_cons_feed, List.forall_mem_cons]
  exact and_iff_right empty

theorem clean_cons_iff {c : Char} (inside : c ≠ '\n') :
    Clean (c :: t) ↔ Clean t ∧ (t.firstLine = [] → isBlank c = false) := by
  unfold Clean
  rw [lines_cons_of_ne inside, lines_eq_cons t, List.modifyHead_cons, List.forall_mem_cons,
    List.forall_mem_cons]
  by_cases none : t.firstLine = []
  · simp [none, EndsInk, and_comm]
  · have ends : EndsInk (c :: t.firstLine) ↔ EndsInk t.firstLine :=
      ⟨fun ends => ends.of_append (a := [c]), fun ends => ends.append (a := [c]) none⟩
    simp [none, ends]

theorem firstLine_eq_nil_of_append (none : firstLine (a ++ b) = []) : a.firstLine = [] := by
  have shorter := length_firstLine_le_append a b
  rw [none] at shorter
  exact List.length_eq_zero_iff.mp (Nat.le_zero.mp shorter)

theorem Clean.append (left : Clean a) (right : Clean b) : Clean (a ++ b) := by
  induction a with
  | nil => exact right
  | cons c a ih =>
      by_cases feed : c = '\n'
      · subst feed
        exact clean_feed_iff.mpr (ih (clean_feed_iff.mp left))
      · obtain ⟨rest, ends⟩ := (clean_cons_iff feed).mp left
        apply (clean_cons_iff feed).mpr
        exact ⟨ih rest, fun none => ends (firstLine_eq_nil_of_append none)⟩

theorem Firm.append (firm : Firm a) (clean : Clean b) : Firm (a ++ b) :=
  ⟨firm.clean.append clean, fun none => firm.starts (firstLine_eq_nil_of_append none)⟩

theorem Firm.ne_nil (firm : Firm t) : t ≠ [] := by
  rintro rfl
  exact firm.starts rfl

theorem Firm.behind (firm : Firm t) (single : '\n' ∉ a) : Firm (a ++ t) := by
  have starts : ∀ front : Text, '\n' ∉ front → firstLine (front ++ t) ≠ [] := by
    intro front flat
    rw [firstLine_append_of_not_mem flat]
    exact List.append_ne_nil_of_right_ne_nil _ firm.starts
  refine ⟨?_, starts a single⟩
  induction a with
  | nil => exact firm.clean
  | cons c a ih =>
      obtain ⟨inside, single⟩ := not_or.mp (mt List.mem_cons.mpr single)
      apply (clean_cons_iff (Ne.symm inside)).mpr
      exact ⟨ih single, fun none => absurd none (starts a single)⟩

theorem firm_of_trim (trimmed : t.trim = t) (some : t ≠ []) (clean : Clean t) : Firm t := by
  refine ⟨clean, ?_⟩
  obtain ⟨c, rest, rfl⟩ := List.exists_cons_of_ne_nil some
  have head := takeWhile_trim (c :: rest)
  rw [trimmed] at head
  have inside : c ≠ '\n' := by
    rintro rfl
    cases head
  simp [firstLine, inside]

end Text

open Text

theorem Indent.clean_newLine (indent : Indent) (style : Style) {t : Text} (firm : Firm t) :
    Clean (indent.newLine style ++ t) :=
  clean_feed_iff.mpr (firm.behind (indent.not_mem_render style)).clean

theorem Comment.firm_reindent {margin : Text} (blank : Blank margin) (flat : '\n' ∉ margin)
    {column : Option Int} (known : ∀ n ∈ column, 0 ≤ n) {comment : Text} (shown : comment.trim ≠ []) :
    Firm (reindent margin column comment) := by
  apply firm_of_trim (trim_reindent blank known comment) (reindent_ne_nil shown margin column)
  obtain ⟨first, others, split⟩ : ∃ first others, comment.trim.lines = first :: others :=
    List.exists_cons_of_ne_nil (List.splitOn_ne_nil _ _)
  by_cases several : others = []
  · have single := not_mem_of_single split several
    rw [reindent_of_single single]
    exact clean_of_single single (endsInk_trim comment)
  · obtain ⟨base, -, text⟩ := reindent_of_lines split several margin known
    rw [text, Clean, lines_rebased split flat, List.forall_mem_cons, List.forall_mem_map]
    exact ⟨endsInk_trimRight first, fun line _ => endsInk_rebase base margin line⟩

/-! ## What a step writes -/

structure Entry.Neat (entry : Entry) : Prop where
  shown : entry.text ≠ []
  trimmed : entry.text.trim = entry.text
  clean : Clean entry.text
  comments : ∀ comment ∈ entry.comments, comment.trim ≠ []
  located : entry.Located

instance (entry : Entry) : Decidable entry.Neat :=
  decidable_of_iff
    (entry.text ≠ [] ∧ entry.text.trim = entry.text ∧ Clean entry.text ∧
      (∀ comment ∈ entry.comments, comment.trim ≠ []) ∧ entry.Located)
    ⟨fun ⟨shown, trimmed, clean, comments, located⟩ => ⟨shown, trimmed, clean, comments, located⟩,
      fun ⟨shown, trimmed, clean, comments, located⟩ => ⟨shown, trimmed, clean, comments, located⟩⟩

theorem Entry.Neat.firm {entry : Entry} (neat : entry.Neat) : Firm entry.text :=
  firm_of_trim neat.trimmed neat.shown neat.clean

namespace ListWriter

variable {form : ListForm} {entry : Entry} {writer : ListWriter}

theorem firm_moved (form : ListForm) {comment : Text} {column : Option Int}
    (known : ∀ n ∈ column, 0 ≤ n) (shown : comment.trim ≠ []) :
    Firm (Comment.reindent form.margin column comment) :=
  Comment.firm_reindent form.blank_margin form.not_mem_margin known shown

theorem firm_putBefore (form : ListForm) (neat : entry.Neat) (width : Nat) (writer : ListWriter) :
    ∃ lead, (writer.putBefore form entry width).text = writer.text ++ lead ∧
      Firm (lead ++ entry.text) := by
  cases before : entry.before with
  | none => exact ⟨[], by simp [putBefore, before], neat.firm⟩
  | some comment =>
      have shown : comment.trim ≠ [] := neat.comments comment (by simp [Entry.comments, before])
      have some : comment ≠ [] := by
        rintro rfl
        exact shown rfl
      have moved := firm_moved form neat.located.before shown
      refine ⟨_, (putBefore_text before some neat.shown width).trans (List.append_assoc ..), ?_⟩
      rw [List.append_assoc]
      apply moved.append
      split
      · exact (neat.firm.behind (by simp)).clean
      · exact form.frame.indent.clean_newLine form.style neat.firm

theorem clean_ending (flat : '\n' ∉ form.mark) (neat : entry.Neat) (separated : Bool) :
    Clean (ending form entry separated) := by
  have mark : Clean (if separated then form.mark else []) := by
    cases separated with
    | false => exact clean_nil
    | true => exact clean_of_single flat (endsInk_trimRight form.separator)
  cases after : entry.after with
  | none => simpa only [ending, after] using mark
  | some comment =>
      have shown : comment.trim ≠ [] := neat.comments comment (by simp [Entry.comments, after])
      have some : comment ≠ [] := by
        rintro rfl
        exact shown rfl
      have space : '\n' ∉ [' '] := by simp
      rw [ending_of_some after some]
      split
      · have moved : Firm (Comment.reindent [] entry.afterColumn comment) :=
          Comment.firm_reindent (by simp [Blank]) List.not_mem_nil neat.located.after shown
        exact (moved.behind space).clean.append mark
      · exact mark.append ((firm_moved form neat.located.after shown).behind space).clean

theorem clean_blankLine (form : ListForm) (entry : Entry) (last : Bool) :
    Clean (blankLine form entry last) := by
  unfold blankLine
  split
  · exact clean_feed_iff.mpr clean_nil
  · exact clean_nil

theorem firm_put (flat : '\n' ∉ form.mark) (neat : entry.Neat) (last : Bool) (writer : ListWriter) :
    ∃ divider piece, (writer.put form last entry).text = writer.text ++ divider ++ piece ∧
      (divider = [] ∨ divider = [' '] ∨ divider = form.newLine) ∧
      (writer.advance form entry (writer.separatorWidth form last)).text = writer.text ++ divider ∧
      Firm piece := by
  obtain ⟨separated, text, -, -⟩ := writer.put_text form last entry
  obtain ⟨divider, place, divided, -⟩ :=
    advance_text form entry (writer.separatorWidth form last) writer
  obtain ⟨lead, prepared, firm⟩ := firm_putBefore form neat (writer.separatorWidth form last)
    (writer.advance form entry (writer.separatorWidth form last))
  refine ⟨divider, lead ++ entry.text ++ ending form entry separated ++ blankLine form entry last, ?_,
    place, divided, ?_⟩
  · rw [text, prepared, divided]
    simp only [List.append_assoc]
  · exact (firm.append (clean_ending flat neat separated)).append (clean_blankLine form entry last)

theorem firm_putAll (flat : '\n' ∉ form.mark) {entries : List Entry}
    (neat : ∀ entry ∈ entries, entry.Neat) (firm : Firm writer.text) :
    Firm (writer.putAll form entries).text := by
  induction entries generalizing writer with
  | nil => exact firm
  | cons entry rest ih =>
      obtain ⟨first, neat⟩ := List.forall_mem_cons.mp neat
      obtain ⟨divider, piece, text, place, -, fresh⟩ := firm_put flat first rest.isEmpty writer
      apply ih neat
      rw [text, List.append_assoc]
      apply firm.append
      rcases place with rfl | rfl | rfl
      · exact fresh.clean
      · exact (fresh.behind (by simp)).clean
      · exact form.frame.indent.clean_newLine form.style fresh

end ListWriter

theorem ListForm.firm_write {form : ListForm} (flat : '\n' ∉ form.mark) {entries : List Entry}
    (neat : ∀ entry ∈ entries, entry.Neat) (some : entries ≠ []) : Firm (form.write entries) := by
  rw [write, Entry.filter_isSubstantial fun entry mem => (neat entry mem).shown]
  obtain ⟨first, rest, rfl⟩ := List.exists_cons_of_ne_nil some
  obtain ⟨own, neat⟩ := List.forall_mem_cons.mp neat
  obtain ⟨divider, piece, text, -, divided, fresh⟩ :=
    ListWriter.firm_put flat own rest.isEmpty (.start form)
  apply ListWriter.firm_putAll flat neat
  -- Nothing divides the first entry from what is not there.
  rw [ListWriter.advance_start] at divided
  rwa [text, ← divided]

namespace Document

theorem layoutList_clean (doc : Document) (frame : Frame) (settings : ListSettings)
    (brackets : Brackets) (nested : Bool) (lineWidth : Option Int) {entries : List Entry}
    (flat : '\n' ∉ settings.separator) (opener : Clean brackets.opener)
    (closes : brackets.closer ≠ []) (trimmed : brackets.closer.trim = brackets.closer)
    (closer : Clean brackets.closer) (neat : ∀ entry ∈ entries, entry.Neat) :
    ∀ line ∈ (doc.layoutList frame settings brackets nested lineWidth entries).lines,
      ∀ c ∈ line.getLast?, isBlank c = false := by
  show Clean _
  have close : Firm brackets.closer := firm_of_trim trimmed closes closer
  by_cases none : entries = []
  · subst none
    exact opener.append closer
  generalize formed : doc.listForm frame settings brackets nested lineWidth entries = form
  have single : '\n' ∉ form.mark := by
    rw [ListForm.mark, ← formed, listForm, settings.form_separator]
    exact fun feed => flat (mem_of_mem_trimRight feed)
  have body := ListForm.firm_write single neat none
  obtain ⟨opening, closing, before, behind, text, -⟩ :=
    doc.layoutList_eq frame settings brackets nested lineWidth entries (formed ▸ body.ne_nil)
  rw [formed] at before text
  have inside : Clean (opening ++ form.write entries) := by
    rcases before with rfl | rfl
    · exact body.clean
    · exact form.frame.indent.clean_newLine form.style body
  have ends : Clean (closing ++ brackets.closer) := by
    rcases behind with rfl | rfl
    · exact closer
    · exact frame.indent.clean_newLine doc.style close
  rw [text, List.append_assoc brackets.opener, List.append_assoc _ closing]
  exact (opener.append inside).append ends

theorem layoutList_clean_blank_lines :
    let doc : Document := { source := [], style := { hardTabs := true } }
    let frame : Frame := { width := 30, indent := { block := 4, align := 1 } }
    let settings : ListSettings := { separator := " ; ".toList }
    let brackets : Brackets := { opener := "f\n(".toList, closer := [')'] }
    let entries : List Entry :=
      [{ text := "a\n b".toList, before := some " /* x \n \n    y */".toList, beforeColumn := some 2,
         blankAfter := true },
        { text := ['c'], after := some "// z ".toList }]
    let out : Text :=
      "f\n(\n\t     /* x\n\n\t       y */\n\t     a\n b ;\n\n\t     c ; // z\n\t )".toList
    doc.layoutList frame settings brackets false none entries = out ∧
      ('\n' ∉ settings.separator ∧ Clean brackets.opener ∧ brackets.closer ≠ [] ∧
        brackets.closer.trim = brackets.closer ∧ Clean brackets.closer ∧
        ∀ entry ∈ entries, entry.Neat) ∧
      ∀ line ∈ out.lines, ∀ c ∈ line.getLast?, isBlank c = false := by
  intro doc frame settings brackets entries out
  have laid : doc.layoutList frame settings brackets false none entries = out := by decide +kernel
  have flat : '\n' ∉ settings.separator := by decide +kernel
  have opener : Clean brackets.opener := by decide +kernel
  have trimmed : brackets.closer.trim = brackets.closer := by decide +kernel
  have closer : Clean brackets.closer := by decide +kernel
  have neat : ∀ entry ∈ entries, entry.Neat := by decide +kernel
  have closes : brackets.closer ≠ [] := List.cons_ne_nil _ _
  refine ⟨laid, ⟨flat, opener, closes, trimmed, closer, neat⟩, ?_⟩
  rw [← laid]
  exact doc.layoutList_clean frame settings brackets false none flat opener closes trimmed closer neat

end Document

end ItemLayout
