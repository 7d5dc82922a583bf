import ItemLayout.Proofs.ItemList.Layout
import ItemLayout.Proofs.ItemList.LineComments

/-!
# Entries with nothing to write

Entries with nothing to write are left out of a list, but not everywhere else: the width of one line
counts a separator for each of them, and a list whose last entry is such a one is closed on the line
of the comment before it. Main statement: these are the two ways in which such an entry shows, and
there is no other (`Document.layoutList_filter_iff`).
-/

namespace ItemLayout

namespace Entry

variable {entry : Entry}

theorem eq_nil_of_not_substantial (none : entry.isSubstantial = false) :
    entry.text = [] ∧ ∀ comment ∈ entry.comments, comment = [] := by
  simpa [isSubstantial] using none

theorem isSubstantial_of_hasLineComment (line : entry.hasLineComment = true) :
    entry.isSubstantial = true := by
  rw [← Bool.not_eq_false]
  intro none
  obtain ⟨comment, mem, line⟩ := List.any_eq_true.mp line
  rw [(eq_nil_of_not_substantial none).2 comment mem] at line
  cases line

theorem isSubstantial_of_isMultiline (several : entry.isMultiline = true) :
    entry.isSubstantial = true := by
  rw [← Bool.not_eq_false]
  intro none
  obtain ⟨text, comments⟩ := eq_nil_of_not_substantial none
  rw [isMultiline, text, List.contains_nil, Bool.false_or] at several
  obtain ⟨comment, mem, feed⟩ := List.any_eq_true.mp several
  rw [comments comment mem] at feed
  cases feed

theorem width_of_not_substantial (none : entry.isSubstantial = false) : entry.width = 0 := by
  obtain ⟨text, comments⟩ := eq_nil_of_not_substantial none
  have nothing (comment : Option Text) (empty : ∀ written ∈ comment, written = []) :
      commentWidth comment = 0 := by
    cases comment with
    | none => rfl
    | some written =>
        rw [empty written rfl]
        rfl
  have before := nothing entry.before fun written mem =>
    comments written (List.mem_append_left _ (Option.mem_toList.mpr mem))
  have after := nothing entry.after fun written mem =>
    comments written (List.mem_append_right _ (Option.mem_toList.mpr mem))
  rw [width, before, after, text]
  rfl

theorem hasLineComment_of_endsInLineComment (ends : entry.endsInLineComment = true) :
    entry.hasLineComment = true := by
  unfold endsInLineComment at ends
  unfold hasLineComment comments
  cases after : entry.after with
  | none =>
      rw [after] at ends
      obtain ⟨-, line⟩ := Bool.and_eq_true_iff.mp ends
      cases before : entry.before <;> simp_all
  | some comment =>
      rw [after] at ends
      simp [ends]

theorem any_filter_isSubstantial {p : Entry → Bool} (entries : List Entry)
    (shown : ∀ entry, p entry = true → entry.isSubstantial = true) :
    (entries.filter isSubstantial).any p = entries.any p := by
  rw [List.any_filter]
  congr 1
  funext entry
  have := shown entry
  cases holds : p entry <;> simp_all

theorem getLast?_filter_isSubstantial {entries : List Entry} {last : Entry}
    (ends : entries.getLast? = some last) (shown : last.isSubstantial = true) :
    (entries.filter isSubstantial).getLast? = some last := by
  obtain ⟨init, rfl⟩ := List.getLast?_eq_some_iff.mp ends
  rw [List.filter_append, List.filter_cons_of_pos shown, List.filter_nil, List.getLast?_concat]

end Entry

/-! ## The width of one line -/

theorem foldr_width_filter (entries : List Entry) :
    (entries.filter Entry.isSubstantial).foldr (fun entry total => entry.width + total) 0 =
      entries.foldr (fun entry total => entry.width + total) 0 := by
  induction entries with
  | nil => rfl
  | cons entry entries ih =>
      cases shown : entry.isSubstantial with
      | true => rw [List.filter_cons_of_pos shown, List.foldr_cons, List.foldr_cons, ih]
      | false =>
          rw [List.filter_cons_of_neg (by simp [shown]), List.foldr_cons, ih,
            Entry.width_of_not_substantial shown, Nat.zero_add]

theorem oneLineWidth_filter (separator : Text) (entries : List Entry) :
    oneLineWidth separator entries =
      oneLineWidth separator (entries.filter Entry.isSubstantial) +
        (separator.trimRight.length + 1) *
          (entries.length - max 1 (entries.filter Entry.isSubstantial).length) := by
  have fewer := List.length_filter_le Entry.isSubstantial entries
  unfold oneLineWidth
  rw [foldr_width_filter, Nat.add_assoc, ← Nat.mul_add]
  congr 2
  omega

namespace Arrangement

/-- One line has room for the entries that are written, but not for as many as there are. -/
structure Overcounts (packing : Packing) (separator : Text) (width : Int) (entries : List Entry) :
    Prop where
  flexible : packing = .mixed ∨ packing = .horizontalVertical
  unclosed : ∀ entry ∈ entries, entry.hasLineComment = false
  single : ∀ entry ∈ entries, entry.isMultiline = false
  fits : (oneLineWidth separator (entries.filter Entry.isSubstantial) : Int) ≤ width
  wide : width < oneLineWidth separator entries

theorem choose_filter_iff (packing : Packing) (separator : Text) (width : Int)
    (entries : List Entry) :
    choose packing separator width entries =
        choose packing separator width (entries.filter Entry.isSubstantial) ↔
      ¬Overcounts packing separator width entries := by
  have lines := Entry.any_filter_isSubstantial entries fun _ => Entry.isSubstantial_of_hasLineComment
  have several := Entry.any_filter_isSubstantial entries fun _ => Entry.isSubstantial_of_isMultiline
  have longer : oneLineWidth separator (entries.filter Entry.isSubstantial) ≤
      oneLineWidth separator entries := by
    rw [oneLineWidth_filter separator entries]
    exact Nat.le_add_right _ _
  unfold choose
  rw [lines, several]
  constructor
  · rintro same ⟨flexible, unclosed, single, fits, wide⟩
    have line : entries.any Entry.hasLineComment = false := by simpa using unclosed
    have flat : entries.any Entry.isMultiline = false := by simpa using single
    have room : ¬(oneLineWidth separator entries : Int) ≤ width := Int.not_le.mpr wide
    rcases flexible with rfl | rfl <;> simp [line, flat, fits, room] at same
  · intro honest
    by_cases line : entries.any Entry.hasLineComment = true
    · rw [if_pos line, if_pos line]
    · rw [if_neg line, if_neg line]
      have same (flexible : packing = .mixed ∨ packing = .horizontalVertical) :
          (decide ((oneLineWidth separator entries : Int) ≤ width) &&
              !entries.any Entry.isMultiline) =
            (decide ((oneLineWidth separator (entries.filter Entry.isSubstantial) : Int) ≤ width) &&
              !entries.any Entry.isMultiline) := by
        cases flat : entries.any Entry.isMultiline with
        | true => simp
        | false =>
            rw [Bool.not_false, Bool.and_true, Bool.and_true, decide_eq_decide]
            refine ⟨fun room => Int.le_trans (Int.ofNat_le.mpr longer) room, fun fits => ?_⟩
            refine Int.not_lt.mp fun wide => honest ⟨flexible, ?_, ?_, fits, wide⟩
            · simpa using line
            · simpa using flat
      cases packing with
      | horizontal | vertical => rfl
      | mixed => simp only [same (.inl rfl)]
      | horizontalVertical => simp only [same (.inr rfl)]

end Arrangement

/-! ## The closer -/

theorem Text.trim_ne_nil_of_isLineComment {comment : Text} (line : comment.isLineComment = true) :
    comment.trim ≠ [] := by
  obtain ⟨front, rest, rfl, -⟩ := isLineComment_iff.mp line
  exact trim_ne_nil (c := '/') (by simp) (by decide)

theorem ListWriter.put_ne_nil (form : ListForm) (last : Bool) (writer : ListWriter) {entry : Entry}
    (shown : entry.text ≠ [] ∨ ∃ comment ∈ entry.comments, comment.trim ≠ []) :
    (writer.put form last entry).text ≠ [] := by
  obtain ⟨separated, text, -, -⟩ := writer.put_text form last entry
  rw [text]
  by_cases titled : entry.text = []
  · obtain ⟨comment, mem, trimmed⟩ := shown.resolve_left (not_not_intro titled)
    obtain ⟨c, rest, rfl⟩ : ∃ c rest, comment = c :: rest := by
      refine List.exists_cons_of_ne_nil ?_
      rintro rfl
      exact trimmed rfl
    rcases List.mem_append.mp mem with mem | mem
    · have before := Option.mem_toList.mp mem
      have written := Comment.reindent_ne_nil trimmed form.margin entry.beforeColumn
      simp [putBefore, Option.mem_def.mp before, titled, written]
    · have after := Option.mem_toList.mp mem
      rw [ending_of_some after (List.cons_ne_nil _ _)]
      split <;> simp
  · simp [titled]

theorem ListForm.write_ne_nil_of_last (form : ListForm) {entries : List Entry} {last : Entry}
    (final : (entries.filter Entry.isSubstantial).getLast? = some last)
    (shown : last.text ≠ [] ∨ ∃ comment ∈ last.comments, comment.trim ≠ []) :
    form.write entries ≠ [] := by
  obtain ⟨init, split⟩ := List.getLast?_eq_some_iff.mp final
  rw [write, split, ListWriter.putAll_concat]
  exact ListWriter.put_ne_nil form true _ shown

theorem Entry.shown_of_endsInLineComment {entry : Entry} (ends : entry.endsInLineComment = true) :
    ∃ comment ∈ entry.comments, comment.trim ≠ [] := by
  obtain ⟨comment, mem, line⟩ := List.any_eq_true.mp (hasLineComment_of_endsInLineComment ends)
  exact ⟨comment, mem, Text.trim_ne_nil_of_isLineComment line⟩

namespace Document

variable (doc : Document) (frame : Frame) (settings : ListSettings) (brackets : Brackets)
  (nested : Bool) (lineWidth : Option Int) (entries : List Entry)

theorem enclose_eq_iff {form : ListForm} {body : Text} (some : body ≠ [])
    (vertical : form.arrangement = .vertical) :
    doc.enclose frame settings brackets lineWidth form body false =
        doc.enclose frame settings brackets lineWidth form body true ↔
      ¬(settings.indentStyle = .visual ∧ brackets.closer ≠ []) := by
  unfold enclose
  rw [if_neg some, if_neg some]
  cases settings.indentStyle with
  | block => simp [vertical]
  | visual =>
      by_cases closed : brackets.closer = []
      · simp [closed]
      · have apart : brackets.opener ++ body ++ brackets.closer ≠
            brackets.opener ++ body ++ frame.indent.newLine doc.style ++ brackets.closer := by
          intro same
          have lengths := congrArg List.length same
          simp only [List.length_append, Indent.newLine, List.length_cons] at lengths
          omega
        simpa [closed] using apart

variable {entries} in
theorem getLast?_any_filter (ends : entries.getLast?.any Entry.endsInLineComment = true) :
    (entries.filter Entry.isSubstantial).getLast?.any Entry.endsInLineComment = true := by
  obtain ⟨last, final, line⟩ := (Option.any_eq_true _ _).mp ends
  have shown := Entry.isSubstantial_of_hasLineComment
    (Entry.hasLineComment_of_endsInLineComment line)
  rwa [Entry.getLast?_filter_isSubstantial final shown]

variable {entries} in
theorem listArrangement_of_ends {last : Entry}
    (final : (entries.filter Entry.isSubstantial).getLast? = some last)
    (line : last.endsInLineComment = true) :
    listArrangement frame settings brackets lineWidth entries = .vertical := by
  have mem := (List.mem_filter.mp (List.mem_of_getLast? final)).1
  refine (Arrangement.choose_vertical_iff entries).mpr (List.any_eq_true.mpr ?_) _ _ _
  exact ⟨last, mem, Entry.hasLineComment_of_endsInLineComment line⟩

theorem layoutList_filter
    (same : listArrangement frame settings brackets lineWidth entries =
      listArrangement frame settings brackets lineWidth (entries.filter Entry.isSubstantial)) :
    doc.layoutList frame settings brackets nested lineWidth entries =
        doc.layoutList frame settings brackets nested lineWidth
          (entries.filter Entry.isSubstantial) ↔
      ¬(settings.indentStyle = .visual ∧ brackets.closer ≠ [] ∧
        (entries.filter Entry.isSubstantial).getLast?.any Entry.endsInLineComment = true ∧
        entries.getLast?.any Entry.endsInLineComment = false) := by
  have formed : doc.listForm frame settings brackets nested lineWidth
      (entries.filter Entry.isSubstantial) =
        doc.listForm frame settings brackets nested lineWidth entries :=
    congrArg (settings.form doc.style frame brackets nested) same.symm
  have written (form : ListForm) :
      form.write (entries.filter Entry.isSubstantial) = form.write entries := by
    simp [ListForm.write]
  rw [layoutList_eq_enclose, layoutList_eq_enclose, formed, written]
  cases seen : entries.getLast?.any Entry.endsInLineComment with
  | true =>
      rw [getLast?_any_filter seen]
      simp
  | false =>
      cases ends : (entries.filter Entry.isSubstantial).getLast?.any Entry.endsInLineComment with
      | false => simp
      | true =>
          obtain ⟨last, final, line⟩ := (Option.any_eq_true _ _).mp ends
          have arranged : (doc.listForm frame settings brackets nested lineWidth entries).arrangement =
              .vertical :=
            (settings.form_arrangement ..).trans
              (listArrangement_of_ends frame settings brackets lineWidth final line)
          rw [doc.enclose_eq_iff frame settings brackets lineWidth
            (ListForm.write_ne_nil_of_last _ final (.inr (Entry.shown_of_endsInLineComment line))) arranged]
          simp

theorem layoutList_filter_iff (doc : Document) (frame : Frame) (settings : ListSettings)
    (brackets : Brackets) (nested : Bool) (lineWidth : Option Int) (entries : List Entry) :
    let shown := entries.filter Entry.isSubstantial
    let width := lineWidth.getD (frame.inside brackets)
    (listArrangement frame settings brackets lineWidth entries =
          listArrangement frame settings brackets lineWidth shown ∧
        doc.layoutList frame settings brackets nested lineWidth entries =
          doc.layoutList frame settings brackets nested lineWidth shown) ↔
      ¬Arrangement.Overcounts settings.packing settings.separator width entries ∧
      ¬(settings.indentStyle = .visual ∧ brackets.closer ≠ [] ∧
        shown.getLast?.any Entry.endsInLineComment = true ∧
        entries.getLast?.any Entry.endsInLineComment = false) := by
  intro shown width
  rw [← Arrangement.choose_filter_iff]
  refine and_congr_right fun same => ?_
  exact doc.layoutList_filter frame settings brackets nested lineWidth entries same

theorem layoutList_closer_in_comment :
    let doc : Document := { source := [] }
    let settings : ListSettings := { indentStyle := .visual }
    let brackets : Brackets := { opener := ['('], closer := [')'] }
    let entries : List Entry := [{ text := ['a'], after := some "// c".toList }, .ofText []]
    doc.layoutList { width := 40 } settings brackets false none entries = "(a // c)".toList ∧
      doc.layoutList { width := 40 } settings brackets false none
        (entries.filter Entry.isSubstantial) = "(a // c\n)".toList := by
  decide +kernel

/-- An entry that is never written takes the room of a separator. -/
example :
    let doc : Document := { source := [] }
    let brackets : Brackets := { opener := ['('], closer := [')'] }
    doc.layoutList { width := 6 } {} brackets false none
        [.ofText ['a'], .ofText [], .ofText ['b']] = "(\n    a,\n    b,\n)".toList ∧
      doc.layoutList { width := 6 } {} brackets false none [.ofText ['a'], .ofText ['b']] =
        "(a, b)".toList := by
  decide +kernel

end Document

end ItemLayout
