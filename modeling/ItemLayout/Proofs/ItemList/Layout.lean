import ItemLayout.ItemList.Layout
import ItemLayout.Proofs.ItemList.Write

namespace ItemLayout

def ListSettings.trails (settings : ListSettings) (arrangement : Arrangement) : Bool :=
  match settings.trailing with
  | .always => true
  | .multilineOnly => settings.indentStyle == .block && arrangement != .horizontal
  | .never => false

namespace ListSettings

variable (style : Style) (frame : Frame) (settings : ListSettings) (brackets : Brackets)
  (nested : Bool) (arrangement : Arrangement)

theorem form_arrangement :
    (settings.form style frame brackets nested arrangement).arrangement = arrangement := by
  unfold form
  split <;> rfl

theorem form_separator :
    (settings.form style frame brackets nested arrangement).separator = settings.separator := by
  unfold form
  split <;> rfl

theorem form_closesWithMark (broken : Bool) :
    (settings.form style frame brackets nested arrangement).closesWithMark broken =
      settings.trails arrangement := by
  rw [ListForm.closesWithMark, form_arrangement]
  unfold form ListForm.trails trails trailingInline
  cases settings.indentStyle <;> cases settings.trailing <;> cases arrangement <;> rfl

end ListSettings

theorem ListForm.write_weaves (form : ListForm) {pre : Text} {comments : List (TokenKind × Text)}
    {code : Text} {entries : List Entry} (tidy : ∀ entry ∈ entries, entry.Tidy)
    (plain : Plain form.separator) (some : entries ≠ []) (weaves : Weaves false pre comments code) :
    ∃ broken, form.write entries ≠ [] ∧
      Weaves (entries.getLast?.any Entry.closesLine) (pre ++ form.write entries)
        (comments ++ entries.flatMap (Entry.movedComments form.margin form.afterMargin))
        (code ++ inked (form.separator.intercalate (entries.map Entry.text) ++
          if form.closesWithMark broken then form.separator else [])) := by
  rw [write, Entry.filter_isSubstantial fun entry mem => (tidy entry mem).shown]
  obtain ⟨first, rest, rfl⟩ := List.exists_cons_of_ne_nil some
  exact ListWriter.putAll_weaves tidy plain (by simp [ListWriter.start]) (fun _ => rfl)
    (by simpa [ListWriter.start] using weaves)

theorem Entry.endsInLineComment_of_closesLine {entry : Entry} (closes : entry.closesLine = true) :
    entry.endsInLineComment = true := by
  unfold closesLine at closes
  unfold endsInLineComment
  cases after : entry.after with
  | none => simp [after] at closes
  | some comment => simpa [after] using closes

theorem Indent.white_of_newLine {indent : Indent} {style : Style} {t : Text}
    (line : t = [] ∨ t = indent.newLine style) : White t := by
  rcases line with rfl | rfl
  · exact white_nil
  · exact indent.white_newLine style

namespace Document

variable (doc : Document) (frame : Frame) (settings : ListSettings) (brackets : Brackets)
  (nested : Bool) (lineWidth : Option Int) (entries : List Entry)

def listArrangement : Arrangement :=
  Arrangement.choose settings.packing settings.separator (lineWidth.getD (frame.inside brackets))
    entries

def listForm : ListForm :=
  settings.form doc.style frame brackets nested
    (listArrangement frame settings brackets lineWidth entries)

/-- What is written around the entries, given whether the last one is taken to end in a line
comment. -/
def enclose (form : ListForm) (body : Text) (ends : Bool) : Text :=
  if body = [] then brackets.opener ++ brackets.closer
  else if settings.indentStyle = .block ∧
      ('\n' ∈ body ∨ lineWidth.getD (frame.inside brackets) < body.length ∨
        form.arrangement = .vertical) then
    brackets.opener ++ form.newLine ++ body ++ frame.indent.newLine doc.style ++ brackets.closer
  else if brackets.closer ≠ [] ∧ ends = true then
    brackets.opener ++ body ++ frame.indent.newLine doc.style ++ brackets.closer
  else brackets.opener ++ body ++ brackets.closer

theorem layoutList_eq_enclose :
    doc.layoutList frame settings brackets nested lineWidth entries =
      doc.enclose frame settings brackets lineWidth
        (doc.listForm frame settings brackets nested lineWidth entries)
        ((doc.listForm frame settings brackets nested lineWidth entries).write entries)
        (entries.getLast?.any Entry.endsInLineComment) := by
  have arranged : (doc.listForm frame settings brackets nested lineWidth entries).arrangement =
      listArrangement frame settings brackets lineWidth entries := settings.form_arrangement ..
  rw [enclose, arranged]
  rfl

theorem enclose_eq (form : ListForm) {body : Text} (some : body ≠ []) (ends : Bool) :
    ∃ opening closing : Text,
      (opening = [] ∨ opening = form.newLine) ∧
      (closing = [] ∨ closing = frame.indent.newLine doc.style) ∧
      doc.enclose frame settings brackets lineWidth form body ends =
        brackets.opener ++ opening ++ body ++ closing ++ brackets.closer ∧
      ((∀ r, AtBreak (closing ++ r)) ∧ (settings.indentStyle = .block ∨ ends = true) ∨
        closing = [] ∧ (brackets.closer ≠ [] → ends = false) ∧
          (form.arrangement = .vertical → settings.indentStyle = .visual)) := by
  have breaks := frame.indent.atBreak_newLine doc.style
  unfold enclose
  rw [if_neg some]
  split
  · rename_i block
    exact ⟨_, _, .inr rfl, .inr rfl, rfl, .inl ⟨breaks, .inl block.1⟩⟩
  · rename_i inline
    split
    · rename_i line
      exact ⟨[], _, .inl rfl, .inr rfl, by simp, .inl ⟨breaks, .inr line.2⟩⟩
    · rename_i unclosed
      refine ⟨[], [], .inl rfl, .inl rfl, by simp, .inr ⟨rfl, fun closed => ?_, fun vertical => ?_⟩⟩
      · rw [← Bool.not_eq_true]
        exact fun line => unclosed ⟨closed, line⟩
      · cases style : settings.indentStyle with
        | block => exact absurd ⟨style, .inr (.inr vertical)⟩ inline
        | visual => rfl

theorem layoutList_eq
    (some : (doc.listForm frame settings brackets nested lineWidth entries).write entries ≠ []) :
    ∃ opening closing : Text,
      (opening = [] ∨
        opening = (doc.listForm frame settings brackets nested lineWidth entries).newLine) ∧
      (closing = [] ∨ closing = frame.indent.newLine doc.style) ∧
      doc.layoutList frame settings brackets nested lineWidth entries =
        brackets.opener ++ opening ++
          (doc.listForm frame settings brackets nested lineWidth entries).write entries ++
          closing ++ brackets.closer ∧
      ((∀ r, AtBreak (closing ++ r)) ∨
        closing = [] ∧ (entries.getLast?.any Entry.closesLine = true → brackets.closer = [])) := by
  rw [layoutList_eq_enclose]
  obtain ⟨opening, closing, before, behind, text, place⟩ := doc.enclose_eq frame settings brackets
    lineWidth _ some (entries.getLast?.any Entry.endsInLineComment)
  refine ⟨opening, closing, before, behind, text, place.imp And.left ?_⟩
  rintro ⟨rfl, unclosed, -⟩
  refine ⟨rfl, fun closes => Decidable.byContradiction fun shown => ?_⟩
  obtain ⟨last, final, line⟩ := (Option.any_eq_true _ _).mp closes
  have ends := unclosed shown
  rw [final, Option.any_some, Entry.endsInLineComment_of_closesLine line] at ends
  cases ends

theorem layoutList_weaves (opener : Plain brackets.opener) (closer : Plain brackets.closer)
    (separator : Plain settings.separator) (tidy : ∀ entry ∈ entries, entry.Tidy)
    (some : entries ≠ []) :
    let arrangement := listArrangement frame settings brackets lineWidth entries
    let form := doc.listForm frame settings brackets nested lineWidth entries
    ∃ pending, Weaves pending (doc.layoutList frame settings brackets nested lineWidth entries)
      (entries.flatMap (Entry.movedComments form.margin form.afterMargin))
      (inked (brackets.opener ++ settings.separator.intercalate (entries.map Entry.text) ++
        (if settings.trails arrangement then settings.separator else []) ++ brackets.closer)) := by
  intro arrangement form
  have mark : form.separator = settings.separator := settings.form_separator ..
  have plain : Plain form.separator := by rwa [mark]
  -- That something is written does not depend on what stands before it.
  obtain ⟨-, shown, -⟩ := form.write_weaves tidy plain some opener.weaves
  obtain ⟨opening, closing, before, behind, text, ends⟩ :=
    doc.layoutList_eq frame settings brackets nested lineWidth entries shown
  have white : White opening := Indent.white_of_newLine before
  have white' : White closing := Indent.white_of_newLine behind
  obtain ⟨broken, -, woven⟩ :=
    form.write_weaves tidy plain some (opener.weaves.white_append white (by simp))
  have trails : form.closesWithMark broken = settings.trails arrangement :=
    settings.form_closesWithMark ..
  rw [mark, trails, List.nil_append, ← inked_append, ← List.append_assoc] at woven
  rw [text, inked_append _ brackets.closer]
  rcases ends with breaks | ⟨rfl, unclosed⟩
  · exact ⟨false, (woven.white_append white' fun _ => breaks).code_append closer (by simp)⟩
  · rw [List.append_nil]
    cases pending : entries.getLast?.any Entry.closesLine with
    | false =>
        rw [pending] at woven
        exact ⟨false, woven.code_append closer (by simp)⟩
    | true =>
        rw [unclosed pending, List.append_nil]
        exact ⟨_, by simpa [inked] using woven⟩

theorem layoutList_tokens (opener : Plain brackets.opener) (closer : Plain brackets.closer)
    (separator : Plain settings.separator) (tidy : ∀ entry ∈ entries, entry.Tidy) :
    let arrangement := listArrangement frame settings brackets lineWidth entries
    let margin := (settings.form doc.style frame brackets nested arrangement).margin
    let out := doc.layoutList frame settings brackets nested lineWidth entries
    LeavesNothingOpen out ∧
      commentsOf out = entries.flatMap
        (Entry.movedComments margin (if arrangement = .horizontal then [] else margin)) ∧
      inked (withoutComments out) =
        inked (brackets.opener ++ settings.separator.intercalate (entries.map Entry.text) ++
          (if entries ≠ [] ∧ settings.trails arrangement then settings.separator else []) ++
          brackets.closer) := by
  intro arrangement margin out
  by_cases none : entries = []
  · subst none
    have bare := (opener.append closer).weaves.finish
    simpa [out, layoutList, ListForm.write, ListWriter.putAll, ListWriter.start] using bare
  · obtain ⟨pending, woven⟩ := doc.layoutList_weaves frame settings brackets nested lineWidth
      entries opener closer separator tidy none
    have horizontal : (doc.listForm frame settings brackets nested lineWidth entries).arrangement =
        arrangement := settings.form_arrangement ..
    rw [ListForm.afterMargin, horizontal] at woven
    simp only [ne_eq, none, not_false_eq_true, true_and]
    exact woven.finish

theorem layoutList_tokens_two_entries :
    let doc : Document := { source := [] }
    let brackets : Brackets := { opener := ['('], closer := [')'] }
    let entries : List Entry :=
      [{ text := ['a'], before := some "// x".toList },
        { text := ['b'], after := some "/* y\n  z */ ".toList, afterColumn := some 2 }]
    let out := doc.layoutList { width := 40 } {} brackets false none entries
    (Plain brackets.opener ∧ Plain brackets.closer ∧ Plain [','] ∧ ∀ entry ∈ entries, entry.Tidy) ∧
      LeavesNothingOpen out ∧
      commentsOf out =
        [(.lineComment, "// x".toList), (.blockComment, "/* y\n    z */".toList)] ∧
      inked (withoutComments out) = "(a,b,)".toList := by
  intro doc brackets entries out
  have opener : Plain brackets.opener := by decide
  have closer : Plain brackets.closer := by decide
  have separator : Plain [','] := by decide
  have line : IsComment (Text.trim "// x".toList) :=
    ⟨{ kind := .lineComment, span := .ofLength 0 4 }, by decide +kernel, rfl, rfl⟩
  have block : IsComment (Text.trim "/* y\n  z */ ".toList) :=
    ⟨{ kind := .blockComment, span := .ofLength 0 11 }, by decide +kernel, rfl, rfl⟩
  have tidy : ∀ entry ∈ entries, entry.Tidy := by
    refine List.forall_mem_cons.mpr ⟨?_, List.forall_mem_singleton.mpr ?_⟩
    · exact ⟨by decide, by decide, List.forall_mem_singleton.mpr line, by decide, by decide⟩
    · exact ⟨by decide, by decide, List.forall_mem_singleton.mpr block, by decide, by decide⟩
  obtain ⟨closed, comments, code⟩ :=
    doc.layoutList_tokens { width := 40 } {} brackets false none entries opener closer separator tidy
  exact ⟨⟨opener, closer, separator, tidy⟩, closed, comments.trans (by decide +kernel),
    code.trans (by decide +kernel)⟩

end Document

end ItemLayout
