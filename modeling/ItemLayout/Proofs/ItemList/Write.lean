import ItemLayout.ItemList.Write
import ItemLayout.Proofs.Comment.Reindent
import ItemLayout.Proofs.Token.Weave

namespace ItemLayout

def moved (margin : Text) (column : Option Int) (comment : Option Text) : List (TokenKind × Text) :=
  comment.toList.flatMap fun text =>
    (commentsOf text.trim).map fun found => (found.1, Comment.reindent margin column text)

theorem IsComment.moved {comment : Text} (single : IsComment comment.trim) :
    ∃ kind, ClosedComment kind comment.trim ∧ ∀ margin column,
      moved margin column (some comment) = [(kind, Comment.reindent margin column comment)] := by
  obtain ⟨kind, closed, found⟩ := single.closed
  exact ⟨kind, closed, fun margin column => by simp [ItemLayout.moved, found]⟩

def Entry.movedComments (margin afterMargin : Text) (entry : Entry) : List (TokenKind × Text) :=
  moved margin entry.beforeColumn entry.before ++ moved afterMargin entry.afterColumn entry.after

theorem Entry.filter_isSubstantial {entries : List Entry}
    (shown : ∀ entry ∈ entries, entry.text ≠ []) : entries.filter Entry.isSubstantial = entries := by
  refine List.filter_eq_self.mpr fun entry mem => ?_
  simp [isSubstantial, shown entry mem]

structure Entry.Tidy (entry : Entry) : Prop where
  shown : entry.text ≠ []
  plain : Plain entry.text
  comments : ∀ comment ∈ entry.comments, IsComment comment.trim
  beforeColumn : ∀ column ∈ entry.beforeColumn, 0 ≤ column
  afterColumn : ∀ column ∈ entry.afterColumn, 0 ≤ column

structure Entry.Legible (entry : Entry) : Prop where
  plain : Plain entry.text
  comments : ∀ comment ∈ entry.comments, IsComment comment.trim
  beforeColumn : ∀ column ∈ entry.beforeColumn, 0 ≤ column
  afterColumn : ∀ column ∈ entry.afterColumn, 0 ≤ column

theorem Entry.Tidy.legible {entry : Entry} (tidy : entry.Tidy) : entry.Legible :=
  ⟨tidy.plain, tidy.comments, tidy.beforeColumn, tidy.afterColumn⟩

namespace ListForm

variable (form : ListForm)

def afterMargin : Text := if form.arrangement = .horizontal then [] else form.margin

/-- Whether a separator follows the last entry, given whether a mixed arrangement has become several
lines. -/
def closesWithMark (broken : Bool) : Bool :=
  form.trails (if form.arrangement = .mixed then form.endsWithBreak || broken
    else form.arrangement == .vertical)

theorem blank_margin : Blank form.margin := form.frame.indent.blank_render form.style

theorem not_mem_margin : '\n' ∉ form.margin := form.frame.indent.not_mem_render form.style

theorem white_newLine : White form.newLine := form.frame.indent.white_newLine form.style

theorem atBreak_newLine (r : Text) : AtBreak (form.newLine ++ r) :=
  form.frame.indent.atBreak_newLine form.style r

end ListForm

namespace ListWriter

variable {form : ListForm} {entry : Entry} {writer : ListWriter}

theorem isSome_of_closes (closes : writer.previous.any Entry.closesLine = true) :
    writer.previous.isSome = true := by
  cases previous : writer.previous with
  | none => simp [previous] at closes
  | some previous => rfl

theorem advance_text (form : ListForm) (entry : Entry) (separatorWidth : Nat) (writer : ListWriter) :
    ∃ divider, (divider = [] ∨ divider = [' '] ∨ divider = form.newLine) ∧
      (writer.advance form entry separatorWidth).text = writer.text ++ divider ∧
      (writer.previous.any Entry.closesLine = true → writer.text ≠ [] → divider = form.newLine) := by
  unfold advance
  cases form.arrangement with
  | horizontal =>
      cases writer.previous with
      | none => exact ⟨[], .inl rfl, by simp, by simp⟩
      | some previous =>
          by_cases closes : previous.closesLine = true
          · exact ⟨form.newLine, .inr (.inr rfl), by simp [closes], fun _ _ => rfl⟩
          · exact ⟨[' '], .inr (.inl rfl), by simp [closes], by simp [closes]⟩
  | vertical =>
      by_cases later : writer.previous.isSome = true ∧ writer.text ≠ []
      · exact ⟨form.newLine, .inr (.inr rfl), by simp [later], fun _ _ => rfl⟩
      · refine ⟨[], .inl rfl, by simp [later], fun closes more => absurd ⟨?_, more⟩ later⟩
        exact isSome_of_closes closes
  | mixed =>
      simp only
      split
      · exact ⟨form.newLine, .inr (.inr rfl), rfl, fun _ _ => rfl⟩
      · rename_i inline
        have unclosed : writer.previous.any Entry.closesLine = false := by
          simp only [breaksBefore, Bool.or_eq_true, not_or] at inline
          cases previous : writer.previous with
          | none => rfl
          | some previous => simp_all [Entry.closesLine]
        split
        · exact ⟨[' '], .inr (.inl rfl), rfl, by simp [unclosed]⟩
        · exact ⟨[], .inl rfl, by simp, by simp [unclosed]⟩

theorem advance_start (form : ListForm) (entry : Entry) (width : Nat) :
    ((start form).advance form entry width).text = [] := by
  unfold advance
  cases form.arrangement <;> simp [start, breaksBefore]

theorem advance_vertical (vertical : form.arrangement = .vertical)
    (later : writer.previous.isSome = true) (started : writer.text ≠ []) (entry : Entry)
    (width : Nat) : (writer.advance form entry width).text = writer.text ++ form.newLine := by
  simp [advance, vertical, later, started]

theorem advance_eq (form : ListForm) (entry : Entry) (separatorWidth : Nat)
    (started : writer.previous.isSome = true → writer.text ≠ []) :
    ∃ divider, White divider ∧
      (writer.advance form entry separatorWidth).text = writer.text ++ divider ∧
      (writer.previous.any Entry.closesLine = true → ∀ r, AtBreak (divider ++ r)) := by
  obtain ⟨divider, place, text, breaks⟩ := advance_text form entry separatorWidth writer
  refine ⟨divider, ?_, text, fun closes => ?_⟩
  · rcases place with rfl | rfl | rfl
    · exact white_nil
    · exact white_space
    · exact form.white_newLine
  · rw [breaks closes (started (isSome_of_closes closes))]
    exact form.atBreak_newLine

variable {pre : Text} {comments : List (TokenKind × Text)} {code : Text}

theorem putBefore_text {comment : Text} (before : entry.before = some comment)
    (more : comment ≠ []) (shown : entry.text ≠ []) (separatorWidth : Nat) :
    (writer.putBefore form entry separatorWidth).text =
      writer.text ++ Comment.reindent form.margin entry.beforeColumn comment ++
        if keepsInline form entry separatorWidth
          (Comment.reindent form.margin entry.beforeColumn comment) then [' ']
        else form.newLine := by
  obtain ⟨c, rest, rfl⟩ := List.exists_cons_of_ne_nil more
  simp only [putBefore, before, if_neg shown]
  split <;> rfl

theorem putBefore_weaves (form : ListForm) (legible : entry.Legible) (shown : entry.text ≠ [])
    (separatorWidth : Nat) (weaves : Weaves false (pre ++ writer.text) comments code) :
    Weaves false (pre ++ (writer.putBefore form entry separatorWidth).text)
      (comments ++ moved form.margin entry.beforeColumn entry.before) code := by
  cases before : entry.before with
  | none => simpa [putBefore, before, moved] using weaves
  | some comment =>
      have inside : comment ∈ entry.comments := by simp [Entry.comments, before]
      obtain ⟨kind, closed, found⟩ := (legible.comments comment inside).moved
      have placed := closed.reindent form.blank_margin legible.beforeColumn
      have woven := weaves.comment_append placed
      rw [putBefore_text before closed.ne_nil shown, found, ← List.append_assoc,
        ← List.append_assoc]
      split
      · rename_i inline
        have block : (kind == .lineComment) = false := by
          rw [← placed.trim.isLineComment]
          simp_all [keepsInline]
        exact woven.white_append white_space (by simp [block])
      · exact woven.white_append form.white_newLine fun _ => form.atBreak_newLine

theorem ending_of_some {comment : Text} (after : entry.after = some comment) (more : comment ≠ [])
    (separated : Bool) :
    ending form entry separated =
      if form.arrangement = .horizontal ∧ ¬ comment.isLineComment then
        ' ' :: Comment.reindent [] entry.afterColumn comment ++ if separated then form.mark else []
      else
        (if separated then form.mark else []) ++
          ' ' :: Comment.reindent form.margin entry.afterColumn comment := by
  obtain ⟨c, rest, rfl⟩ := List.exists_cons_of_ne_nil more
  simp only [ending, after]

theorem reindent_after {kind : TokenKind} {comment : Text} (closed : ClosedComment kind comment.trim)
    (own : ¬(form.arrangement = .horizontal ∧ ¬ comment.isLineComment = true)) (column : Option Int) :
    Comment.reindent form.margin column comment =
      Comment.reindent form.afterMargin column comment := by
  unfold ListForm.afterMargin
  split
  · rename_i horizontal
    have line : kind = .lineComment := by
      rw [closed.isLineComment] at own
      simpa [horizontal] using own
    have single : '\n' ∉ comment.trim := (line ▸ closed).not_mem_of_line
    rw [Comment.reindent_of_single single, Comment.reindent_of_single single]
  · rfl

theorem ending_woven {pending : Bool} (legible : entry.Legible) (plain : Plain form.separator)
    (separated : Bool) {t : Text} (weaves : Weaves pending t comments code)
    (breaks : pending = true → ∀ r, AtBreak (ending form entry separated ++ r)) :
    Woven entry.closesLine (t ++ ending form entry separated)
      (comments ++ moved form.afterMargin entry.afterColumn entry.after)
      (code ++ inked (if separated then form.separator else [])) := by
  have mark : Plain (if separated then form.mark else []) ∧
      inked (if separated then form.mark else []) =
        inked (if separated then form.separator else []) := by
    cases separated with
    | false => exact ⟨by simp [Plain], rfl⟩
    | true => exact ⟨plain.trimRight, inked_trimRight form.separator⟩
  rw [← mark.2]
  cases after : entry.after with
  | none =>
      have whole : ending form entry separated = if separated then form.mark else [] := by
        simp only [ending, after]
      rw [whole] at breaks ⊢
      have woven := (weaves.code_append mark.1 breaks).woven
      simpa [after, moved, Entry.closesLine] using woven
  | some comment =>
      have inside : comment ∈ entry.comments := by simp [Entry.comments, after]
      obtain ⟨kind, closed, found⟩ := (legible.comments comment inside).moved
      have closes : entry.closesLine = (kind == .lineComment) := by
        rw [Entry.closesLine, after, Option.any_some, closed.isLineComment]
      rw [ending_of_some after closed.ne_nil] at breaks ⊢
      rw [found, closes]
      split
      · rename_i inline
        rw [if_pos inline] at breaks
        have placed : ClosedComment kind (Comment.reindent [] entry.afterColumn comment) :=
          closed.reindent (by simp [Blank]) legible.afterColumn
        have block : (kind == .lineComment) = false := by
          rw [← closed.isLineComment]
          simpa using inline.2
        have spaced := weaves.white_append white_space fun line r => by
          have here := breaks line []
          simp [AtBreak, isBreak] at here
        have woven := ((spaced.comment_append placed).code_append mark.1 (by simp [block])).woven
        rw [ListForm.afterMargin, if_pos inline.1, block]
        simpa using woven
      · rename_i own
        rw [if_neg own] at breaks
        have placed := closed.reindent form.blank_margin legible.afterColumn
        have marked := weaves.code_append mark.1 fun line r => by
          -- A break in front of the comment is a break in the mark.
          have here := breaks line []
          cases shown : (if separated then form.mark else []) with
          | nil => simp [shown, AtBreak, isBreak] at here
          | cons c rest => simpa [shown, AtBreak] using here
        have woven := (marked.white_append white_space (by simp)).comment_woven placed
        rw [← reindent_after closed own]
        simpa using woven

/-! ## One more entry -/

def Steady (form : ListForm) (writer : ListWriter) : Prop :=
  form.arrangement ≠ .mixed → writer.trailing = form.trails (form.arrangement == .vertical)

def separatorWidth (form : ListForm) (writer : ListWriter) (last : Bool) : Nat :=
  if !last || writer.trailing then form.mark.length else 0

theorem put_text (form : ListForm) (last : Bool) (writer : ListWriter) (entry : Entry) :
    let width := writer.separatorWidth form last
    let advanced := writer.advance form entry width
    ∃ separated,
      (writer.put form last entry).text =
        (advanced.putBefore form entry width).text ++ entry.text ++ ending form entry separated ++
          blankLine form entry last ∧
      (last = false → separated = true) ∧
      (last = true → writer.Steady form →
        separated = form.closesWithMark (advanced.text.contains '\n')) := by
  refine ⟨_, rfl, ?_, ?_⟩
  · rintro rfl
    simp
  · rintro rfl steady
    unfold ListForm.closesWithMark
    by_cases mixed : form.arrangement = .mixed
    · rw [if_pos mixed, if_pos ⟨mixed, rfl⟩]
      rfl
    · simp [mixed, steady mixed]

theorem put_steady (steady : writer.Steady form) (last : Bool) (entry : Entry) :
    (writer.put form last entry).Steady form := by
  intro packed
  have before (width : Nat) (writer : ListWriter) :
      (writer.putBefore form entry width).trailing = writer.trailing := by
    unfold putBefore
    grind
  have divided (width : Nat) : (writer.advance form entry width).trailing = writer.trailing := by
    unfold advance
    grind
  exact ((before _ _).trans (divided _)).trans (steady packed)

theorem blankLine_weaves {pending : Bool} {t : Text} (form : ListForm) (entry : Entry) (last : Bool)
    (weaves : Weaves pending t comments code) :
    Weaves pending (t ++ blankLine form entry last) comments code := by
  unfold blankLine
  split
  · refine (weaves.white_append (by simp [White, isWhite, isBreak]) fun _ r => ?_).relax pending
    simp [AtBreak, isBreak]
  · rwa [List.append_nil]

theorem put_weaves (tidy : entry.Tidy) (plain : Plain form.separator) (last : Bool)
    (started : writer.previous.isSome = true → writer.text ≠ [])
    (weaves : Weaves (writer.previous.any Entry.closesLine) (pre ++ writer.text) comments code) :
    ∃ separated, (last = false → separated = true) ∧
      (last = true → writer.Steady form → ∃ broken, separated = form.closesWithMark broken) ∧
      (writer.put form last entry).text ≠ [] ∧
      Weaves entry.closesLine (pre ++ (writer.put form last entry).text)
        (comments ++ entry.movedComments form.margin form.afterMargin)
        (code ++ inked (entry.text ++ if separated then form.separator else [])) := by
  obtain ⟨separated, text, middle, final⟩ := writer.put_text form last entry
  generalize writer.separatorWidth form last = width at text final
  obtain ⟨divider, white, divided, breaks⟩ := writer.advance_eq form entry width started
  refine ⟨separated, middle, fun ends steady => ⟨_, final ends steady⟩, by simp [text, tidy.shown], ?_⟩
  have advanced := weaves.white_append white breaks
  rw [List.append_assoc, ← divided] at advanced
  have prepared :=
    (putBefore_weaves form tidy.legible tidy.shown width advanced).code_append tidy.plain (by simp)
  have ended := blankLine_weaves form entry last
    (ending_woven tidy.legible plain separated prepared (by simp)).weaves
  rw [text, inked_append, Entry.movedComments]
  simpa only [List.append_assoc] using ended

/-! ## All entries -/

theorem putAll_append_cons (form : ListForm) (writer : ListWriter) (init : List Entry) (entry : Entry)
    (rest : List Entry) :
    writer.putAll form (init ++ entry :: rest) =
      (init.foldl (ListWriter.put form false) writer).putAll form (entry :: rest) := by
  induction init generalizing writer with
  | nil => rfl
  | cons first init ih =>
      have more : (init ++ entry :: rest).isEmpty = false := by simp
      rw [List.cons_append, putAll, more, ih]
      rfl

theorem putAll_concat (form : ListForm) (writer : ListWriter) (init : List Entry) (last : Entry) :
    writer.putAll form (init ++ [last]) =
      (init.foldl (ListWriter.put form false) writer).put form true last :=
  putAll_append_cons form writer init last []

theorem putAll_weaves {first : Entry} {rest : List Entry}
    (tidy : ∀ entry ∈ first :: rest, entry.Tidy) (plain : Plain form.separator)
    (started : writer.previous.isSome = true → writer.text ≠ [])
    (steady : writer.Steady form)
    (weaves : Weaves (writer.previous.any Entry.closesLine) (pre ++ writer.text) comments code) :
    ∃ broken, (writer.putAll form (first :: rest)).text ≠ [] ∧
      Weaves ((first :: rest).getLast?.any Entry.closesLine)
        (pre ++ (writer.putAll form (first :: rest)).text)
        (comments ++ (first :: rest).flatMap
          (Entry.movedComments form.margin form.afterMargin))
        (code ++ inked (form.separator.intercalate ((first :: rest).map Entry.text) ++
          if form.closesWithMark broken then form.separator else [])) := by
  induction rest generalizing first writer comments code with
  | nil =>
      obtain ⟨separated, -, final, more, woven⟩ :=
        put_weaves (tidy first List.mem_cons_self) plain true started weaves
      obtain ⟨broken, rfl⟩ := final rfl steady
      exact ⟨broken, more, by simpa [putAll] using woven⟩
  | cons second rest ih =>
      obtain ⟨separated, middle, -, more, woven⟩ :=
        put_weaves (tidy first List.mem_cons_self) plain false started weaves
      obtain rfl := middle rfl
      obtain ⟨broken, more, woven⟩ := ih (fun entry mem => tidy entry (List.mem_cons_of_mem _ mem))
        (fun _ => more) (put_steady steady false first) woven
      refine ⟨broken, more, ?_⟩
      -- The separator of the first entry is the one that joins it to the others.
      rw [List.map_cons, List.map_cons, List.intercalate_cons_cons, List.flatMap_cons]
      rw [if_pos rfl] at woven
      simpa only [putAll, List.isEmpty_cons, List.map_cons, inked_append, List.append_assoc,
        List.getLast?_cons_cons] using woven

end ListWriter

end ItemLayout
