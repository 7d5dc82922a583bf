import ItemLayout.Proofs.Comment.Margin
import ItemLayout.Proofs.ItemList.LineComments
import ItemLayout.Proofs.ItemList.Write
import ItemLayout.Proofs.Text.Lines

namespace ItemLayout

/-! ## Windows that differ by blanks -/

structure Padded (source : Text) (inner outer : Span) : Prop where
  starts : outer.start ≤ inner.start
  stops : inner.stop ≤ outer.stop
  inside : outer.stop ≤ source.length
  before : Blank (source.slice ⟨outer.start, inner.start, starts⟩)
  behind : Blank (source.slice ⟨inner.stop, outer.stop, stops⟩)
  shown : source.slice inner ≠ []
  opens : ∀ c ∈ (source.slice inner).head?, isBlank c = false
  ends : EndsInk (source.slice inner)

namespace Padded

variable {source : Text} {inner outer : Span} (padded : Padded source inner outer)
include padded

theorem trim_inner : (source.slice inner).trim = source.slice inner :=
  Text.trim_eq_self padded.opens padded.ends

theorem trim_outer : (source.slice outer).trim = source.slice inner := by
  have parts : source.slice outer = source.slice ⟨outer.start, inner.start, padded.starts⟩ ++
      (source.slice inner ++ source.slice ⟨inner.stop, outer.stop, padded.stops⟩) := by
    rw [source.slice_append inner.ordered padded.stops, source.slice_append padded.starts]
  rw [parts, Text.trim_blank_append padded.before, ← Text.trim_trimRight,
    Text.trimRight_append padded.behind, Text.trim_trimRight, padded.trim_inner]

theorem column_inner :
    source.column inner.start = Text.endColumn (source.column outer.start)
      (source.slice ⟨outer.start, inner.start, padded.starts⟩) := by
  have within : inner.start ≤ source.length :=
    Nat.le_trans inner.ordered (Nat.le_trans padded.stops padded.inside)
  have split : source.take inner.start =
      source.take outer.start ++ source.slice ⟨outer.start, inner.start, padded.starts⟩ := by
    have parts := source.slice_append (Nat.zero_le outer.start) padded.starts
    exact parts.symm
  rw [Text.column_of_le within, Text.column_of_le (Nat.le_trans padded.starts within), split,
    Text.endColumn_append]

end Padded

/-! ## Lines that show a column -/

namespace Comment

theorem rebase_eq_iff (margin line : Text) (column other : Nat) :
    rebase margin column line = rebase margin other line ↔
      (line.trim ≠ [] → min line.leading column = min line.leading other) := by
  by_cases blank : line.trim = []
  · simp [rebase, blank]
  · rw [rebase_of_shown column margin blank, rebase_of_shown other margin blank,
      List.append_left_inj, List.append_right_inj, List.drop_eq_drop_iff, Nat.min_comm column,
      Nat.min_comm other]
    exact ⟨fun same _ => same, fun same => same blank⟩

theorem reindent_at {comment first : Text} {others : List Text}
    (split : comment.trim.lines = first :: others) (several : others ≠ []) (margin : Text)
    (column : Nat) :
    reindent margin (some column) comment =
      Text.joinLines (first.trimRight :: others.map (rebase margin column)) := by
  have known : ∀ n ∈ some (column : Int), 0 ≤ n := by simp
  obtain ⟨base, is, moved⟩ := reindent_of_lines split several margin known
  obtain rfl : column = base := Int.ofNat_inj.mp is
  exact moved

theorem reindent_eq_iff {margin : Text} (flat : '\n' ∉ margin) (comment : Text) (column other : Nat) :
    reindent margin (some column) comment = reindent margin (some other) comment ↔
      ∀ line ∈ comment.trim.lines.tail, line.trim ≠ [] →
        min line.leading column = min line.leading other := by
  have split := Text.lines_eq_cons comment.trim
  generalize comment.trim.lines.tail = others at split ⊢
  by_cases several : others = []
  · have single := not_mem_of_single split several
    rw [reindent_of_single single, reindent_of_single single, several]
    simp
  · simp only [← rebase_eq_iff margin]
    rw [reindent_at split several, reindent_at split several, ← List.map_inj_left]
    constructor
    · intro same
      have lines := congrArg Text.lines same
      rw [lines_rebased split flat, lines_rebased split flat] at lines
      exact List.tail_eq_of_cons_eq lines
    · intro same
      rw [same]

end Comment

/-! ## The two comments of an entry -/

inductive Side where
  | before
  | after

namespace Side

def comment : Side → Entry → Option Text
  | .before, entry => entry.before
  | .after, entry => entry.after

def place (side : Side) (column : Nat) (entry : Entry) : Entry :=
  match side with
  | .before => { entry with beforeColumn := some column }
  | .after => { entry with afterColumn := some column }

def read (side : Side) (doc : Document) (text : Text) (span : Span) (window : Span)
    (other : Option Span) (placement : Placement) (blankAfter : Bool) : Except Breach Entry :=
  match side with
  | .before => Entry.ofSource doc text span (some window) other placement blankAfter
  | .after => Entry.ofSource doc text span other (some window) placement blankAfter

end Side

/-! ## Writing an entry at another column -/

namespace ListWriter

variable {form : ListForm} {writer : ListWriter} {entry : Entry} {side : Side} {column other : Nat}

def Agree (side : Side) (entry : Entry) (column other : Nat) : Prop :=
  ∀ comment ∈ side.comment entry, ∀ margin : Text, '\n' ∉ margin →
    Comment.reindent margin (some column) comment = Comment.reindent margin (some other) comment

theorem putBefore_place (form : ListForm) (agree : Agree side entry column other) (width : Nat)
    (writer : ListWriter) :
    writer.putBefore form (side.place column entry) width =
      writer.putBefore form (side.place other entry) width := by
  cases side with
  | after => rfl
  | before =>
      obtain ⟨text, before, placement, after, span, blankAfter, _, afterColumn⟩ := entry
      rcases before with none | ⟨_ | ⟨c, rest⟩⟩
      · rfl
      · rfl
      · have same := agree (c :: rest) rfl form.margin form.not_mem_margin
        simp only [putBefore, Side.place, same]
        rfl

theorem ending_place (form : ListForm) (agree : Agree side entry column other) (separated : Bool) :
    ending form (side.place column entry) separated =
      ending form (side.place other entry) separated := by
  cases side with
  | before => rfl
  | after =>
      obtain ⟨text, before, placement, after, span, blankAfter, beforeColumn, _⟩ := entry
      rcases after with none | ⟨_ | ⟨c, rest⟩⟩
      · rfl
      · rfl
      · have same := agree (c :: rest) rfl
        simp only [ending, Side.place]
        rw [same [] List.not_mem_nil, same form.margin form.not_mem_margin]

theorem put_place (form : ListForm) (agree : Agree side entry column other) (last : Bool)
    (writer : ListWriter) :
    writer.put form last (side.place column entry) =
      { writer.put form last (side.place other entry) with previous := some (side.place column entry) } := by
  unfold put
  simp only
  rw [ending_place form agree, putBefore_place form agree]
  cases side <;> rfl

theorem advance_previous (form : ListForm) (entry next : Entry) (width : Nat) (writer : ListWriter) :
    { writer with previous := some (side.place column entry) }.advance form next width =
      { { writer with previous := some (side.place other entry) }.advance form next width with
        previous := some (side.place column entry) } := by
  unfold advance
  -- Of the entry before, only its text and the comment after it are looked at.
  cases form.arrangement with
  | horizontal => cases side <;> rfl
  | vertical => by_cases none : writer.text = [] <;> simp [none]
  | mixed =>
      have same (width : Nat) :
          { writer with previous := some (side.place column entry) }.breaksBefore form next width =
            { writer with previous := some (side.place other entry) }.breaksBefore form next width := by
        cases side <;> rfl
      simp only [same]
      split
      · rfl
      · by_cases used : 0 < writer.lineWidth <;> simp [used]

theorem putBefore_previous (form : ListForm) (next : Entry) (width : Nat) (writer : ListWriter)
    (previous : Option Entry) :
    { writer with previous }.putBefore form next width =
      { writer.putBefore form next width with previous } := by
  unfold putBefore
  split
  · rfl
  · rfl
  · simp only
    split
    · rfl
    · split <;> rfl

theorem put_previous (form : ListForm) (last : Bool) (entry next : Entry) (writer : ListWriter) :
    { writer with previous := some (side.place column entry) }.put form last next =
      { writer with previous := some (side.place other entry) }.put form last next := by
  unfold put
  simp only
  rw [advance_previous form entry next _ writer, putBefore_previous]

theorem putAll_place (form : ListForm) (agree : Agree side entry column other) (rest : List Entry)
    (writer : ListWriter) :
    (writer.putAll form (side.place column entry :: rest)).text =
      (writer.putAll form (side.place other entry :: rest)).text := by
  rw [putAll, putAll, put_place form agree]
  cases rest with
  | nil => rfl
  | cons next rest =>
      rw [putAll, putAll, put_previous]
      rfl

theorem ne_nil_of_several {comment : Text} (several : '\n' ∈ comment.trim) : comment ≠ [] := by
  rintro rfl
  cases several

theorem putBefore_several {comment : Text} (before : entry.before = some comment)
    (several : '\n' ∈ comment.trim) (width : Nat) :
    (writer.putBefore form entry width).text =
      writer.text ++ Comment.reindent form.margin entry.beforeColumn comment ++
        if entry.text = [] then [] else form.newLine := by
  have broken := Comment.mem_reindent several form.margin entry.beforeColumn
  by_cases none : entry.text = []
  · rw [if_pos none, List.append_nil]
    obtain ⟨c, rest, rfl⟩ := List.exists_cons_of_ne_nil (ne_nil_of_several several)
    simp only [putBefore, before, if_pos none]
  · rw [if_neg none, putBefore_text before (ne_nil_of_several several) none, if_neg]
    simp [keepsInline, broken]

theorem put_several (vertical : form.arrangement = .vertical) {comment : Text}
    (found : side.comment entry = some comment) (several : '\n' ∈ comment.trim) :
    ∃ front back, ∀ column : Nat,
      ((start form).put form true (side.place column entry)).text =
        front ++ Comment.reindent form.margin (some column) comment ++ back := by
  have step (entry : Entry) :
      ((start form).put form true entry).text =
        ((start form).putBefore form entry ((start form).separatorWidth form true)).text ++ entry.text ++
          ending form entry (start form).trailing ++ blankLine form entry true := by
    have first (width : Nat) : (start form).advance form entry width = start form := by
      simp [advance, vertical, start]
    simp [put, vertical, first, separatorWidth]
  cases side with
  | before =>
      refine ⟨[], (if entry.text = [] then [] else form.newLine) ++ entry.text ++
        ending form entry (start form).trailing ++ blankLine form entry true, fun column => ?_⟩
      have before : (Side.before.place column entry).before = some comment := found
      rw [step, putBefore_several before several]
      simp only [List.append_assoc]
      rfl
  | after =>
      refine ⟨((start form).putBefore form entry ((start form).separatorWidth form true)).text ++
        entry.text ++ (if (start form).trailing then form.mark else []) ++ [' '],
        blankLine form entry true, fun column => ?_⟩
      have apart : ¬(form.arrangement = .horizontal ∧ ¬ comment.isLineComment = true) := by
        simp [vertical]
      have after : (Side.after.place column entry).after = some comment := found
      rw [step, ending_of_some after (ne_nil_of_several several), if_neg apart]
      simp only [List.append_assoc]
      rfl

end ListWriter

namespace Side

variable {form : ListForm} {entry : Entry} {side : Side} {column other : Nat} {comment : Text}

theorem isSubstantial_place (found : side.comment entry = some comment) (more : comment ≠ [])
    (column : Nat) : (side.place column entry).isSubstantial = true := by
  cases side with
  | before =>
      have before : entry.before = some comment := found
      simp [place, Entry.isSubstantial, Entry.comments, before, more]
  | after =>
      have after : entry.after = some comment := found
      simp [place, Entry.isSubstantial, Entry.comments, after, more]

theorem write_place_iff (found : side.comment entry = some comment) (more : comment ≠ [])
    (column other : Nat) :
    (∀ (form : ListForm) (left right : List Entry),
        form.write (left ++ side.place column entry :: right) =
          form.write (left ++ side.place other entry :: right)) ↔
      ∀ line ∈ comment.trim.lines.tail, line.trim ≠ [] →
        min line.leading column = min line.leading other := by
  have kept (column : Nat) := isSubstantial_place found more column
  constructor
  · intro same
    by_cases several : '\n' ∈ comment.trim
    · -- A list of this entry alone, with lines of their own, tells them apart.
      let form : ListForm := { frame := { width := 0 }, arrangement := .vertical }
      have vertical : form.arrangement = .vertical := rfl
      obtain ⟨front, back, text⟩ := ListWriter.put_several vertical found several
      have alone (column : Nat) : form.write ([] ++ [side.place column entry]) =
          front ++ Comment.reindent form.margin (some column) comment ++ back := by
        rw [ListForm.write, List.nil_append, List.filter_cons_of_pos (kept column), ← text column]
        rfl
      have equal := same form [] []
      rw [alone, alone, List.append_left_inj, List.append_right_inj] at equal
      exact (Comment.reindent_eq_iff form.not_mem_margin comment column other).mp equal
    · rw [Text.lines_of_not_mem several]
      intro line mem
      cases mem
  · intro lines form left right
    have agree : ListWriter.Agree side entry column other := by
      intro own mem margin flat
      obtain rfl : own = comment := Option.some.inj (mem.symm.trans found)
      exact (Comment.reindent_eq_iff flat own column other).mpr lines
    rw [ListForm.write, ListForm.write, List.filter_append, List.filter_append,
      List.filter_cons_of_pos (kept column), List.filter_cons_of_pos (kept other),
      ListWriter.putAll_append_cons, ListWriter.putAll_append_cons]
    exact ListWriter.putAll_place form agree _ _

variable {doc : Document} {inner outer : Span} {window : Option Span}

theorem read_eq (side : Side)
    (inside : ∀ span ∈ window, span.stop ≤ doc.source.length) (text : Text) (span : Span)
    (placement : Placement) (blankAfter : Bool) (comment : Text) :
    ∃ entry : Entry, side.comment entry = some comment ∧
      ∀ own : Span, own.stop ≤ doc.source.length → (doc.source.slice own).trim = comment →
        side.read doc text span own window placement blankAfter =
          .ok (side.place (doc.source.column own.start) entry) := by
  have inside : ∀ span ∈ window.toList, span.stop ≤ doc.source.length := by
    intro span mem
    exact inside span (Option.mem_toList.mp mem)
  cases side with
  | before =>
      refine ⟨{ text, before := some comment, placement,
                after := window.map fun window => (doc.source.slice window).trim, span, blankAfter,
                afterColumn := window.map fun window => (doc.source.column window.start : Int) },
        rfl, ?_⟩
      rintro own within rfl
      rw [read, Entry.ofSource_of_inside]
      · rfl
      · exact List.forall_mem_cons.mpr ⟨within, inside⟩
  | after =>
      refine ⟨{ text, before := window.map fun window => (doc.source.slice window).trim, placement,
                after := some comment, span, blankAfter,
                beforeColumn := window.map fun window => (doc.source.column window.start : Int) },
        rfl, ?_⟩
      rintro own within rfl
      rw [read, Entry.ofSource_of_inside]
      · rfl
      · exact List.forall_mem_append.mpr ⟨inside, List.forall_mem_singleton.mpr within⟩

theorem write_padded_iff (side : Side) (padded : Padded doc.source inner outer)
    (inside : ∀ span ∈ window, span.stop ≤ doc.source.length) (text : Text) (span : Span)
    (placement : Placement) (blankAfter : Bool) :
    let own := doc.source.column inner.start
    let wide := doc.source.column outer.start
    ∃ entry : Entry, side.comment entry = some (doc.source.slice inner) ∧
      side.read doc text span inner window placement blankAfter = .ok (side.place own entry) ∧
      side.read doc text span outer window placement blankAfter = .ok (side.place wide entry) ∧
      own = Text.endColumn wide (doc.source.slice ⟨outer.start, inner.start, padded.starts⟩) ∧
      ((∀ (form : ListForm) (left right : List Entry),
          form.write (left ++ side.place own entry :: right) =
            form.write (left ++ side.place wide entry :: right)) ↔
        ∀ line ∈ (doc.source.slice inner).lines.tail, line.trim ≠ [] →
          min line.leading own = min line.leading wide) := by
  intro own wide
  obtain ⟨entry, found, reads⟩ := side.read_eq inside text span placement blankAfter
    (doc.source.slice inner)
  refine ⟨entry, found, ?_, ?_, padded.column_inner, ?_⟩
  · exact reads inner (Nat.le_trans padded.stops padded.inside) padded.trim_inner
  · exact reads outer padded.inside padded.trim_outer
  · have lists := write_place_iff found padded.shown own wide
    rwa [padded.trim_inner] at lists

theorem write_padded_one_blank :
    let doc : Document := { source := "x  /* a\n b */ ".toList }
    let inner : Span := .ofLength 3 10
    let outer : Span := .ofLength 1 13
    let read (window : Span) :=
      Entry.ofSource doc ['x'] (.ofLength 0 1) none (some window) .sameLine false
    Padded doc.source inner outer ∧
      ∃ entry : Entry, entry.after = some "/* a\n b */".toList ∧
        read inner = .ok { entry with afterColumn := some 3 } ∧
        read outer = .ok { entry with afterColumn := some 1 } ∧
        ∀ (form : ListForm) (left right : List Entry),
          form.write (left ++ { entry with afterColumn := some 3 } :: right) =
            form.write (left ++ { entry with afterColumn := some 1 } :: right) := by
  intro doc inner outer read
  have comment : doc.source.slice inner = "/* a\n b */".toList := by decide +kernel
  have first : (doc.source.slice inner).head? = some '/' := by decide +kernel
  have trimmed : (doc.source.slice inner).trim = doc.source.slice inner := by decide +kernel
  have padded : Padded doc.source inner outer :=
    { starts := by decide
      stops := by decide
      inside := by decide +kernel
      before := List.all_eq_true.mp (by decide +kernel)
      behind := List.all_eq_true.mp (by decide +kernel)
      shown := by
        rw [comment]
        decide +kernel
      opens := by
        intro c mem
        rw [first] at mem
        obtain rfl := Option.some.inj mem
        decide
      ends := trimmed ▸ Text.endsInk_trim _ }
  have inside : ∀ span ∈ (none : Option Span), span.stop ≤ doc.source.length := by simp
  obtain ⟨entry, found, narrow, wide, -, lists⟩ :=
    write_padded_iff .after padded inside ['x'] (.ofLength 0 1) .sameLine false
  have here : doc.source.column inner.start = 3 := by decide +kernel
  have there : doc.source.column outer.start = 1 := by decide +kernel
  rw [here, there] at lists
  rw [here] at narrow
  rw [there] at wide
  refine ⟨padded, entry, ?_, narrow, wide, lists.mpr ?_⟩
  · rw [← comment]
    exact found
  · have lines : (doc.source.slice inner).lines.tail = [" b */".toList] := by decide +kernel
    rw [lines]
    intro line mem _
    obtain rfl := List.mem_singleton.mp mem
    decide +kernel

theorem write_padded_differs :
    let doc : Document := { source := "  /* a\n     b */ x".toList }
    let inner : Span := .ofLength 2 14
    let outer : Span := .ofLength 0 16
    let form : ListForm := { frame := { width := 40 }, arrangement := .vertical }
    let written (window : Span) :=
      (Entry.ofSource doc ['x'] (.ofLength 17 1) (some window) none .differentLine false).map fun entry =>
        (entry.before, entry.beforeColumn, form.write [entry])
    doc.source.slice outer = "  ".toList ++ doc.source.slice inner ∧
      written inner = .ok (some "/* a\n     b */".toList, some 2, "/* a\n   b */\nx".toList) ∧
      written outer = .ok (some "/* a\n     b */".toList, some 0, "/* a\n     b */\nx".toList) := by
  intro doc inner outer form written
  exact ⟨by decide +kernel, eq_ok_of_toOption (by decide +kernel), eq_ok_of_toOption (by decide +kernel)⟩

end Side

end ItemLayout
