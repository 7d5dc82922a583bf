import ItemLayout.Proofs.ItemList.Layout
import ItemLayout.Proofs.ItemList.OneLine
import ItemLayout.Proofs.Text.Lines

namespace ItemLayout

/-! ## Chains -/

structure Link where
  text : Text
  glue : Text

def chain (links : List Link) : Text := links.flatMap fun link => link.text ++ link.glue

theorem chain_nil : chain [] = [] := rfl

theorem chain_cons (link : Link) (links : List Link) :
    chain (link :: links) = link.text ++ link.glue ++ chain links :=
  List.flatMap_cons

/-- Texts with a mark and white space between them. The last one is followed by `close`, with or without
a mark before it. -/
inductive Linked (mark close : Text) : List Text → List Link → Prop
  | nil : Linked mark close [] []
  | last (text : Text) (separated : Bool) :
      Linked mark close [text] [⟨text, (if separated then mark else []) ++ close⟩]
  | cons (text : Text) {white : Text} {texts : List Text} {links : List Link} (blank : White white)
      (apart : white ≠ []) (more : texts ≠ []) (rest : Linked mark close texts links) :
      Linked mark close (text :: texts) (⟨text, mark ++ white⟩ :: links)

theorem Linked.length_eq {mark close : Text} {texts : List Text} {links : List Link}
    (linked : Linked mark close texts links) : links.length = texts.length := by
  induction linked with
  | nil | last => rfl
  | cons _ _ _ _ _ ih => exact congrArg Nat.succ ih

theorem Linked.ne_nil {mark close : Text} {texts : List Text} {links : List Link}
    (linked : Linked mark close texts links) (more : texts ≠ []) : links ≠ [] := by
  rintro rfl
  exact more (List.length_eq_zero_iff.mp linked.length_eq.symm)

/-- In a chain that starts at a column, each line with two texts or more ends at the limit or before
it. -/
def Fits (limit : Nat) : Nat → List Link → Prop
  | _, [] => True
  | column, link :: rest =>
      ('\n' ∉ link.glue → rest ≠ [] →
        column + (link.text ++ link.glue ++ chain rest).firstLine.length ≤ limit) ∧
      Fits limit (Text.endColumn column (link.text ++ link.glue)) rest

theorem fits_singleton (limit column : Nat) (link : Link) : Fits limit column [link] :=
  ⟨fun _ more => absurd rfl more, trivial⟩

theorem fits_of_feeds {links : List Link} (feeds : ∀ link ∈ links.dropLast, '\n' ∈ link.glue)
    (limit column : Nat) : Fits limit column links := by
  induction links generalizing column with
  | nil => trivial
  | cons link rest ih =>
      by_cases none : rest = []
      · rw [none]
        exact fits_singleton limit column link
      · rw [List.dropLast_cons_of_ne_nil none] at feeds
        obtain ⟨first, feeds⟩ := List.forall_mem_cons.mp feeds
        exact ⟨fun flat => absurd first flat, ih feeds _⟩

theorem Fits.lineWidth_le {limit column : Nat} {lead : Text} {links : List Link}
    (fits : Fits limit (Text.endColumn column lead) links) {left right : List Link} {link : Link}
    (split : links = left ++ link :: right) (more : right ≠ []) (flat : '\n' ∉ link.glue) :
    (lead ++ chain links).lineWidth column (lead ++ chain left).length ≤ limit := by
  induction left generalizing lead links with
  | nil =>
      subst split
      obtain ⟨here, -⟩ := fits
      rw [chain_nil, List.append_nil, Text.lineWidth_append, List.nil_append, chain_cons]
      exact here flat more
  | cons first left ih =>
      subst split
      obtain ⟨-, later⟩ := fits
      rw [← Text.endColumn_append] at later
      have width := ih later rfl
      rw [List.append_assoc, ← chain_cons, List.append_assoc, ← chain_cons] at width
      exact width

theorem fits_of_length {limit column : Nat} {links : List Link}
    (room : column + (chain links).length ≤ limit) : Fits limit column links := by
  induction links generalizing column with
  | nil => trivial
  | cons link rest ih =>
      rw [chain_cons] at room
      constructor
      · intro flat more
        exact Nat.le_trans (Nat.add_le_add_left (Text.length_firstLine_le _) column) room
      · apply ih
        have ends := Text.endColumn_le_add column (link.text ++ link.glue)
        rw [List.length_append] at room
        omega

theorem firstLine_chain {text mark : Text} (flat : '\n' ∉ text ++ mark) (next : Text)
    (links : List Link) :
    (chain (⟨text, mark ++ next⟩ :: links)).firstLine =
      text ++ mark ++ (next ++ chain links).firstLine := by
  have regroup : chain (⟨text, mark ++ next⟩ :: links) = text ++ mark ++ (next ++ chain links) := by
    rw [chain_cons]
    simp only [List.append_assoc]
  rw [regroup, Text.firstLine_append_of_not_mem flat]

theorem Fits.cons {limit column : Nat} {text mark next : Text} {links : List Link}
    (flat : '\n' ∉ text ++ mark)
    (line : '\n' ∉ next →
      column + (text ++ mark).length + (next ++ chain links).firstLine.length ≤ limit)
    (rest : Fits limit (Text.endColumn (column + (text ++ mark).length) next) links) :
    Fits limit column (⟨text, mark ++ next⟩ :: links) := by
  constructor
  · intro open' more
    rw [← chain_cons, firstLine_chain flat, List.length_append, ← Nat.add_assoc]
    exact line fun feed => open' (List.mem_append_right mark feed)
  · rwa [← List.append_assoc, Text.endColumn_append, Text.endColumn_of_not_mem column flat]

/-! ## Entries without comments -/

structure Entry.Bare (entry : Entry) : Prop where
  shown : entry.text ≠ []
  single : '\n' ∉ entry.text
  before : entry.before = none
  after : entry.after = none

instance (entry : Entry) : Decidable entry.Bare :=
  decidable_of_iff
    (entry.text ≠ [] ∧ '\n' ∉ entry.text ∧ entry.before = none ∧ entry.after = none)
    ⟨fun ⟨shown, single, before, after⟩ => ⟨shown, single, before, after⟩,
      fun ⟨shown, single, before, after⟩ => ⟨shown, single, before, after⟩⟩

namespace Entry.Bare

variable {entry : Entry}

theorem compact (bare : entry.Bare) : entry.Compact :=
  ⟨bare.shown, by simp [Entry.comments, bare.before, bare.after]⟩

theorem inline (bare : entry.Bare) (form : ListForm) : form.inline entry = entry.text := by
  simp [ListForm.inline, bare.before, bare.after]

theorem width (bare : entry.Bare) : entry.width = entry.text.length := by
  simp [Entry.width, bare.before, bare.after, commentWidth]

end Entry.Bare

namespace ListForm

variable {form : ListForm}

theorem trails_iff (form : ListForm) (multiline : Bool) :
    form.trails multiline = true ↔
      form.trailing = .always ∨ form.trailing = .multilineOnly ∧ multiline = true := by
  unfold trails
  cases form.trailing <;> simp

theorem trails_mono {few many : Bool} (more : few = true → many = true)
    (trails : form.trails few = true) : form.trails many = true := by
  rw [trails_iff] at trails ⊢
  exact trails.imp_right fun ⟨policy, broken⟩ => ⟨policy, more broken⟩

theorem endColumn_newLine (form : ListForm) (column : Nat) :
    Text.endColumn column form.newLine = form.margin.length := by
  have last : form.newLine.lastLine = form.margin :=
    Text.lastLine_append_break [] form.not_mem_margin
  have broken : '\n' ∈ form.newLine := List.mem_cons_self
  rw [Text.endColumn, if_pos broken, last]

theorem white_divider (form : ListForm) {divider : Text}
    (place : divider = form.newLine ∨ divider = [' ']) : White divider ∧ divider ≠ [] := by
  rcases place with rfl | rfl
  · exact ⟨form.white_newLine, List.cons_ne_nil _ _⟩
  · exact ⟨white_space, List.cons_ne_nil _ _⟩

theorem firstLine_newLine (form : ListForm) (after : Text) :
    Text.firstLine (form.newLine ++ after) = [] :=
  rfl

end ListForm

namespace ListWriter

variable {form : ListForm} {entry : Entry} {writer : ListWriter}

theorem put_bare (form : ListForm) (writer : ListWriter) (bare : entry.Bare) (last : Bool) :
    ∃ separated,
      writer.put form last entry =
        { writer.advance form entry (writer.separatorWidth form last) with
          text := (writer.advance form entry (writer.separatorWidth form last)).text ++ entry.text ++
            (if separated then form.mark else []) ++ blankLine form entry last
          previous := some entry } ∧
      (last = false → separated = true) ∧
      (form.arrangement = .mixed → last = true → separated = form.trails (form.endsWithBreak ||
        (writer.advance form entry (writer.separatorWidth form last)).text.contains '\n')) := by
  have unchanged (width : Nat) (writer : ListWriter) :
      writer.putBefore form entry width = writer := by
    simp only [putBefore, bare.before]
  have mark (separated : Bool) :
      ending form entry separated = if separated then form.mark else [] := by
    simp only [ending, bare.after]
  refine ⟨_, by simp only [put, unchanged, mark]; rfl, ?_, ?_⟩
  · rintro rfl
    simp
  · rintro mixed rfl
    exact if_pos ⟨mixed, rfl⟩

/-! ## One line -/

theorem putAll_horizontal (horizontal : form.arrangement = .horizontal) {entries : List Entry}
    (bare : ∀ entry ∈ entries, entry.Bare) (more : entries ≠ [])
    (unclosed : writer.previous.any Entry.closesLine = false) (close : Text) :
    ∃ links,
      (writer.putAll form entries).text ++ close =
        writer.text ++ (if writer.previous.isSome then [' '] else []) ++ chain links ∧
      Linked form.mark close (entries.map Entry.text) links ∧
      ('\n' ∉ form.mark → '\n' ∈ chain links → '\n' ∈ close) ∧
      (chain links).length = oneLineWidth form.separator entries +
        (if writer.trailing then form.mark.length else 0) + close.length := by
  induction entries generalizing writer with
  | nil => exact absurd rfl more
  | cons entry rest ih =>
      obtain ⟨first, bare⟩ := List.forall_mem_cons.mp bare
      cases rest with
      | nil =>
          refine ⟨[⟨entry.text, (if writer.trailing then form.mark else []) ++ close⟩], ?_,
            .last entry.text writer.trailing, ?_, ?_⟩
          · rw [putAll_singleton, put_horizontal horizontal first.compact true unclosed, first.inline]
            simp [chain]
          · intro single
            cases writer.trailing <;> simp [chain, first.single, single]
          · cases writer.trailing with
            | false => simp [chain, oneLineWidth, first.width]
            | true =>
                simp [chain, oneLineWidth, first.width]
                omega
      | cons second rest =>
          have step := put_horizontal horizontal first.compact false unclosed
          have after : (writer.put form false entry).previous.any Entry.closesLine = false := by
            rw [step]
            exact first.compact.closesLine
          have trailing : (writer.put form false entry).trailing = writer.trailing := by rw [step]
          obtain ⟨links, text, linked, flat, width⟩ := ih bare (List.cons_ne_nil _ _) after
          refine ⟨⟨entry.text, form.mark ++ [' ']⟩ :: links, ?_,
            .cons entry.text white_space (by simp) (by simp) linked, ?_, ?_⟩
          · rw [putAll_cons_cons, text, step, first.inline, chain_cons]
            simp
          · intro single
            simpa [chain_cons, first.single, single] using flat single
          · rw [chain_cons, List.length_append, width, oneLineWidth_cons_cons, first.width, trailing]
            simp only [List.length_append, List.length_singleton, ListForm.mark]
            omega

/-! ## A line for each entry -/

theorem put_vertical (vertical : form.arrangement = .vertical) (bare : entry.Bare) (last : Bool)
    (started : writer.previous.isSome = true → writer.text ≠ []) :
    ∃ separated,
      (writer.put form last entry).text =
        writer.text ++ (if writer.previous.isSome then form.newLine else []) ++ entry.text ++
          (if separated then form.mark else []) ++ blankLine form entry last ∧
      (writer.put form last entry).previous = some entry ∧
      (last = false → separated = true) := by
  obtain ⟨separated, step, middle, -⟩ := put_bare form writer bare last
  refine ⟨separated, ?_, by rw [step], middle⟩
  rw [step]
  by_cases later : writer.previous.isSome = true
  · simp [advance, vertical, later, started later]
  · simp [advance, vertical, later]

theorem white_blankLine (form : ListForm) (entry : Entry) (last : Bool) :
    White (blankLine form entry last) := by
  unfold blankLine
  split
  · simp [White, isWhite, isBreak]
  · exact white_nil

theorem putAll_vertical (vertical : form.arrangement = .vertical) {entries : List Entry}
    (bare : ∀ entry ∈ entries, entry.Bare) (more : entries ≠ [])
    (started : writer.previous.isSome = true → writer.text ≠ []) (close : Text) :
    ∃ links,
      (writer.putAll form entries).text ++ close =
        writer.text ++ (if writer.previous.isSome then form.newLine else []) ++ chain links ∧
      Linked form.mark close (entries.map Entry.text) links ∧
      ∀ link ∈ links.dropLast, '\n' ∈ link.glue := by
  induction entries generalizing writer with
  | nil => exact absurd rfl more
  | cons entry rest ih =>
      obtain ⟨first, bare⟩ := List.forall_mem_cons.mp bare
      cases rest with
      | nil =>
          obtain ⟨separated, text, -, -⟩ := put_vertical vertical first true started
          refine ⟨[⟨entry.text, (if separated then form.mark else []) ++ close⟩], ?_,
            .last entry.text separated, by simp⟩
          rw [putAll_singleton, text, chain_cons, chain_nil]
          simp [blankLine]
      | cons second rest =>
          obtain ⟨separated, text, previous, middle⟩ := put_vertical vertical first false started
          obtain rfl := middle rfl
          have written : (writer.put form false entry).text ≠ [] := by simp [text, first.shown]
          obtain ⟨links, later, linked, feeds⟩ := ih bare (List.cons_ne_nil _ _) fun _ => written
          have broken : '\n' ∈ form.newLine := List.mem_cons_self
          refine ⟨⟨entry.text, form.mark ++ (blankLine form entry false ++ form.newLine)⟩ :: links, ?_,
            .cons entry.text ?_ ?_ (by simp) linked, ?_⟩
          · rw [putAll_cons_cons, later, text, previous, chain_cons]
            simp
          · exact (white_blankLine form entry false).append form.white_newLine
          · exact List.append_ne_nil_of_right_ne_nil _ (List.ne_nil_of_mem broken)
          · rw [List.dropLast_cons_of_ne_nil (linked.ne_nil (by simp)), List.forall_mem_cons]
            exact ⟨List.mem_append_right _ (List.mem_append_right _ broken), feeds⟩

/-! ## As many to a line as there is room for -/

theorem put_mixed_first (writer : ListWriter) (mixed : form.arrangement = .mixed)
    (bare : entry.Bare) (last : Bool) (unused : writer.lineWidth = 0)
    (none : writer.previous = none) :
    ∃ separated,
      (writer.put form last entry).text =
        writer.text ++ entry.text ++ (if separated then form.mark else []) ∧
      (last = false → separated = true) ∧
      (writer.put form last entry).lineWidth =
        entry.text.length + writer.separatorWidth form last := by
  obtain ⟨separated, step, middle, -⟩ := put_bare form writer bare last
  have inline (width : Nat) : writer.breaksBefore form entry width = false := by
    simp [breaksBefore, unused, none]
  refine ⟨separated, ?_, middle, ?_⟩
  · simp [step, advance, mixed, inline, unused, blankLine]
  · simp [step, advance, mixed, inline, unused, bare.width]

theorem put_mixed (mixed : form.arrangement = .mixed) (bare : entry.Bare) (last : Bool)
    (started : 0 < writer.lineWidth) :
    ∃ divider separated,
      (writer.put form last entry).text =
        writer.text ++ divider ++ entry.text ++ (if separated then form.mark else []) ∧
      (last = false → separated = true) ∧
      (last = true → separated = true → form.trails true = true) ∧
      (divider = form.newLine ∧
          (writer.put form last entry).lineWidth =
            entry.text.length + writer.separatorWidth form last ∨
        divider = [' '] ∧
          (writer.put form last entry).lineWidth =
            writer.lineWidth + 1 + (entry.text.length + writer.separatorWidth form last) ∧
          (writer.put form last entry).lineWidth ≤ form.frame.width) := by
  obtain ⟨separated, step, middle, exactly⟩ := put_bare form writer bare last
  have final : last = true → separated = true → form.trails true = true := by
    intro ends marked
    rw [exactly mixed ends] at marked
    exact ListForm.trails_mono (fun _ => rfl) marked
  have noLine : blankLine form entry last = [] := by simp [blankLine, mixed]
  rw [noLine, List.append_nil] at step
  generalize writer.separatorWidth form last = columns at step ⊢
  by_cases breaks : writer.breaksBefore form entry (entry.text.length + columns) = true
  · refine ⟨form.newLine, separated, ?_, middle, final, .inl ⟨rfl, ?_⟩⟩
    · simp [step, advance, mixed, breaks, bare.width]
    · simp [step, advance, mixed, breaks, bare.width]
  · have room : writer.lineWidth + 1 + (entry.text.length + columns) ≤ form.frame.width := by
      simp only [breaksBefore, Bool.or_eq_true, not_or, Bool.and_eq_true, decide_eq_true_eq,
        not_and, Nat.not_lt] at breaks
      exact breaks.1.1 started
    refine ⟨[' '], separated, ?_, middle, final, .inr ⟨rfl, ?_, ?_⟩⟩
    · simp [step, advance, mixed, breaks, started, bare.width]
    · simp [step, advance, mixed, breaks, started, bare.width]
    · simpa [step, advance, mixed, breaks, started, bare.width] using room

/-- Room beside the frame for what is not counted while a line is filled: the mark after the last
entry, and what closes the list. -/
def Spare (form : ListForm) (close : Text) (limit : Nat) : Prop :=
  0 < form.frame.width →
    form.margin.length + form.frame.width + (if form.trails true then form.mark.length else 0) +
      close.firstLine.length ≤ limit

theorem putAll_mixed (mixed : form.arrangement = .mixed) (single : '\n' ∉ form.mark)
    {entries : List Entry} (bare : ∀ entry ∈ entries, entry.Bare) (more : entries ≠ [])
    (started : 0 < writer.lineWidth) (close : Text) :
    ∃ divider links,
      (writer.putAll form entries).text ++ close = writer.text ++ divider ++ chain links ∧
      Linked form.mark close (entries.map Entry.text) links ∧
      (divider = form.newLine ∨ divider = [' ']) ∧
      ∀ limit column, Spare form close limit → column ≤ form.margin.length + writer.lineWidth →
        Fits limit (Text.endColumn column divider) links ∧
        ('\n' ∉ divider → column + (divider ++ chain links).firstLine.length ≤ limit) := by
  induction entries generalizing writer with
  | nil => exact absurd rfl more
  | cons entry rest ih =>
      obtain ⟨first, bare⟩ := List.forall_mem_cons.mp bare
      cases rest with
      | nil =>
          obtain ⟨divider, separated, text, -, final, place⟩ := put_mixed mixed first true started
          refine ⟨divider, [⟨entry.text, (if separated then form.mark else []) ++ close⟩], ?_,
            .last entry.text separated, place.imp And.left And.left, fun limit column spare counted =>
              ⟨fits_singleton limit _ _, ?_⟩⟩
          · rw [putAll_singleton, text, chain_cons, chain_nil]
            simp
          · intro inline
            obtain ⟨rfl, -⟩ | ⟨rfl, width, room⟩ := place
            · exact absurd List.mem_cons_self inline
            have mark : (if separated then form.mark else []).length ≤
                if form.trails true then form.mark.length else 0 := by
              cases separated with
              | false => exact Nat.zero_le _
              | true =>
                  rw [if_pos (final rfl rfl)]
                  exact Nat.le_refl _
            have flat : '\n' ∉ entry.text ++ if separated then form.mark else [] := by
              rw [List.mem_append, not_or]
              refine ⟨first.single, ?_⟩
              cases separated <;> simp [single]
            have limited := spare (Nat.lt_of_lt_of_le (by omega) room)
            rw [Text.firstLine_append_of_not_mem inline, firstLine_chain flat, chain_nil,
              List.append_nil, List.length_append, List.length_append, List.length_append,
              List.length_singleton]
            omega
      | cons second rest =>
          obtain ⟨divider, separated, text, middle, -, place⟩ := put_mixed mixed first false started
          obtain rfl := middle rfl
          have separator : writer.separatorWidth form false = form.mark.length := rfl
          have shown := List.length_pos_iff.mpr first.shown
          have counting : 0 < (writer.put form false entry).lineWidth := by omega
          obtain ⟨next, links, later, linked, nextPlace, fits⟩ :=
            ih bare (List.cons_ne_nil _ _) counting
          have flat : '\n' ∉ entry.text ++ form.mark := by
            rw [List.mem_append]
            exact not_or.mpr ⟨first.single, single⟩
          obtain ⟨white, apart⟩ := form.white_divider nextPlace
          refine ⟨divider, ⟨entry.text, form.mark ++ next⟩ :: links, ?_,
            .cons entry.text white apart (by simp) linked, place.imp And.left And.left,
            fun limit column spare counted => ?_⟩
          · rw [putAll_cons_cons, later, text, chain_cons]
            simp
          · -- Both after a line feed and after a space the line has been counted from the margin.
            have ends : Text.endColumn column divider + (entry.text ++ form.mark).length ≤
                form.margin.length + (writer.put form false entry).lineWidth := by
              rw [List.length_append]
              rcases place with ⟨rfl, width⟩ | ⟨rfl, width, -⟩
              · rw [form.endColumn_newLine]
                omega
              · rw [Text.endColumn_of_not_mem column (by simp), List.length_singleton]
                omega
            obtain ⟨restFits, line⟩ := fits limit _ spare ends
            refine ⟨Fits.cons flat line restFits, fun inline => ?_⟩
            obtain ⟨rfl, -⟩ | ⟨rfl, width, room⟩ := place
            · exact absurd List.mem_cons_self inline
            rw [Text.endColumn_of_not_mem column inline] at ends line
            rw [Text.firstLine_append_of_not_mem inline, firstLine_chain flat, List.length_append,
              List.length_append, ← Nat.add_assoc, ← Nat.add_assoc]
            rcases nextPlace with rfl | rfl
            · have limited := spare (Nat.lt_of_lt_of_le (by omega) room)
              rw [form.firstLine_newLine, List.length_nil]
              omega
            · exact line (by simp)

end ListWriter

/-! ## The text of a list -/

namespace ListForm

variable {form : ListForm} {entries : List Entry}

theorem write_horizontal (horizontal : form.arrangement = .horizontal)
    (bare : ∀ entry ∈ entries, entry.Bare) (more : entries ≠ []) (close : Text) :
    ∃ links, form.write entries ++ close = chain links ∧
      Linked form.mark close (entries.map Entry.text) links ∧
      ('\n' ∉ form.mark → '\n' ∈ chain links → '\n' ∈ close) ∧
      (chain links).length = oneLineWidth form.separator entries +
        (if form.trails false then form.mark.length else 0) + close.length := by
  have trailing : (ListWriter.start form).trailing = form.trails false := by
    rw [ListWriter.start, horizontal]
    rfl
  rw [write, Entry.filter_isSubstantial fun entry mem => (bare entry mem).shown, ← trailing]
  exact ListWriter.putAll_horizontal horizontal bare more rfl close

theorem write_vertical (vertical : form.arrangement = .vertical)
    (bare : ∀ entry ∈ entries, entry.Bare) (more : entries ≠ []) (close : Text) :
    ∃ links, form.write entries ++ close = chain links ∧
      Linked form.mark close (entries.map Entry.text) links ∧
      ∀ link ∈ links.dropLast, '\n' ∈ link.glue := by
  rw [write, Entry.filter_isSubstantial fun entry mem => (bare entry mem).shown]
  exact ListWriter.putAll_vertical vertical bare more (by simp [ListWriter.start]) close

theorem write_mixed (mixed : form.arrangement = .mixed) (single : '\n' ∉ form.mark)
    (bare : ∀ entry ∈ entries, entry.Bare) (more : entries ≠ []) (close : Text) :
    ∃ links, form.write entries ++ close = chain links ∧
      Linked form.mark close (entries.map Entry.text) links ∧
      ∀ limit column, ListWriter.Spare form close limit → column ≤ form.margin.length →
        Fits limit column links := by
  rw [write, Entry.filter_isSubstantial fun entry mem => (bare entry mem).shown]
  obtain ⟨first, rest, rfl⟩ := List.exists_cons_of_ne_nil more
  obtain ⟨bareFirst, bare⟩ := List.forall_mem_cons.mp bare
  cases rest with
  | nil =>
      obtain ⟨separated, text, -, -⟩ :=
        (ListWriter.start form).put_mixed_first mixed bareFirst true rfl rfl
      refine ⟨[⟨first.text, (if separated then form.mark else []) ++ close⟩], ?_,
        .last first.text separated, fun limit column _ _ => fits_singleton limit column _⟩
      rw [ListWriter.putAll_singleton, text, chain_cons, chain_nil]
      simp [ListWriter.start]
  | cons second rest =>
      obtain ⟨separated, text, middle, width⟩ :=
        (ListWriter.start form).put_mixed_first mixed bareFirst false rfl rfl
      obtain rfl := middle rfl
      have separator : (ListWriter.start form).separatorWidth form false = form.mark.length := rfl
      have shown := List.length_pos_iff.mpr bareFirst.shown
      have counting : 0 < ((ListWriter.start form).put form false first).lineWidth := by omega
      obtain ⟨next, links, later, linked, place, fits⟩ :=
        ListWriter.putAll_mixed mixed single bare (List.cons_ne_nil _ _) counting close
      have flat : '\n' ∉ first.text ++ form.mark := by
        rw [List.mem_append]
        exact not_or.mpr ⟨bareFirst.single, single⟩
      obtain ⟨white, apart⟩ := form.white_divider place
      refine ⟨⟨first.text, form.mark ++ next⟩ :: links, ?_,
        .cons first.text white apart (by simp) linked, fun limit column spare counted => ?_⟩
      · rw [ListWriter.putAll_cons_cons, later, text, chain_cons]
        simp [ListWriter.start]
      · obtain ⟨restFits, line⟩ := fits limit (column + (first.text ++ form.mark).length) spare
          (by rw [List.length_append]; omega)
        exact Fits.cons flat line restFits

theorem write_linked (form : ListForm) (single : '\n' ∉ form.mark)
    (bare : ∀ entry ∈ entries, entry.Bare) (more : entries ≠ []) (close : Text) :
    ∃ links, form.write entries ++ close = chain links ∧
      Linked form.mark close (entries.map Entry.text) links := by
  cases arranged : form.arrangement with
  | horizontal =>
      obtain ⟨links, text, linked, -⟩ := write_horizontal arranged bare more close
      exact ⟨links, text, linked⟩
  | vertical =>
      obtain ⟨links, text, linked, -⟩ := write_vertical arranged bare more close
      exact ⟨links, text, linked⟩
  | mixed =>
      obtain ⟨links, text, linked, -⟩ := write_mixed arranged single bare more close
      exact ⟨links, text, linked⟩

theorem write_ne_nil (form : ListForm) (bare : ∀ entry ∈ entries, entry.Bare)
    (more : entries ≠ []) : form.write entries ≠ [] := by
  obtain ⟨init, last, rfl⟩ : ∃ init last, entries = init ++ [last] :=
    ⟨_, _, (List.dropLast_concat_getLast more).symm⟩
  have final := bare last (by simp)
  rw [write, Entry.filter_isSubstantial fun entry mem => (bare entry mem).shown,
    ListWriter.putAll_concat]
  obtain ⟨separated, step, -, -⟩ :=
    ListWriter.put_bare form (init.foldl (ListWriter.put form false) (.start form)) final true
  rw [step]
  simp [final.shown]

end ListForm

/-! ## Brackets -/

theorem Entry.Bare.not_endsInLineComment {entries : List Entry}
    (bare : ∀ entry ∈ entries, entry.Bare) :
    entries.getLast?.any Entry.endsInLineComment = false := by
  cases last : entries.getLast? with
  | none => rfl
  | some entry =>
      have final := bare entry (List.mem_of_getLast? last)
      simp [Entry.endsInLineComment, final.after, final.shown]

theorem Document.layoutList_bare {doc : Document} {frame : Frame} {settings : ListSettings}
    {brackets : Brackets} {nested : Bool} {lineWidth : Int} {entries : List Entry} {form : ListForm}
    (formed : doc.listForm frame settings brackets nested (some lineWidth) entries = form)
    (bare : ∀ entry ∈ entries, entry.Bare) (more : entries ≠ []) :
    doc.layoutList frame settings brackets nested (some lineWidth) entries =
      if settings.indentStyle = .block ∧ ('\n' ∈ form.write entries ∨
          lineWidth < (form.write entries).length ∨ form.arrangement = .vertical) then
        brackets.opener ++ form.newLine ++ form.write entries ++ frame.indent.newLine doc.style ++
          brackets.closer
      else brackets.opener ++ form.write entries ++ brackets.closer := by
  have shown := form.write_ne_nil bare more
  have unclosed := Entry.Bare.not_endsInLineComment bare
  have arranged : form.arrangement =
      listArrangement frame settings brackets (some lineWidth) entries := by
    rw [← formed]
    exact settings.form_arrangement ..
  subst formed
  rw [layoutList, arranged]
  exact (if_neg shown).trans (by simp [unclosed]; rfl)

end ItemLayout
