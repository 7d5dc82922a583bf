import ItemLayout.Proofs.Comment.Reindent

namespace ItemLayout

/-! ## Lines behind a margin -/

namespace Comment

/-- A line behind a margin, without the first `column` of its own leading blanks. A blank line is
empty. -/
def rebase (margin : Text) (column : Nat) (line : Text) : Text :=
  if line.trim = [] then [] else margin ++ (line.takeWhile isBlank).drop column ++ line.trim

section

variable {margin line : Text} (column : Nat)

theorem rebase_of_shown (margin : Text) (shown : line.trim ≠ []) :
    rebase margin column line = margin ++ (line.takeWhile isBlank).drop column ++ line.trim :=
  if_neg shown

theorem blank_rebase (blank : Blank margin) (line : Text) :
    Blank (margin ++ (line.takeWhile isBlank).drop column) := by
  exact blank.append fun c mem => line.blank_takeWhile c (List.mem_of_mem_drop mem)

theorem trim_rebase (blank : Blank margin) (line : Text) :
    (rebase margin column line).trim = line.trim := by
  unfold rebase
  split
  · rename_i none
    exact none.symm
  · rw [Text.trim_blank_append (blank_rebase column blank line), Text.trim_trim]

theorem endsInk_rebase (margin line : Text) : EndsInk (rebase margin column line) := by
  unfold rebase
  split
  · simp [EndsInk]
  · rename_i shown
    exact (Text.endsInk_trim line).append shown

theorem not_mem_rebase {c : Char} (outside : c ∉ margin) (absent : c ∉ line) :
    c ∉ rebase margin column line := by
  unfold rebase
  split
  · exact List.not_mem_nil
  · rw [List.mem_append, List.mem_append]
    rintro ((mem | mem) | mem)
    · exact outside mem
    · exact absent ((List.takeWhile_prefix isBlank).subset (List.mem_of_mem_drop mem))
    · exact absent (Text.mem_of_mem_trim mem)

theorem leading_rebase (blank : Blank margin) (shown : line.trim ≠ []) :
    (rebase margin column line).leading = margin.length + (line.leading - column) := by
  rw [rebase_of_shown column margin shown, Text.leading,
    Text.takeWhile_blank_append_trim (blank_rebase column blank line), List.length_append,
    List.length_drop]
  rfl

theorem rebase_at_base {base : Nat} (least : line.leading = base) (shown : line.trim ≠ []) :
    rebase margin base line = margin ++ line.trim := by
  rw [rebase_of_shown base margin shown, List.drop_eq_nil_of_le (Nat.le_of_eq least), List.append_nil]

theorem rebase_rebase (blank : Blank margin) (line : Text) :
    rebase margin margin.length (rebase margin column line) = rebase margin column line := by
  by_cases none : line.trim = []
  · simp [rebase, none, Text.trim_eq_nil_iff, Blank]
  · have shown : (rebase margin column line).trim ≠ [] := by rwa [trim_rebase column blank]
    rw [rebase_of_shown _ margin shown, trim_rebase column blank, rebase_of_shown column margin none,
      Text.takeWhile_blank_append_trim (blank_rebase column blank line), List.drop_left]

theorem moveLine_trimRight (margin line : Text) :
    moveLine margin column line.trimRight = rebase margin column line := by
  unfold moveLine rebase
  by_cases none : line.trim = []
  · rw [if_pos none, if_pos (Text.trimRight_eq_nil_iff.mpr none)]
  · rw [if_neg none, if_neg fun empty => none (Text.trimRight_eq_nil_iff.mp empty)]
    have lead := line.blank_takeWhile
    generalize split : line.takeWhile isBlank = own at lead
    have right : line.trimRight = own ++ line.trim := by
      rw [← split]
      exact Text.trimRight_eq_append none
    have leading : line.trimRight.leading = own.length := by
      rw [right, Text.leading, Text.takeWhile_blank_append_trim lead]
    have least : min (own.length : Int) column = (min own.length column : Nat) := by omega
    rw [leading, least, Text.dropFrom, if_pos (Int.natCast_nonneg _), Int.toNat_natCast, right,
      List.drop_append_of_le_length (Nat.min_le_left _ _), List.append_assoc]
    congr 2
    rcases Nat.le_total own.length column with short | long
    · rw [Nat.min_eq_left short, List.drop_length, List.drop_eq_nil_of_le short]
    · rw [Nat.min_eq_right long]

end

/-! ## The column from which lines are moved -/

/-- The column that is known, or the least margin of the lines that are not blank. -/
def IsBase (lines : List Text) (base : Nat) : Option Int → Prop
  | some column => column = base
  | none => (∃ line ∈ lines, line.trim ≠ [] ∧ line.leading = base) ∧
      ∀ line ∈ lines, line.trim ≠ [] → base ≤ line.leading

variable {lines : List Text} {base : Nat}

theorem IsBase.unique {other : Nat} (first : IsBase lines base none) (second : IsBase lines other none) :
    base = other := by
  obtain ⟨⟨line, mem, shown, least⟩, below⟩ := first
  obtain ⟨⟨line', mem', shown', least'⟩, below'⟩ := second
  have one := below line' mem' shown'
  have two := below' line mem shown
  omega

theorem mem_margins {k : Nat} :
    k ∈ ((lines.map Text.trimRight).filter (· ≠ [])).map Text.leading ↔
      ∃ line ∈ lines, line.trim ≠ [] ∧ line.leading = k := by
  have leading {line : Text} (shown : line.trim ≠ []) : line.trimRight.leading = line.leading := by
    rw [Text.trimRight_eq_append shown, Text.leading,
      Text.takeWhile_blank_append_trim line.blank_takeWhile]
    rfl
  simp only [List.mem_map, List.mem_filter, decide_eq_true_eq]
  constructor
  · rintro ⟨_, ⟨⟨line, mem, rfl⟩, more⟩, rfl⟩
    have shown : line.trim ≠ [] := fun none => more (Text.trimRight_eq_nil_iff.mpr none)
    exact ⟨line, mem, shown, (leading shown).symm⟩
  · rintro ⟨line, mem, shown, rfl⟩
    have more : line.trimRight ≠ [] := fun none => shown (Text.trimRight_eq_nil_iff.mp none)
    exact ⟨line.trimRight, ⟨⟨line, mem, rfl⟩, more⟩, leading shown⟩

theorem isBase_commonMargin (shown : ∃ line ∈ lines, line.trim ≠ []) :
    IsBase lines (commonMargin (lines.map Text.trimRight)) none := by
  obtain ⟨line, mem, more⟩ := shown
  have own : line.leading ∈ ((lines.map Text.trimRight).filter (· ≠ [])).map Text.leading :=
    mem_margins.mpr ⟨line, mem, more, rfl⟩
  unfold commonMargin
  cases least : (((lines.map Text.trimRight).filter (· ≠ [])).map Text.leading).min? with
  | none =>
      rw [List.min?_eq_none_iff.mp least] at own
      cases own
  | some k =>
      obtain ⟨here, below⟩ := List.min?_eq_some_iff.mp least
      exact ⟨mem_margins.mp here, fun line mem shown =>
        below _ (mem_margins.mpr ⟨line, mem, shown, rfl⟩)⟩

/-! ## The lines of a moved comment -/

section

variable {comment first : Text} {others : List Text} (split : comment.trim.lines = first :: others)
include split

theorem not_mem_line {line : Text} (mem : line ∈ first :: others) : '\n' ∉ line :=
  Text.not_mem_of_mem_lines (split ▸ mem)

theorem not_mem_of_single (single : others = []) : '\n' ∉ comment.trim := by
  rw [← Text.joinLines_lines comment.trim, split, single, Text.joinLines, List.intercalate_singleton]
  exact not_mem_line split List.mem_cons_self

theorem exists_shown (several : others ≠ []) : ∃ line ∈ others, line.trim ≠ [] := by
  obtain ⟨init, last, rfl⟩ : ∃ init last, others = init ++ [last] :=
    ⟨_, _, (List.dropLast_concat_getLast several).symm⟩
  refine ⟨last, List.mem_append_right _ (List.mem_singleton.mpr rfl), fun none => ?_⟩
  have ends := Text.endsInk_trim comment
  rw [← Text.joinLines_lines comment.trim, split, ← List.cons_append, Text.joinLines,
    intercalate_concat _ _ (List.cons_ne_nil _ _)] at ends
  have blank : Blank (['\n'] ++ last) := .cons (by decide) (Text.trim_eq_nil_iff.mp none)
  cases ends.of_append.eq_nil blank

variable (several : others ≠ [])
include several

theorem reindent_of_lines (margin : Text) {column : Option Int} (known : ∀ n ∈ column, 0 ≤ n) :
    ∃ base, IsBase others base column ∧
      reindent margin column comment =
        Text.joinLines (first.trimRight :: others.map (rebase margin base)) := by
  have moved (base : Nat) : (others.map Text.trimRight).map (moveLine margin base) =
      others.map (rebase margin base) := by
    rw [List.map_map]
    exact List.map_congr_left fun line _ => moveLine_trimRight base margin line
  obtain ⟨second, others, rfl⟩ := List.exists_cons_of_ne_nil several
  cases column with
  | none =>
      refine ⟨_, isBase_commonMargin (exists_shown split several), ?_⟩
      rw [← moved]
      simp only [reindent, split]
      rfl
  | some n =>
      obtain ⟨base, rfl⟩ := Int.eq_ofNat_of_zero_le (known n rfl)
      refine ⟨base, rfl, ?_⟩
      rw [← moved]
      simp only [reindent, split]
      rfl

omit several in
theorem lines_rebased {margin : Text} (flat : '\n' ∉ margin) (base : Nat) :
    (Text.joinLines (first.trimRight :: others.map (rebase margin base))).lines =
      first.trimRight :: others.map (rebase margin base) := by
  refine Text.lines_joinLines (List.forall_mem_cons.mpr ⟨fun feed => ?_, ?_⟩) (List.cons_ne_nil _ _)
  · exact not_mem_line split List.mem_cons_self (Text.mem_of_mem_trimRight feed)
  · refine List.forall_mem_map.mpr fun line mem => not_mem_rebase base flat ?_
    exact not_mem_line split (List.mem_cons_of_mem _ mem)

end

variable {margin : Text} (blank : Blank margin) {column : Option Int} (known : ∀ n ∈ column, 0 ≤ n)
include blank known

theorem trim_reindent (comment : Text) :
    (reindent margin column comment).trim = reindent margin column comment := by
  have flow := reflow_reindent blank known comment
  have starts : (reindent margin column comment).trimLeft = reindent margin column comment := by
    have head := comment.takeWhile_trim
    cases whole : comment.trim with
    | nil =>
        rw [whole] at flow
        rw [flow.nil_left]
        rfl
    | cons c rest =>
        rw [whole] at flow head
        have ink : isBlank c = false := by simpa [List.takeWhile_cons] using head
        obtain ⟨rest', text, -⟩ := flow.cons_left ink
        rw [text, Text.trimLeft_cons _ ink]
  rw [Text.trim, starts, Text.trimRight_of_endsInk (endsInk_reindent blank known comment)]

/-! ## Moving twice -/

omit known in
theorem IsBase.rebase (is : IsBase lines base none) :
    IsBase (lines.map (Comment.rebase margin base)) margin.length none := by
  obtain ⟨⟨line, mem, shown, least⟩, below⟩ := is
  refine ⟨⟨_, List.mem_map_of_mem mem, ?_, ?_⟩, List.forall_mem_map.mpr fun line mem shown => ?_⟩
  · rwa [trim_rebase base blank]
  · rw [leading_rebase base blank shown, least, Nat.sub_self, Nat.add_zero]
  · rw [trim_rebase base blank] at shown
    rw [leading_rebase base blank shown]
    exact Nat.le_add_right _ _

omit known in
theorem IsBase.sub_leading (is : IsBase lines base none) {a b : Text} (mem : a ∈ lines)
    (mem' : b ∈ lines) (shown : a.trim ≠ []) (shown' : b.trim ≠ []) :
    ((Comment.rebase margin base a).leading : Int) - (Comment.rebase margin base b).leading =
      (a.leading : Int) - b.leading := by
  have far := is.2 a mem shown
  have far' := is.2 b mem' shown'
  rw [leading_rebase base blank shown, leading_rebase base blank shown']
  omega

theorem reindent_reindent (flat : '\n' ∉ margin) (comment : Text) {column' : Option Int}
    (known' : ∀ n ∈ column', 0 ≤ n)
    (stays : ∀ lines base base', IsBase lines base column →
      IsBase (lines.map (rebase margin base)) base' column' → base' = margin.length) :
    reindent margin column' (reindent margin column comment) = reindent margin column comment := by
  have trimmed := trim_reindent blank known comment
  obtain ⟨first, others, split⟩ : ∃ first others, comment.trim.lines = first :: others :=
    List.exists_cons_of_ne_nil (List.splitOn_ne_nil _ _)
  by_cases several : others = []
  · have single : '\n' ∉ comment.trim := not_mem_of_single split several
    rw [reindent_of_single single] at trimmed ⊢
    rw [reindent_of_single (by rwa [trimmed]), trimmed]
  · obtain ⟨base, is, text⟩ := reindent_of_lines split several margin known
    have again : (reindent margin column comment).trim.lines =
        first.trimRight :: others.map (rebase margin base) := by
      rw [trimmed, text, lines_rebased split flat]
    obtain ⟨base', is', text'⟩ := reindent_of_lines again (by simpa using several) margin known'
    obtain rfl := stays others base base' is is'
    have kept : (others.map (rebase margin base)).map (rebase margin margin.length) =
        others.map (rebase margin base) := by
      rw [List.map_map]
      exact List.map_congr_left fun line _ => rebase_rebase base blank line
    rw [text', kept, Text.trimRight_of_endsInk (Text.endsInk_trimRight first), text]

theorem reindent_again (flat : '\n' ∉ margin) (comment : Text) :
    reindent margin (some margin.length) (reindent margin column comment) =
      reindent margin column comment := by
  refine reindent_reindent blank known flat comment ?_ fun lines base base' _ is' => ?_
  · rintro _ ⟨⟩
    exact Int.natCast_nonneg _
  · exact (Int.ofNat.inj is').symm

omit known in
theorem reindent_again_unknown (flat : '\n' ∉ margin) (comment : Text) :
    reindent margin none (reindent margin none comment) = reindent margin none comment :=
  reindent_reindent blank (by simp) flat comment (by simp) fun _ _ _ is is' =>
    is'.unique (is.rebase blank)

omit blank in
theorem reindent_lines (style : Style) (frame : Frame) (comment : Text) :
    let margin := frame.indent.render style
    let lines := comment.trim.lines
    let out := (reindent margin column comment).lines
    out.length = lines.length ∧
    out.map Text.trim = lines.map Text.trim ∧
    out.head? = lines.head?.map Text.trimRight ∧
    (1 < out.length →
      (∀ line ∈ out, EndsInk line) ∧
      ∃ base, IsBase lines.tail base column ∧ out.tail = lines.tail.map (rebase margin base)) ∧
    (column = none → 1 < out.length →
      (∃ line ∈ out.tail, line.trim ≠ [] ∧ line = margin ++ line.trim) ∧
      ∀ a a' b b', (a, a') ∈ lines.tail.zip out.tail → (b, b') ∈ lines.tail.zip out.tail →
        a.trim ≠ [] → b.trim ≠ [] →
          (a'.leading : Int) - b'.leading = (a.leading : Int) - b.leading) := by
  intro margin lines out
  have blank : Blank margin := frame.indent.blank_render style
  have flat : '\n' ∉ margin := frame.indent.not_mem_render style
  obtain ⟨first, others, split⟩ : ∃ first others, lines = first :: others :=
    List.exists_cons_of_ne_nil (List.splitOn_ne_nil _ _)
  by_cases several : others = []
  · have single : '\n' ∉ comment.trim := not_mem_of_single split several
    have same : out = lines := by
      show (reindent margin column comment).lines = _
      rw [reindent_of_single single]
    have one : ¬1 < out.length := by simp [same, split, several]
    have ends : comment.trim.trimRight = comment.trim :=
      Text.trimRight_of_endsInk (Text.endsInk_trim comment)
    refine ⟨by rw [same], by rw [same], ?_, fun more => absurd more one, fun _ more => absurd more one⟩
    rw [same, show lines = [comment.trim] from Text.lines_of_not_mem single, List.head?_cons,
      Option.map_some, ends]
  obtain ⟨base, is, text⟩ := reindent_of_lines split several margin known
  have moved : out = first.trimRight :: others.map (rebase margin base) := by
    show (reindent margin column comment).lines = _
    rw [text, lines_rebased split flat]
  rw [moved, split]
  refine ⟨by simp, ?_, rfl, fun _ => ⟨?_, base, is, rfl⟩, ?_⟩
  · rw [List.map_cons, List.map_cons, Text.trim_trimRight, List.map_map]
    congr 1
    exact List.map_congr_left fun line _ => trim_rebase base blank line
  · exact List.forall_mem_cons.mpr ⟨Text.endsInk_trimRight first,
      List.forall_mem_map.mpr fun line _ => endsInk_rebase base margin line⟩
  · rintro rfl -
    constructor
    · obtain ⟨line, mem, shown, least⟩ := is.1
      refine ⟨rebase margin base line, List.mem_map_of_mem mem, ?_⟩
      rw [trim_rebase base blank, rebase_at_base least shown]
      exact ⟨shown, rfl⟩
    · intro a a' b b' first second shown shown'
      rw [List.tail_cons, List.tail_cons, ← List.map_prod_left_eq_zip] at first second
      obtain ⟨_, mem, equal⟩ := List.mem_map.mp first
      obtain ⟨rfl, rfl⟩ := Prod.mk.inj equal
      obtain ⟨_, mem', equal'⟩ := List.mem_map.mp second
      obtain ⟨rfl, rfl⟩ := Prod.mk.inj equal'
      exact is.sub_leading blank mem mem' shown shown'

omit blank known in
theorem reindent_lines_tabs :
    let margin := Indent.render { hardTabs := true } { block := 5, align := 1 }
    let comment : Text := " /* a \n      b\n \n    c */".toList
    let out := (reindent margin none comment).lines
    (∀ n ∈ (none : Option Int), 0 ≤ n) ∧
      out = ["/* a".toList, "\t    b".toList, [], "\t  c */".toList] ∧
      out.map Text.trim = comment.trim.lines.map Text.trim ∧
      ∃ base, IsBase comment.trim.lines.tail base none ∧
        out.tail = comment.trim.lines.tail.map (rebase margin base) := by
  intro margin comment out
  have known : ∀ n ∈ (none : Option Int), 0 ≤ n := by simp
  have lines : out = ["/* a".toList, "\t    b".toList, [], "\t  c */".toList] := by decide +kernel
  obtain ⟨-, texts, -, several, -⟩ := reindent_lines known { hardTabs := true }
    { width := 40, indent := { block := 5, align := 1 } } comment
  have more : 1 < out.length := by
    rw [lines]
    decide
  exact ⟨known, lines, texts, (several more).2⟩

omit blank in
theorem reindent_idempotent (style : Style) (frame : Frame) (comment : Text) :
    let margin := frame.indent.render style
    let moved := reindent margin column comment
    reindent margin (some margin.length) moved = moved ∧
      (column = none → reindent margin none moved = moved) := by
  intro margin moved
  have blank : Blank margin := frame.indent.blank_render style
  have flat : '\n' ∉ margin := frame.indent.not_mem_render style
  refine ⟨reindent_again blank known flat comment, ?_⟩
  rintro rfl
  exact reindent_again_unknown blank flat comment

omit blank known in
theorem reindent_idempotent_tabs :
    let margin := Indent.render { hardTabs := true } { block := 5, align := 1 }
    let comment : Text := "/* a\n b\n     c */".toList
    let moved := reindent margin (some 2) comment
    (∀ n ∈ some 2, (0 : Int) ≤ n) ∧
      moved = "/* a\n\t  b\n\t     c */".toList ∧
      reindent margin (some 3) moved = moved ∧
      reindent margin none (reindent margin none comment) = reindent margin none comment := by
  intro margin comment moved
  have known : ∀ n ∈ some 2, (0 : Int) ≤ n := by simp
  have none : ∀ n ∈ (none : Option Int), 0 ≤ n := by simp
  obtain ⟨again, -⟩ := reindent_idempotent known { hardTabs := true }
    { width := 40, indent := { block := 5, align := 1 } } comment
  obtain ⟨-, unknown⟩ := reindent_idempotent none { hardTabs := true }
    { width := 40, indent := { block := 5, align := 1 } } comment
  exact ⟨known, by decide +kernel, again, unknown rfl⟩

end Comment

end ItemLayout
