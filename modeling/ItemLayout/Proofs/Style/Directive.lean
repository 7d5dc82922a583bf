import ItemLayout.Proofs.Style.Override
import ItemLayout.Proofs.Text.Lines
import ItemLayout.Proofs.Text.Numeral

namespace ItemLayout

/-! ## Directive lines -/

namespace Directive

/-- A line that gives a value to a name. Blanks may stand everywhere but inside of the marker with the
name and of the value. -/
def Sets (line name value : Text) : Prop :=
  (name ≠ [] ∧ ∀ c ∈ name, isNamePart c = true) ∧ (value ≠ [] ∧ ∀ c ∈ value, isBlank c = false) ∧
    ∃ a b c d e : Text, Blank a ∧ Blank b ∧ Blank c ∧ Blank d ∧ Blank e ∧
      line = a ++ ['/', '/'] ++ b ++ marker ++ name ++ c ++ [':'] ++ d ++ value ++ e

theorem after?_eq_some_iff {start t rest : Text} :
    after? start t = some rest ↔ t = start ++ rest := by
  unfold after?
  constructor
  · intro found
    split at found
    · rename_i starts
      obtain ⟨behind, rfl⟩ := List.isPrefixOf_iff_prefix.mp starts
      rw [List.drop_left] at found
      rw [Option.some.inj found]
    · cases found
  · rintro rfl
    rw [if_pos (List.isPrefixOf_iff_prefix.mpr (List.prefix_append start rest)), List.drop_left]

theorem isNamePart_of_isBlank {c : Char} (blank : isBlank c = true) : isNamePart c = false := by
  apply Bool.eq_false_iff.mpr
  intro part
  simp only [isNamePart, isBlank, Bool.or_eq_true, Bool.and_eq_true, decide_eq_true_eq,
    beq_iff_eq] at part blank
  rcases part with ⟨low, high⟩ | rfl
  · have low : 'a'.toNat ≤ c.toNat := low
    have high : c.toNat ≤ 'z'.toNat := high
    simp only [Char.reduceToNat] at low high
    omega
  · simp at blank

theorem sets_of_read? {line name value : Text} (found : read? line = some (name, value)) :
    Sets line name value := by
  obtain ⟨comment, slashes, found⟩ := Option.bind_eq_some_iff.mp found
  obtain ⟨directive, marked, found⟩ := Option.bind_eq_some_iff.mp found
  obtain ⟨assigned, colon, found⟩ := Option.bind_eq_some_iff.mp found
  dsimp only at found
  split at found
  · rename_i valid
    obtain ⟨rfl, rfl⟩ := Prod.mk.inj (Option.some.inj found)
    obtain ⟨named, given, inked⟩ := valid
    rw [after?_eq_some_iff] at slashes marked colon
    obtain ⟨a, e, around, blankA, blankE⟩ := Text.trim_append_blanks line
    obtain ⟨b, before, blankB⟩ := Text.trimLeft_append_blanks comment
    obtain ⟨c, between, blankC⟩ :=
      Text.trimLeft_append_blanks (directive.drop (directive.takeWhile isNamePart).length)
    obtain ⟨d, behind, blankD⟩ := Text.trimLeft_append_blanks assigned
    refine ⟨⟨named, fun c mem => List.all_eq_true.mp List.all_takeWhile c mem⟩,
      ⟨given, fun c mem => ?_⟩, a, b, c, d, e, blankA, blankB, blankC, blankD, blankE, ?_⟩
    · simpa using List.all_eq_true.mp inked c mem
    · have split : directive = directive.takeWhile isNamePart ++
          directive.drop (directive.takeWhile isNamePart).length := by
        rw [Text.drop_length_takeWhile, List.takeWhile_append_dropWhile]
      rw [between, colon, behind] at split
      rw [slashes, before, marked, split] at around
      rw [around]
      simp only [List.append_assoc]
  · cases found

theorem takeWhile_name {name t : Text} (parts : ∀ c ∈ name, isNamePart c = true)
    (stops : ∀ c ∈ t.head?, isNamePart c = false) : (name ++ t).takeWhile isNamePart = name := by
  rw [List.takeWhile_append_of_pos parts]
  cases t with
  | nil => exact List.append_nil name
  | cons c t => rw [List.takeWhile_cons_of_neg (by simp [stops c rfl]), List.append_nil]

theorem read?_of_sets {line name value : Text} (sets : Sets line name value) :
    read? line = some (name, value) := by
  obtain ⟨⟨named, parts⟩, ⟨given, inked⟩, a, b, c, d, e, blankA, blankB, blankC, blankD, blankE,
    rfl⟩ := sets
  let assigned : Text := d ++ value
  let directive : Text := name ++ (c ++ ':' :: assigned)
  let comment : Text := b ++ (marker ++ directive)
  have whole : a ++ ['/', '/'] ++ b ++ marker ++ name ++ c ++ [':'] ++ d ++ value ++ e =
      a ++ ('/' :: '/' :: comment ++ e) := by
    simp [assigned, directive, comment]
  have last : EndsInk value := fun c mem => inked c (List.mem_of_getLast? mem)
  have trimmed : Text.trim ('/' :: '/' :: comment) = '/' :: '/' :: comment := by
    refine Text.trim_eq_self (fun c mem => ?_) ?_
    · obtain rfl := Option.some.inj mem
      rfl
    · have ends : '/' :: '/' :: comment =
          '/' :: '/' :: (b ++ (marker ++ (name ++ (c ++ ':' :: d)))) ++ value := by
        simp [assigned, directive, comment]
      rw [ends]
      exact last.append given
  have slashes : after? ['/', '/'] (Text.trim (a ++ ('/' :: '/' :: comment ++ e))) =
      some comment := by
    rw [after?_eq_some_iff, Text.trim_blank_append blankA, ← Text.trim_trimRight,
      Text.trimRight_append blankE, Text.trim_trimRight, trimmed]
    rfl
  have marked : after? marker comment.trimLeft = some directive := by
    rw [after?_eq_some_iff, Text.trimLeft_blank_append blankB]
    intro c mem
    obtain rfl := Option.some.inj mem
    rfl
  have stops : ∀ x ∈ (c ++ ':' :: assigned).head?, isNamePart x = false := by
    intro x mem
    cases c with
    | nil =>
        obtain rfl := Option.some.inj mem
        rfl
    | cons y c =>
        obtain rfl := Option.some.inj mem
        exact isNamePart_of_isBlank (blankC _ List.mem_cons_self)
  have word : directive.takeWhile isNamePart = name := takeWhile_name parts stops
  have colon : after? [':'] (Text.trimLeft (directive.drop name.length)) = some assigned := by
    rw [after?_eq_some_iff, List.drop_left, Text.trimLeft_blank_append blankC]
    · rfl
    · intro x mem
      obtain rfl := Option.some.inj mem
      rfl
  have text : assigned.trimLeft = value :=
    Text.trimLeft_blank_append blankD fun c mem => inked c (List.mem_of_head? mem)
  have clean : value.all (!isBlank ·) = true :=
    List.all_eq_true.mpr fun c mem => by rw [inked c mem]; rfl
  rw [whole]
  simp only [read?, slashes, marked, word, colon, text, bind, Option.bind]
  exact if_pos ⟨named, given, clean⟩

theorem read?_eq_some_iff {line name value : Text} :
    read? line = some (name, value) ↔ Sets line name value :=
  ⟨sets_of_read?, read?_of_sets⟩

/-! ## The directives of a source -/

def IsNote (line : Text) : Prop := line.trim = [] ∨ ['/', '/'] <+: line.trim

theorem collect_append {header tail : List Text} (notes : ∀ line ∈ header, IsNote line)
    (code : ∀ line ∈ tail.head?, ¬ IsNote line) :
    collect (header ++ tail) = header.filterMap read? := by
  induction header with
  | nil =>
      cases tail with
      | nil => rfl
      | cons line tail =>
          obtain ⟨shown, plain⟩ := not_or.mp (code line rfl)
          rw [List.nil_append, collect, if_neg shown, if_neg (mt List.isPrefixOf_iff_prefix.mp plain)]
          rfl
  | cons line header ih =>
      obtain ⟨note, notes⟩ := List.forall_mem_cons.mp notes
      rw [List.cons_append, collect, ih notes, List.filterMap_cons]
      rcases note with blank | comment
      · have none : read? line = none := by
          rw [read?, blank]
          rfl
        rw [if_pos blank, none]
      · have shown : line.trim ≠ [] := by
          intro blank
          rw [blank] at comment
          cases List.prefix_nil.mp comment
        rw [if_neg shown, if_pos (List.isPrefixOf_iff_prefix.mpr comment)]
        cases read? line <;> rfl

theorem collect_filter (lines : List Text) :
    collect (lines.filter (!·.isEmpty)) = collect lines := by
  induction lines with
  | nil => rfl
  | cons line lines ih =>
      cases line with
      | nil => exact ih
      | cons c line =>
          rw [List.filter_cons_of_pos rfl, collect, collect, ih]

theorem collect_splitLines (source : Text) :
    collect source.splitLines = collect source.fileLines := by
  rw [← collect_filter source.splitLines, source.filter_splitLines, collect_filter]

def entries (header : List Text) : Overrides :=
  (header.filterMap read?).map fun entry => (entry.1, .text entry.2)

theorem mem_names_entries {header : List Text} {name : Text} :
    name ∈ (entries header).names ↔ ∃ line ∈ header, ∃ value, Sets line name value := by
  simp only [entries, Overrides.names, List.map_map, List.mem_map, List.mem_filterMap,
    Function.comp_apply, ← read?_eq_some_iff]
  constructor
  · rintro ⟨⟨_, value⟩, ⟨line, mem, found⟩, rfl⟩
    exact ⟨line, mem, value, found⟩
  · rintro ⟨line, mem, value, found⟩
    exact ⟨(name, value), ⟨line, mem, found⟩, rfl⟩

theorem entries_append (before after : List Text) :
    entries (before ++ after) = entries before ++ entries after := by
  rw [entries, List.filterMap_append, List.map_append]
  rfl

theorem lookup_entries {before after : List Text} {line name value : Text}
    (sets : Sets line name value) (last : ∀ later ∈ after, ∀ other, ¬ Sets later name other) :
    (entries (before ++ line :: after)).reverse.lookup name = some (.text value) := by
  have missing : name ∉ Overrides.names (entries after).reverse := by
    rw [Overrides.names, List.map_reverse, List.mem_reverse]
    intro mem
    obtain ⟨later, behind, other, sets'⟩ := mem_names_entries.mp mem
    exact last later behind other sets'
  have first : entries (line :: after) = (name, .text value) :: entries after := by
    rw [entries, List.filterMap_cons, read?_eq_some_iff.mpr sets]
    rfl
  rw [entries_append, first, List.reverse_append, List.reverse_cons, List.append_assoc,
    List.lookup_append, Overrides.lookup_eq_none missing]
  exact List.lookup_cons_self

theorem ofDirectives_eq {source : Text} {header tail : List Text}
    (lines : source.splitLines = header ++ tail) (notes : ∀ line ∈ header, IsNote line)
    (code : ∀ line ∈ tail.head?, ¬ IsNote line) :
    Overrides.ofDirectives source = .ofList (entries header) := by
  rw [Overrides.ofDirectives, ← collect_splitLines, lines, collect_append notes code]
  rfl

end Directive

/-! ## What a value is spelled like -/

theorem Packing.find?_label (packing : Packing) :
    Labelled.find? (Labelled.label packing) = some packing := by
  cases packing <;> decide +kernel

theorem IndentStyle.find?_label (indent : IndentStyle) :
    Labelled.find? (Labelled.label indent) = some indent := by
  cases indent <;> decide +kernel

theorem TrailingPolicy.find?_label (policy : TrailingPolicy) :
    Labelled.find? (Labelled.label policy) = some policy := by
  cases policy <;> decide +kernel

namespace Style

def SaysTruth (b : Bool) (t : Text) : Prop :=
  t.map Char.toLower = if b then ['t', 'r', 'u', 'e'] else ['f', 'a', 'l', 's', 'e']

def Spells (style : Style) : Key → Text → Prop
  | .maxWidth, t => Numeral.Spells t style.maxWidth
  | .tabSpaces, t => Numeral.Spells t style.tabSpaces
  | .hardTabs, t => SaysTruth style.hardTabs t
  | .importsLayout, t => t = Labelled.label style.importsLayout
  | .importsIndent, t => t = Labelled.label style.importsIndent
  | .trailingComma, t => t = Labelled.label style.trailingComma
  | .inlineComments, t => SaysTruth style.inlineComments t

theorem readInt_of_spells (key : Key) {t : Text} {n : Int} (spells : Numeral.Spells t n)
    (inked : ∀ c ∈ t, isBlank c = false) : readInt key (.text t) = .ok n := by
  rw [readInt, Numeral.read?_of_spells spells inked]

theorem readBool_of_saysTruth (key : Key) {t : Text} {b : Bool} (spelled : SaysTruth b t) :
    readBool key (.text t) = .ok b := by
  have found : truth? t = some b := by
    unfold truth?
    cases b with
    | true => exact if_pos spelled
    | false =>
        have other : t.map Char.toLower ≠ ['t', 'r', 'u', 'e'] := by
          rw [spelled]
          decide
        rw [if_neg other]
        exact if_pos spelled
  rw [readBool, found]

theorem readLabel_label {α : Type} [Labelled α] (key : Key) {a : α}
    (found : Labelled.find? (Labelled.label a) = some a) :
    readLabel key (.text (Labelled.label a)) = .ok a := by
  rw [readLabel, found]

theorem read_of_spells {style : Style} {key : Key} {t : Text} (spells : style.Spells key t)
    (inked : ∀ c ∈ t, isBlank c = false) : Change.read key (.text t) = .ok (style.value key) := by
  cases key with
  | maxWidth => exact congrArg (Change.maxWidth <$> ·) (readInt_of_spells _ spells inked)
  | tabSpaces => exact congrArg (Change.tabSpaces <$> ·) (readInt_of_spells _ spells inked)
  | hardTabs => exact congrArg (Change.hardTabs <$> ·) (readBool_of_saysTruth _ spells)
  | inlineComments => exact congrArg (Change.inlineComments <$> ·) (readBool_of_saysTruth _ spells)
  | importsLayout =>
      obtain rfl := spells
      exact congrArg (Change.importsLayout <$> ·) (readLabel_label _ (Packing.find?_label _))
  | importsIndent =>
      obtain rfl := spells
      exact congrArg (Change.importsIndent <$> ·) (readLabel_label _ (IndentStyle.find?_label _))
  | trailingComma =>
      obtain rfl := spells
      exact congrArg (Change.trailingComma <$> ·) (readLabel_label _ (TrailingPolicy.find?_label _))

theorem withDirectives_eq (base style : Style) (source : Text) (header tail : List Text)
    (valid : style.Valid) (lines : source.splitLines = header ++ tail)
    (notes : ∀ line ∈ header, line.trim = [] ∨ ['/', '/'] <+: line.trim)
    (known : ∀ line ∈ header, ∀ name value, Directive.Sets line name value →
      ∃ key : Key, Labelled.label key = name)
    (last : ∀ key : Key, ∃ before line after value, header = before ++ line :: after ∧
      Directive.Sets line (Labelled.label key) value ∧ style.Spells key value ∧
      ∀ later ∈ after, ∀ other, ¬ Directive.Sets later (Labelled.label key) other)
    (code : ∀ line ∈ tail.head?, line.trim ≠ [] ∧ ¬ ['/', '/'] <+: line.trim) :
    base.withDirectives source = .ok style := by
  have stops : ∀ line ∈ tail.head?, ¬ Directive.IsNote line :=
    fun line mem note => note.elim (code line mem).1 (code line mem).2
  rw [withDirectives, Directive.ofDirectives_eq lines notes stops,
    override_eq_ok_iff (Overrides.distinct_ofList _)]
  refine ⟨?_, fun key => ?_, valid⟩
  · intro name mem
    obtain ⟨line, among, value, sets⟩ :=
      Directive.mem_names_entries.mp (Overrides.mem_names_ofList.mp mem)
    exact known line among name value sets
  · obtain ⟨before, line, after, value, rfl, sets, spells, latest⟩ := last key
    rw [takes_of_some
      ((Overrides.lookup_ofList _ _).trans (Directive.lookup_entries sets latest))]
    exact read_of_spells spells sets.2.1.2

theorem withDirectives_eq_last_wins :
    let first := "// rsfmt-max_width: wide".toList
    let header : List Text :=
      [first, "//rsfmt-tab_spaces:3".toList, [], "// rsfmt-hard_tabs: TRUE".toList,
        "// rsfmt-imports_layout: Vertical".toList, "//\trsfmt-imports_indent : Visual ".toList,
        "// trailing_comma: Always".toList, "// rsfmt-trailing_comma: Never".toList,
        "// rsfmt-inline_comments: fAlse".toList, " // rsfmt-max_width: 80".toList]
    let tail : List Text := ["fn f".toList, first]
    let source : Text := ['\r', '\n'].intercalate (header ++ tail)
    let style : Style :=
      { maxWidth := 80, tabSpaces := 3, hardTabs := true, importsLayout := .vertical
        importsIndent := .visual, trailingComma := .never, inlineComments := false }
    (style.Valid ∧ source.splitLines = header ++ tail ∧
        Directive.Sets first (Labelled.label Key.maxWidth) "wide".toList ∧
        Directive.Sets " // rsfmt-max_width: 80".toList (Labelled.label Key.maxWidth) "80".toList ∧
        style.Spells .maxWidth "80".toList) ∧
      withDirectives {} source = .ok style := by
  intro first header tail source style
  -- Each line is read once; what is left to decide is about the list of what they give.
  let given : List (Option (Text × Text)) :=
    [some ("max_width".toList, "wide".toList), some ("tab_spaces".toList, "3".toList), none,
      some ("hard_tabs".toList, "TRUE".toList), some ("imports_layout".toList, "Vertical".toList),
      some ("imports_indent".toList, "Visual".toList), none,
      some ("trailing_comma".toList, "Never".toList),
      some ("inline_comments".toList, "fAlse".toList), some ("max_width".toList, "80".toList)]
  have reads : header.map Directive.read? = given := by decide +kernel
  have sets {i : Nat} {line name value : Text} (here : header[i]? = some line)
      (found : given[i]? = some (some (name, value))) : Directive.Sets line name value := by
    apply Directive.sets_of_read?
    rw [← reads, List.getElem?_map, here] at found
    exact Option.some.inj found
  have known : ∀ line ∈ header, ∀ name value, Directive.Sets line name value →
      ∃ key : Key, Labelled.label key = name := by
    have names :
        given.all (·.all fun entry => (Labelled.find? entry.1 : Option Key).isSome) = true := by
      decide +kernel
    intro line mem name value sets
    have among := List.mem_map_of_mem (f := Directive.read?) mem
    rw [reads, Directive.read?_of_sets sets] at among
    obtain ⟨key, found⟩ := Option.isSome_iff_exists.mp (List.all_eq_true.mp names _ among)
    exact ⟨key, label_of_find? found⟩
  have pick {key : Key} {line value : Text} (i : Nat) (here : header[i]? = some line)
      (found : given[i]? = some (some (Labelled.label key, value))) (spells : style.Spells key value)
      (latest : (given.drop (i + 1)).all (·.all (·.1 != Labelled.label key)) = true) :
      ∃ before line after value, header = before ++ line :: after ∧
        Directive.Sets line (Labelled.label key) value ∧ style.Spells key value ∧
        ∀ later ∈ after, ∀ other, ¬ Directive.Sets later (Labelled.label key) other := by
    obtain ⟨bound, itself⟩ := List.getElem?_eq_some_iff.mp here
    have split : header = header.take i ++ line :: header.drop (i + 1) := by
      rw [← itself, ← List.drop_eq_getElem_cons bound, List.take_append_drop]
    refine ⟨_, line, _, value, split, sets here found, spells, ?_⟩
    intro later mem other clash
    have among := List.mem_map_of_mem (f := Directive.read?) mem
    rw [List.map_drop, reads, Directive.read?_of_sets clash] at among
    exact absurd (List.all_eq_true.mp latest _ among) (by simp)
  have width : style.Spells .maxWidth "80".toList := Numeral.spells_toDigits (n := 80) (by decide)
  have step : style.Spells .tabSpaces "3".toList := Numeral.spells_toDigits (n := 3) (by decide)
  have tabs : style.Spells .hardTabs "TRUE".toList := rfl
  have inline : style.Spells .inlineComments "fAlse".toList := rfl
  have valid : style.Valid := ⟨by decide, by decide⟩
  have lines : source.splitLines = header ++ tail := by decide +kernel
  refine ⟨⟨valid, lines, @sets 0 _ _ _ rfl rfl, @sets 9 _ _ _ rfl rfl, width⟩, ?_⟩
  refine withDirectives_eq {} style source header tail valid lines (by decide +kernel) known ?_
    (by decide +kernel)
  intro key
  cases key with
  | maxWidth => exact pick 9 rfl rfl width (by decide +kernel)
  | tabSpaces => exact pick 1 rfl rfl step (by decide +kernel)
  | hardTabs => exact pick 3 rfl rfl tabs (by decide +kernel)
  | importsLayout => exact pick 4 rfl rfl rfl (by decide +kernel)
  | importsIndent => exact pick 5 rfl rfl rfl (by decide +kernel)
  | trailingComma => exact pick 7 rfl rfl rfl (by decide +kernel)
  | inlineComments => exact pick 8 rfl rfl inline (by decide +kernel)

end Style

end ItemLayout
