import ItemLayout.ItemList.Arrangement
import ItemLayout.Proofs.Comment.Trivia

namespace ItemLayout

namespace Text

theorem isLineComment_iff {t : Text} :
    t.isLineComment = true ↔ ∃ front rest, t = front ++ '/' :: '/' :: rest ∧ Blank front := by
  constructor
  · intro line
    obtain ⟨rest, split⟩ := List.isPrefixOf_iff_prefix.mp line
    refine ⟨t.takeWhile isBlank, rest, ?_, t.blank_takeWhile⟩
    conv => lhs; rw [← List.takeWhile_append_dropWhile (p := isBlank) (l := t)]
    exact congrArg (_ ++ ·) split.symm
  · rintro ⟨front, rest, rfl, blank⟩
    rw [isLineComment, trimLeft, List.dropWhile_append_of_pos blank]
    rfl

theorem isLineComment_trim (t : Text) : t.trim.isLineComment = t.isLineComment := by
  rw [Bool.eq_iff_iff, isLineComment_iff, isLineComment_iff]
  constructor
  · rintro ⟨front, rest, core, blank⟩
    obtain ⟨tail, split, -⟩ := t.trimLeft.trimRight_append_blanks
    refine ⟨t.takeWhile isBlank ++ front, rest ++ tail, ?_, t.blank_takeWhile.append blank⟩
    calc
      t = t.takeWhile isBlank ++ t.trimLeft := List.takeWhile_append_dropWhile.symm
      _ = t.takeWhile isBlank ++ (t.trim ++ tail) := congrArg _ split
      _ = _ := by
        rw [core]
        simp only [List.append_assoc, List.cons_append]
  · rintro ⟨front, rest, rfl, blank⟩
    refine ⟨[], trimRight rest, ?_, by simp [Blank]⟩
    rw [trim, trimLeft, List.dropWhile_append_of_pos blank]
    change trimRight ('/' :: '/' :: rest) = _
    rw [trimRight_cons _ (by decide), trimRight_cons _ (by decide)]
    rfl

theorem isLineComment_of_not_mem {t : Text} (none : '/' ∉ t) : t.isLineComment = false := by
  rw [Bool.eq_false_iff]
  intro line
  obtain ⟨front, rest, rfl, -⟩ := isLineComment_iff.mp line
  exact none (by simp)

theorem takeWhile_append_of_not_mem {front : Text} {c : Char} (none : c ∉ front) (rest : Text) :
    (front ++ c :: rest).takeWhile (· != c) = front := by
  rw [List.takeWhile_append_of_pos]
  · simp
  · intro d mem
    rw [bne_iff_ne]
    rintro rfl
    exact none mem

theorem isLineComment_append {front : Text} (none : '/' ∉ front) (second : Char) (rest : Text) :
    (front ++ '/' :: second :: rest).isLineComment = true ↔ Blank front ∧ second = '/' := by
  rw [isLineComment_iff]
  constructor
  · rintro ⟨blanks, behind, split, blank⟩
    have slashless : '/' ∉ blanks := fun mem => absurd (blank _ mem) (by decide)
    -- Both sides are cut at their first slash.
    have same := congrArg (List.takeWhile (· != '/')) split
    rw [takeWhile_append_of_not_mem none, takeWhile_append_of_not_mem slashless] at same
    subst same
    have tails := List.append_cancel_left split
    exact ⟨blank, (List.cons.inj (List.cons.inj tails).2).1⟩
  · rintro ⟨blank, rfl⟩
    exact ⟨front, rest, rfl, blank⟩

end Text

/-! ## The first comment of trivia -/

namespace Trivia

variable {t : Text} {items : List Trivium}

theorem flatMap_text (trivia : Trivia t items) : items.flatMap Trivium.text = t := by
  induction trivia with
  | nil => rfl
  | spacing _ _ ih | pair _ ih | single _ _ _ ih | line _ _ _ ih | block _ _ ih =>
      rw [List.flatMap_cons, ih]
      rfl

theorem slash (trivia : Trivia t items) :
    ∀ item ∈ items, if item.isComment then
      ∃ second rest, item.text = '/' :: second :: rest ∧ (second = '/' ↔ item.isLine = true)
    else '/' ∉ item.text := by
  induction trivia with
  | nil => simp
  | @spacing c t items spacing _ ih =>
      refine List.forall_mem_cons.mpr ⟨?_, ih⟩
      have other : '/' ≠ c := by
        rintro rfl
        exact absurd spacing (by decide)
      simpa [Trivium.isComment, Trivium.text] using other
  | pair _ ih => exact List.forall_mem_cons.mpr ⟨by simp [Trivium.isComment, Trivium.text], ih⟩
  | @single c t items breaks _ _ ih =>
      refine List.forall_mem_cons.mpr ⟨?_, ih⟩
      have other : '/' ≠ c := by
        rintro rfl
        exact absurd breaks (by decide)
      simpa [Trivium.isComment, Trivium.text] using other
  | line _ _ _ ih | block _ _ ih =>
      refine List.forall_mem_cons.mpr ⟨?_, ih⟩
      simp [Trivium.isComment, Trivium.text, Trivium.isLine]

theorem slash_front {front rest : List Trivium} (trivia : Trivia t (front ++ rest))
    (white : ∀ item ∈ front, item.isComment = false) : '/' ∉ front.flatMap Trivium.text := by
  intro mem
  obtain ⟨item, here, inside⟩ := List.mem_flatMap.mp mem
  have none := trivia.slash item (List.mem_append_left rest here)
  rw [white item here] at none
  exact none inside

theorem isLineComment_of_white (trivia : Trivia t items)
    (white : ∀ item ∈ items, item.isComment = false) : t.isLineComment = false := by
  rw [← List.append_nil items] at trivia
  have none := trivia.slash_front white
  rw [← trivia.flatMap_text, List.append_nil]
  exact Text.isLineComment_of_not_mem none

theorem isLineComment_iff {front later : List Trivium} {item : Trivium}
    (trivia : Trivia t (front ++ item :: later))
    (white : ∀ item ∈ front, item.isComment = false) (comment : item.isComment = true) :
    t.isLineComment = true ↔ Blank (front.flatMap Trivium.text) ∧ item.isLine = true := by
  have slash := trivia.slash item (by simp)
  rw [if_pos comment] at slash
  obtain ⟨second, rest, starts, line⟩ := slash
  rw [← trivia.flatMap_text, List.flatMap_append, List.flatMap_cons, starts, List.cons_append,
    List.cons_append, Text.isLineComment_append (trivia.slash_front white), line]

end Trivia

theorem Trivium.exists_first_comment (items : List Trivium) :
    (∀ item ∈ items, item.isComment = false) ∨
      ∃ front item later, items = front ++ item :: later ∧
        (∀ other ∈ front, other.isComment = false) ∧ item.isComment = true := by
  cases found : items.find? Trivium.isComment with
  | none => exact .inl fun item mem => by simpa using List.find?_eq_none.mp found item mem
  | some item =>
      obtain ⟨comment, front, later, split, white⟩ := List.find?_eq_some_iff_append.mp found
      refine .inr ⟨front, item, later, split, fun other mem => ?_, comment⟩
      simpa using white other mem

namespace Gap

def OpensWithLine (source : Text) (window : Span) (gap : Gap) : Prop :=
  ∃ comment, gap.comments.head? = some comment ∧ comment.isLine = true ∧
    Blank ((source.take comment.span.start).drop window.start)

theorem isLineComment_slice {source : Text} {window : Span} {gap : Gap}
    (found : read source window = .ok gap) :
    (source.slice window).isLineComment = true ↔ gap.OpensWithLine source window := by
  obtain ⟨items, trivia⟩ := trivia_of_read found
  rw [read_of_trivia trivia] at found
  obtain rfl := Except.ok.inj found
  unfold OpensWithLine ofTrivia
  rcases Trivium.exists_first_comment items with white | ⟨front, item, later, rfl, white, comment⟩
  · rw [trivia.isLineComment_of_white white, Trivium.comments_of_none _ _ _ white]
    simp
  · rw [trivia.isLineComment_iff white comment, Trivium.comments_append,
      Trivium.comments_of_none _ _ _ white, List.nil_append, List.nil_append]
    have inside : front.flatMap Trivium.text <+: source.drop window.start := by
      refine List.IsPrefix.trans ?_ (List.take_prefix window.length _)
      exact ⟨_, (List.flatMap_append.symm.trans trivia.flatMap_text)⟩
    have before : (source.take (window.start + (front.flatMap Trivium.text).length)).drop
        window.start = front.flatMap Trivium.text := by
      rw [List.drop_take, Nat.add_sub_cancel_left]
      exact (List.prefix_iff_eq_take.mp inside).symm
    rw [Trivium.comments, if_pos comment, List.singleton_append, List.head?_cons]
    constructor
    · rintro ⟨blank, line⟩
      exact ⟨_, rfl, line, before.symm ▸ blank⟩
    · rintro ⟨first, head, line, blank⟩
      obtain rfl := Option.some.inj head
      exact ⟨before ▸ blank, line⟩

end Gap

/-! ## Arrangements -/

theorem Arrangement.choose_vertical_iff (entries : List Entry) :
    (∀ packing separator width, choose packing separator width entries = .vertical) ↔
      entries.any Entry.hasLineComment = true := by
  constructor
  · intro always
    -- Nothing but a line comment overrules a preference for one line.
    have vertical := always .horizontal [] 0
    unfold choose at vertical
    split at vertical
    · assumption
    · cases vertical
  · intro line packing separator width
    rw [choose, if_pos line]

/-! ## Entries of a source -/

namespace Entry

variable (doc : Document) (text : Text) (span : Span) (before after : Option Span)
  (placement : Placement) (blankAfter : Bool)

theorem commentAt_of_inside {window : Option Span}
    (inside : ∀ span ∈ window.toList, span.stop ≤ doc.source.length) :
    commentAt doc window =
      .ok (window.map fun span => (doc.source.slice span).trim,
        window.map fun span => (doc.source.column span.start : Int)) := by
  cases window with
  | none => rfl
  | some span =>
      have found : doc.textAt span = .ok (doc.source.slice span) :=
        if_pos (List.forall_mem_singleton.mp inside)
      rw [commentAt, found]
      rfl

theorem commentAt_of_outside {span : Span} (outside : ¬span.stop ≤ doc.source.length) :
    commentAt doc (some span) = .error (.outOfBounds span doc.source.length) := by
  rw [commentAt, Document.textAt, if_neg outside]
  rfl

theorem ofSource_of_inside
    (inside : ∀ window ∈ before.toList ++ after.toList, window.stop ≤ doc.source.length) :
    ofSource doc text span before after placement blankAfter =
      .ok
        { text
          before := before.map fun window => (doc.source.slice window).trim
          placement
          after := after.map fun window => (doc.source.slice window).trim
          span
          blankAfter
          beforeColumn := before.map fun window => (doc.source.column window.start : Int)
          afterColumn := after.map fun window => (doc.source.column window.start : Int) } := by
  obtain ⟨first, second⟩ := List.forall_mem_append.mp inside
  rw [ofSource, commentAt_of_inside doc first, commentAt_of_inside doc second]
  rfl

theorem inside_of_ofSource {entry : Entry}
    (made : ofSource doc text span before after placement blankAfter = .ok entry) :
    ∀ window ∈ before.toList ++ after.toList, window.stop ≤ doc.source.length := by
  refine fun window mem => Decidable.byContradiction fun outside => ?_
  have failed := commentAt_of_outside doc outside
  unfold ofSource at made
  rcases List.mem_append.mp mem with mem | mem
  · obtain rfl := Option.mem_toList.mp mem
    rw [failed] at made
    cases made
  · obtain rfl := Option.mem_toList.mp mem
    rw [failed] at made
    cases first : commentAt doc before <;> rw [first] at made <;> cases made

theorem ofSource_hasLineComment
    (gaps : ∀ window ∈ before.toList ++ after.toList, ∃ gap, Gap.read doc.source window = .ok gap) :
    ((∃ entry, ofSource doc text span before after placement blankAfter = .ok entry) ↔
        ∀ window ∈ before.toList ++ after.toList, window.stop ≤ doc.source.length) ∧
      ∀ entry, ofSource doc text span before after placement blankAfter = .ok entry →
        (entry.hasLineComment = true ↔
          ∃ window ∈ before.toList ++ after.toList, ∃ gap,
            Gap.read doc.source window = .ok gap ∧ gap.OpensWithLine doc.source window) ∧
        ∀ left right,
          (∀ packing separator width,
            Arrangement.choose packing separator width (left ++ entry :: right) = .vertical) ↔
          entry.hasLineComment = true ∨ (left ++ right).any hasLineComment = true := by
  refine ⟨⟨fun ⟨entry, made⟩ => ?_, fun inside => ?_⟩, fun entry made => ⟨?_, fun left right => ?_⟩⟩
  · exact inside_of_ofSource doc text span before after placement blankAfter made
  · exact ⟨_, ofSource_of_inside doc text span before after placement blankAfter inside⟩
  · have inside := inside_of_ofSource doc text span before after placement blankAfter made
    rw [ofSource_of_inside doc text span before after placement blankAfter inside] at made
    obtain rfl := Except.ok.inj made
    have comments (window : Option Span) :
        (window.map fun window => (doc.source.slice window).trim).toList =
          window.toList.map fun window => (doc.source.slice window).trim := by
      cases window <;> rfl
    rw [hasLineComment, Entry.comments, comments, comments, ← List.map_append, List.any_map,
      List.any_eq_true]
    constructor
    · rintro ⟨window, mem, line⟩
      obtain ⟨gap, found⟩ := gaps window mem
      rw [Function.comp_apply, Text.isLineComment_trim, Gap.isLineComment_slice found] at line
      exact ⟨window, mem, gap, found, line⟩
    · rintro ⟨window, mem, gap, found, line⟩
      refine ⟨window, mem, ?_⟩
      rwa [Function.comp_apply, Text.isLineComment_trim, Gap.isLineComment_slice found]
  · rw [Arrangement.choose_vertical_iff]
    simp only [List.any_append, List.any_cons, Bool.or_eq_true]
    exact or_left_comm

theorem ofSource_hasLineComment_behind_break :
    let doc : Document := { source := "\n// a\n/* b */ // c".toList }
    let before : Span := .ofLength 0 6
    let after : Span := .ofLength 6 12
    let entry : Entry :=
      { text := ['x'], before := some "// a".toList, after := some "/* b */ // c".toList
        beforeColumn := some 0, afterColumn := some 0 }
    (∀ window ∈ [before, after], ∃ gap, Gap.read doc.source window = .ok gap) ∧
      ofSource doc ['x'] .nowhere (some before) (some after) .sameLine false = .ok entry ∧
      ∀ packing separator width,
        Arrangement.choose packing separator width [.ofText ['y'], entry] = .vertical := by
  intro doc before after entry
  have first : Gap.read doc.source before =
      .ok ⟨[⟨"// a".toList, .ofLength 1 4, true, true, 0⟩], true⟩ :=
    eq_ok_of_toOption (by decide +kernel)
  have second : Gap.read doc.source after =
      .ok ⟨[⟨"/* b */".toList, .ofLength 6 7, false, false, 0⟩,
        ⟨"// c".toList, .ofLength 14 4, true, false, 8⟩], false⟩ :=
    eq_ok_of_toOption (by decide +kernel)
  have gaps : ∀ window ∈ [before, after], ∃ gap, Gap.read doc.source window = .ok gap :=
    List.forall_mem_cons.mpr ⟨⟨_, first⟩, List.forall_mem_singleton.mpr ⟨_, second⟩⟩
  have made : ofSource doc ['x'] .nowhere (some before) (some after) .sameLine false = .ok entry :=
    eq_ok_of_toOption (by decide +kernel)
  obtain ⟨-, read⟩ :=
    ofSource_hasLineComment doc ['x'] .nowhere (some before) (some after) .sameLine false gaps
  obtain ⟨line, arranged⟩ := read entry made
  refine ⟨gaps, made, (arranged [.ofText ['y']] []).mpr (.inl (line.mpr ?_))⟩
  exact ⟨before, List.mem_cons_self, _, first, _, rfl, rfl, List.all_eq_true.mp (by decide +kernel)⟩

theorem ofSource_hides_line_comment :
    let doc : Document := { source := "/* a */ // b\nx".toList }
    let window : Span := .ofLength 0 12
    let entry : Entry :=
      { text := ['x'], before := some "/* a */ // b".toList, span := .ofLength 13 1
        beforeColumn := some 0 }
    (∃ gap, Gap.read doc.source window = .ok gap ∧ gap.comments.any GapComment.isLine = true) ∧
      ofSource doc ['x'] (.ofLength 13 1) (some window) none .sameLine false = .ok entry ∧
      entry.hasLineComment = false ∧
      Arrangement.choose .horizontal [','] 100 [entry] = .horizontal := by
  intro doc window entry
  have found : Gap.read doc.source window =
      .ok ⟨[⟨"/* a */".toList, .ofLength 0 7, false, false, 0⟩,
        ⟨"// b".toList, .ofLength 8 4, true, false, 8⟩], false⟩ :=
    eq_ok_of_toOption (by decide +kernel)
  exact ⟨⟨_, found, rfl⟩, eq_ok_of_toOption (by decide +kernel), by decide +kernel,
    by decide +kernel⟩

end Entry

end ItemLayout
