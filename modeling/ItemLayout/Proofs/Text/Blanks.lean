import ItemLayout.Text.Basic

namespace ItemLayout

theorem intercalate_cons {α : Type} (between first : List α) (rest : List (List α)) :
    between.intercalate (first :: rest) = first ++ rest.flatMap (between ++ ·) := by
  induction rest generalizing first with
  | nil => simp
  | cons second rest ih =>
      rw [List.intercalate_cons_cons, ih second, List.flatMap_cons]
      simp only [List.append_assoc]

theorem intercalate_concat {α : Type} (between last : List α) {pieces : List (List α)}
    (more : pieces ≠ []) :
    between.intercalate (pieces ++ [last]) = between.intercalate pieces ++ (between ++ last) := by
  obtain ⟨first, rest, rfl⟩ := List.exists_cons_of_ne_nil more
  rw [List.cons_append, intercalate_cons, intercalate_cons, List.flatMap_append,
    List.flatMap_singleton, List.append_assoc]

theorem count_intercalate {α : Type} [BEq α] (a : α) (between : List α) (pieces : List (List α)) :
    (between.intercalate pieces).count a =
      (pieces.length - 1) * between.count a + pieces.flatten.count a := by
  cases pieces with
  | nil => simp
  | cons first rest =>
      have later : (rest.flatMap (between ++ ·)).count a =
          rest.length * between.count a + rest.flatten.count a := by
        induction rest with
        | nil => simp
        | cons second rest ih =>
            rw [List.flatMap_cons, List.flatten_cons, List.count_append, List.count_append,
              List.count_append, ih, List.length_cons, Nat.add_mul]
            omega
      rw [intercalate_cons, List.count_append, later, List.flatten_cons, List.count_append,
        List.length_cons, Nat.add_sub_cancel]
      omega

def Blank (t : Text) : Prop := ∀ c ∈ t, isBlank c = true

theorem Blank.append {a b : Text} (left : Blank a) (right : Blank b) : Blank (a ++ b) :=
  List.forall_mem_append.mpr ⟨left, right⟩

theorem Blank.cons {c : Char} {t : Text} (first : isBlank c = true) (rest : Blank t) :
    Blank (c :: t) :=
  List.forall_mem_cons.mpr ⟨first, rest⟩

def EndsInk (t : Text) : Prop := ∀ c ∈ t.getLast?, isBlank c = false

theorem EndsInk.of_append {a b : Text} (ends : EndsInk (a ++ b)) : EndsInk b := by
  intro c last
  apply ends c
  rw [List.getLast?_append, Option.mem_def.mp last]
  rfl

theorem EndsInk.append {a b : Text} (ends : EndsInk b) (more : b ≠ []) : EndsInk (a ++ b) := by
  intro c last
  rw [List.getLast?_append, List.getLast?_eq_some_getLast more] at last
  exact ends c ((List.getLast?_eq_some_getLast more).trans last)

theorem EndsInk.eq_nil {t : Text} (ends : EndsInk t) (blank : Blank t) : t = [] := by
  cases last : t.getLast? with
  | none => exact List.getLast?_eq_none_iff.mp last
  | some c =>
      have clash := blank c (List.mem_of_getLast? last)
      rw [ends c last] at clash
      cases clash

namespace Text

theorem trimRight_append_blanks (t : Text) : ∃ tail, t = trimRight t ++ tail ∧ Blank tail := by
  refine ⟨(t.reverse.takeWhile isBlank).reverse, ?_, ?_⟩
  · rw [trimRight, ← List.reverse_append, List.takeWhile_append_dropWhile, List.reverse_reverse]
  · intro c mem
    exact List.all_eq_true.mp List.all_takeWhile c (List.mem_reverse.mp mem)

theorem endsInk_trimRight (t : Text) : EndsInk (trimRight t) := by
  intro c last
  rw [trimRight, List.getLast?_reverse] at last
  have ink := List.head?_dropWhile_not isBlank t.reverse
  rw [Option.mem_def.mp last] at ink
  simpa using ink

theorem trimRight_of_endsInk {t : Text} (ends : EndsInk t) : trimRight t = t := by
  obtain ⟨tail, split, blank⟩ := trimRight_append_blanks t
  have none : tail = [] := by
    rw [split] at ends
    exact ends.of_append.eq_nil blank
  rw [none, List.append_nil] at split
  exact split.symm

theorem trimRight_cons {c : Char} (t : Text) (ink : isBlank c = false) :
    trimRight (c :: t) = c :: trimRight t := by
  rw [trimRight, trimRight, List.reverse_cons, List.dropWhile_append]
  split <;> simp_all

theorem trimLeft_cons {c : Char} (t : Text) (ink : isBlank c = false) :
    trimLeft (c :: t) = c :: t := by
  simp [trimLeft, ink]

theorem endsInk_trim (t : Text) : EndsInk (trim t) := endsInk_trimRight _

theorem trim_eq_self {t : Text} (opens : ∀ c ∈ t.head?, isBlank c = false) (ends : EndsInk t) :
    t.trim = t := by
  cases t with
  | nil => rfl
  | cons c t =>
      rw [trim, trimLeft_cons t (opens c rfl)]
      exact trimRight_of_endsInk ends

theorem trimRight_append {b : Text} (blank : Blank b) (a : Text) :
    trimRight (a ++ b) = trimRight a := by
  have behind : ∀ c ∈ b.reverse, isBlank c = true := fun c mem => blank c (List.mem_reverse.mp mem)
  rw [trimRight, List.reverse_append, List.dropWhile_append_of_pos behind, trimRight]

theorem trim_trimRight (t : Text) : t.trimRight.trim = t.trim := by
  obtain ⟨tail, split, blank⟩ := trimRight_append_blanks t
  generalize t.trimRight = core at split
  subst split
  unfold trim trimLeft
  rw [List.dropWhile_append]
  split
  · rename_i empty
    have none : (tail ++ []).dropWhile isBlank = [] := List.dropWhile_append_of_pos blank
    rw [List.append_nil] at none
    rw [List.isEmpty_iff.mp empty, none]
  · exact (trimRight_append blank _).symm

theorem drop_length_takeWhile (p : Char → Bool) (t : Text) :
    t.drop (t.takeWhile p).length = t.dropWhile p := by
  induction t with
  | nil => rfl
  | cons c t ih => cases holds : p c <;> simp [holds, ih]

theorem blank_takeWhile (t : Text) : Blank (t.takeWhile isBlank) := fun c mem =>
  List.all_eq_true.mp List.all_takeWhile c mem

theorem leading_append_drop (t : Text) :
    ∃ lead, t = lead ++ t.drop t.leading ∧ Blank lead ∧ lead.length = t.leading := by
  refine ⟨t.takeWhile isBlank, ?_, t.blank_takeWhile, rfl⟩
  rw [leading, drop_length_takeWhile, List.takeWhile_append_dropWhile]

/-! ## Lines -/

def moreLines (ls : List Text) : Text := ls.flatMap ('\n' :: ·)

theorem joinLines_cons (l : Text) (ls : List Text) : joinLines (l :: ls) = l ++ moreLines ls :=
  intercalate_cons ['\n'] l ls

theorem joinLines_lines (t : Text) : joinLines t.lines = t := List.intercalate_splitOn '\n'

theorem lines_joinLines {ls : List Text} (single : ∀ l ∈ ls, '\n' ∉ l) (more : ls ≠ []) :
    (joinLines ls).lines = ls :=
  List.splitOn_intercalate '\n' single more

theorem lines_of_not_mem {t : Text} (single : '\n' ∉ t) : t.lines = [t] :=
  List.splitOn_eq_singleton single

theorem not_mem_of_mem_lines {t l : Text} (mem : l ∈ t.lines) : '\n' ∉ l := by
  unfold lines List.splitOn at mem
  induction t generalizing l with
  | nil =>
      obtain rfl := List.mem_singleton.mp mem
      exact List.not_mem_nil
  | cons c t ih =>
      rw [List.splitOnP_cons_eq_if_modifyHead] at mem
      split at mem
      · rcases List.mem_cons.mp mem with rfl | mem
        · exact List.not_mem_nil
        · exact ih mem
      · rename_i inside
        obtain ⟨first, others, split⟩ := List.exists_cons_of_ne_nil (List.splitOnP_ne_nil (· == '\n') t)
        rw [split] at ih
        rw [split, List.modifyHead_cons] at mem
        rcases List.mem_cons.mp mem with rfl | mem
        · rintro feed
          rcases List.mem_cons.mp feed with rfl | feed
          · exact inside rfl
          · exact ih List.mem_cons_self feed
        · exact ih (List.mem_cons_of_mem _ mem)

theorem trim_ne_nil {t : Text} {c : Char} (mem : c ∈ t) (ink : isBlank c = false) :
    t.trim ≠ [] := by
  intro none
  obtain ⟨tail, split, blank⟩ := trimRight_append_blanks t.trimLeft
  have right : t.trimLeft = tail := by rw [split, ← Text.trim, none, List.nil_append]
  rw [← List.takeWhile_append_dropWhile (p := isBlank) (l := t)] at mem
  have clash : isBlank c = true := by
    rcases List.mem_append.mp mem with left | rest
    · exact List.all_eq_true.mp List.all_takeWhile c left
    · exact blank c (right ▸ rest)
  rw [ink] at clash
  cases clash

theorem trim_lastLine_ne_nil {t : Text} (ends : EndsInk t) (more : t ≠ []) :
    t.lastLine.trim ≠ [] := by
  have last := List.getLast?_eq_some_getLast more
  have ink := ends _ last
  refine trim_ne_nil ?_ ink
  rw [List.getLast?_eq_head?_reverse] at last
  obtain ⟨rest, flipped⟩ := List.head?_eq_some_iff.mp last
  have unbroken : t.getLast more ≠ '\n' := by
    intro line
    rw [line] at ink
    cases ink
  simp [lastLine, flipped, unbroken]

/-! ## Trimmed texts -/

theorem mem_of_mem_trimRight {t : Text} {c : Char} (mem : c ∈ t.trimRight) : c ∈ t := by
  obtain ⟨tail, split, -⟩ := trimRight_append_blanks t
  rw [split]
  exact List.mem_append_left _ mem

theorem mem_of_mem_trim {t : Text} {c : Char} (mem : c ∈ t.trim) : c ∈ t :=
  (List.dropWhile_suffix isBlank).subset (mem_of_mem_trimRight mem)

theorem trim_eq_nil_iff {t : Text} : t.trim = [] ↔ Blank t := by
  constructor
  · intro none c mem
    cases ink : isBlank c with
    | false => exact absurd none (trim_ne_nil mem ink)
    | true => rfl
  · intro blank
    have gone : (t ++ []).dropWhile isBlank = [] := List.dropWhile_append_of_pos blank
    rw [List.append_nil] at gone
    rw [trim, trimLeft, gone]
    rfl

theorem trim_blank_append {a : Text} (blank : Blank a) (b : Text) : (a ++ b).trim = b.trim := by
  rw [trim, trimLeft, List.dropWhile_append_of_pos blank]
  rfl

theorem trimRight_append_of_ne_nil (a : Text) {b : Text} (more : b.trimRight ≠ []) :
    (a ++ b).trimRight = a ++ b.trimRight := by
  have rest : ¬(b.reverse.dropWhile isBlank).isEmpty = true := by
    rw [List.isEmpty_iff]
    intro none
    exact more (congrArg List.reverse none)
  rw [trimRight, List.reverse_append, List.dropWhile_append, if_neg rest, List.reverse_append,
    List.reverse_reverse]
  rfl

theorem trimRight_eq_append {t : Text} (shown : t.trim ≠ []) :
    t.trimRight = t.takeWhile isBlank ++ t.trim := by
  have split := trimRight_append_of_ne_nil (t.takeWhile isBlank) shown
  rwa [trimLeft, List.takeWhile_append_dropWhile] at split

theorem trimRight_eq_nil_iff {t : Text} : t.trimRight = [] ↔ t.trim = [] := by
  constructor
  · intro none
    rw [← trim_trimRight, none]
    rfl
  · intro none
    exact trimRight_append (trim_eq_nil_iff.mp none) []

theorem takeWhile_trim (t : Text) : t.trim.takeWhile isBlank = [] := by
  have head := List.head?_dropWhile_not isBlank t
  rw [trim, trimLeft]
  cases left : t.dropWhile isBlank with
  | nil => rfl
  | cons c rest =>
      rw [left] at head
      have ink : isBlank c = false := by simpa using head
      rw [trimRight_cons rest ink, List.takeWhile_cons_of_neg (by simp [ink])]

theorem trim_trim (t : Text) : t.trim.trim = t.trim := by
  have left : t.trim.trimLeft = t.trim := by
    have whole := List.takeWhile_append_dropWhile (p := isBlank) (l := t.trim)
    rwa [takeWhile_trim, List.nil_append] at whole
  rw [trim, left, trimRight_of_endsInk (endsInk_trim t)]

theorem takeWhile_blank_append_trim {a : Text} (blank : Blank a) (t : Text) :
    (a ++ t.trim).takeWhile isBlank = a := by
  rw [List.takeWhile_append_of_pos blank, takeWhile_trim, List.append_nil]

theorem trimLeft_append_blanks (t : Text) : ∃ lead, t = lead ++ trimLeft t ∧ Blank lead :=
  ⟨t.takeWhile isBlank, List.takeWhile_append_dropWhile.symm, t.blank_takeWhile⟩

theorem trim_append_blanks (t : Text) :
    ∃ lead tail, t = lead ++ (t.trim ++ tail) ∧ Blank lead ∧ Blank tail := by
  obtain ⟨lead, first, blank⟩ := trimLeft_append_blanks t
  obtain ⟨tail, last, blank'⟩ := trimRight_append_blanks t.trimLeft
  rw [last] at first
  exact ⟨lead, tail, first, blank, blank'⟩

theorem trimLeft_blank_append {a t : Text} (blank : Blank a)
    (opens : ∀ c ∈ t.head?, isBlank c = false) : trimLeft (a ++ t) = t := by
  rw [trimLeft, List.dropWhile_append_of_pos blank]
  cases t with
  | nil => rfl
  | cons c t => exact trimLeft_cons t (opens c rfl)

end Text

end ItemLayout
