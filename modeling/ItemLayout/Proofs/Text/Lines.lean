import ItemLayout.Proofs.Text.Blanks

namespace ItemLayout.Text

variable {a b : Text}

theorem firstLine_append_of_not_mem (single : '\n' ∉ a) (b : Text) :
    firstLine (a ++ b) = a ++ b.firstLine := by
  refine List.takeWhile_append_of_pos fun c mem => ?_
  rw [bne_iff_ne]
  rintro rfl
  exact single mem

theorem length_firstLine_le (t : Text) : t.firstLine.length ≤ t.length :=
  (List.takeWhile_prefix (l := t) (· != '\n')).length_le

theorem lastLine_append_of_not_mem (a : Text) (single : '\n' ∉ b) :
    lastLine (a ++ b) = a.lastLine ++ b := by
  have inside : ∀ c ∈ b.reverse, (c != '\n') = true := by
    intro c mem
    rw [bne_iff_ne]
    rintro rfl
    exact single (List.mem_reverse.mp mem)
  rw [lastLine, List.reverse_append, List.takeWhile_append_of_pos inside, List.reverse_append,
    List.reverse_reverse]
  rfl

theorem lastLine_append_of_mem (a : Text) (broken : '\n' ∈ b) :
    lastLine (a ++ b) = b.lastLine := by
  rw [lastLine, List.reverse_append, List.takeWhile_append, if_neg, lastLine]
  intro whole
  -- A line that is as long as the text would hold the line feed.
  have same := (List.takeWhile_prefix (l := b.reverse) (· != '\n')).eq_of_length whole
  have inside := List.all_eq_true.mp (List.all_takeWhile (l := b.reverse) (p := (· != '\n')))
  rw [same] at inside
  simpa using inside '\n' (List.mem_reverse.mpr broken)

theorem lastLine_append_break (a : Text) (single : '\n' ∉ b) : lastLine (a ++ '\n' :: b) = b := by
  rw [List.append_cons, lastLine_append_of_not_mem _ single,
    lastLine_append_of_mem a (List.mem_singleton.mpr rfl)]
  rfl

theorem lastLine_of_not_mem (single : '\n' ∉ b) : lastLine b = b :=
  lastLine_append_of_not_mem [] single

theorem length_lastLine_le (t : Text) : t.lastLine.length ≤ t.length := by
  have part := (List.takeWhile_prefix (l := t.reverse) (· != '\n')).length_le
  rwa [List.length_reverse, ← List.length_reverse] at part

theorem length_line_le (a b : Text) :
    a.lastLine.length + 1 + b.firstLine.length ≤ (a ++ [' '] ++ b).length := by
  have last := a.length_lastLine_le
  have first := b.length_firstLine_le
  rw [List.length_append, List.length_append, List.length_singleton]
  omega

theorem length_firstLine_le_append (a b : Text) :
    a.firstLine.length ≤ (firstLine (a ++ b)).length := by
  unfold firstLine
  induction a with
  | nil => exact Nat.zero_le _
  | cons c a ih =>
      rw [List.cons_append, List.takeWhile_cons, List.takeWhile_cons]
      split
      · exact Nat.succ_le_succ ih
      · exact Nat.zero_le _

def endColumn (column : Nat) (t : Text) : Nat :=
  if '\n' ∈ t then t.lastLine.length else column + t.length

theorem endColumn_append (column : Nat) (a b : Text) :
    endColumn column (a ++ b) = endColumn (endColumn column a) b := by
  unfold endColumn
  by_cases broken : '\n' ∈ b
  · rw [if_pos (List.mem_append_right a broken), if_pos broken, lastLine_append_of_mem a broken]
  · rw [if_neg broken]
    by_cases before : '\n' ∈ a
    · rw [if_pos (List.mem_append_left b before), if_pos before, lastLine_append_of_not_mem a broken,
        List.length_append]
    · have single : '\n' ∉ a ++ b := by
        rw [List.mem_append]
        exact not_or.mpr ⟨before, broken⟩
      rw [if_neg single, if_neg before, List.length_append, Nat.add_assoc]

theorem endColumn_of_not_mem (column : Nat) (single : '\n' ∉ a) :
    endColumn column a = column + a.length :=
  if_neg single

theorem endColumn_le (column : Nat) (t : Text) : endColumn column t ≤ column + t.lastLine.length := by
  unfold endColumn
  split
  · exact Nat.le_add_left _ _
  · rename_i single
    exact Nat.le_of_eq (by rw [lastLine_of_not_mem single])

theorem endColumn_le_add (column : Nat) (t : Text) : endColumn column t ≤ column + t.length :=
  Nat.le_trans (endColumn_le column t) (Nat.add_le_add_left t.length_lastLine_le column)

theorem endColumn_zero (t : Text) : endColumn 0 t = t.lastLine.length := by
  unfold endColumn
  split
  · rfl
  · rename_i single
    rw [lastLine_of_not_mem single, Nat.zero_add]

theorem column_of_le {source : Text} {offset : Nat} (inside : offset ≤ source.length) :
    source.column offset = endColumn 0 (source.take offset) := by
  rw [column, Nat.sub_eq_zero_of_le inside, endColumn_zero, Nat.add_zero]

/-- The width of the line at an offset of a text whose first line starts at a column. -/
def lineWidth (column : Nat) (t : Text) (offset : Nat) : Nat :=
  endColumn column (t.take offset) + (firstLine (t.drop offset)).length

theorem lineWidth_append (column : Nat) (before after : Text) :
    lineWidth column (before ++ after) before.length =
      endColumn column before + after.firstLine.length := by
  rw [lineWidth, List.take_left, List.drop_left]

theorem lineWidth_le (column : Nat) (t : Text) (offset : Nat) :
    lineWidth column t offset ≤ column + t.length := by
  have before := endColumn_le_add column (t.take offset)
  have after := length_firstLine_le (t.drop offset)
  have whole := congrArg List.length (List.take_append_drop offset t)
  rw [List.length_append] at whole
  unfold lineWidth
  omega

/-! ## Lines after the first -/

theorem lines_cons_feed (t : Text) : lines ('\n' :: t) = [] :: t.lines := by
  simp [lines, List.splitOn, List.splitOnP_cons_eq_if_modifyHead]

theorem lines_cons_of_ne {c : Char} (inside : c ≠ '\n') (t : Text) :
    lines (c :: t) = t.lines.modifyHead (c :: ·) := by
  simp [lines, List.splitOn, List.splitOnP_cons_eq_if_modifyHead, inside]

theorem lines_eq_cons (t : Text) : t.lines = t.firstLine :: t.lines.tail := by
  induction t with
  | nil => rfl
  | cons c t ih =>
      by_cases feed : c = '\n'
      · subst feed
        rw [lines_cons_feed]
        rfl
      · have first : firstLine (c :: t) = c :: firstLine t :=
          List.takeWhile_cons_of_pos (bne_iff_ne.mpr feed)
        rw [lines_cons_of_ne feed, ih, List.modifyHead_cons, List.tail_cons, first]

theorem tail_lines_append (single : '\n' ∉ a) (b : Text) :
    (lines (a ++ b)).tail = b.lines.tail := by
  induction a with
  | nil => rfl
  | cons c a ih =>
      obtain ⟨inside, single⟩ := not_or.mp (mt List.mem_cons.mpr single)
      rw [List.cons_append, lines_cons_of_ne (Ne.symm inside), lines_eq_cons, List.modifyHead_cons,
        List.tail_cons, ih single]

/-! ## Lines of a file -/

/-- The lines of a file, where a carriage return and a line feed behind it end one line. Nothing
follows the last line boundary. -/
def splitLines : Text → List Text
  | [] => []
  | '\r' :: '\n' :: rest => [] :: splitLines rest
  | c :: rest =>
      if isLineBoundary c then [] :: splitLines rest
      else
        match splitLines rest with
        | [] => [[c]]
        | line :: lines => (c :: line) :: lines

theorem fileLines_cons (c : Char) (t : Text) :
    fileLines (c :: t) =
      if isLineBoundary c then [] :: t.fileLines else t.fileLines.modifyHead (c :: ·) :=
  List.splitOnP_cons_eq_if_modifyHead ..

/-- The first lines are the same, and the others differ in empty lines only. -/
def SameFirst (lines others : List Text) : Prop :=
  ∃ line rest rest', lines = line :: rest ∧ others = line :: rest' ∧
    rest.filter (!·.isEmpty) = rest'.filter (!·.isEmpty)

theorem SameFirst.filter_eq {lines others : List Text} (same : SameFirst lines others) :
    lines.filter (!·.isEmpty) = others.filter (!·.isEmpty) := by
  obtain ⟨line, rest, rest', rfl, rfl, same⟩ := same
  rw [List.filter_cons, List.filter_cons, same]

theorem filter_of_sameFirst {t : Text} (same : t = [] ∨ SameFirst t.splitLines t.fileLines) :
    t.splitLines.filter (!·.isEmpty) = t.fileLines.filter (!·.isEmpty) := by
  rcases same with rfl | same
  · rfl
  · exact same.filter_eq

theorem splitLines_sameFirst (t : Text) : t = [] ∨ SameFirst t.splitLines t.fileLines := by
  fun_induction splitLines t with
  | case1 => exact .inl rfl
  | case2 rest ih =>
      refine .inr ⟨[], splitLines rest, [] :: fileLines rest, rfl, ?_, filter_of_sameFirst ih⟩
      rw [fileLines_cons, fileLines_cons]
      rfl
  | case3 c rest _ boundary ih =>
      refine .inr ⟨[], splitLines rest, fileLines rest, rfl, ?_, filter_of_sameFirst ih⟩
      rw [fileLines_cons, if_pos boundary]
  | case4 c rest _ inside none ih =>
      rcases ih with rfl | ⟨line, rest, rest', short, -, -⟩
      · refine .inr ⟨[c], [], [], rfl, ?_, rfl⟩
        rw [fileLines_cons, if_neg inside]
        rfl
      · rw [none] at short
        cases short
  | case5 c rest _ inside line lines split ih =>
      rcases ih with rfl | ⟨first, others, others', short, long, same⟩
      · cases split
      · obtain ⟨rfl, rfl⟩ := List.cons.inj (split.symm.trans short)
        refine .inr ⟨c :: line, lines, others', rfl, ?_, same⟩
        rw [fileLines_cons, if_neg inside, long, List.modifyHead_cons]

theorem filter_splitLines (t : Text) :
    t.splitLines.filter (!·.isEmpty) = t.fileLines.filter (!·.isEmpty) :=
  filter_of_sameFirst t.splitLines_sameFirst

end ItemLayout.Text
