import ItemLayout.Comment.Reindent
import ItemLayout.Frame.Basic
import ItemLayout.Proofs.Token.Comments

namespace ItemLayout

/-- Two texts that differ only in runs of blanks, where a run stays a run. -/
inductive Reflow : Text → Text → Prop
  | nil : Reflow [] []
  | keep (c : Char) {a b : Text} (rest : Reflow a b) : Reflow (c :: a) (c :: b)
  | run {u v a b : Text} (left : u ≠ []) (right : v ≠ []) (blank : Blank u) (blank' : Blank v)
      (rest : Reflow a b) : Reflow (u ++ a) (v ++ b)

namespace Reflow

theorem refl (t : Text) : Reflow t t := by
  induction t with
  | nil => exact .nil
  | cons c t ih => exact .keep c ih

theorem symm {a b : Text} (flow : Reflow a b) : Reflow b a := by
  induction flow with
  | nil => exact .nil
  | keep c _ ih => exact .keep c ih
  | run left right blank blank' _ ih => exact .run right left blank' blank ih

theorem append (t : Text) {a b : Text} (flow : Reflow a b) : Reflow (t ++ a) (t ++ b) := by
  induction t with
  | nil => exact flow
  | cons c t ih => exact .keep c ih

theorem nil_left {b : Text} (flow : Reflow [] b) : b = [] := by
  generalize empty : ([] : Text) = a at flow
  cases flow with
  | nil => rfl
  | keep c rest => cases empty
  | run left right blank blank' rest => exact absurd (List.append_eq_nil_iff.mp empty.symm).1 left

theorem cons_left {c : Char} {a b : Text} (flow : Reflow (c :: a) b) (ink : isBlank c = false) :
    ∃ b', b = c :: b' ∧ Reflow a b' := by
  generalize split : c :: a = t at flow
  cases flow with
  | nil => cases split
  | keep d rest =>
      obtain ⟨rfl, rfl⟩ := List.cons.inj split
      exact ⟨_, rfl, rest⟩
  | @run u v a' b' left right blank blank' rest =>
      obtain ⟨d, u, rfl⟩ := List.exists_cons_of_ne_nil left
      obtain ⟨rfl, -⟩ := List.cons.inj split
      rw [blank c List.mem_cons_self] at ink
      cases ink

theorem pair_left {c d : Char} {a b : Text} (flow : Reflow (c :: d :: a) b)
    (first : isBlank c = false) (second : isBlank d = false) :
    ∃ b', b = c :: d :: b' ∧ Reflow a b' := by
  obtain ⟨rest, rfl, flow'⟩ := flow.cons_left first
  obtain ⟨b', rfl, flow''⟩ := flow'.cons_left second
  exact ⟨b', rfl, flow''⟩

theorem markerAt {a b : Text} (flow : Reflow a b) {c : Char} (marker : MarkerAt c b) :
    MarkerAt c a := by
  refine marker.of_head? fun d ink head => ?_
  obtain ⟨b', rfl⟩ := List.head?_eq_some_iff.mp head
  obtain ⟨a', rfl, -⟩ := flow.symm.cons_left ink
  rfl

theorem endsInk {a b : Text} (flow : Reflow a b) (ends : EndsInk a) : EndsInk b := by
  induction flow with
  | nil => exact ends
  | @keep c a b rest ih =>
      by_cases done : a = []
      · subst done
        rwa [rest.nil_left]
      · have more : b ≠ [] := by
          rintro rfl
          exact done rest.symm.nil_left
        exact EndsInk.append (a := [c]) (ih (EndsInk.of_append (a := [c]) ends)) more
  | @run u v a b left right blank blank' rest ih =>
      have more : b ≠ [] := by
        rintro rfl
        rw [rest.symm.nil_left, List.append_nil] at ends
        exact left (ends.eq_nil blank)
      exact (ih ends.of_append).append more

end Reflow

/-! ## Block comments -/

theorem not_markerAt_of_isBlank {c : Char} (blank : isBlank c = true) (t : Text) :
    ¬MarkerAt c t := by
  rintro (⟨rfl, -⟩ | ⟨rfl, -⟩) <;> cases blank

theorem Reflow.marker_induction {motive : (a b : Text) → Reflow a b → Prop}
    (nil : motive [] [] .nil)
    (opening : ∀ a b flow, motive a b flow →
      motive ('/' :: '*' :: a) ('/' :: '*' :: b) (.keep '/' (.keep '*' flow)))
    (closing : ∀ a b flow, motive a b flow →
      motive ('*' :: '/' :: a) ('*' :: '/' :: b) (.keep '*' (.keep '/' flow)))
    (other : ∀ c a b flow, ¬MarkerAt c a → ¬MarkerAt c b → motive a b flow →
      motive (c :: a) (c :: b) (.keep c flow))
    (run : ∀ u v a b left right blank blank' flow, motive a b flow →
      motive (u ++ a) (v ++ b) (.run left right blank blank' flow))
    {a b : Text} (flow : Reflow a b) : motive a b flow := by
  generalize size : a.length = n
  induction n using Nat.strongRecOn generalizing a b with
  | ind n ih =>
      subst size
      cases flow with
      | nil => exact nil
      | @run u v a b left right blank blank' rest =>
          have shorter : a.length < (u ++ a).length := by
            have := List.length_pos_iff.mpr left
            rw [List.length_append]
            omega
          exact run u v a b left right blank blank' rest (ih _ shorter rest rfl)
      | @keep c a b rest =>
          -- Both texts have the second character of a marker, or neither has.
          by_cases marker : MarkerAt c a
          · rcases marker with ⟨rfl, head⟩ | ⟨rfl, head⟩
            · obtain ⟨a, rfl⟩ := List.head?_eq_some_iff.mp head
              obtain ⟨b, rfl, inside⟩ := rest.cons_left (by decide)
              exact opening a b inside (ih _ (by simp only [List.length_cons]; omega) inside rfl)
            · obtain ⟨a, rfl⟩ := List.head?_eq_some_iff.mp head
              obtain ⟨b, rfl, inside⟩ := rest.cons_left (by decide)
              exact closing a b inside (ih _ (by simp only [List.length_cons]; omega) inside rfl)
          · exact other c a b rest marker (mt rest.markerAt marker)
              (ih _ (Nat.lt_succ_self _) rest rfl)

theorem blockCommentLength_blanks_append {u : Text} (blank : Blank u) (depth : Nat) (t : Text) :
    blockCommentLength depth (u ++ t) = (blockCommentLength depth t).map (· + u.length) := by
  induction u with
  | nil => simp
  | cons c u ih =>
      obtain ⟨first, rest⟩ := List.forall_mem_cons.mp blank
      have plain := not_markerAt_of_isBlank first (u ++ t)
      rw [List.cons_append, blockCommentLength_other depth plain, ih rest]
      cases blockCommentLength depth t <;> rfl

theorem blockCommentLength_reflow {depth : Nat} {a b : Text} (flow : Reflow a b)
    (closed : blockCommentLength depth a = some a.length) :
    blockCommentLength depth b = some b.length := by
  have longer {found : Option Nat} {t : Text} (k : Nat) :
      found.map (· + k) = some (t.length + k) ↔ found = some t.length := by
    cases found <;> simp
  induction flow using Reflow.marker_induction generalizing depth with
  | nil => exact closed
  | opening a b flow ih => exact (longer 2).mpr (ih ((longer 2).mp closed))
  | closing a b flow ih =>
      cases depth with
      | zero =>
          obtain rfl : a = [] := by simpa [blockCommentLength] using closed
          rw [flow.nil_left]
          rfl
      | succ outer => exact (longer 2).mpr (ih ((longer 2).mp closed))
  | other c a b flow here there ih =>
      rw [blockCommentLength_other depth here] at closed
      rw [blockCommentLength_other depth there]
      exact (longer 1).mpr (ih ((longer 1).mp closed))
  | run u v a b left right blank blank' flow ih =>
      rw [blockCommentLength_blanks_append blank, List.length_append, Nat.add_comm] at closed
      rw [blockCommentLength_blanks_append blank', List.length_append, Nat.add_comm]
      exact (longer v.length).mpr (ih ((longer u.length).mp closed))

/-! ## Moving -/

namespace Comment

theorem moveLine_split {margin line : Text} {column : Int} (blank : Blank margin)
    (nonneg : 0 ≤ column) (more : line ≠ []) :
    ∃ lead lead' core, line = lead ++ core ∧ moveLine margin column line = lead' ++ core ∧
      Blank lead ∧ Blank lead' := by
  obtain ⟨lead, split, blank', length⟩ := line.leading_append_drop
  have kept (n : Nat) (bound : n ≤ lead.length) :
      line.drop n = lead.drop n ++ line.drop line.leading := by
    rw [← List.drop_append_of_le_length bound, ← split]
  refine ⟨lead, margin ++ lead.drop (min (line.leading : Int) column).toNat,
    line.drop line.leading, split, ?_, blank', ?_⟩
  · rw [moveLine, if_neg more, Text.dropFrom, if_pos (by omega), kept _ (by omega),
      List.append_assoc]
  · exact blank.append fun c mem => blank' c (List.mem_of_mem_drop mem)

theorem reflow_moreLines {margin : Text} {column : Int} (blank : Blank margin)
    (nonneg : 0 ≤ column) {tail : Text} {ls : List Text} (blankTail : Blank tail)
    (ends : EndsInk (tail ++ Text.moreLines ls)) :
    Reflow (tail ++ Text.moreLines ls)
      (Text.moreLines ((ls.map Text.trimRight).map (moveLine margin column))) := by
  induction ls generalizing tail with
  | nil =>
      rw [Text.moreLines, List.flatMap_nil, List.append_nil] at ends ⊢
      rw [ends.eq_nil blankTail]
      exact .nil
  | cons l ls ih =>
      have lineFeed : Blank ['\n'] := .cons (by decide) (by simp [Blank])
      obtain ⟨tail', split, blankTail'⟩ := l.trimRight_append_blanks
      have source : tail ++ Text.moreLines (l :: ls) =
          (tail ++ ['\n']) ++ (l.trimRight ++ (tail' ++ Text.moreLines ls)) := by
        rw [← List.append_assoc l.trimRight, ← split]
        simp [Text.moreLines]
      rw [source] at ends ⊢
      have rest := ih blankTail' ends.of_append.of_append
      -- The blanks before a line feed, the line feed and the margin after it are one run.
      by_cases empty : l.trimRight = []
      · have target : Text.moreLines (((l :: ls).map Text.trimRight).map (moveLine margin column)) =
            ['\n'] ++ Text.moreLines ((ls.map Text.trimRight).map (moveLine margin column)) := by
          simp [Text.moreLines, moveLine, empty]
        rw [target, empty]
        exact .run (by simp) (by simp) (blankTail.append lineFeed) lineFeed rest
      · obtain ⟨lead, lead', core, line, moved, blankLead, blankLead'⟩ :=
          moveLine_split blank nonneg empty
        have target : Text.moreLines (((l :: ls).map Text.trimRight).map (moveLine margin column)) =
            (['\n'] ++ lead') ++
              (core ++ Text.moreLines ((ls.map Text.trimRight).map (moveLine margin column))) := by
          simp [Text.moreLines, moved]
        rw [target, line, List.append_assoc lead, ← List.append_assoc (tail ++ _)]
        exact .run (by simp) (by simp) ((blankTail.append lineFeed).append blankLead)
          (lineFeed.append blankLead') (rest.append core)

theorem reflow_reindent {margin : Text} (blank : Blank margin) {column : Option Int}
    (nonneg : ∀ n ∈ column, 0 ≤ n) (comment : Text) :
    Reflow comment.trim (reindent margin column comment) := by
  have whole := Text.joinLines_lines comment.trim
  unfold reindent
  split
  · rename_i lines
    exact absurd lines (List.splitOn_ne_nil _ _)
  · rename_i line lines
    rw [lines, Text.joinLines_cons, Text.moreLines, List.flatMap_nil, List.append_nil] at whole
    rw [whole]
    exact .refl _
  · rename_i first others several lines
    rw [lines, Text.joinLines_cons] at whole
    obtain ⟨tail, split, blankTail⟩ := first.trimRight_append_blanks
    have source : comment.trim = first.trimRight ++ (tail ++ Text.moreLines others) := by
      rw [← List.append_assoc, ← split, whole]
    have ends : EndsInk (tail ++ Text.moreLines others) := by
      have ends := Text.endsInk_trim comment
      rw [source] at ends
      exact ends.of_append
    have base : 0 ≤ column.getD (commonMargin (others.map Text.trimRight)) := by
      cases column with
      | none => exact Int.natCast_nonneg _
      | some n => exact nonneg n rfl
    rw [source, Text.joinLines_cons]
    exact (reflow_moreLines blank base blankTail ends).append _

theorem endsInk_reindent {margin : Text} (blank : Blank margin) {column : Option Int}
    (nonneg : ∀ n ∈ column, 0 ≤ n) (comment : Text) : EndsInk (reindent margin column comment) :=
  (reflow_reindent blank nonneg comment).endsInk (Text.endsInk_trim comment)

theorem reindent_of_single {comment : Text} (single : '\n' ∉ comment.trim) (margin : Text)
    (column : Option Int) : reindent margin column comment = comment.trim := by
  simp only [reindent, Text.lines_of_not_mem single]

theorem mem_reindent {comment : Text} (several : '\n' ∈ comment.trim) (margin : Text)
    (column : Option Int) : '\n' ∈ reindent margin column comment := by
  have whole := Text.joinLines_lines comment.trim
  unfold reindent
  split
  · rename_i lines
    exact absurd lines (List.splitOn_ne_nil _ _)
  · rename_i line lines
    have single : '\n' ∉ line := Text.not_mem_of_mem_lines (lines ▸ List.mem_cons_self)
    rw [lines, Text.joinLines_cons, Text.moreLines, List.flatMap_nil, List.append_nil] at whole
    exact absurd (whole ▸ several) single
  · rename_i first others more lines
    have several : others ≠ [] := fun none => more (none ▸ rfl)
    obtain ⟨second, others, rfl⟩ := List.exists_cons_of_ne_nil several
    simp only [List.map_cons, Text.joinLines_cons, Text.moreLines, List.flatMap_cons]
    simp

theorem mem_reindent_iff (margin : Text) (column : Option Int) (comment : Text) :
    '\n' ∈ reindent margin column comment ↔ '\n' ∈ comment.trim := by
  constructor
  · intro feed
    refine Decidable.byContradiction fun single => single ?_
    rwa [reindent_of_single single] at feed
  · intro several
    exact mem_reindent several margin column

theorem reindent_ne_nil {comment : Text} (shown : comment.trim ≠ []) (margin : Text)
    (column : Option Int) : reindent margin column comment ≠ [] := by
  by_cases several : '\n' ∈ comment.trim
  · exact List.ne_nil_of_mem (mem_reindent several margin column)
  · rwa [reindent_of_single several]

end Comment

namespace ClosedComment

theorem not_mem_of_line {t : Text} (closed : ClosedComment .lineComment t) : '\n' ∉ t := by
  cases closed with
  | line inside =>
      intro mem
      rcases List.mem_cons.mp mem with clash | mem
      · cases clash
      · rcases List.mem_cons.mp mem with clash | mem
        · cases clash
        · exact absurd (inside _ mem) (by decide)

theorem reflow_block {a b : Text} (closed : ClosedComment .blockComment a) (flow : Reflow a b) :
    ClosedComment .blockComment b := by
  cases closed with
  | block closed =>
      obtain ⟨body, rfl, inside⟩ := flow.pair_left (by decide) (by decide)
      exact .block (blockCommentLength_reflow inside closed)

theorem reindent {kind : TokenKind} {comment margin : Text}
    (closed : ClosedComment kind comment.trim) (blank : Blank margin) {column : Option Int}
    (nonneg : ∀ n ∈ column, 0 ≤ n) : ClosedComment kind (Comment.reindent margin column comment) := by
  cases kind with
  | lineComment =>
      rw [Comment.reindent_of_single closed.not_mem_of_line]
      exact closed
  | blockComment => exact closed.reflow_block (Comment.reflow_reindent blank nonneg comment)
  | _ => cases closed.kind_isComment

/-! ## Blanks at the end -/

theorem endsInk_of_block {t : Text} (closed : ClosedComment .blockComment t) : EndsInk t := by
  cases closed with
  | block closed =>
      obtain ⟨body, rfl⟩ := eq_append_of_blockCommentLength closed
      exact EndsInk.append (a := '/' :: '*' :: body) (by simp [EndsInk, isBlank]) (by simp)

theorem trimRight {kind : TokenKind} {t : Text} (closed : ClosedComment kind t) :
    ClosedComment kind t.trimRight := by
  cases kind with
  | lineComment =>
      cases closed with
      | @line body inside =>
          obtain ⟨tail, split, -⟩ := Text.trimRight_append_blanks body
          rw [Text.trimRight_cons _ (by decide), Text.trimRight_cons _ (by decide)]
          refine .line fun c mem => inside c ?_
          rw [split]
          exact List.mem_append_left _ mem
  | blockComment => rwa [Text.trimRight_of_endsInk closed.endsInk_of_block]
  | _ => cases closed.kind_isComment

theorem trim {kind : TokenKind} {t : Text} (closed : ClosedComment kind t) :
    ClosedComment kind t.trim := by
  have same : t.trimLeft = t := by
    cases closed with
    | line _ => exact Text.trimLeft_cons _ (by decide)
    | block _ => exact Text.trimLeft_cons _ (by decide)
  rw [Text.trim, same]
  exact closed.trimRight

theorem isLineComment {kind : TokenKind} {t : Text} (closed : ClosedComment kind t.trim) :
    t.isLineComment = (kind == .lineComment) := by
  obtain ⟨tail, split, -⟩ := Text.trimRight_append_blanks t.trimLeft
  rw [Text.isLineComment, split]
  change ['/', '/'].isPrefixOf (t.trim ++ tail) = _
  generalize t.trim = body at closed
  cases closed <;> rfl

theorem ne_nil {kind : TokenKind} {comment : Text}
    (closed : ClosedComment kind comment.trim) : comment ≠ [] := by
  rintro rfl
  cases closed

end ClosedComment

/-! ## Margins -/

namespace Indent

variable (style : Style) (indent : Indent)

theorem mem_render {c : Char} (mem : c ∈ indent.render style) : c = ' ' ∨ c = '\t' := by
  unfold render at mem
  split at mem
  · rcases List.mem_append.mp mem with mem | mem
    · exact .inr (List.eq_of_mem_replicate mem)
    · exact .inl (List.eq_of_mem_replicate mem)
  · exact .inl (List.eq_of_mem_replicate mem)

theorem not_mem_render : '\n' ∉ indent.render style := by
  intro feed
  rcases mem_render style indent feed with clash | clash <;> cases clash

theorem count_newLine : (indent.newLine style).count '\n' = 1 := by
  rw [newLine, List.count_cons_self, List.count_eq_zero.mpr (indent.not_mem_render style)]

theorem blank_render : Blank (indent.render style) := by
  intro c mem
  rcases mem_render style indent mem with rfl | rfl <;> decide

theorem white_newLine : White (indent.newLine style) := by
  intro c mem
  rcases List.mem_cons.mp mem with rfl | mem
  · decide
  · rcases mem_render style indent mem with rfl | rfl <;> decide

theorem atBreak_newLine (t : Text) : AtBreak (indent.newLine style ++ t) := by
  intro c head
  cases head
  decide

end Indent

end ItemLayout
