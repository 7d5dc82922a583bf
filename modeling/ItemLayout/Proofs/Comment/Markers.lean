import ItemLayout.Proofs.Comment.Reindent
import ItemLayout.Proofs.Token.Views

namespace ItemLayout

/-! ## Markers -/

inductive Marker where
  | opening
  | closing
  deriving DecidableEq, Repr

/-- The markers of a text in order. They never overlap: in `/*/` there is only the first. -/
def markers : Text → List Marker
  | '/' :: '*' :: rest => .opening :: markers rest
  | '*' :: '/' :: rest => .closing :: markers rest
  | _ :: rest => markers rest
  | [] => []

theorem markers_other {c : Char} {t : Text} (plain : ¬MarkerAt c t) :
    markers (c :: t) = markers t := by
  apply markers.eq_3
  · rintro rest rfl rfl
    exact plain (.inl ⟨rfl, rfl⟩)
  · rintro rest rfl rfl
    exact plain (.inr ⟨rfl, rfl⟩)

section

variable {u : Text} (blank : Blank u)
include blank

theorem markers_blanks_append (t : Text) : markers (u ++ t) = markers t := by
  induction u with
  | nil => rfl
  | cons c u ih =>
      obtain ⟨first, rest⟩ := List.forall_mem_cons.mp blank
      rw [List.cons_append, markers_other (not_markerAt_of_isBlank first _), ih rest]

theorem MarkerAt.of_append_blanks {c : Char} {t : Text} (marker : MarkerAt c (t ++ u)) :
    MarkerAt c t := by
  refine marker.of_head? fun d ink head => ?_
  cases t with
  | cons e t => exact head
  | nil =>
      have clash := blank d (List.mem_of_mem_head? head)
      rw [ink] at clash
      cases clash

theorem markers_append_blanks (t : Text) : markers (t ++ u) = markers t := by
  fun_induction markers t with
  | case1 rest ih => exact congrArg (Marker.opening :: ·) ih
  | case2 rest ih => exact congrArg (Marker.closing :: ·) ih
  | case3 c rest opens closes ih =>
      have plain : ¬MarkerAt c (rest ++ u) :=
        mt (MarkerAt.of_append_blanks blank) (not_markerAt opens closes)
      rw [List.cons_append, markers_other plain, ih]
  | case4 =>
      have none := markers_blanks_append blank []
      rwa [List.append_nil] at none

end

theorem markers_trim (t : Text) : markers t.trim = markers t := by
  obtain ⟨tail, right, blank⟩ := t.trimLeft.trimRight_append_blanks
  calc markers t.trim = markers (t.trim ++ tail) := (markers_append_blanks blank _).symm
    _ = markers t.trimLeft := congrArg markers right.symm
    _ = markers (t.takeWhile isBlank ++ t.trimLeft) :=
        (markers_blanks_append t.blank_takeWhile _).symm
    _ = markers t := by rw [Text.trimLeft, List.takeWhile_append_dropWhile]

theorem Reflow.markers_eq {a b : Text} (flow : Reflow a b) : markers a = markers b := by
  induction flow using Reflow.marker_induction with
  | nil => rfl
  | opening a b flow ih => exact congrArg (Marker.opening :: ·) ih
  | closing a b flow ih => exact congrArg (Marker.closing :: ·) ih
  | other c a b flow here there ih => rw [markers_other here, markers_other there, ih]
  | run u v a b left right blank blank' flow ih =>
      rw [markers_blanks_append blank, markers_blanks_append blank', ih]

/-! ## Moving -/

namespace Comment

section

variable {margin : Text} (blank : Blank margin) {column : Option Int} (known : ∀ n ∈ column, 0 ≤ n)
include blank known

theorem markers_reindent (comment : Text) :
    markers (reindent margin column comment) = markers comment := by
  rw [← (reflow_reindent blank known comment).markers_eq, markers_trim]

theorem closed_reindent_iff (kind : TokenKind) (comment : Text) :
    ClosedComment kind (reindent margin column comment) ↔ ClosedComment kind comment.trim := by
  refine ⟨fun closed => ?_, fun closed => closed.reindent blank known⟩
  cases kind with
  | lineComment =>
      have single : '\n' ∉ comment.trim :=
        mt (mem_reindent_iff margin column comment).mpr closed.not_mem_of_line
      rwa [reindent_of_single single] at closed
  | blockComment => exact closed.reflow_block (reflow_reindent blank known comment).symm
  | _ => cases closed.kind_isComment

end

theorem reindent_single_token (style : Style) (frame : Frame) {column : Option Int}
    (known : ∀ n ∈ column, 0 ≤ n) {comment : Text} {token last : Token}
    (single : (Cursor.ofSource comment).run.1 = [token, last])
    (kind : token.kind.isComment = true) (closed : token.unterminated = false) :
    let moved := reindent (frame.indent.render style) column comment
    (Cursor.ofSource moved).run.1 =
        [{ kind := token.kind, span := .ofLength 0 moved.length, unterminated := false },
          { kind := .endOfText, span := .emptyAt moved.length }] ∧
      markers moved = markers comment := by
  intro moved
  have blank : Blank (frame.indent.render style) := frame.indent.blank_render style
  have whole : ClosedComment token.kind comment :=
    closedComment_of_single (congrArg List.dropLast single) kind closed
  have still : ClosedComment token.kind moved :=
    (closed_reindent_iff blank known token.kind comment).mpr whole.trim
  exact ⟨still.run_ofSource, markers_reindent blank known comment⟩

theorem reindent_single_token_nested :
    let style : Style := { hardTabs := true }
    let frame : Frame := { width := 40, indent := { block := 4, align := 2 } }
    let comment : Text := "/*/ a /*\r\n  */  / \n\n     * / b\r */".toList
    let token : Token := { kind := .blockComment, span := .ofLength 0 34 }
    let last : Token := { kind := .endOfText, span := .emptyAt 34 }
    let moved := reindent (frame.indent.render style) (some 3) comment
    (∀ n ∈ some 3, (0 : Int) ≤ n) ∧ (Cursor.ofSource comment).run.1 = [token, last] ∧
      moved = "/*/ a /*\n\t  */  /\n\n\t    * / b\r */".toList ∧
      (Cursor.ofSource moved).run.1 =
        [{ kind := .blockComment, span := .ofLength 0 moved.length, unterminated := false },
          { kind := .endOfText, span := .emptyAt moved.length }] ∧
      markers moved = [.opening, .opening, .closing, .closing] := by
  intro style frame comment token last moved
  have known : ∀ n ∈ some 3, (0 : Int) ≤ n := by simp
  have single : (Cursor.ofSource comment).run.1 = [token, last] := by decide +kernel
  obtain ⟨tokens, same⟩ := reindent_single_token style frame known single rfl rfl
  refine ⟨known, single, by decide +kernel, tokens, same.trans ?_⟩
  decide +kernel

end Comment

end ItemLayout
