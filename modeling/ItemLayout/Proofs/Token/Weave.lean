import ItemLayout.Proofs.Text.Blanks
import ItemLayout.Proofs.Token.Views

/-!
# Comments woven into code

A text that grows by plain code, white space and closed comments has just these comments, and the
rest of it is the code, as long as a line comment is followed by a line break. `Weaves` says so of a
text that is not finished: whatever plain code and whatever comment come next, the tokens up to there
are known. Where a line comment is the end of a text, more on its line spoils it (`Woven.spoilt`).
-/

namespace ItemLayout

def inked (t : Text) : Text := t.filter fun c => !(isBlank c || isWhite c)

theorem inked_append (a b : Text) : inked (a ++ b) = inked a ++ inked b := List.filter_append ..

theorem White.inked {t : Text} (white : White t) : inked t = [] :=
  List.filter_eq_nil_iff.mpr fun c mem => by simp [white c mem]

theorem Blank.inked {t : Text} (blank : Blank t) : inked t = [] :=
  List.filter_eq_nil_iff.mpr fun c mem => by simp [blank c mem]

theorem inked_trimRight (t : Text) : inked t.trimRight = inked t := by
  obtain ⟨tail, split, blank⟩ := t.trimRight_append_blanks
  have parts := congrArg inked split
  rw [inked_append, blank.inked, List.append_nil] at parts
  exact parts.symm

theorem Plain.trimRight {t : Text} (plain : Plain t) : Plain t.trimRight := by
  obtain ⟨tail, split, -⟩ := t.trimRight_append_blanks
  rw [split] at plain
  exact plain.of_append.1

/-- The comments and the code, without white space, of a text that may go on. It is `pending` if it
ends in a line comment, which only a line break ends. -/
def Weaves (pending : Bool) (t : Text) (comments : List (TokenKind × Text)) (code : Text) : Prop :=
  ∀ u r, Plain u → AtComment r → (pending = true → AtBreak (u ++ r)) →
    ∃ ps, pieces (t ++ (u ++ r)) = ps ++ pieces r ∧
      (∀ piece ∈ ps, piece.unterminated = false) ∧
      (ps.filter (·.kind.isComment)).map (fun piece => (piece.kind, piece.text)) = comments ∧
      inked ((ps.filter (!·.kind.isComment)).flatMap Piece.text) = code ++ inked u

theorem Plain.weaves {t : Text} (plain : Plain t) : Weaves false t [] (inked t) := by
  intro u r next comment _
  have all := plain.append next
  refine ⟨pieces (t ++ u), ?_, fun piece mem => (pieces_plain all mem).2, ?_, ?_⟩
  · rw [← List.append_assoc, pieces_append all comment]
  · rw [all.filter_comment, List.map_nil]
  · rw [all.filter_code, flatMap_text_pieces, inked_append]

namespace Weaves

variable {pending : Bool} {t u : Text} {comments : List (TokenKind × Text)} {code : Text}

theorem code_append (weaves : Weaves pending t comments code) (plain : Plain u)
    (breaks : pending = true → ∀ r, AtBreak (u ++ r)) :
    Weaves false (t ++ u) comments (code ++ inked u) := by
  intro v r next comment _
  obtain ⟨ps, cut, closed, same, rest⟩ := weaves (u ++ v) r (plain.append next) comment fun line => by
    rw [List.append_assoc]
    exact breaks line _
  refine ⟨ps, ?_, closed, same, ?_⟩
  · rw [← cut, List.append_assoc, List.append_assoc]
  · rw [rest, inked_append, List.append_assoc]

theorem white_append (weaves : Weaves pending t comments code) (white : White u)
    (breaks : pending = true → ∀ r, AtBreak (u ++ r)) : Weaves false (t ++ u) comments code := by
  have longer := weaves.code_append white.plain breaks
  rwa [white.inked, List.append_nil] at longer

theorem comment_append {kind : TokenKind} (weaves : Weaves false t comments code)
    (closed : ClosedComment kind u) :
    Weaves (kind == .lineComment) (t ++ u) (comments ++ [(kind, u)]) code := by
  intro v r next comment ends
  -- The comment ends what stands before it; the code after it is cut on its own.
  obtain ⟨ps, cut, closed', same, rest⟩ := weaves [] (u ++ (v ++ r)) (by simp [Plain])
    (closed.atComment _) (by simp)
  rw [List.nil_append] at cut
  refine ⟨ps ++ { kind, text := u } :: pieces v, ?_, ?_, ?_, ?_⟩
  · rw [List.append_assoc, cut, pieces_comment closed fun line => ends (by simp [line]),
      pieces_append next comment, List.append_assoc]
    rfl
  · refine List.forall_mem_append.mpr ⟨closed', List.forall_mem_cons.mpr ⟨rfl, ?_⟩⟩
    exact fun piece mem => (pieces_plain next mem).2
  · rw [List.filter_append, List.filter_cons, closed.kind_isComment, next.filter_comment,
      List.map_append, same]
    rfl
  · rw [List.filter_append, List.filter_cons, closed.kind_isComment, next.filter_code,
      List.flatMap_append, inked_append, rest, List.append_assoc]
    exact congrArg (code ++ inked ·) (flatMap_text_pieces v)

theorem relax (weaves : Weaves false t comments code) (pending : Bool) :
    Weaves pending t comments code :=
  fun u r next comment _ => weaves u r next comment (by simp)

theorem finish_append (weaves : Weaves pending t comments code) (plain : Plain u)
    (breaks : pending = true → AtBreak u) :
    LeavesNothingOpen (t ++ u) ∧ commentsOf (t ++ u) = comments ∧
      inked (withoutComments (t ++ u)) = code ++ inked u := by
  obtain ⟨ps, cut, closed, same, rest⟩ :=
    weaves u [] plain (by simp [AtComment]) (by simpa using breaks)
  rw [List.append_nil, pieces_nil, List.append_nil] at cut
  rw [leavesNothingOpen_iff, commentsOf_eq, withoutComments_eq, cut]
  exact ⟨closed, same, rest⟩

theorem finish (weaves : Weaves pending t comments code) :
    LeavesNothingOpen t ∧ commentsOf t = comments ∧ inked (withoutComments t) = code := by
  have whole := weaves.finish_append (u := []) (by simp [Plain]) (by simp [AtBreak])
  simpa [inked] using whole

end Weaves

/-! ## Where a text stops -/

/-- A text as in `Weaves`. If it is `pending`, the last of its comments is its end. -/
def Woven (pending : Bool) (t : Text) (comments : List (TokenKind × Text)) (code : Text) : Prop :=
  if pending then
    ∃ front earlier comment, t = front ++ comment ∧
      comments = earlier ++ [(.lineComment, comment)] ∧ ClosedComment .lineComment comment ∧
      Weaves false front earlier code
  else Weaves false t comments code

/-- However the text goes on, its first comments are not these. -/
def Spoilt (t : Text) (comments : List (TokenKind × Text)) : Prop :=
  ∀ r, ¬comments <+: commentsOf (t ++ r)

section

variable {pending : Bool} {t u : Text} {comments : List (TokenKind × Text)} {code : Text}

theorem Weaves.woven (weaves : Weaves false t comments code) : Woven false t comments code := weaves

theorem Woven.weaves (woven : Woven pending t comments code) : Weaves pending t comments code := by
  cases pending with
  | false => exact woven
  | true =>
      obtain ⟨front, earlier, comment, rfl, rfl, closed, weaves⟩ := woven
      exact weaves.comment_append closed

theorem Weaves.comment_woven {kind : TokenKind} (weaves : Weaves false t comments code)
    (closed : ClosedComment kind u) :
    Woven (kind == .lineComment) (t ++ u) (comments ++ [(kind, u)]) code := by
  cases line : kind == .lineComment with
  | false =>
      have longer := weaves.comment_append closed
      rwa [line] at longer
  | true =>
      obtain rfl := beq_iff_eq.mp line
      exact ⟨t, comments, u, rfl, rfl, closed, weaves⟩

theorem Spoilt.append (spoilt : Spoilt t comments) (u : Text) (more : List (TokenKind × Text)) :
    Spoilt (t ++ u) (comments ++ more) := by
  intro r same
  rw [List.append_assoc] at same
  exact spoilt (u ++ r) ((List.prefix_append _ _).trans same)

theorem pieces_lineComment_append {comment : Text} (closed : ClosedComment .lineComment comment)
    (t : Text) :
    pieces (comment ++ t) =
      { kind := .lineComment, text := comment ++ t.takeWhile (!isBreak ·) } ::
        pieces (t.dropWhile (!isBreak ·)) := by
  have longer : ClosedComment .lineComment (comment ++ t.takeWhile (!isBreak ·)) := by
    cases closed with
    | line inside =>
        refine .line (List.forall_mem_append.mpr ⟨inside, fun c mem => ?_⟩)
        simpa using List.all_eq_true.mp List.all_takeWhile c mem
  have ends : AtBreak (t.dropWhile (!isBreak ·)) := by
    intro c head
    have stop := List.head?_dropWhile_not (!isBreak ·) t
    rw [Option.mem_def.mp head] at stop
    simpa using stop
  have cut := pieces_comment longer fun _ => ends
  rwa [List.append_assoc, List.takeWhile_append_dropWhile] at cut

theorem Woven.spoilt (woven : Woven true t comments code) (runs : ¬AtBreak u) :
    Spoilt (t ++ u) comments := by
  intro r same
  obtain ⟨front, earlier, comment, rfl, rfl, closed, weaves⟩ := woven
  obtain ⟨ps, cut, -, found, -⟩ := weaves [] (comment ++ (u ++ r)) (by simp [Plain])
    (closed.atComment _) (by simp)
  have taken : (u ++ r).takeWhile (!isBreak ·) ≠ [] := by
    cases u with
    | nil => exact absurd (by simp [AtBreak]) runs
    | cons c rest =>
        have inside : isBreak c = false := by simpa [AtBreak] using runs
        simp [inside]
  -- The token of the comment is longer than the comment.
  rw [commentsOf_eq, List.append_assoc, List.append_assoc, ← List.nil_append (comment ++ _), cut,
    pieces_lineComment_append closed, List.filter_append, List.map_append, found,
    List.filter_cons_of_pos rfl, List.map_cons, List.prefix_append_right_inj] at same
  obtain ⟨first, -⟩ := List.cons_prefix_cons.mp same
  exact taken (List.self_eq_append_right.mp (congrArg Prod.snd first))

theorem Spoilt.commentsOf_ne (spoilt : Spoilt t comments) (u : Text) :
    commentsOf (t ++ u) ≠ comments := by
  intro same
  exact spoilt u (same ▸ List.prefix_rfl)

theorem Woven.commentsOf_append_iff (woven : Woven pending t comments code) (plain : Plain u) :
    commentsOf (t ++ u) = comments ↔ (pending = true → AtBreak u) := by
  constructor
  · rintro same rfl
    refine Classical.byContradiction fun runs => (woven.spoilt runs).commentsOf_ne [] ?_
    rwa [List.append_nil]
  · intro breaks
    exact (woven.weaves.finish_append plain breaks).2.1

end

end ItemLayout
