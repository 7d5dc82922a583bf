import ItemLayout.Proofs.Comment.Trivia
import ItemLayout.Proofs.Token.Unclosed

namespace ItemLayout

def IsBlockComment (t : Text) : Prop := ∃ body, t = '/' :: '*' :: body ∧ BlockBody body

/-! ## The comment in front -/

theorem scan_lineComment_iff (t : Text) : (scan t).kind = .lineComment ↔ ['/', '/'] <+: t := by
  constructor
  · intro kind
    rcases scan_comment_cases (by rw [kind]; rfl) with ⟨rest, rfl⟩ | ⟨rest, rfl⟩
    · exact List.prefix_append ['/', '/'] rest
    · rw [scan_blockComment, Lexeme.delimited_kind] at kind
      cases kind
  · rintro ⟨rest, rfl⟩
    exact congrArg Lexeme.kind (scan_lineComment rest)

theorem scan_blockComment_iff (t : Text) : (scan t).kind = .blockComment ↔ ['/', '*'] <+: t := by
  constructor
  · intro kind
    rcases scan_comment_cases (by rw [kind]; rfl) with ⟨rest, rfl⟩ | ⟨rest, rfl⟩
    · rw [scan_lineComment] at kind
      cases kind
    · exact List.prefix_append ['/', '*'] rest
  · rintro ⟨rest, rfl⟩
    exact (congrArg Lexeme.kind (scan_blockComment rest)).trans (Lexeme.delimited_kind _ _ _ _ _)

theorem isBlockComment_take {rest : Text} {n : Nat} (closed : blockCommentLength 0 rest = some n) :
    IsBlockComment ('/' :: '*' :: rest.take n) := by
  have length : (rest.take n).length = n := List.length_take_of_le (blockCommentLength_le closed)
  refine ⟨rest.take n, rfl, blockBody_of_closed ?_⟩
  rw [blockCommentLength_take closed, length]

theorem isBlockComment_prefix {t rest : Text} (comment : IsBlockComment t)
    (starts : t <+: '/' :: '*' :: rest) :
    ∃ n, blockCommentLength 0 rest = some n ∧ t = '/' :: '*' :: rest.take n := by
  obtain ⟨body, rfl, valid⟩ := comment
  obtain ⟨behind, rfl⟩ : body <+: rest := by simpa [List.cons_prefix_cons] using starts
  exact ⟨body.length, blockCommentLength_append behind valid.closed, by rw [List.take_left]⟩

theorem front_blockComment {t : Text} (kind : (scan t).kind = .blockComment) :
    ((Piece.front t).unterminated = false ∧ IsBlockComment (Piece.front t).text ∧
      ∀ other, IsBlockComment other → other <+: t → other = (Piece.front t).text) ∨
    ((Piece.front t).unterminated = true ∧ ∀ other, IsBlockComment other → ¬ other <+: t) := by
  obtain ⟨rest, rfl⟩ := (scan_blockComment_iff t).mp kind
  have first := scan_blockComment rest
  simp only [Piece.front, List.cons_append, List.nil_append, first]
  cases closed : blockCommentLength 0 rest with
  | some n =>
      have text : ('/' :: '*' :: rest).take (2 + n) = '/' :: '*' :: rest.take n := by
        rw [Nat.add_comm, List.take_succ_cons, List.take_succ_cons]
      refine .inl ⟨rfl, text ▸ isBlockComment_take closed, fun other comment starts => ?_⟩
      -- Both have the length that counting finds.
      obtain ⟨m, found, same⟩ := isBlockComment_prefix comment starts
      obtain rfl := Option.some.inj (found.symm.trans closed)
      exact same.trans text.symm
  | none =>
      refine .inr ⟨rfl, fun other comment starts => ?_⟩
      obtain ⟨m, found, -⟩ := isBlockComment_prefix comment starts
      rw [closed] at found
      cases found

theorem front_lineComment {t : Text} (kind : (scan t).kind = .lineComment) :
    (Piece.front t).unterminated = false ∧ ['/', '/'] <+: (Piece.front t).text ∧
      (∀ c ∈ (Piece.front t).text, isBreak c = false) ∧ AtBreak (t.drop (scan t).length) := by
  obtain ⟨rest, rfl⟩ := (scan_lineComment_iff t).mp kind
  have first := scan_lineComment rest
  have text : ('/' :: '/' :: rest).take (2 + (rest.takeWhile (!isBreak ·)).length) =
      '/' :: '/' :: rest.takeWhile (!isBreak ·) := by
    rw [Nat.add_comm, List.take_succ_cons, List.take_succ_cons,
      ← List.prefix_iff_eq_take.mp (List.takeWhile_prefix _)]
  have inside : ∀ c ∈ rest.takeWhile (!isBreak ·), isBreak c = false := by
    intro c mem
    simpa using List.all_eq_true.mp List.all_takeWhile c mem
  refine ⟨congrArg Lexeme.unterminated first, ?_, ?_, atBreak_behind_lineComment rest⟩
  · simp only [Piece.front, List.cons_append, List.nil_append, first, text]
    exact List.prefix_append ['/', '/'] _
  · simp only [Piece.front, List.cons_append, List.nil_append, first, text]
    exact List.forall_mem_cons.mpr ⟨rfl, List.forall_mem_cons.mpr ⟨rfl, inside⟩⟩

/-! ## The comment tokens of a window -/

section

variable {source : Text} {window : Span} {token : Token}

theorem front_of_mem_tokensIn (mem : token ∈ tokensIn source window) :
    let left := (source.take (min window.stop source.length)).drop token.span.start
    left ≠ [] ∧ Piece.front left = token.piece source := by
  obtain ⟨before, after, split⟩ := List.append_of_mem mem
  obtain ⟨more, first, -⟩ := front_of_split split
  exact ⟨more, first⟩

theorem blockComment_ends (mem : token ∈ tokensIn source window)
    (kind : token.kind = .blockComment) :
    let left := (source.take (min window.stop source.length)).drop token.span.start
    (token.unterminated = false ∧ IsBlockComment (token.text source) ∧ token.text source <+: left ∧
      ∀ other, IsBlockComment other → other <+: left → other = token.text source) ∨
    (token.unterminated = true ∧ token.span.stop = min window.stop source.length ∧
      ∀ other, IsBlockComment other → ¬ other <+: left) := by
  obtain ⟨-, first⟩ := front_of_mem_tokensIn mem
  intro left
  have text : token.text source = left.take (scan left).length := (congrArg Piece.text first).symm
  have ends := front_blockComment ((congrArg Piece.kind first).trans kind)
  rw [first] at ends
  rcases ends with ⟨closed, comment, only⟩ | ⟨unclosed, none⟩
  · exact .inl ⟨closed, comment, text ▸ List.take_prefix _ left, only⟩
  · obtain ⟨before, after, split⟩ := List.append_of_mem mem
    obtain ⟨-, stop, -⟩ := unterminated_of_split split unclosed
    exact .inr ⟨unclosed, stop, none⟩

theorem lineComment_ends (mem : token ∈ tokensIn source window) (kind : token.kind = .lineComment) :
    let limit := min window.stop source.length
    token.unterminated = false ∧ ['/', '/'] <+: token.text source ∧
      (∀ c ∈ token.text source, isBreak c = false) ∧
      (token.span.stop = limit ∨
        token.span.stop < limit ∧ ∃ c, isBreak c = true ∧ source[token.span.stop]? = some c) := by
  intro limit
  obtain ⟨more, first⟩ := front_of_mem_tokensIn mem
  obtain ⟨closed, opens, inside, ends⟩ :=
    front_lineComment ((congrArg Piece.kind first).trans kind)
  rw [← Piece.length_front more, List.drop_drop] at ends
  rw [first] at closed opens inside ends
  rw [show (token.piece source).text = token.text source from rfl,
    length_of_mem_tokensIn mem] at ends
  refine ⟨closed, opens, inside, ?_⟩
  have bounds := (tiles_tokensIn source window).bounds mem
  rcases Nat.lt_or_ge token.span.stop limit with before | behind
  · have here : token.span.stop < source.length := by omega
    refine .inr ⟨before, source[token.span.stop], ends _ ?_, List.getElem?_eq_getElem here⟩
    rw [Option.mem_def, List.head?_drop, List.getElem?_take_of_lt before,
      List.getElem?_eq_getElem here]
  · exact .inl (by omega)

end

theorem isBreak_iff_mem (c : Char) :
    isBreak c = true ↔ c ∈ ['\r', '\n', '\u0085', '\u2028', '\u2029'] := by
  simp [isBreak, or_assoc]

theorem comment_tokens_end (source : Text) (window : Option Span) :
    let cursor := window.elim (Cursor.ofSource source) (Cursor.ofWindow source)
    let limit := window.elim source.length fun window => min window.stop source.length
    let breaks := ['\r', '\n', '\u0085', '\u2028', '\u2029']
    ∀ token ∈ cursor.run.1,
      let left := (source.take limit).drop token.span.start
      (token.kind = .blockComment →
        (token.unterminated = false ∧ IsBlockComment (token.text source) ∧
          token.text source <+: left ∧
          ∀ other, IsBlockComment other → other <+: left → other = token.text source) ∨
        (token.unterminated = true ∧ token.span.stop = limit ∧
          ∀ other, IsBlockComment other → ¬ other <+: left)) ∧
      (token.kind = .lineComment →
        token.unterminated = false ∧ ['/', '/'] <+: token.text source ∧
        (∀ c ∈ token.text source, c ∉ breaks) ∧
        (token.span.stop = limit ∨
          token.span.stop < limit ∧ ∃ c ∈ breaks, source[token.span.stop]? = some c)) ∧
      (token.kind = .blockComment ↔ ['/', '*'] <+: left) ∧
      (token.kind = .lineComment ↔ ['/', '/'] <+: left) := by
  obtain ⟨covered, cursor, limit⟩ := Cursor.exists_window source window
  simp only [cursor, limit, ← isBreak_iff_mem, Bool.not_eq_true]
  rw [run_ofWindow, List.forall_mem_append, List.forall_mem_singleton]
  refine ⟨fun token mem => ?_, ?_⟩
  · have kind : (scan _).kind = token.kind := congrArg Piece.kind (front_of_mem_tokensIn mem).2
    refine ⟨blockComment_ends mem, lineComment_ends mem, ?_, ?_⟩
    · rw [← kind, scan_blockComment_iff]
    · rw [← kind, scan_lineComment_iff]
  · have none : (source.take (min covered.stop source.length)).drop
        (covered.start + (source.slice covered).length) = [] := by
      rw [List.drop_eq_nil_iff, List.length_take, Text.length_slice]
      omega
    simp [Span.emptyAt, none]

theorem comment_tokens_end_nested :
    let source := "/*/ /**/ */// b\u2028/*/ */".toList
    let tokens := (Cursor.ofWindow source (.ofLength 0 19)).run.1
    let nested : Token := { kind := .blockComment, span := .ofLength 0 11 }
    let line : Token := { kind := .lineComment, span := .ofLength 11 4 }
    let cut : Token :=
      { kind := .blockComment, span := .ofLength 16 3, afterBreak := true, unterminated := true }
    (nested ∈ tokens ∧ line ∈ tokens ∧ cut ∈ tokens) ∧
      IsBlockComment "/*/ /**/ */".toList ∧
      (∀ other, IsBlockComment other → other <+: "/*/ /**/ */// b\u2028/*/".toList →
        other = "/*/ /**/ */".toList) ∧
      (∃ c ∈ ['\r', '\n', '\u0085', '\u2028', '\u2029'], source[15]? = some c) ∧
      ∀ other, IsBlockComment other → ¬ other <+: "/*/".toList := by
  intro source tokens nested line cut
  have mem : nested ∈ tokens ∧ line ∈ tokens ∧ cut ∈ tokens := by decide +kernel
  have ends := comment_tokens_end source (some (.ofLength 0 19))
  obtain ⟨closed, -⟩ := ends nested mem.1
  obtain ⟨-, breaks, -⟩ := ends line mem.2.1
  obtain ⟨unclosed, -⟩ := ends cut mem.2.2
  refine ⟨mem, ?_⟩
  rcases closed rfl with ⟨-, comment, -, only⟩ | ⟨other, -⟩
  · rcases breaks rfl with ⟨-, -, -, stop | ⟨-, stop⟩⟩
    · exact absurd stop (by decide)
    · rcases unclosed rfl with ⟨other, -⟩ | ⟨-, -, none⟩
      · cases other
      · exact ⟨comment, only, stop, none⟩
  · cases other

end ItemLayout
