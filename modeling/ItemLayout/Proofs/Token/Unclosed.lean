import ItemLayout.Proofs.Token.Windows
import ItemLayout.Token.Listing

namespace ItemLayout

/-! ## The token in front -/

theorem Lexeme.delimited_unterminated {kind : TokenKind} {raw : Bool} {opening : Nat} {body : Text}
    {closed : Option Nat}
    (unclosed : (Lexeme.delimited kind raw opening body closed).unterminated = true) :
    (Lexeme.delimited kind raw opening body closed).length = opening + body.length := by
  cases closed with
  | none => rfl
  | some n => cases unclosed

theorem trivia?_unterminated {t : Text} {lexeme : Lexeme} (found : trivia? t = some lexeme)
    (unclosed : lexeme.unterminated = true) :
    lexeme.length = t.length ∧ lexeme.kind = .blockComment := by
  rcases trivia?_cases found with
    ⟨rest, rfl, rfl⟩ | ⟨rest, rfl, rfl⟩ | ⟨c, rest, rfl, -, rfl⟩ | ⟨c, rest, rfl, -, rfl⟩
  · cases unclosed
  · rw [Lexeme.delimited_unterminated unclosed, Lexeme.delimited_kind]
    exact ⟨Nat.add_comm 2 rest.length, rfl⟩
  · cases unclosed
  · cases unclosed

theorem rawString?_unterminated {letters : Nat} {t : Text} {lexeme : Lexeme}
    (found : rawString? letters t = some lexeme) (unclosed : lexeme.unterminated = true) :
    lexeme.length = letters + t.length := by
  obtain ⟨hashes, body, rfl⟩ := rawString?_cases found
  rw [rawString?_quote] at found
  obtain rfl := Option.some.inj found
  rw [Lexeme.delimited_unterminated unclosed, List.length_append, List.length_replicate,
    List.length_cons]
  omega

theorem quoted_unterminated (t : Text) : (quoted t).unterminated = false := by
  unfold quoted
  split <;> rfl

theorem literal?_unterminated {t : Text} {lexeme : Lexeme} (found : literal? t = some lexeme)
    (unclosed : lexeme.unterminated = true) :
    lexeme.length = t.length ∧ lexeme.kind = .string := by
  rcases literal?_cases found with
    ⟨rest, rfl, rfl⟩ | ⟨rest, rfl, rfl⟩ | ⟨rest, rfl, found⟩ | ⟨rest, rfl, rfl⟩ | ⟨rest, rfl, found⟩
  · rw [Lexeme.delimited_unterminated unclosed, Lexeme.delimited_kind]
    exact ⟨Nat.add_comm 1 rest.length, rfl⟩
  · rw [quoted_unterminated] at unclosed
    cases unclosed
  · rw [rawString?_unterminated found unclosed]
    exact ⟨Nat.add_comm 1 rest.length, rawString?_kind found⟩
  · rw [Lexeme.delimited_unterminated unclosed, Lexeme.delimited_kind]
    exact ⟨Nat.add_comm 2 rest.length, rfl⟩
  · rw [rawString?_unterminated found unclosed]
    exact ⟨Nat.add_comm 2 rest.length, rawString?_kind found⟩

theorem scan_unterminated {t : Text} (unclosed : (scan t).unterminated = true) :
    (scan t).length = t.length ∧ ((scan t).kind = .string ∨ (scan t).kind = .blockComment) := by
  rcases scan_cases t with found | ⟨-, found⟩ | ⟨-, -, found⟩ | ⟨-, -, -, found⟩
  · obtain ⟨length, kind⟩ := trivia?_unterminated found unclosed
    exact ⟨length, .inr kind⟩
  · obtain ⟨length, kind⟩ := literal?_unterminated found unclosed
    exact ⟨length, .inl kind⟩
  · rw [word?_unterminated found] at unclosed
    cases unclosed
  · have closed : (symbol t).unterminated = false := by cases t <;> rfl
    rw [found, closed] at unclosed
    cases unclosed

/-! ## The tokens of a window -/

section

variable {source : Text} {window : Span} {before after : List Token} {token : Token}

theorem unterminated_of_split (split : tokensIn source window = before ++ token :: after)
    (unclosed : token.unterminated = true) :
    after = [] ∧ token.span.stop = min window.stop source.length ∧
      (token.kind = .string ∨ token.kind = .blockComment) := by
  obtain ⟨-, first, rest⟩ := front_of_split split
  have left := congrArg Piece.unterminated first
  obtain ⟨length, kind⟩ := scan_unterminated (left.trans unclosed)
  have last : after = [] := by
    rw [length, List.drop_length, pieces_nil] at rest
    exact List.map_eq_nil_iff.mp rest.symm
  have tiles := tiles_tokensIn source window
  rw [split, last] at tiles
  obtain ⟨start, early, rfl, more, stop⟩ := Tiles.append.mp tiles
  have forward := early.start_le_stop
  have ends : token.span.stop = max window.start (min window.stop source.length) := stop
  refine ⟨last, by omega, ?_⟩
  rwa [← show (Piece.front _).kind = token.kind from congrArg Piece.kind first]

theorem closed_before (split : tokensIn source window = before ++ token :: after) :
    ∀ other ∈ before, other.unterminated = false := by
  intro other mem
  obtain ⟨early, late, rfl⟩ := List.append_of_mem mem
  cases state : other.unterminated with
  | false => rfl
  | true =>
      have here : tokensIn source window = early ++ other :: (late ++ token :: after) := by
        rw [split, List.append_assoc, List.cons_append]
      obtain ⟨none, -, -⟩ := unterminated_of_split here state
      simp at none

end

/-! ## The diagnostics of a run -/

namespace Cursor

def report (token : Token) : List Diagnostic :=
  if token.unterminated then [(openNotice token.kind).locate token.span] else []

theorem next_diagnostics (cursor : Cursor) :
    cursor.next.2.diagnostics = cursor.diagnostics ++ report cursor.next.1 := by
  unfold next report
  split
  · simp
  · simp only
    split <;> simp

theorem run_diagnostics (cursor : Cursor) :
    cursor.run.2.diagnostics = cursor.diagnostics ++ cursor.run.1.flatMap report := by
  induction cursor using run_induction with
  | done cursor done =>
      rw [run_of_done done, next_diagnostics, List.flatMap_singleton]
  | step cursor more ih =>
      rw [run_of_more more, ih, next_diagnostics, List.flatMap_cons, List.append_assoc]

theorem next_next {cursor : Cursor} (done : cursor.rest = []) :
    cursor.next.2.next = (cursor.next.1, cursor.next.2) := by
  obtain ⟨rest, offset, mark, afterBreak, diagnostics, ordered⟩ := cursor
  subst done
  rfl

theorem run_ends (cursor : Cursor) :
    ∃ body final, cursor.run.1 = body ++ [final] ∧ cursor.run.2.next = (final, cursor.run.2) := by
  induction cursor using run_induction with
  | done cursor done =>
      rw [run_of_done done]
      exact ⟨[], _, rfl, next_next done⟩
  | step cursor more ih =>
      obtain ⟨body, final, tokens, last⟩ := ih
      rw [run_of_more more]
      exact ⟨cursor.next.1 :: body, final, congrArg (cursor.next.1 :: ·) tokens, last⟩

def nexts : Nat → Cursor → List Token × Cursor
  | 0, cursor => ([], cursor)
  | n + 1, cursor =>
      let (tokens, last) := nexts n cursor.next.2
      (cursor.next.1 :: tokens, last)

theorem nexts_of_next {cursor : Cursor} {final : Token} (stays : cursor.next = (final, cursor))
    (n : Nat) : cursor.nexts n = (List.replicate n final, cursor) := by
  induction n with
  | zero => rfl
  | succ n ih => simp only [nexts, stays, ih, List.replicate_succ]

def endsOpen (tokens : List Token) : Bool := tokens.dropLast.getLast?.any (·.unterminated)

theorem flatMap_report_of_closed {tokens : List Token}
    (closed : ∀ token ∈ tokens, token.unterminated = false) : tokens.flatMap report = [] := by
  refine List.flatMap_eq_nil_iff.mpr fun token mem => ?_
  rw [report, closed token mem]
  rfl

theorem run_ofWindow_diagnostics (source : Text) (window : Span) :
    (ofWindow source window).run.2.diagnostics =
      (tokensIn source window).getLast?.toList.flatMap report := by
  have fresh : (ofWindow source window).diagnostics = [] := rfl
  rw [run_diagnostics, fresh, List.nil_append, run_ofWindow, List.flatMap_append,
    flatMap_report_of_closed (List.forall_mem_singleton.mpr rfl), List.append_nil]
  rcases List.eq_nil_or_concat (tokensIn source window) with none | ⟨before, token, split⟩
  · rw [none]
    rfl
  · rw [List.concat_eq_append] at split
    rw [split, List.flatMap_append, flatMap_report_of_closed (closed_before split),
      List.getLast?_concat]
    rfl

theorem openNotice_severity (kind : TokenKind) : (openNotice kind).severity = .error := by
  unfold openNotice
  split <;> rfl

theorem hasErrors_report (token : Token) : hasErrors (report token) = token.unterminated := by
  unfold report
  cases token.unterminated with
  | false => rfl
  | true => simp [hasErrors, Notice.locate, openNotice_severity]

theorem hasErrors_run (source : Text) (window : Span) :
    hasErrors (ofWindow source window).run.2.diagnostics =
      endsOpen (ofWindow source window).run.1 := by
  rw [run_ofWindow_diagnostics, endsOpen, run_ofWindow, List.dropLast_concat]
  cases (tokensIn source window).getLast? with
  | none => rfl
  | some token =>
      rw [Option.toList_some, List.flatMap_singleton]
      exact hasErrors_report token

theorem nexts_run (source : Text) (window : Span) (n : Nat) :
    (ofWindow source window).run.2.nexts n =
      (List.replicate n
        { kind := .endOfText, span := .emptyAt (window.start + (source.slice window).length) },
        (ofWindow source window).run.2) := by
  obtain ⟨body, final, tokens, stays⟩ := run_ends (ofWindow source window)
  rw [run_ofWindow] at tokens
  have same := congrArg List.getLast? tokens
  rw [List.getLast?_concat, List.getLast?_concat] at same
  rw [nexts_of_next stays, Option.some.inj same]

theorem status_ofBytes {bytes : List Nat} {report : Listing.Report}
    (readable : Listing.ofBytes bytes = .ok report) :
    ∃ text, Utf8.decode bytes = .ok text ∧
      report.status = (endsOpen (ofSource text.unifyBreaks).run.1).toNat := by
  unfold Listing.ofBytes at readable
  cases decoded : Utf8.decode bytes with
  | error fault =>
      rw [decoded] at readable
      cases readable
  | ok text =>
      rw [decoded] at readable
      cases readable
      have errors := hasErrors_run text.unifyBreaks (.ofLength 0 text.unifyBreaks.length)
      exact ⟨text, rfl, congrArg Bool.toNat errors⟩

theorem run_reports (source : Text) (window : Option Span) :
    let cursor := window.elim (ofSource source) (ofWindow source)
    let limit := window.elim source.length fun window => min window.stop source.length
    (∃ body final, cursor.run.1 = body ++ [final] ∧ final.kind = .endOfText ∧
      final.unterminated = false ∧ (∀ token ∈ body, token.kind ≠ .endOfText) ∧
      (∀ before token after, body = before ++ token :: after → token.unterminated = true →
        (∀ other ∈ before, other.unterminated = false) ∧ after = [] ∧ token.span.stop = limit ∧
        (token.kind = .string ∧ cursor.run.2.diagnostics = [Notice.openString.locate token.span] ∨
          token.kind = .blockComment ∧
            cursor.run.2.diagnostics = [Notice.openComment.locate token.span])) ∧
      ((∀ token ∈ body, token.unterminated = false) → cursor.run.2.diagnostics = []) ∧
      ∀ n, cursor.run.2.nexts n = (List.replicate n final, cursor.run.2)) ∧
    (hasErrors cursor.run.2.diagnostics = true ↔ endsOpen cursor.run.1 = true) ∧
    ∀ bytes report, Listing.ofBytes bytes = .ok report → ∃ text, Utf8.decode bytes = .ok text ∧
      (report.status = 1 ↔ endsOpen (ofSource text.unifyBreaks).run.1 = true) := by
  obtain ⟨covered, cursor, limit⟩ := exists_window source window
  simp only [cursor, limit]
  refine ⟨⟨tokensIn source covered, _, run_ofWindow source covered, rfl, rfl,
    fun token => kind_of_mem_tokensIn, ?_, ?_, nexts_run source covered⟩, ?_, ?_⟩
  · intro before token after split unclosed
    obtain ⟨last, stop, kind⟩ := unterminated_of_split split unclosed
    refine ⟨closed_before split, last, stop, ?_⟩
    have reported : (ofWindow source covered).run.2.diagnostics =
        [(openNotice token.kind).locate token.span] := by
      rw [run_ofWindow_diagnostics, split, last, List.getLast?_concat, Option.toList_some,
        List.flatMap_singleton, report, if_pos unclosed]
    rw [reported]
    exact kind.imp (fun kind => ⟨kind, by rw [kind]; rfl⟩) fun kind => ⟨kind, by rw [kind]; rfl⟩
  · intro closed
    rw [run_ofWindow_diagnostics]
    exact flatMap_report_of_closed fun token mem =>
      closed token (List.mem_of_getLast? (Option.mem_toList.mp mem))
  · rw [hasErrors_run]
  · intro bytes report readable
    obtain ⟨text, decoded, status⟩ := status_ofBytes readable
    refine ⟨text, decoded, ?_⟩
    rw [status]
    cases endsOpen (ofSource text.unifyBreaks).run.1 <;> decide

theorem run_reports_cut_comment :
    let source : Text := "a /* \"b\" */".toList
    let window : Span := .ofLength 1 6
    let token : Token := { kind := .blockComment, span := .ofLength 2 5, unterminated := true }
    let cursor := ofWindow source window
    let bytes := [0x22, 0xC3, 0xA9, 0x0D, 0x0A]
    cursor.run.1.dropLast = [{ kind := .spacing, span := .ofLength 1 1 }, token] ∧
      token.span.stop = min window.stop source.length ∧
      cursor.run.2.diagnostics = [Notice.openComment.locate token.span] ∧
      hasErrors cursor.run.2.diagnostics = true ∧
      ∃ report, Listing.ofBytes bytes = .ok report ∧ report.status = 1 := by
  intro source window token cursor bytes
  have tokens : cursor.run.1.dropLast = [{ kind := .spacing, span := .ofLength 1 1 }, token] := by
    decide +kernel
  have decoded : Utf8.decode bytes = .ok "\"é\r\n".toList := eq_ok_of_toOption (by decide +kernel)
  have readable : Listing.ofBytes bytes = .ok (Listing.ofFile "\"é\r\n".toList) := by
    rw [Listing.ofBytes, decoded]
    rfl
  obtain ⟨⟨body, final, whole, -, -, -, opened, -, -⟩, errors, files⟩ :=
    run_reports source (some window)
  have split : body = [{ kind := .spacing, span := .ofLength 1 1 }] ++ token :: [] := by
    have front := congrArg List.dropLast whole
    rw [List.dropLast_concat] at front
    exact front.symm.trans tokens
  obtain ⟨-, -, stop, kind⟩ := opened _ token [] split rfl
  have unclosed : endsOpen cursor.run.1 = true := by
    rw [endsOpen, tokens]
    rfl
  obtain ⟨text, decoded', status⟩ := files bytes _ readable
  obtain rfl := Except.ok.inj (decoded'.symm.trans decoded)
  refine ⟨tokens, stop, ?_, errors.mpr unclosed, _, readable, status.mpr (by decide +kernel)⟩
  rcases kind with ⟨other, -⟩ | ⟨-, reported⟩
  · cases other
  · exact reported

end Cursor

end ItemLayout
