import ItemLayout.Proofs.Token.Reader
import ItemLayout.Proofs.Token.Windows

/-!
# Nothing outside of a window counts

A lexer that holds the whole source returns what a cursor over the text of the window returns, since
its guards hide the rest (`Lexer.run_ofWindow`). A cursor that starts further on returns the same further
on (`Cursor.run_shift`), so tokens and diagnostics are those of the text alone. What is read off the
tokens, the comments of a gap and the place of a needle, is then the same in all sources that agree on
the window (`window_decides`). Only the columns of the comments depend on what stands in front of it.
-/

namespace ItemLayout

/-! ## Further on -/

def Span.shift (n : Nat) (span : Span) : Span :=
  ⟨n + span.start, n + span.stop, Nat.add_le_add_left span.ordered n⟩

def Token.shift (n : Nat) (token : Token) : Token := { token with span := token.span.shift n }

def Diagnostic.shift (n : Nat) (diagnostic : Diagnostic) : Diagnostic :=
  { diagnostic with span := diagnostic.span.shift n }

theorem Span.shift_ofLength (n offset length : Nat) :
    (Span.ofLength offset length).shift n = .ofLength (n + offset) length := by
  simp only [shift, ofLength, Nat.add_assoc]

namespace Cursor

def shift (n : Nat) (cursor : Cursor) : Cursor where
  rest := cursor.rest
  offset := n + cursor.offset
  mark := n + cursor.mark
  afterBreak := cursor.afterBreak
  diagnostics := cursor.diagnostics.map (Diagnostic.shift n)
  mark_le := Nat.add_le_add_left cursor.mark_le n

theorem next_shift (n : Nat) (cursor : Cursor) :
    (cursor.shift n).next = (cursor.next.1.shift n, cursor.next.2.shift n) := by
  obtain ⟨rest, offset, mark, afterBreak, diagnostics, ordered⟩ := cursor
  cases rest with
  | nil => rfl
  | cons c cs =>
      simp only [next, shift, ← Span.shift_ofLength]
      split
      · rw [List.map_append]
        rfl
      · rfl

theorem run_shift (n : Nat) (cursor : Cursor) :
    (cursor.shift n).run = (cursor.run.1.map (Token.shift n), cursor.run.2.shift n) := by
  induction cursor using run_induction with
  | done cursor done =>
      have shifted : (cursor.shift n).rest = [] := done
      rw [run_of_done shifted, run_of_done done, next_shift]
      rfl
  | step cursor more ih =>
      have shifted : (cursor.shift n).rest ≠ [] := more
      rw [run_of_more shifted, run_of_more more, next_shift, ih]
      rfl

theorem ofWindow_eq_shift (source : Text) (window : Span) :
    ofWindow source window = (ofSource (source.slice window)).shift window.start := by
  have whole : (source.slice window).slice (.ofLength 0 (source.slice window).length) =
      source.slice window := by
    exact List.take_of_length_le (Nat.le_of_eq (by simp [Span.ofLength, Span.length]))
  simp only [ofSource, shift, ofWindow, whole]
  rfl

end Cursor

namespace Lexer

theorem run_ofWindow (source : Text) (window : Span) :
    (ofWindow source window).run.1 = (Cursor.ofWindow source window).run.1 ∧
      (ofWindow source window).run.2.diagnostics =
        (Cursor.ofWindow source window).run.2.diagnostics := by
  rw [← cursor_ofWindow, run_cursor]
  exact ⟨rfl, rfl⟩

theorem run_slice (source : Text) (window : Span) :
    (ofWindow source window).run.1 =
        (ofSource (source.slice window)).run.1.map (Token.shift window.start) ∧
      (ofWindow source window).run.2.diagnostics =
        (ofSource (source.slice window)).run.2.diagnostics.map (Diagnostic.shift window.start) := by
  obtain ⟨tokens, diagnostics⟩ := run_ofWindow source window
  obtain ⟨tokens', diagnostics'⟩ := run_ofWindow (source.slice window) (.ofLength 0 _)
  rw [tokens, diagnostics, Cursor.ofWindow_eq_shift, Cursor.run_shift, ofSource, tokens', diagnostics']
  exact ⟨rfl, rfl⟩

end Lexer

/-! ## Sources that agree -/

def AgreeOn (source other : Text) (window : Span) : Prop :=
  ∀ i, window.start ≤ i → i < window.stop → source[i]? = other[i]?

section

variable {source other : Text} {window : Span}

theorem AgreeOn.slice_eq (agree : AgreeOn source other window) {span : Span}
    (starts : window.start ≤ span.start) (stops : span.stop ≤ window.stop) :
    source.slice span = other.slice span := by
  apply List.ext_getElem?
  intro i
  simp only [Text.slice, List.getElem?_take, List.getElem?_drop, Span.length]
  split
  · apply agree <;> omega
  · rfl

theorem AgreeOn.tokensIn_eq (agree : AgreeOn source other window) :
    tokensIn source window = tokensIn other window := by
  rw [tokensIn_eq_place, tokensIn_eq_place, agree.slice_eq (Nat.le_refl _) (Nat.le_refl _)]

theorem inside_of_mem_tokensIn {token : Token} (mem : token ∈ tokensIn source window) :
    window.start ≤ token.span.start ∧ token.span.stop ≤ window.stop := by
  have bounds := (tiles_tokensIn source window).bounds mem
  omega

def Gap.withoutColumns (gap : Gap) : Gap :=
  { gap with comments := gap.comments.map fun comment => { comment with column := 0 } }

theorem Gap.ofTokens_withoutColumns {tokens : List Token} (span : Span) (afterBreak : Bool)
    (same : ∀ token ∈ tokens, source.slice token.span = other.slice token.span) :
    (ofTokens source span afterBreak tokens).map withoutColumns =
      (ofTokens other span afterBreak tokens).map withoutColumns := by
  induction tokens generalizing afterBreak with
  | nil => rfl
  | cons token tokens ih =>
      obtain ⟨here, later⟩ := List.forall_mem_cons.mp same
      by_cases comment : token.kind.isComment = true ∧ token.unterminated = false
      · let put (gap : Gap) : Gap :=
          { gap with
            comments :=
              { text := (source.slice token.span).trimRight
                span := token.span
                isLine := token.kind == .lineComment
                afterBreak
                column := 0 } :: gap.comments }
        obtain ⟨comment, closed⟩ := comment
        rw [ofTokens_of_comment source span afterBreak tokens comment closed,
          ofTokens_of_comment other span afterBreak tokens comment closed, ← here]
        calc
          _ = ((ofTokens source span false tokens).map withoutColumns).map put := by
            cases ofTokens source span false tokens <;> rfl
          _ = ((ofTokens other span false tokens).map withoutColumns).map put := by
            rw [ih false later]
          _ = _ := by
            cases ofTokens other span false tokens <;> rfl
      · cases kind : token.kind with
        | spacing =>
            simp only [ofTokens, kind]
            exact ih afterBreak later
        | lineBreak =>
            simp only [ofTokens, kind]
            exact ih true later
        | lineComment | blockComment =>
            have unclosed : token.unterminated = true := by
              simpa [kind, TokenKind.isComment] using comment
            simp only [ofTokens, kind, unclosed, if_true]
        | _ => simp only [ofTokens, kind]

theorem AgreeOn.read_eq (agree : AgreeOn source other window) :
    (Gap.read source window).map Gap.withoutColumns =
      (Gap.read other window).map Gap.withoutColumns := by
  rw [Gap.read, Gap.read, ← agree.tokensIn_eq]
  refine Gap.ofTokens_withoutColumns window false fun token mem => ?_
  obtain ⟨starts, stops⟩ := inside_of_mem_tokensIn mem
  exact agree.slice_eq starts stops

end

namespace Document

variable {doc other : Document} {window : Span}

theorem standsAt_of_agree (agree : AgreeOn doc.source other.source window) (needle : Text)
    {token : Token} (mem : token ∈ tokensIn doc.source window) :
    doc.standsAt window needle token = other.standsAt window needle token := by
  obtain ⟨starts, stops⟩ := inside_of_mem_tokensIn mem
  unfold standsAt
  split
  · rfl
  · split
    · rfl
    · rename_i fits
      -- The needle ends inside of the window, so it does not matter what stands behind.
      let ahead : Span := ⟨token.span.start, window.stop, by omega⟩
      have within : needle.length ≤ ahead.length := by
        simp only [ahead, Span.length]
        omega
      have prefixes (source : Text) : needle.isPrefixOf (source.drop token.span.start) =
          needle.isPrefixOf (source.slice ahead) := by
        rw [Bool.eq_iff_iff, List.isPrefixOf_iff_prefix, List.isPrefixOf_iff_prefix, Text.slice,
          List.prefix_take_iff]
        exact (and_iff_left within).symm
      have same : doc.source.slice ahead = other.source.slice ahead :=
        agree.slice_eq starts (Nat.le_refl _)
      rw [agree.slice_eq starts stops, prefixes, prefixes, same]

theorem find?_of_agree (agree : AgreeOn doc.source other.source window) (needle : Text) :
    doc.find? window needle = other.find? window needle := by
  have same : (tokensIn doc.source window).filter (doc.standsAt window needle) =
      (tokensIn doc.source window).filter (other.standsAt window needle) :=
    List.filter_congr fun token mem => standsAt_of_agree agree needle mem
  rw [find?, find?, ← List.head?_filter, ← List.head?_filter, same, agree.tokensIn_eq]

theorem find_of_agree (agree : AgreeOn doc.source other.source window)
    (inside : window.stop ≤ doc.source.length) (inside' : window.stop ≤ other.source.length)
    (needle : Text) : doc.find window needle = other.find window needle := by
  have text : doc.textAt window = other.textAt window := by
    rw [textAt, textAt, if_pos inside, if_pos inside',
      agree.slice_eq (Nat.le_refl _) (Nat.le_refl _)]
  rw [find, find, find?_of_agree agree, text]

end Document

theorem window_decides (doc other : Document) (window : Span) :
    ((Lexer.ofWindow doc.source window).run.1 =
        (Lexer.ofSource (doc.source.slice window)).run.1.map (Token.shift window.start) ∧
      (Lexer.ofWindow doc.source window).run.2.diagnostics =
        (Lexer.ofSource (doc.source.slice window)).run.2.diagnostics.map
          (Diagnostic.shift window.start)) ∧
    ((Lexer.ofWindow doc.source window).run.1 = (Cursor.ofWindow doc.source window).run.1 ∧
      (Lexer.ofWindow doc.source window).run.2.diagnostics =
        (Cursor.ofWindow doc.source window).run.2.diagnostics) ∧
    (window.stop ≤ doc.source.length → window.stop ≤ other.source.length →
      AgreeOn doc.source other.source window →
      (Gap.read doc.source window).map Gap.withoutColumns =
          (Gap.read other.source window).map Gap.withoutColumns ∧
        ∀ needle, doc.find? window needle = other.find? window needle ∧
          doc.find window needle = other.find window needle) := by
  refine ⟨Lexer.run_slice doc.source window, Lexer.run_ofWindow doc.source window,
    fun inside inside' agree => ⟨agree.read_eq, fun needle => ⟨?_, ?_⟩⟩⟩
  · exact Document.find?_of_agree agree needle
  · exact Document.find_of_agree agree inside inside' needle

theorem window_decides_two_sources :
    let doc : Document := { source := "pub /* a */ fn f".toList }
    let other : Document := { source := "x\ny /* a */ fnord".toList }
    let gap : Span := .ofLength 3 8
    let window : Span := .ofLength 3 11
    let raw : Document := { source := "= r#\"a\"#;".toList }
    (window.stop ≤ doc.source.length ∧ window.stop ≤ other.source.length ∧
        AgreeOn doc.source other.source window ∧ AgreeOn doc.source other.source gap) ∧
      (Gap.read doc.source gap).map Gap.withoutColumns =
        (Gap.read other.source gap).map Gap.withoutColumns ∧
      other.find window "fn".toList = .ok 12 ∧
      (Lexer.ofWindow other.source window).run.1 =
        (Lexer.ofSource " /* a */ fn".toList).run.1.map (Token.shift 3) ∧
      (Lexer.ofWindow raw.source (.ofLength 2 5)).run.1 =
        [{ kind := .string, span := .ofLength 2 5, unterminated := true, raw := true },
          { kind := .endOfText, span := .emptyAt 7 }] := by
  intro doc other gap window raw
  have inside : window.stop ≤ doc.source.length ∧ window.stop ≤ other.source.length := by decide
  have same : ∀ i, i < 14 → 3 ≤ i → doc.source[i]? = other.source[i]? := by decide +kernel
  have agree : AgreeOn doc.source other.source window := fun i low high => same i high low
  have agree' : AgreeOn doc.source other.source gap := fun i low high =>
    same i (Nat.lt_of_lt_of_le high (by decide)) low
  have found : doc.find window "fn".toList = .ok 12 := eq_ok_of_toOption (by decide +kernel)
  obtain ⟨-, -, gaps⟩ := window_decides doc other gap
  obtain ⟨-, -, needles⟩ := window_decides doc other window
  obtain ⟨⟨tokens, -⟩, -⟩ := window_decides other doc window
  -- The window ends between the quote and the hash that close the string.
  obtain ⟨-, ⟨cut, -⟩, -⟩ := window_decides raw doc (.ofLength 2 5)
  refine ⟨⟨inside.1, inside.2, agree, agree'⟩, (gaps (by decide) (by decide) agree').1, ?_, tokens,
    cut.trans (by decide +kernel)⟩
  rw [← ((needles inside.1 inside.2 agree).2 "fn".toList).2, found]

end ItemLayout
