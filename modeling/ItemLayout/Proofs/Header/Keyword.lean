import ItemLayout.Header.Part
import ItemLayout.Proofs.Token.Lookup

namespace ItemLayout

def IsIdentifier (t : Text) : Prop :=
  ∃ token, tokensIn t (.ofLength 0 t.length) = [token] ∧ token.kind = .identifier

theorem IsIdentifier.scan_kind {t : Text} (single : IsIdentifier t) :
    (scan t).kind = .identifier := by
  obtain ⟨token, tokens, kind⟩ := single
  have piece := pieces_of_single tokens
  have more : t ≠ [] := by
    rintro rfl
    rw [pieces_nil] at piece
    cases piece
  rw [pieces_of_ne_nil more] at piece
  exact (congrArg Piece.kind (List.cons.inj piece).1).trans kind

theorem Text.slice_of_prefix {source needle : Text} {offset : Nat}
    (starts : needle <+: source.drop offset) :
    source.slice (.ofLength offset needle.length) = needle := by
  have length : (Span.ofLength offset needle.length).length = needle.length :=
    Nat.add_sub_cancel_left ..
  rw [Text.slice, length]
  exact (List.prefix_iff_eq_take.mp starts).symm

namespace Document

variable {doc : Document} {window : Span} {needle : Text} {offset : Nat}

theorem find?_reads (found : doc.find? window needle = some offset) :
    window.start ≤ offset ∧ offset + needle.length ≤ window.stop ∧
      doc.textAt (.ofLength offset needle.length) = .ok needle ∧
      ∃ token ∈ tokensIn doc.source window, token.span.start = offset ∧
        token.kind.isTrivia = false ∧ token.kind ≠ .string ∧ token.kind ≠ .character := by
  obtain ⟨early, token, late, split, rfl, stands, -⟩ := (doc.find?_eq_some_iff window needle).mp found
  have mem : token ∈ tokensIn doc.source window := by simp [split]
  obtain ⟨code, fits, starts, -⟩ := of_standsAt mem stands
  have bounds := (tiles_tokensIn doc.source window).bounds mem
  have inside := stop_of_mem_tokensIn mem
  have length := starts.length_le
  rw [List.length_drop] at length
  refine ⟨bounds.1, fits, ?_, token, mem, rfl, code⟩
  have within : (Span.ofLength token.span.start needle.length).stop ≤ doc.source.length := by
    show token.span.start + needle.length ≤ doc.source.length
    omega
  rw [textAt, if_pos within, Text.slice_of_prefix starts]

theorem ofKeyword_of_find? (found : doc.find? window needle = some offset) :
    HeaderPart.ofKeyword doc needle window = .ok ⟨needle, .ofLength offset needle.length⟩ := by
  rw [HeaderPart.ofKeyword, (doc.find_of_find? window needle).1 offset found]
  rfl

theorem ofKeyword_isError_iff (doc : Document) (window : Span) (needle : Text) :
    (∃ breach, HeaderPart.ofKeyword doc needle window = .error breach) ↔
      doc.find? window needle = none := by
  rw [← (doc.find_of_find? window needle).2, HeaderPart.ofKeyword]
  cases doc.find window needle with
  | error breach => exact iff_of_true ⟨breach, rfl⟩ ⟨breach, rfl⟩
  | ok offset => exact iff_of_false (by rintro ⟨_, ⟨⟩⟩) (by rintro ⟨_, ⟨⟩⟩)

theorem find?_covered (name : (scan needle).kind = .identifier)
    (found : doc.find? window needle = some offset) {token : Token}
    (mem : token ∈ tokensIn doc.source window)
    (covers : token.span.start ≤ offset ∧ offset < token.span.stop) :
    token.kind = .identifier ∧ token.text doc.source = needle := by
  obtain ⟨early, here, late, split, rfl, kind, text, -⟩ :=
    (doc.find?_word_iff window name).mp found
  have among : here ∈ tokensIn doc.source window := by simp [split]
  have tiles := tiles_tokensIn doc.source window
  have bounds := tiles.bounds among
  obtain rfl := tiles.eq_of_covers mem among covers ⟨Nat.le_refl _, bounds.2.1⟩
  exact ⟨kind, text⟩

theorem find?_keyword (doc : Document) (window : Span) (needle : Text) :
    (IsIdentifier needle →
      (∀ offset, doc.find? window needle = some offset ↔
        ∃ early token late, tokensIn doc.source window = early ++ token :: late ∧
          token.span.start = offset ∧ token.kind = .identifier ∧ token.text doc.source = needle ∧
          ∀ other ∈ early, ¬(other.kind = .identifier ∧ other.text doc.source = needle)) ∧
      (doc.find? window needle = none ↔ ∀ token ∈ tokensIn doc.source window,
        ¬(token.kind = .identifier ∧ token.text doc.source = needle)) ∧
      ∀ offset, doc.find? window needle = some offset → ∀ token ∈ tokensIn doc.source window,
        token.span.start ≤ offset ∧ offset < token.span.stop →
          token.kind = .identifier ∧ token.text doc.source = needle) ∧
    (∀ offset, doc.find? window needle = some offset → ∃ part,
      HeaderPart.ofKeyword doc needle window = .ok part ∧ part.text = needle ∧
        part.span.start = offset ∧ window.contains part.span = true ∧
        doc.textAt part.span = .ok needle) ∧
    ((∃ breach, HeaderPart.ofKeyword doc needle window = .error breach) ↔
      doc.find? window needle = none) ∧
    ∀ offset, doc.find? window needle = some offset →
      window.start ≤ offset ∧ offset + needle.length ≤ window.stop ∧
        doc.source.slice (.ofLength offset needle.length) = needle ∧
        ∃ token ∈ tokensIn doc.source window, token.span.start = offset ∧
          token.kind.isTrivia = false ∧ token.kind ≠ .string ∧ token.kind ≠ .character := by
  refine ⟨fun single => ?_, fun offset found => ?_, doc.ofKeyword_isError_iff window needle,
    fun offset found => ?_⟩
  · have name := single.scan_kind
    refine ⟨fun offset => doc.find?_word_iff window name, doc.find?_eq_none_iff window name, ?_⟩
    exact fun offset found token mem covers => find?_covered name found mem covers
  · obtain ⟨start, stop, text, -⟩ := find?_reads found
    refine ⟨_, ofKeyword_of_find? found, rfl, rfl, ?_, text⟩
    simp [Span.contains, Span.ofLength, start, stop]
  · obtain ⟨start, stop, text, code⟩ := find?_reads found
    refine ⟨start, stop, ?_, code⟩
    unfold textAt at text
    split at text
    · exact Except.ok.inj text
    · cases text

theorem find?_keyword_hidden :
    let doc : Document := { source := "/* fn */ \"fn\" 'fn r#fn fns 1fn fn fn".toList }
    let window : Span := .ofLength 0 90
    IsIdentifier "fn".toList ∧ doc.find? window "fn".toList = some 31 ∧
      (∀ token ∈ tokensIn doc.source window, token.span.start ≤ 31 ∧ 31 < token.span.stop →
        token.kind = .identifier ∧ token.text doc.source = "fn".toList) ∧
      ∃ part, HeaderPart.ofKeyword doc "fn".toList window = .ok part ∧ part.text = "fn".toList ∧
        part.span.start = 31 ∧ window.contains part.span = true ∧
        doc.textAt part.span = .ok "fn".toList := by
  intro doc window
  have single : IsIdentifier "fn".toList :=
    ⟨{ kind := .identifier, span := .ofLength 0 2 }, by decide +kernel, rfl⟩
  have found : doc.find? window "fn".toList = some 31 := by decide +kernel
  obtain ⟨words, parts, -⟩ := doc.find?_keyword window "fn".toList
  exact ⟨single, found, (words single).2.2 31 found, parts 31 found⟩

end Document

end ItemLayout
