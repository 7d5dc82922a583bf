import ItemLayout.Document
import ItemLayout.Proofs.Text.Blanks
import ItemLayout.Proofs.Token.Unclosed
import ItemLayout.Proofs.Token.Views

namespace ItemLayout

def Document.tokens (doc : Document) : List Token := (Cursor.ofSource doc.source).run.1.dropLast

/-! ## A token in its source -/

section

variable {doc : Document} {before after : List Token} {token : Token}

theorem Document.tiles_tokens (doc : Document) : Tiles 0 doc.source.length doc.tokens := by
  have tiles : Tiles 0 (max 0 (min (0 + doc.source.length) doc.source.length)) doc.tokens :=
    tiles_tokensIn doc.source (.ofLength 0 doc.source.length)
  rwa [Nat.zero_add, Nat.min_self, Nat.zero_max] at tiles

theorem Document.mem_of_split {run : List Token} (split : doc.tokens = before ++ run ++ after) :
    ∀ token ∈ run, token ∈ doc.tokens := by
  rw [split]
  exact fun token mem => List.mem_append_left _ (List.mem_append_right _ mem)

theorem piece_eq_front (split : doc.tokens = before ++ token :: after) :
    doc.source.drop token.span.start ≠ [] ∧
      Piece.front (doc.source.drop token.span.start) = token.piece doc.source ∧
      pieces ((doc.source.drop token.span.start).drop
        (scan (doc.source.drop token.span.start)).length) = after.map (Token.piece doc.source) := by
  have whole : doc.source.take (min (0 + doc.source.length) doc.source.length) = doc.source := by
    rw [Nat.zero_add, Nat.min_self, List.take_length]
  have front := front_of_split (show tokensIn doc.source (.ofLength 0 doc.source.length) = _ from split)
  rwa [show (Span.ofLength 0 doc.source.length).stop = 0 + doc.source.length from rfl, whole] at front

theorem closed_of_split (split : doc.tokens = before ++ token :: after) (more : after ≠ []) :
    token.unterminated = false := by
  have window : tokensIn doc.source (.ofLength 0 doc.source.length) = before ++ token :: after := split
  cases state : token.unterminated with
  | false => rfl
  | true => exact absurd (unterminated_of_split window state).1 more

end

/-! ## Identifiers -/

theorem isWordPart_of_isWordStart {c : Char} (start : isWordStart c = true) : isWordPart c = true := by
  simp only [isWordStart, isWordPart, Bool.or_eq_true] at start ⊢
  exact start.imp_left .inl

theorem word?_of_identifier {t : Text} (kind : (scan t).kind = .identifier) :
    word? t = some (scan t) := by
  rcases scan_cases t with found | ⟨-, found⟩ | ⟨-, -, found⟩ | ⟨-, -, -, found⟩
  · have trivial := trivia?_kind found
    simp [kind, TokenKind.isTrivia] at trivial
  · rcases literal?_kind found with other | other | other <;> simp [kind] at other
  · exact found
  · rw [found] at kind
    rcases symbol_kind t with other | other <;> simp [kind] at other

theorem start_of_identifier {t : Text} (kind : (scan t).kind = .identifier) :
    ∃ c rest, t = c :: rest ∧ isDigit c = false ∧ isWordStart c = true := by
  have found := word?_of_identifier kind
  generalize scan t = lexeme at kind found
  unfold word? at found
  split at found
  · cases found
  · rename_i c rest
    split at found
    · cases found
      cases kind
    · rename_i number
      refine ⟨c, rest, rfl, Bool.eq_false_iff.mpr number, ?_⟩
      rw [Option.or_eq_some_iff] at found
      rcases found with found | ⟨-, found⟩
      · unfold rawIdentifier? at found
        split at found
        · rename_i marked
          obtain ⟨rfl, -⟩ := List.cons.inj marked
          decide
        · cases found
      · split at found
        · assumption
        · cases found

section

variable {c : Char} (start : isWordStart c = true)
include start

theorem literal?_of_start {rest : Text} {lexeme : Lexeme} (found : literal? (c :: rest) = some lexeme) :
    lexeme.kind = .string := by
  generalize split : c :: rest = t at found
  unfold literal? at found
  split at found
  · cases found
    simp
  · obtain ⟨rfl, -⟩ := List.cons.inj split
    exact absurd start (by decide)
  · exact rawString?_kind found
  · cases found
    simp
  · exact rawString?_kind found
  · cases found

theorem word?_of_start (number : isDigit c = false) (rest : Text) :
    ∃ lexeme, word? (c :: rest) = some lexeme ∧ lexeme.kind = .identifier := by
  cases raw : rawIdentifier? (c :: rest) with
  | none =>
      refine ⟨{ kind := .identifier, length := 1 + wordLength rest }, ?_, rfl⟩
      simp [word?, number, raw, start]
  | some lexeme => exact ⟨lexeme, by simp [word?, number, raw], rawIdentifier?_kind raw⟩

theorem kind_of_start (number : isDigit c = false) {rest : Text}
    (code : (scan (c :: rest)).kind.isTrivia = false) (text : (scan (c :: rest)).kind ≠ .string) :
    (scan (c :: rest)).kind = .identifier := by
  obtain ⟨lexeme, word, kind⟩ := word?_of_start start number rest
  rcases scan_cases (c :: rest) with found | ⟨-, found⟩ | ⟨-, -, found⟩ | ⟨-, -, none, -⟩
  · rw [trivia?_kind found] at code
    cases code
  · exact absurd (literal?_of_start start found) text
  · rw [← Option.some.inj (word.symm.trans found)]
    exact kind
  · rw [word] at none
    cases none

end

theorem take_wordLength (t : Text) : t.take (wordLength t) = t.takeWhile isWordPart :=
  (List.prefix_iff_eq_take.mp (List.takeWhile_prefix isWordPart)).symm

theorem mem_identifier {t : Text} (kind : (scan t).kind = .identifier) {c : Char}
    (mem : c ∈ (Piece.front t).text) : isWordPart c = true ∨ c = '#' := by
  have inside {t : Text} (mem : c ∈ t.takeWhile isWordPart) : isWordPart c = true :=
    List.all_eq_true.mp List.all_takeWhile c mem
  have found := word?_of_identifier kind
  change c ∈ t.take (scan t).length at mem
  generalize scan t = lexeme at kind found mem
  unfold word? at found
  split at found
  · cases found
  · rename_i d rest
    split at found
    · cases found
      cases kind
    · rw [Option.or_eq_some_iff] at found
      rcases found with found | ⟨-, found⟩
      · unfold rawIdentifier? at found
        split at found
        · rename_i first rest' marked
          rw [marked] at mem
          split at found
          · cases found
            rw [Nat.add_comm, List.take_succ_cons, List.take_succ_cons, List.take_succ_cons,
              take_wordLength] at mem
            simp only [List.mem_cons] at mem
            rcases mem with rfl | rfl | rfl | mem
            · exact .inl (by decide)
            · exact .inr rfl
            · exact .inl (isWordPart_of_isWordStart ‹_›)
            · exact .inl (inside mem)
          · cases found
        · cases found
      · split at found
        · cases found
          rw [Nat.add_comm, List.take_succ_cons, take_wordLength] at mem
          rcases List.mem_cons.mp mem with rfl | mem
          · exact .inl (isWordPart_of_isWordStart ‹_›)
          · exact .inl (inside mem)
        · cases found

def blankCodes : List Nat :=
  List.range' 0x09 5 ++ List.range' 0x1C 5 ++ [0x85, 0xA0, 0x1680] ++ List.range' 0x2000 11 ++
    [0x2028, 0x2029, 0x202F, 0x205F, 0x3000]

theorem isWordPart_of_isBlank {c : Char} (blank : isBlank c = true) :
    isWordPart c = false ∧ c ≠ '#' := by
  have listed : c.toNat ∈ blankCodes := by
    simp only [isBlank, Bool.or_eq_true, Bool.and_eq_true, decide_eq_true_eq, beq_iff_eq] at blank
    simp only [blankCodes, List.mem_append, List.mem_range'_1, List.mem_cons, List.not_mem_nil,
      or_false]
    omega
  have table : blankCodes.all (fun code =>
      isWordPart (Char.ofNat code) = false ∧ Char.ofNat code ≠ '#') = true := by decide +kernel
  have entry := of_decide_eq_true (List.all_eq_true.mp table c.toNat listed)
  rwa [Char.ofNat_toNat] at entry

theorem identifier_tidy {t : Text} (kind : (scan t).kind = .identifier) :
    EndsInk (Piece.front t).text ∧ Plain (Piece.front t).text := by
  constructor
  · intro c last
    cases blank : isBlank c with
    | false => rfl
    | true =>
        obtain ⟨outside, unmarked⟩ := isWordPart_of_isBlank blank
        rcases mem_identifier kind (List.mem_of_getLast? last) with part | mark
        · rw [part] at outside
          cases outside
        · exact absurd mark unmarked
  · intro c mem
    refine ⟨?_, ?_, ?_⟩
    all_goals
      rintro rfl
      exact absurd (mem_identifier kind mem) (by decide)

theorem tidy_of_identifier {doc : Document} {token : Token} (mem : token ∈ doc.tokens)
    (kind : token.kind = .identifier) :
    token.text doc.source ≠ [] ∧ EndsInk (token.text doc.source) ∧ Plain (token.text doc.source) := by
  obtain ⟨before, after, split⟩ := List.append_of_mem mem
  obtain ⟨more, first, -⟩ := piece_eq_front split
  have text : (Piece.front (doc.source.drop token.span.start)).text = token.text doc.source :=
    congrArg Piece.text first
  have identifier : (scan (doc.source.drop token.span.start)).kind = .identifier :=
    (congrArg Piece.kind first).trans kind
  have some : (Piece.front (doc.source.drop token.span.start)).text ≠ [] := by
    rw [← List.length_pos_iff, Piece.length_front more]
    exact scan_length_pos _
  rw [← text]
  exact ⟨some, identifier_tidy identifier⟩

/-! ## Finding a word -/

namespace Document

variable {doc : Document} {word : Text} {window : Span} {token : Token}

/-- A window is a run of tokens, and a word stands in it first at a token. -/
structure FirstIn (doc : Document) (word : Text) (window : Span) (token : Token) : Prop where
  kind : token.kind = .identifier
  text : token.text doc.source = word
  around : ∃ before early late after, doc.tokens = before ++ (early ++ token :: late) ++ after ∧
    Tiles window.start window.stop (early ++ token :: late) ∧
    ∀ other ∈ early, other.kind = .identifier → other.text doc.source ≠ word

theorem kind_of_word (name : (scan word).kind = .identifier)
    (mem : token ∈ tokensIn doc.source window) (starts : word <+: doc.source.drop token.span.start)
    (code : token.kind.isTrivia = false) (text : token.kind ≠ .string) : token.kind = .identifier := by
  obtain ⟨before, after, split⟩ := List.append_of_mem mem
  obtain ⟨more, first, -⟩ := front_of_split split
  obtain ⟨c, rest, rfl, number, start⟩ := start_of_identifier name
  obtain ⟨d, left, window⟩ := List.exists_cons_of_ne_nil more
  -- The window and the source go on with the same character.
  have within : d :: left <+: doc.source.drop token.span.start := by
    rw [← window, List.drop_take]
    exact List.take_prefix _ _
  obtain ⟨u, here⟩ := starts
  obtain ⟨v, there⟩ := within
  obtain ⟨rfl, -⟩ := List.cons.inj (here.trans there.symm)
  rw [window] at first
  have kind : (scan (c :: left)).kind = token.kind := congrArg Piece.kind first
  rw [← kind] at code text ⊢
  exact kind_of_start start number code text

theorem of_standsAt {needle : Text} (mem : token ∈ tokensIn doc.source window)
    (stands : doc.standsAt window needle token = true) :
    (token.kind.isTrivia = false ∧ token.kind ≠ .string ∧ token.kind ≠ .character) ∧
      token.span.start + needle.length ≤ window.stop ∧
      needle <+: doc.source.drop token.span.start ∧
      (token.kind = .identifier → token.text doc.source = needle) := by
  unfold standsAt at stands
  split at stands
  · cases stands
  · rename_i code
    split at stands
    · cases stands
    · rename_i fits
      refine ⟨by simpa [and_assoc] using code, Nat.not_lt.mp fits, ?_⟩
      split at stands
      · have same : doc.source.slice token.span = needle := eq_of_beq stands
        rw [text_of_mem_tokensIn mem]
        refine ⟨?_, fun _ => same⟩
        rw [← same]
        exact List.take_prefix _ _
      · rename_i other
        exact ⟨List.isPrefixOf_iff_prefix.mp stands, fun kind => absurd kind other⟩

theorem standsAt_iff (name : (scan word).kind = .identifier)
    (mem : token ∈ tokensIn doc.source window) :
    doc.standsAt window word token = true ↔
      token.kind = .identifier ∧ token.text doc.source = word := by
  constructor
  · intro stands
    obtain ⟨⟨code, text, -⟩, -, starts, same⟩ := of_standsAt mem stands
    have kind := kind_of_word name mem starts code text
    exact ⟨kind, same kind⟩
  · rintro ⟨kind, text⟩
    have length := length_of_mem_tokensIn mem
    have bounds := (tiles_tokensIn doc.source window).bounds mem
    rw [text] at length
    rw [text_of_mem_tokensIn mem] at text
    have fits : ¬window.stop < token.span.start + word.length := by omega
    simp [standsAt, kind, TokenKind.isTrivia, fits, text]

theorem find?_eq_some_iff (doc : Document) (window : Span) (needle : Text) {offset : Nat} :
    doc.find? window needle = some offset ↔
      ∃ early token late, tokensIn doc.source window = early ++ token :: late ∧
        token.span.start = offset ∧ doc.standsAt window needle token = true ∧
        ∀ other ∈ early, ¬doc.standsAt window needle other = true := by
  rw [find?, Option.map_eq_some_iff]
  constructor
  · rintro ⟨token, found, start⟩
    obtain ⟨stands, early, late, split, others⟩ := List.find?_eq_some_iff_append.mp found
    exact ⟨early, token, late, split, start, stands, fun other mem => by simpa using others other mem⟩
  · rintro ⟨early, token, late, split, start, stands, others⟩
    refine ⟨token, List.find?_eq_some_iff_append.mpr ⟨stands, early, late, split, ?_⟩, start⟩
    exact fun other mem => by simpa using others other mem

theorem find?_eq_none_iff (doc : Document) (window : Span)
    (name : (scan word).kind = .identifier) :
    doc.find? window word = none ↔
      ∀ token ∈ tokensIn doc.source window,
        ¬(token.kind = .identifier ∧ token.text doc.source = word) := by
  rw [find?, Option.map_eq_none_iff, List.find?_eq_none]
  exact forall₂_congr fun token mem => not_congr (standsAt_iff name mem)

theorem find_of_find? (doc : Document) (window : Span) (needle : Text) :
    (∀ offset, doc.find? window needle = some offset → doc.find window needle = .ok offset) ∧
      ((∃ breach, doc.find window needle = .error breach) ↔ doc.find? window needle = none) := by
  unfold find
  cases doc.find? window needle with
  | some offset => simp
  | none =>
      cases doc.textAt window with
      | error breach => exact ⟨by simp, iff_of_true ⟨breach, rfl⟩ rfl⟩
      | ok text => exact ⟨by simp, iff_of_true ⟨_, rfl⟩ rfl⟩

theorem find_isError_iff (doc : Document) (window : Span)
    (name : (scan word).kind = .identifier) :
    (∃ breach, doc.find window word = .error breach) ↔
      ∀ token ∈ tokensIn doc.source window,
        ¬(token.kind = .identifier ∧ token.text doc.source = word) :=
  (doc.find_of_find? window word).2.trans (doc.find?_eq_none_iff window name)

theorem find?_word_iff (doc : Document) (window : Span) (name : (scan word).kind = .identifier)
    {offset : Nat} :
    doc.find? window word = some offset ↔
      ∃ early token late, tokensIn doc.source window = early ++ token :: late ∧
        token.span.start = offset ∧ token.kind = .identifier ∧ token.text doc.source = word ∧
        ∀ other ∈ early, ¬(other.kind = .identifier ∧ other.text doc.source = word) := by
  rw [find?_eq_some_iff]
  refine exists_congr fun early => exists_congr fun token => exists_congr fun late =>
    and_congr_right fun split => and_congr_right fun _ => ?_
  have mem : ∀ other ∈ early ++ token :: late, other ∈ tokensIn doc.source window := by
    rw [split]
    exact fun other here => here
  obtain ⟨front, back⟩ := List.forall_mem_append.mp mem
  rw [standsAt_iff name (back token List.mem_cons_self), and_assoc]
  refine and_congr_right fun _ => and_congr_right fun _ => ?_
  exact forall₂_congr fun other here => not_congr (standsAt_iff name (front other here))

theorem find_first {early late : List Token} (name : (scan word).kind = .identifier)
    (split : tokensIn doc.source window = early ++ token :: late)
    (kind : token.kind = .identifier) (text : token.text doc.source = word)
    (others : ∀ other ∈ early, ¬(other.kind = .identifier ∧ other.text doc.source = word)) :
    doc.find window word = .ok token.span.start := by
  refine (doc.find_of_find? window word).1 _ ?_
  exact (doc.find?_word_iff window name).mpr ⟨early, token, late, split, rfl, kind, text, others⟩

theorem find_run {covered : Span} {before early late after : List Token}
    (name : (scan word).kind = .identifier)
    (split : tokensIn doc.source covered = before ++ (early ++ token :: late) ++ after)
    (tiles : Tiles window.start window.stop (early ++ token :: late))
    (kind : token.kind = .identifier) (text : token.text doc.source = word)
    (others : ∀ other ∈ early, ¬(other.kind = .identifier ∧ other.text doc.source = word)) :
    doc.find window word = .ok token.span.start := by
  -- In its own window the run is the same, but for what stands before it.
  have same := tokensIn_run split tiles
  rw [List.map_append, List.map_cons] at same
  obtain ⟨early', rest, whole, front, back⟩ := List.map_eq_append_iff.mp same
  obtain ⟨token', late', rfl, here, -⟩ := List.map_eq_cons_iff.mp back
  obtain ⟨kind', span', -⟩ := Token.mk.inj here
  rw [← span']
  refine find_first name whole (kind'.trans kind) ?_ fun other mem => ?_
  · rw [Token.text, kind', span']
    exact text
  · have among := List.mem_map_of_mem (f := Token.alone) mem
    rw [front] at among
    obtain ⟨other', inside, equal⟩ := List.mem_map.mp among
    obtain ⟨otherKind, otherSpan, -⟩ := Token.mk.inj equal
    rw [Token.text, ← otherKind, ← otherSpan]
    exact others other' inside

theorem find_word (name : (scan word).kind = .identifier)
    (first : doc.FirstIn word window token) : doc.find window word = .ok token.span.start := by
  obtain ⟨kind, text, before, early, late, after, split, tiles, others⟩ := first
  exact find_run name split tiles kind text fun other mem both =>
    others other mem both.1 both.2

end Document

end ItemLayout
