import ItemLayout.Proofs.Token.Terminators

namespace ItemLayout

inductive Quotes : Bool → Text → Text → Prop
  | plain : Quotes false ['"'] ['"']
  | bytes : Quotes false ['b', '"'] ['"']
  | raw (n : Nat) : Quotes true ('r' :: (List.replicate n '#' ++ ['"'])) ('"' :: List.replicate n '#')
  | rawBytes (n : Nat) :
      Quotes true ('b' :: 'r' :: (List.replicate n '#' ++ ['"'])) ('"' :: List.replicate n '#')

inductive StringBody : Text → Prop
  | empty : StringBody []
  | plain {c : Char} {rest : Text} (quote : c ≠ '"') (backslash : c ≠ '\\') :
      StringBody rest → StringBody (c :: rest)
  | escaped (c : Char) {rest : Text} : StringBody rest → StringBody ('\\' :: c :: rest)

/-- What follows the opening, up to and with the closing. That of a raw string is the first one. -/
def StringRest (raw : Bool) (closing t : Text) : Prop :=
  ∃ body, t = body ++ closing ∧
    if raw then ∀ before, before ++ closing <+: t → before = body else StringBody body

def IsString (raw : Bool) (t : Text) : Prop :=
  ∃ opening closing rest, Quotes raw opening closing ∧ StringRest raw closing rest ∧
    t = opening ++ rest

/-! ## Finding the closing -/

theorem stringLength_append {body : Text} (valid : StringBody body) (t : Text) :
    stringLength (body ++ '"' :: t) = some (body.length + 1) := by
  induction valid with
  | empty => rfl
  | plain quote backslash _ ih =>
      rw [List.cons_append, stringLength_plain quote backslash, ih]
      rfl
  | escaped c _ ih =>
      rw [List.cons_append, List.cons_append, stringLength, ih]
      rfl

theorem stringBody_of_closed {t : Text} {n : Nat} (closed : stringLength t = some n) :
    ∃ body rest, StringBody body ∧ t = body ++ '"' :: rest ∧ n = body.length + 1 := by
  fun_induction stringLength t generalizing n with
  | case1 rest =>
      cases closed
      exact ⟨[], rest, .empty, rfl, rfl⟩
  | case2 c rest ih =>
      obtain ⟨m, inner, rfl⟩ := Option.map_eq_some_iff.mp closed
      obtain ⟨body, behind, valid, rfl, rfl⟩ := ih inner
      exact ⟨'\\' :: c :: body, behind, .escaped c valid, rfl, rfl⟩
  | case3 c rest quote escape ih =>
      obtain ⟨m, inner, rfl⟩ := Option.map_eq_some_iff.mp closed
      obtain ⟨body, behind, valid, rfl, rfl⟩ := ih inner
      have backslash : c ≠ '\\' := by
        rintro rfl
        cases body <;> exact escape _ _ rfl rfl
      exact ⟨c :: body, behind, .plain quote backslash valid, rfl, rfl⟩
  | case4 => cases closed

theorem rawStringLength_append {closing rest : Text} (first : StringRest true closing rest)
    (more : closing ≠ []) (t : Text) :
    rawStringLength closing (rest ++ t) = some rest.length := by
  obtain ⟨body, rfl, first⟩ := first
  simp only [if_true] at first
  induction body with
  | nil =>
      obtain ⟨c, hashes, rfl⟩ := List.exists_cons_of_ne_nil more
      rw [List.nil_append, List.cons_append, rawStringLength, ← List.cons_append,
        if_pos (List.isPrefixOf_iff_prefix.mpr (List.prefix_append _ t))]
  | cons c body ih =>
      have later : ¬closing.isPrefixOf (c :: (body ++ closing ++ t)) = true := by
        rw [List.isPrefixOf_iff_prefix]
        intro here
        -- A closing in front would have been the first one.
        have early : [] ++ closing <+: c :: body ++ closing :=
          List.prefix_of_prefix_length_le here (List.prefix_append (c :: body ++ closing) t)
            (List.suffix_append (c :: body) closing).length_le
        cases first [] early
      have first' : ∀ before, before ++ closing <+: body ++ closing → before = body := by
        intro before starts
        have longer : c :: before ++ closing <+: c :: body ++ closing :=
          List.cons_prefix_cons.mpr ⟨rfl, starts⟩
        exact (List.cons.inj (first (c :: before) longer)).2
      rw [List.cons_append, List.cons_append, rawStringLength, if_neg later, ih first']
      rfl

theorem stringRest_of_rawClosed {closing t : Text} {n : Nat}
    (closed : rawStringLength closing t = some n) :
    ∃ rest behind, StringRest true closing rest ∧ t = rest ++ behind ∧ n = rest.length := by
  induction t generalizing n with
  | nil => cases closed
  | cons c t ih =>
      rw [rawStringLength] at closed
      split at closed
      · rename_i here
        cases closed
        obtain ⟨behind, split⟩ := List.isPrefixOf_iff_prefix.mp here
        refine ⟨closing, behind, ⟨[], rfl, ?_⟩, split.symm, rfl⟩
        simp only [if_true]
        intro before starts
        have length := starts.length_le
        rw [List.length_append] at length
        exact List.length_eq_zero_iff.mp (by omega)
      · rename_i later
        obtain ⟨m, inner, rfl⟩ := Option.map_eq_some_iff.mp closed
        obtain ⟨rest, behind, ⟨body, rfl, first⟩, rfl, rfl⟩ := ih inner
        simp only [if_true] at first
        refine ⟨c :: (body ++ closing), behind, ⟨c :: body, rfl, ?_⟩, rfl, rfl⟩
        simp only [if_true]
        intro before starts
        cases before with
        | nil =>
            have here : closing <+: c :: (body ++ closing ++ behind) :=
              starts.trans (List.prefix_append (c :: (body ++ closing)) behind)
            exact absurd (List.isPrefixOf_iff_prefix.mpr here) later
        | cons d before =>
            obtain ⟨rfl, inside⟩ := List.cons_prefix_cons.mp starts
            rw [first before inside]

def closedLength (raw : Bool) (closing t : Text) : Option Nat :=
  if raw then rawStringLength closing t else stringLength t

theorem Quotes.closedLength_iff {raw : Bool} {opening closing : Text}
    (quotes : Quotes raw opening closing) (t : Text) (n : Nat) :
    closedLength raw closing t = some n ↔
      ∃ rest, StringRest raw closing rest ∧ rest <+: t ∧ rest.length = n := by
  have simple (t : Text) (n : Nat) : stringLength t = some n ↔
      ∃ rest, StringRest false ['"'] rest ∧ rest <+: t ∧ rest.length = n := by
    constructor
    · intro closed
      obtain ⟨body, behind, valid, rfl, rfl⟩ := stringBody_of_closed closed
      refine ⟨body ++ ['"'], ⟨body, rfl, by simpa using valid⟩, ⟨behind, ?_⟩, by simp⟩
      rw [List.append_assoc]
      rfl
    · rintro ⟨_, ⟨body, rfl, valid⟩, ⟨behind, rfl⟩, rfl⟩
      rw [List.append_assoc, List.length_append]
      exact stringLength_append (by simpa using valid) behind
  have hashed (m : Nat) (t : Text) (n : Nat) :
      rawStringLength ('"' :: List.replicate m '#') t = some n ↔
        ∃ rest, StringRest true ('"' :: List.replicate m '#') rest ∧ rest <+: t ∧
          rest.length = n := by
    constructor
    · intro closed
      obtain ⟨rest, behind, first, rfl, rfl⟩ := stringRest_of_rawClosed closed
      exact ⟨rest, first, List.prefix_append rest behind, rfl⟩
    · rintro ⟨rest, first, ⟨behind, rfl⟩, rfl⟩
      exact rawStringLength_append first (List.cons_ne_nil _ _) behind
  cases quotes with
  | plain => exact simple t n
  | bytes => exact simple t n
  | raw m => exact hashed m t n
  | rawBytes m => exact hashed m t n

/-! ## The string in front -/

theorem scan_of_literal? {t : Text} {lexeme : Lexeme} (code : trivia? t = none)
    (found : literal? t = some lexeme) : scan t = lexeme := by
  simp [scan, code, found]

theorem Quotes.scan {raw : Bool} {opening closing : Text} (quotes : Quotes raw opening closing)
    (t : Text) :
    scan (opening ++ t) =
      .delimited .string raw opening.length t (closedLength raw closing t) := by
  cases quotes with
  | plain => exact scan_of_literal? (trivia?_cons _ (by decide)) rfl
  | bytes => exact scan_of_literal? (trivia?_cons _ (by decide)) rfl
  | raw n =>
      apply scan_of_literal? (trivia?_cons _ (by decide))
      have found := rawString?_quote 1 n t
      rw [List.cons_append, List.append_assoc, List.singleton_append, List.length_cons,
        List.length_append, List.length_replicate, List.length_singleton]
      rw [show n + 1 + 1 = 1 + n + 1 by omega]
      exact found
  | rawBytes n =>
      apply scan_of_literal? (trivia?_cons _ (by decide))
      have found := rawString?_quote 2 n t
      rw [List.cons_append, List.cons_append, List.append_assoc, List.singleton_append,
        List.length_cons, List.length_cons, List.length_append, List.length_replicate,
        List.length_singleton]
      rw [show n + 1 + 1 + 1 = 2 + n + 1 by omega]
      exact found

theorem Lexeme.delimited_raw (kind : TokenKind) (raw : Bool) (opening : Nat) (body : Text)
    (closed : Option Nat) : (Lexeme.delimited kind raw opening body closed).raw = raw := by
  cases closed <;> rfl

theorem exists_quotes {t : Text} (kind : (scan t).kind = .string) :
    ∃ opening closing, Quotes (ItemLayout.scan t).raw opening closing ∧ opening <+: t := by
  have known {raw : Bool} {opening closing : Text} (quotes : Quotes raw opening closing)
      (body : Text) (split : t = opening ++ body) :
      ∃ opening closing, Quotes (ItemLayout.scan t).raw opening closing ∧ opening <+: t := by
    subst split
    refine ⟨opening, closing, ?_, List.prefix_append opening body⟩
    rw [quotes.scan, Lexeme.delimited_raw]
    exact quotes
  rcases scan_cases t with found | ⟨-, found⟩ | ⟨-, -, found⟩ | ⟨-, -, -, found⟩
  · have trivial := trivia?_kind found
    rw [kind] at trivial
    cases trivial
  · rcases literal?_cases found with
      ⟨rest, split, -⟩ | ⟨rest, -, found⟩ | ⟨rest, split, found⟩ | ⟨rest, split, -⟩ |
        ⟨rest, split, found⟩
    · exact known .plain rest split
    · rw [found] at kind
      rcases quoted_kind rest with other | other <;> rw [kind] at other <;> cases other
    · obtain ⟨n, body, rfl⟩ := rawString?_cases found
      exact known (.raw n) body (by simp [split])
    · exact known .bytes rest split
    · obtain ⟨n, body, rfl⟩ := rawString?_cases found
      exact known (.rawBytes n) body (by simp [split])
  · rcases word?_kind found with other | other <;> rw [kind] at other <;> cases other
  · rw [found] at kind
    rcases symbol_kind t with other | other <;> rw [kind] at other <;> cases other

theorem scan_string_iff (raw : Bool) (t : Text) :
    (scan t).kind = .string ∧ (scan t).raw = raw ↔
      ∃ opening closing, Quotes raw opening closing ∧ opening <+: t := by
  constructor
  · rintro ⟨kind, rfl⟩
    exact exists_quotes kind
  · rintro ⟨opening, closing, quotes, body, rfl⟩
    rw [quotes.scan]
    exact ⟨Lexeme.delimited_kind _ _ _ _ _, Lexeme.delimited_raw _ _ _ _ _⟩

theorem hashes_unique {m n : Nat} {s t : Text}
    (same : List.replicate m '#' ++ '"' :: s = List.replicate n '#' ++ '"' :: t) : m = n := by
  have run (n : Nat) (t : Text) :
      ((List.replicate n '#' ++ '"' :: t).takeWhile (· == '#')).length = n := by
    rw [List.takeWhile_append_of_pos (by simp)]
    simp
  rw [← run m s, same, run]

theorem Quotes.unique {raw : Bool} {opening closing opening' closing' t : Text}
    (quotes : Quotes raw opening closing) (quotes' : Quotes raw opening' closing')
    (starts : opening <+: t) (starts' : opening' <+: t) :
    opening = opening' ∧ closing = closing' := by
  obtain ⟨rest, rfl⟩ := starts
  obtain ⟨rest', same⟩ := starts'
  cases quotes <;> cases quotes' <;> simp at same
  · exact ⟨rfl, rfl⟩
  · exact ⟨rfl, rfl⟩
  · obtain rfl := hashes_unique same
    exact ⟨rfl, rfl⟩
  · obtain rfl := hashes_unique same
    exact ⟨rfl, rfl⟩

theorem front_string {t : Text} (kind : (scan t).kind = .string) :
    ((Piece.front t).unterminated = false ∧ IsString (scan t).raw (Piece.front t).text ∧
      ∀ other, IsString (scan t).raw other → other <+: t → other = (Piece.front t).text) ∨
    ((Piece.front t).unterminated = true ∧ ∀ other, IsString (scan t).raw other → ¬ other <+: t) := by
  obtain ⟨opening, closing, quotes, body, rfl⟩ := exists_quotes kind
  generalize (ItemLayout.scan (opening ++ body)).raw = raw at quotes ⊢
  have measured {other : Text} (form : IsString raw other) (starts : other <+: opening ++ body) :
      ∃ rest, other = opening ++ rest ∧ closedLength raw closing body = some rest.length ∧
        rest <+: body := by
    obtain ⟨opening', closing', rest, quotes', valid, rfl⟩ := form
    obtain ⟨rfl, rfl⟩ := quotes.unique quotes' (List.prefix_append opening body)
      ((List.prefix_append opening' rest).trans starts)
    have inside : rest <+: body := (List.prefix_append_right_inj opening).mp starts
    exact ⟨rest, rfl, (quotes.closedLength_iff body _).mpr ⟨rest, valid, inside, rfl⟩, inside⟩
  have first := quotes.scan body
  simp only [Piece.front, first]
  cases closed : closedLength raw closing body with
  | some n =>
      obtain ⟨rest, valid, inside, rfl⟩ := (quotes.closedLength_iff body n).mp closed
      have text : (opening ++ body).take (opening.length + rest.length) = opening ++ rest := by
        rw [List.take_length_add_append, ← List.prefix_iff_eq_take.mp inside]
      simp only [Lexeme.delimited, text]
      refine .inl ⟨trivial, ⟨opening, closing, rest, quotes, valid, rfl⟩, ?_⟩
      intro other form starts
      obtain ⟨rest', rfl, found, inside'⟩ := measured form starts
      have length := Option.some.inj (found.symm.trans closed)
      rw [(List.prefix_of_prefix_length_le inside' inside (Nat.le_of_eq length)).eq_of_length length]
  | none =>
      refine .inr ⟨rfl, ?_⟩
      intro other form starts
      obtain ⟨rest, -, found, -⟩ := measured form starts
      rw [closed] at found
      cases found

/-! ## The string tokens of a window -/

section

variable {source : Text} {window : Span} {token other : Token}

theorem string_ends (mem : token ∈ tokensIn source window) (kind : token.kind = .string) :
    let left := (source.take (min window.stop source.length)).drop token.span.start
    (token.unterminated = false ∧ IsString token.raw (token.text source) ∧
      token.text source <+: left ∧
      ∀ other, IsString token.raw other → other <+: left → other = token.text source) ∨
    (token.unterminated = true ∧ token.span.stop = min window.stop source.length ∧
      ∀ other, IsString token.raw other → ¬ other <+: left) := by
  obtain ⟨-, first⟩ := front_of_mem_tokensIn mem
  intro left
  have text : token.text source = left.take (scan left).length := (congrArg Piece.text first).symm
  have raw : (scan left).raw = token.raw := congrArg Piece.raw first
  have ends := front_string ((congrArg Piece.kind first).trans kind)
  rw [first, raw] at ends
  rcases ends with ⟨closed, form, only⟩ | ⟨unclosed, none⟩
  · exact .inl ⟨closed, form, text ▸ List.take_prefix _ left, only⟩
  · obtain ⟨before, after, split⟩ := List.append_of_mem mem
    obtain ⟨-, stop, -⟩ := unterminated_of_split split unclosed
    exact .inr ⟨unclosed, stop, none⟩

theorem starts_outside (mem : token ∈ tokensIn source window) (mem' : other ∈ tokensIn source window)
    (apart : other ≠ token) :
    other.span.start < token.span.start ∨ token.span.stop ≤ other.span.start := by
  have tiles := tiles_tokensIn source window
  have bounds := tiles.bounds mem'
  have itself : other.span.start ≤ other.span.start ∧ other.span.start < other.span.stop :=
    ⟨Nat.le_refl _, bounds.2.1⟩
  apply Classical.byContradiction
  intro inside
  apply apart
  exact tiles.eq_of_covers mem' mem itself (by omega)

end

theorem string_tokens_end (source : Text) (window : Option Span) :
    let tokens := (window.elim (Cursor.ofSource source) (Cursor.ofWindow source)).run.1
    let limit := window.elim source.length fun window => min window.stop source.length
    ∀ token ∈ tokens,
      let left := (source.take limit).drop token.span.start
      (token.kind = .string →
        (token.unterminated = false ∧ IsString token.raw (token.text source) ∧
          token.text source <+: left ∧
          ∀ other, IsString token.raw other → other <+: left → other = token.text source) ∨
        (token.unterminated = true ∧ token.span.stop = limit ∧
          ∀ other, IsString token.raw other → ¬ other <+: left)) ∧
      (∀ raw, token.kind = .string ∧ token.raw = raw ↔
        ∃ opening closing, Quotes raw opening closing ∧ opening <+: left) ∧
      (token.kind = .string ∨ token.kind = .character →
        ∀ comment ∈ tokens, comment.kind.isComment = true →
          comment.span.start < token.span.start ∨ token.span.stop ≤ comment.span.start) := by
  obtain ⟨covered, cursor, limit⟩ := Cursor.exists_window source window
  simp only [cursor, limit]
  rw [run_ofWindow, List.forall_mem_append, List.forall_mem_singleton]
  refine ⟨fun token mem => ⟨string_ends mem, fun raw => ?_, ?_⟩, ?_⟩
  · have first := (front_of_mem_tokensIn mem).2
    rw [← scan_string_iff, ← show (scan _).kind = token.kind from congrArg Piece.kind first,
      ← show (scan _).raw = token.raw from congrArg Piece.raw first]
  · intro kind
    rw [List.forall_mem_append, List.forall_mem_singleton]
    refine ⟨fun comment mem' shown => starts_outside mem mem' ?_, fun shown => ?_⟩
    · rintro rfl
      rcases kind with kind | kind <;> rw [kind] at shown <;> cases shown
    · cases shown
  · have none : (source.take (min covered.stop source.length)).drop
        (covered.start + (source.slice covered).length) = [] := by
      rw [List.drop_eq_nil_iff, List.length_take, Text.length_slice]
      omega
    have unopened (raw : Bool) (closing : Text) : ¬ Quotes raw [] closing := by
      intro quotes
      cases quotes
    simp [Span.emptyAt, none, unopened]

theorem string_tokens_end_hashes :
    let source := "b\"\\\"/*\" r#\"\"//\"# r\"x\"".toList
    let tokens := (Cursor.ofWindow source (.ofLength 0 20)).run.1
    let bytes : Token := { kind := .string, span := .ofLength 0 7 }
    let hashed : Token := { kind := .string, span := .ofLength 8 8, raw := true }
    let cut : Token :=
      { kind := .string, span := .ofLength 17 3, unterminated := true, raw := true }
    (bytes ∈ tokens ∧ hashed ∈ tokens ∧ cut ∈ tokens) ∧
      IsString false "b\"\\\"/*\"".toList ∧ IsString true "r#\"\"//\"#".toList ∧
      (∀ other, IsString true other → other <+: "r#\"\"//\"# r\"x".toList →
        other = "r#\"\"//\"#".toList) ∧
      (∀ other, IsString true other → ¬ other <+: "r\"x".toList) ∧
      ∀ comment ∈ tokens, comment.kind.isComment = true → 7 ≤ comment.span.start := by
  intro source tokens bytes hashed cut
  have mem : bytes ∈ tokens ∧ hashed ∈ tokens ∧ cut ∈ tokens := by decide +kernel
  have ends := string_tokens_end source (some (.ofLength 0 20))
  obtain ⟨plain, -, outside⟩ := ends bytes mem.1
  obtain ⟨closed, -⟩ := ends hashed mem.2.1
  obtain ⟨unclosed, -⟩ := ends cut mem.2.2
  rcases plain rfl with ⟨-, first, -, -⟩ | ⟨other, -⟩
  · rcases closed rfl with ⟨-, second, -, only⟩ | ⟨other, -⟩
    · rcases unclosed rfl with ⟨other, -⟩ | ⟨-, -, none⟩
      · cases other
      · refine ⟨mem, first, second, only, none, ?_⟩
        intro comment among shown
        exact (outside (.inl rfl) comment among shown).resolve_left (Nat.not_lt_zero _)
    · cases other
  · cases other

end ItemLayout
