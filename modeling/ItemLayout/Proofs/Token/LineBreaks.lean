import ItemLayout.Proofs.Token.Terminators

namespace ItemLayout

def triviaSince (tokens : List Token) : List Token := tokens.reverse.takeWhile (·.kind.isTrivia)

def breakSince (tokens : List Token) : Bool := (triviaSince tokens).any (·.kind == .lineBreak)

/-! ## What a cursor remembers -/

theorem breakSince_concat (tokens : List Token) (token : Token) :
    breakSince (tokens ++ [token]) =
      ((breakSince tokens || token.kind == .lineBreak) && token.kind.isTrivia) := by
  cases trivial : token.kind.isTrivia with
  | false => simp [breakSince, triviaSince, trivial]
  | true => simp [breakSince, triviaSince, trivial, Bool.or_comm]

theorem Cursor.next_afterBreak {cursor : Cursor} {seen : List Token} (more : cursor.rest ≠ [])
    (known : cursor.afterBreak = breakSince seen) :
    cursor.next.1.afterBreak = (breakSince seen || cursor.next.1.kind == .lineBreak) ∧
      cursor.next.2.afterBreak = breakSince (seen ++ [cursor.next.1]) := by
  obtain ⟨token, -, -, afterBreak⟩ := next_of_rest_ne_nil more
  rw [afterBreak, breakSince_concat, token, known]
  exact ⟨rfl, rfl⟩

theorem Cursor.run_afterBreak {cursor : Cursor} {seen before after : List Token} {token : Token}
    (known : cursor.afterBreak = breakSince seen) (split : cursor.run.1 = before ++ token :: after)
    (inside : token.kind ≠ .endOfText) :
    token.afterBreak = (breakSince (seen ++ before) || token.kind == .lineBreak) := by
  induction cursor using run_induction generalizing seen before with
  | done cursor done =>
      rw [run_of_rest_nil done] at split
      cases before with
      | nil =>
          obtain ⟨rfl, -⟩ := List.cons.inj split
          exact absurd rfl inside
      | cons first before => simp at split
  | step cursor more ih =>
      obtain ⟨here, later⟩ := next_afterBreak more known
      rw [run_of_rest_ne_nil more] at split
      cases before with
      | nil =>
          obtain ⟨rfl, -⟩ := List.cons.inj split
          rw [List.append_nil]
          exact here
      | cons first before =>
          obtain ⟨rfl, rest⟩ := List.cons.inj split
          rw [ih later rest, List.append_assoc, List.singleton_append]

/-! ## What the tokens show -/

theorem breakSince_iff (tokens : List Token) :
    breakSince tokens = true ↔ ∃ early feed late, tokens = early ++ feed :: late ∧
      feed.kind = .lineBreak ∧ ∀ other ∈ late, other.kind.isTrivia = true := by
  unfold breakSince triviaSince
  constructor
  · intro found
    obtain ⟨feed, mem, kind⟩ := List.any_eq_true.mp found
    obtain ⟨late, between, split⟩ := List.append_of_mem mem
    have whole := List.takeWhile_append_dropWhile (p := (·.kind.isTrivia)) (l := tokens.reverse)
    rw [split, List.append_assoc, List.cons_append] at whole
    let early := between ++ tokens.reverse.dropWhile (·.kind.isTrivia)
    refine ⟨early.reverse, feed, late.reverse, ?_, eq_of_beq kind, fun other behind => ?_⟩
    · rw [← tokens.reverse_reverse, ← whole, List.reverse_append, List.reverse_cons,
        List.append_assoc, List.singleton_append]
    · apply List.all_eq_true.mp (List.all_takeWhile (l := tokens.reverse) (p := (·.kind.isTrivia)))
      rw [split]
      exact List.mem_append_left _ (List.mem_reverse.mp behind)
  · rintro ⟨early, feed, late, rfl, kind, trivial⟩
    have behind : ∀ other ∈ late.reverse, other.kind.isTrivia = true :=
      fun other mem => trivial other (List.mem_reverse.mp mem)
    have itself : feed.kind.isTrivia = true := by rw [kind]; rfl
    rw [List.reverse_append, List.reverse_cons, List.append_assoc, List.singleton_append,
      List.takeWhile_append_of_pos behind, List.takeWhile_cons, if_pos itself]
    simp [kind]

theorem breakSince_take_iff {tokens : List Token} {i : Nat} (inside : i ≤ tokens.length) :
    breakSince (tokens.take i) = true ↔
      ∃ j feed, j < i ∧ tokens[j]? = some feed ∧ feed.kind = .lineBreak ∧
        ∀ k other, j ≤ k → k < i → tokens[k]? = some other → other.kind.isTrivia = true := by
  rw [breakSince_iff]
  have length : (tokens.take i).length = i := List.length_take_of_le inside
  constructor
  · rintro ⟨early, feed, late, split, kind, trivial⟩
    have here : early.length < i := by
      rw [← length, split, List.length_append, List.length_cons]
      omega
    have at_index (k : Nat) (before : k < i) :
        tokens[k]? = (early ++ feed :: late)[k]? := by
      rw [← split, List.getElem?_take_of_lt before]
    refine ⟨early.length, feed, here, ?_, kind, ?_⟩
    · rw [at_index _ here, List.getElem?_append_right (Nat.le_refl _), Nat.sub_self]
      rfl
    · intro k other from_feed before found
      rw [at_index k before, List.getElem?_append_right from_feed] at found
      rcases List.mem_cons.mp (List.mem_of_getElem? found) with rfl | behind
      · rw [kind]
        rfl
      · exact trivial other behind
  · rintro ⟨j, feed, before, here, kind, trivial⟩
    have found : (tokens.take i)[j]? = some feed := by rwa [List.getElem?_take_of_lt before]
    obtain ⟨bound, rfl⟩ := List.getElem?_eq_some_iff.mp found
    refine ⟨(tokens.take i).take j, _, (tokens.take i).drop (j + 1), ?_, kind, ?_⟩
    · rw [← List.drop_eq_getElem_cons bound, List.take_append_drop]
    · intro other behind
      obtain ⟨k, found⟩ := List.mem_iff_getElem?.mp behind
      rw [List.getElem?_drop] at found
      have within := (List.getElem?_eq_some_iff.mp found).1
      rw [length] at within
      rw [List.getElem?_take_of_lt within] at found
      exact trivial (j + 1 + k) other (by omega) within found

theorem scan_lineBreak_iff (t : Text) :
    (scan t).kind = .lineBreak ↔ ∃ c, isBreak c = true ∧ t.head? = some c := by
  constructor
  · intro kind
    have found : trivia? t = some (scan t) := trivia?_of_kind (by rw [kind]; rfl)
    rcases trivia?_cases found with
      ⟨rest, -, lexeme⟩ | ⟨rest, -, lexeme⟩ | ⟨c, rest, rfl, breaks, -⟩ | ⟨c, rest, -, -, lexeme⟩
    · rw [lexeme] at kind
      cases kind
    · rw [lexeme, Lexeme.delimited_kind] at kind
      cases kind
    · exact ⟨c, breaks, rfl⟩
    · rw [lexeme] at kind
      cases kind
  · rintro ⟨c, breaks, first⟩
    obtain ⟨rest, rfl⟩ := List.head?_eq_some_iff.mp first
    rw [scan_break rest breaks]

theorem lineBreak_starts {source : Text} {window : Span} {token : Token}
    (mem : token ∈ tokensIn source window) :
    token.kind = .lineBreak ↔ ∃ c, isBreak c = true ∧ source[token.span.start]? = some c := by
  have bounds := (tiles_tokensIn source window).bounds mem
  have first := (front_of_mem_tokensIn mem).2
  have inside : token.span.start < min window.stop source.length := by omega
  rw [← show (scan _).kind = token.kind from congrArg Piece.kind first, scan_lineBreak_iff,
    List.head?_drop, List.getElem?_take_of_lt inside]

theorem line_breaks_marked (source : Text) (window : Option Span) :
    let tokens := (window.elim (Cursor.ofSource source) (Cursor.ofWindow source)).run.1
    let breaks := ['\r', '\n', '\u0085', '\u2028', '\u2029']
    ∀ i token, tokens[i]? = some token → token.kind ≠ .endOfText →
      (token.afterBreak = true ↔
        ∃ j feed, j ≤ i ∧ tokens[j]? = some feed ∧ feed.kind = .lineBreak ∧
          ∀ k other, j ≤ k → k < i → tokens[k]? = some other → other.kind.isTrivia = true) ∧
      (token.kind.isTrivia = false →
        (token.afterBreak = true ↔
          ∃ feed ∈ triviaSince (tokens.take i), feed.kind = .lineBreak)) ∧
      (token.kind = .lineBreak ↔ ∃ c ∈ breaks, source[token.span.start]? = some c) := by
  obtain ⟨covered, cursor, -⟩ := Cursor.exists_window source window
  simp only [cursor, ← isBreak_iff_mem]
  generalize whole : (Cursor.ofWindow source covered).run.1 = tokens
  intro i token here inside
  obtain ⟨bound, itself⟩ := List.getElem?_eq_some_iff.mp here
  have split : tokens = tokens.take i ++ token :: tokens.drop (i + 1) := by
    rw [← itself, ← List.drop_eq_getElem_cons bound, List.take_append_drop]
  have fresh : (Cursor.ofWindow source covered).afterBreak = breakSince [] := rfl
  have marked : token.afterBreak = (breakSince (tokens.take i) || token.kind == .lineBreak) :=
    Cursor.run_afterBreak fresh (whole.trans split) inside
  refine ⟨?_, ?_, ?_⟩
  · rw [marked, Bool.or_eq_true, breakSince_take_iff (Nat.le_of_lt bound), beq_iff_eq]
    constructor
    · rintro (⟨j, feed, before, found, kind, trivial⟩ | kind)
      · exact ⟨j, feed, Nat.le_of_lt before, found, kind, trivial⟩
      · exact ⟨i, token, Nat.le_refl i, here, kind, fun k _ low high => absurd high (by omega)⟩
    · rintro ⟨j, feed, upTo, found, kind, trivial⟩
      rcases Nat.lt_or_eq_of_le upTo with before | rfl
      · exact .inl ⟨j, feed, before, found, kind, trivial⟩
      · rw [here] at found
        obtain rfl := Option.some.inj found
        exact .inr kind
  · intro code
    have other : (token.kind == .lineBreak) = false := by
      apply Bool.eq_false_iff.mpr
      intro kind
      rw [eq_of_beq kind] at code
      cases code
    rw [marked, other, Bool.or_false, breakSince, List.any_eq_true]
    simp only [beq_iff_eq]
  · have mem := List.mem_of_getElem? here
    rw [← whole, run_ofWindow, List.mem_append, List.mem_singleton] at mem
    rcases mem with mem | rfl
    · exact lineBreak_starts mem
    · exact absurd rfl inside

theorem line_breaks_marked_hidden :
    let source := "a/*\n*/b\r\n/* c */d\"\n\"e".toList
    let tokens := (Cursor.ofSource source).run.1
    let hidden : Token := { kind := .identifier, span := .ofLength 6 1 }
    let behind : Token := { kind := .identifier, span := .ofLength 16 1, afterBreak := true }
    (tokens[2]? = some hidden ∧ tokens[5]? = some behind) ∧
      (¬ ∃ feed ∈ triviaSince (tokens.take 2), feed.kind = .lineBreak) ∧
      (∃ feed ∈ triviaSince (tokens.take 5), feed.kind = .lineBreak) ∧
      ∃ j feed, j ≤ 5 ∧ tokens[j]? = some feed ∧ feed.kind = .lineBreak ∧
        ∀ k other, j ≤ k → k < 5 → tokens[k]? = some other → other.kind.isTrivia = true := by
  intro source tokens hidden behind
  have found : tokens[2]? = some hidden ∧ tokens[5]? = some behind := by decide +kernel
  have marked := line_breaks_marked source none
  obtain ⟨-, none, -⟩ := marked 2 hidden found.1 (by decide)
  obtain ⟨run, some, -⟩ := marked 5 behind found.2 (by decide)
  refine ⟨found, ?_, (some rfl).mp rfl, run.mp rfl⟩
  intro feed
  cases (none rfl).mpr feed

end ItemLayout
