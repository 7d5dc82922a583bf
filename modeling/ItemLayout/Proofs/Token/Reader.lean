import ItemLayout.Proofs.Token.Comments
import ItemLayout.Proofs.Token.Cuts
import ItemLayout.Proofs.Token.Lossless
import ItemLayout.Token.Reader

/-!
# What a reader sees

The text of a reader is what stands from its position up to its limit. Every guarded access is an
access to this text, every loop is one step over as many characters as the recogniser of the same
piece of text counts, and so a reader finds the token that `scan` finds there (`Reader.token_eq`).
-/

namespace ItemLayout

namespace Reader

variable (r : Reader)

def rest : Text := (r.source.take r.limit).drop r.position

/-! ## Accesses -/

theorem length_rest : r.rest.length = r.limit - r.position := by
  rw [rest, List.length_drop, List.length_take, Nat.min_eq_left r.limit_le]

theorem atEnd_iff : r.atEnd = true ↔ r.rest = [] := by
  rw [← List.length_eq_zero_iff, length_rest, atEnd, decide_eq_true_eq]
  omega

theorem peek_eq (ahead : Nat) : r.peek ahead = (r.rest[ahead]?).getD '\x00' := by
  rw [rest, List.getElem?_drop, List.getElem?_take, peek]
  split
  · rename_i inside
    rw [List.getElem?_eq_getElem (Nat.lt_of_lt_of_le inside r.limit_le)]
    rfl
  · rfl

theorem rest_advance (steps : Nat) : (r.advance steps).rest = r.rest.drop steps := by
  rw [rest, rest, advance, List.drop_drop]
  rcases Nat.le_total (r.position + steps) r.limit with inside | beyond
  · rw [Nat.min_eq_left inside]
  · have short : (r.source.take r.limit).length = r.limit := List.length_take_of_le r.limit_le
    rw [Nat.min_eq_right beyond, List.drop_eq_nil_of_le (Nat.le_of_eq short),
      List.drop_eq_nil_of_le (by rwa [short])]

theorem advance_advance (m n : Nat) : (r.advance m).advance n = r.advance (m + n) := by
  simp only [advance, mk.injEq, true_and, and_true]
  omega

theorem advance_zero {r : Reader} (inside : r.position ≤ r.limit) : r.advance 0 = r := by
  rw [advance, Nat.add_zero, Nat.min_eq_left inside]

theorem position_advance (steps : Nat) : (r.advance steps).position ≤ (r.advance steps).limit :=
  Nat.min_le_right _ _

/-- The comparison alone may go beyond the limit; its guard keeps it inside. -/
theorem startsWith_eq {r : Reader} (inside : r.position ≤ r.limit) (t : Text) :
    (r.startsWith t && r.position + t.length ≤ r.limit) = t.isPrefixOf r.rest := by
  have within : t.length ≤ r.limit - r.position ↔ r.position + t.length ≤ r.limit := by omega
  rw [Bool.eq_iff_iff, Bool.and_eq_true, startsWith, List.isPrefixOf_iff_prefix,
    List.isPrefixOf_iff_prefix, rest, List.drop_take, List.prefix_take_iff, decide_eq_true_eq, within]

/-- No token looks for a null, so that beyond the limit none is mistaken for a character. -/
theorem peek_eq_iff {c : Char} (seen : c ≠ '\x00') (ahead : Nat) :
    r.peek ahead = c ↔ r.rest[ahead]? = some c := by
  rw [peek_eq]
  cases r.rest[ahead]? with
  | none => simpa using seen.symm
  | some d => simp

section

variable {r} {c : Char} {t : Text} (split : r.rest = c :: t)
include split

theorem peek_zero : r.peek 0 = c := by simp [peek_eq, split]

theorem rest_advance_one : (r.advance 1).rest = t := by simp [rest_advance, split]

theorem peek_one {d : Char} (seen : d ≠ '\x00') : r.peek 1 = d ↔ t.head? = some d := by
  rw [peek_eq_iff r seen, split, List.getElem?_cons_succ, List.head?_eq_getElem?]

theorem peek_two {d : Char} (seen : d ≠ '\x00') : r.peek 2 = d ↔ t.tail.head? = some d := by
  rw [peek_eq_iff r seen, split, List.getElem?_cons_succ, List.head?_tail]

theorem position_le : r.position ≤ r.limit := by
  have := r.length_rest
  rw [split, List.length_cons] at this
  omega

end

theorem drop_of_peek {r : Reader} {ahead : Nat} {c : Char} (here : r.peek ahead = c)
    (seen : c ≠ '\x00') : r.rest.drop ahead = c :: r.rest.drop (ahead + 1) := by
  obtain ⟨inside, found⟩ := List.getElem?_eq_some_iff.mp ((r.peek_eq_iff seen ahead).mp here)
  rw [List.drop_eq_getElem_cons inside, found]

theorem rest_of_pair {r : Reader} {c d : Char} (first : r.peek 0 = c) (second : r.peek 1 = d)
    (seen : c ≠ '\x00') (seen' : d ≠ '\x00') : r.rest = c :: d :: (r.advance 2).rest := by
  rw [rest_advance, ← drop_of_peek second seen', ← drop_of_peek first seen, List.drop_zero]

theorem not_atEnd_iff {r : Reader} : ¬ r.atEnd = true ↔ ∃ c t, r.rest = c :: t := by
  rw [atEnd_iff]
  exact List.ne_nil_iff_exists_cons

/-! ## Loops -/

theorem passWhile_eq (p : Char → Bool) {r : Reader} (inside : r.position ≤ r.limit) :
    r.passWhile p = r.advance (r.rest.takeWhile p).length := by
  fun_induction passWhile p r with
  | case1 r done => rw [r.atEnd_iff.mp done, List.takeWhile_nil, List.length_nil, advance_zero inside]
  | case2 r more here ih =>
      obtain ⟨c, t, split⟩ := not_atEnd_iff.mp more
      rw [peek_zero split] at here
      rw [ih (r.position_advance 1), rest_advance_one split, advance_advance, split,
        List.takeWhile_cons_of_pos here, List.length_cons, Nat.add_comm]
  | case3 r more here =>
      obtain ⟨c, t, split⟩ := not_atEnd_iff.mp more
      rw [peek_zero split] at here
      rw [split, List.takeWhile_cons_of_neg here, List.length_nil, advance_zero inside]

theorem passCharacter_eq {r : Reader} (inside : r.position ≤ r.limit) :
    r.passCharacter = r.advance (characterLength r.rest) := by
  fun_induction passCharacter r with
  | case1 r done => rw [r.atEnd_iff.mp done, characterLength, advance_zero inside]
  | case2 r more here =>
      obtain ⟨c, t, split⟩ := not_atEnd_iff.mp more
      rw [peek_zero split] at here
      rw [split, characterLength, if_pos (by simpa using here)]
  | case3 r more here ih =>
      obtain ⟨c, t, split⟩ := not_atEnd_iff.mp more
      rw [peek_zero split] at here
      rw [ih (r.position_advance 1), rest_advance_one split, advance_advance, split, characterLength,
        if_neg (by simpa using here), Nat.add_comm]

theorem passNumber_eq {r : Reader} (inside : r.position ≤ r.limit) :
    r.passNumber = r.advance (numberLength r.rest) := by
  have step {r : Reader} {c : Char} {t : Text} (split : r.rest = c :: t)
      (goes : (isWordPart c || (c == '.' && t.head?.any isDigit)) = true) :
      (r.advance 1).advance (numberLength (r.advance 1).rest) = r.advance (numberLength r.rest) := by
    rw [rest_advance_one split, advance_advance, split, numberLength, if_pos goes, Nat.add_comm]
  have ahead {r : Reader} {c : Char} {t : Text} (split : r.rest = c :: t) :
      isDigit (r.peek 1) = t.head?.any isDigit := by
    rw [peek_eq, split, List.getElem?_cons_succ, ← List.head?_eq_getElem?]
    cases t.head? with
    | none => decide
    | some d => rfl
  fun_induction passNumber r with
  | case1 r done => rw [r.atEnd_iff.mp done, numberLength, advance_zero inside]
  | case2 r more here ih =>
      obtain ⟨c, t, split⟩ := not_atEnd_iff.mp more
      rw [peek_zero split] at here
      rw [ih (r.position_advance 1), step split (by rw [here, Bool.true_or])]
  | case3 r more here point ih =>
      obtain ⟨c, t, split⟩ := not_atEnd_iff.mp more
      rw [peek_zero split, ahead split] at point
      rw [ih (r.position_advance 1), step split (by simp [point])]
  | case4 r more here point =>
      obtain ⟨c, t, split⟩ := not_atEnd_iff.mp more
      rw [peek_zero split] at here
      rw [peek_zero split, ahead split] at point
      rw [split, numberLength, if_neg (by simpa [here] using point), advance_zero inside]

/-! ## Closings -/

/-- What a loop answers that looks for a closing so many characters ahead, if there is one. -/
def closing : Option Nat → Bool × Reader
  | some n => (true, r.advance n)
  | none => (false, r.advance r.rest.length)

theorem closing_advance {steps : Nat} (inside : steps ≤ r.rest.length) (found : Option Nat) :
    (r.advance steps).closing found = r.closing (found.map (· + steps)) := by
  cases found with
  | some n => simp only [closing, Option.map_some, advance_advance, Nat.add_comm]
  | none =>
      simp only [closing, Option.map_none, advance_advance, rest_advance, List.length_drop,
        Nat.add_sub_cancel' inside]

theorem closing_done {r : Reader} (inside : r.position ≤ r.limit) (done : r.atEnd = true) :
    (false, r) = r.closing none := by
  rw [closing, r.atEnd_iff.mp done, List.length_nil, advance_zero inside]

theorem passBlockComment_eq (depth : Nat) {r : Reader} (inside : r.position ≤ r.limit) :
    r.passBlockComment depth = r.closing (blockCommentLength depth r.rest) := by
  fun_induction passBlockComment depth r with
  | case1 depth r done =>
      rw [closing_done inside done, r.atEnd_iff.mp done, blockCommentLength]
  | case2 depth r more opens ih =>
      have split := rest_of_pair opens.1 opens.2 (by decide) (by decide)
      rw [ih (r.position_advance 2), closing_advance r (by simp [split]), split, blockCommentLength]
  | case3 r more opens closes =>
      rw [rest_of_pair closes.1 closes.2 (by decide) (by decide), blockCommentLength, closing]
  | case4 r more opens closes outer ih =>
      have split := rest_of_pair closes.1 closes.2 (by decide) (by decide)
      rw [ih (r.position_advance 2), closing_advance r (by simp [split]), split, blockCommentLength]
  | case5 depth r more opens closes ih =>
      obtain ⟨c, t, split⟩ := not_atEnd_iff.mp more
      rw [peek_zero split, peek_one split (by decide)] at opens closes
      have plain : ¬MarkerAt c t := not_or.mpr ⟨opens, closes⟩
      rw [ih (r.position_advance 1), closing_advance r (by simp [split]), rest_advance_one split,
        split, blockCommentLength_other depth plain]

theorem passString_eq {r : Reader} (inside : r.position ≤ r.limit) :
    r.passString = r.closing (stringLength r.rest) := by
  fun_induction passString r with
  | case1 r done => rw [closing_done inside done, r.atEnd_iff.mp done, stringLength]
  | case2 r more quote =>
      obtain ⟨c, t, split⟩ := not_atEnd_iff.mp more
      obtain rfl := (peek_zero split).symm.trans quote
      rw [split, stringLength, closing]
  | case3 r more quote escape ih =>
      obtain ⟨c, t, split⟩ := not_atEnd_iff.mp more
      obtain rfl := (peek_zero split).symm.trans escape
      have length := r.length_rest
      rw [dite_eq_ite] at ih
      rw [ih (r.position_advance _)]
      -- A backslash right before the limit hides nothing.
      cases t with
      | nil =>
          rw [split, List.length_singleton] at length
          rw [if_neg (by omega), closing_advance r (by simp [split]), rest_advance_one split, split]
          rfl
      | cons d t =>
          rw [split, List.length_cons, List.length_cons] at length
          rw [if_pos (by omega), closing_advance r (by simp [split]), rest_advance, split]
          rfl
  | case4 r more quote escape ih =>
      obtain ⟨c, t, split⟩ := not_atEnd_iff.mp more
      rw [peek_zero split] at quote escape
      rw [ih (r.position_advance 1), closing_advance r (by simp [split]), rest_advance_one split,
        split, stringLength_plain quote escape]

theorem passRawString_eq (closing : Text) {r : Reader} (inside : r.position ≤ r.limit) :
    r.passRawString closing = r.closing (rawStringLength closing r.rest) := by
  fun_induction passRawString closing r with
  | case1 r done => rw [closing_done inside done, r.atEnd_iff.mp done, rawStringLength]
  | case2 r more here =>
      obtain ⟨c, t, split⟩ := not_atEnd_iff.mp more
      rw [startsWith_eq inside, split] at here
      rw [split, rawStringLength, if_pos here, Reader.closing]
  | case3 r more here ih =>
      obtain ⟨c, t, split⟩ := not_atEnd_iff.mp more
      rw [startsWith_eq inside, split] at here
      rw [ih (r.position_advance 1), closing_advance r (by simp [split]), rest_advance_one split,
        split, rawStringLength, if_neg here]

theorem passHashes_eq {n : Nat} {body : Text} (hashes : Nat) {r : Reader}
    (split : r.rest = List.replicate n '#' ++ '"' :: body) :
    r.passHashes hashes = (hashes + n, r.advance n) := by
  induction n generalizing hashes r with
  | zero =>
      have quote : r.peek 0 ≠ '#' := by
        rw [peek_zero split]
        decide
      rw [passHashes, dif_neg quote, advance_zero (position_le split)]
      rfl
  | succ n ih =>
      rw [passHashes, dif_pos (peek_zero split), ih _ (rest_advance_one split), advance_advance,
        Nat.add_assoc, Nat.add_comm 1]

theorem opensRawString_iff (ahead : Nat) (r : Reader) :
    r.opensRawString ahead = true ↔
      ∃ n body, r.rest.drop ahead = List.replicate n '#' ++ '"' :: body := by
  fun_induction opensRawString ahead r with
  | case1 ahead hash ih =>
      rw [ih, drop_of_peek hash (by decide)]
      constructor
      · rintro ⟨n, body, split⟩
        exact ⟨n + 1, body, congrArg ('#' :: ·) split⟩
      · rintro ⟨n, body, split⟩
        cases n with
        | zero => cases split
        | succ n => exact ⟨n, body, (List.cons.inj split).2⟩
  | case2 ahead hash =>
      rw [decide_eq_true_eq]
      constructor
      · intro quote
        exact ⟨0, _, drop_of_peek quote (by decide)⟩
      · rintro ⟨n, body, split⟩
        rw [r.peek_eq_iff (by decide), ← List.head?_drop, split] at hash ⊢
        cases n with
        | zero => rfl
        | succ n => exact absurd rfl hash

/-! ## Tokens -/

def reading (lexeme : Lexeme) : Reading where
  kind := lexeme.kind
  raw := lexeme.raw
  unterminated := lexeme.unterminated
  behind := r.advance lexeme.length

theorem delimited_closing (kind : TokenKind) (raw : Bool) (opening : Nat) (found : Option Nat) :
    Reading.delimited kind raw ((r.advance opening).closing found) =
      r.reading (.delimited kind raw opening (r.advance opening).rest found) := by
  cases found with
  | none => simp only [closing, Reading.delimited, reading, Lexeme.delimited, advance_advance,
      Bool.not_false]
  | some n => simp only [closing, Reading.delimited, reading, Lexeme.delimited, advance_advance,
      Bool.not_true]

theorem trivia?_eq {r : Reader} {c : Char} {t : Text} (split : r.rest = c :: t) :
    r.trivia? = (ItemLayout.trivia? r.rest).map r.reading := by
  rw [Reader.trivia?, peek_zero split]
  by_cases slash : c = '/'
  · subst slash
    rw [if_neg (by decide), if_neg (by decide)]
    by_cases line : r.peek 1 = '/'
    · rw [if_pos ⟨rfl, line⟩, passWhile_eq _ (r.position_advance 2), advance_advance,
        rest_of_pair (peek_zero split) line (by decide) (by decide)]
      rfl
    by_cases block : r.peek 1 = '*'
    · rw [if_neg (by simp [line]), if_pos ⟨rfl, block⟩, passBlockComment_eq 0 (r.position_advance 2),
        delimited_closing, rest_of_pair (peek_zero split) block (by decide) (by decide)]
      rfl
    · rw [if_neg (by simp [line]), if_neg (by simp [block]), split]
      rw [peek_one split (by decide)] at line block
      cases t with
      | nil => rfl
      | cons d t => simp_all [ItemLayout.trivia?, isBreak, isSpacing]
  · rw [split, trivia?_cons t slash]
    by_cases breaks : isBreak c = true
    · have pair : r.peek 1 = '\n' ↔ t.head? = some '\n' := peek_one split (by decide)
      rw [if_pos breaks, if_pos breaks, lineBreak]
      simp only [peek_zero split, pair]
      rfl
    by_cases spacing : isSpacing c = true
    · rw [if_neg breaks, if_neg breaks, if_pos spacing, if_pos spacing,
        passWhile_eq isSpacing (position_le split), split, List.takeWhile_cons_of_pos spacing,
        List.length_cons, Nat.add_comm]
      rfl
    · rw [if_neg breaks, if_neg breaks, if_neg spacing, if_neg spacing,
        if_neg (fun marker => slash marker.1), if_neg (fun marker => slash marker.1)]
      rfl

theorem string_eq (letters : Nat) :
    (r.advance letters).string =
      r.reading (.delimited .string false (letters + 1) (r.advance (letters + 1)).rest
        (stringLength (r.advance (letters + 1)).rest)) := by
  rw [string, advance_advance, passString_eq (r.position_advance _), delimited_closing]

theorem rawString_eq (letters : Nat) :
    (if r.opensRawString letters then some (r.advance letters).rawString else none) =
      (rawString? letters (r.advance letters).rest).map r.reading := by
  have opened := r.opensRawString_iff letters
  rw [← rest_advance] at opened
  by_cases opens : r.opensRawString letters = true
  · obtain ⟨n, body, split⟩ := opened.mp opens
    have behind : (r.advance (letters + n + 1)).rest = body := by
      rw [← advance_advance, ← advance_advance, rest_advance, rest_advance, split]
      simp
    rw [if_pos opens, split, rawString?_quote, rawString, passHashes_eq 0 split]
    simp only [advance_advance, Nat.zero_add]
    rw [passRawString_eq _ (r.position_advance _), delimited_closing, behind]
    rfl
  · rw [if_neg opens]
    cases found : rawString? letters (r.advance letters).rest with
    | none => rfl
    | some lexeme => exact absurd (opened.mpr (rawString?_cases found)) opens

theorem advance_of_length_le {steps : Nat} (short : r.rest.length ≤ steps) :
    r.advance steps = r.advance r.rest.length := by
  have length := r.length_rest
  simp only [advance, mk.injEq, true_and, and_true]
  omega

theorem quoted_eq {r : Reader} {c : Char} {t : Text} (split : r.rest = c :: t) :
    r.quoted = r.reading (ItemLayout.quoted t) := by
  rw [Reader.quoted]
  by_cases escape : r.peek 1 = '\\'
  · rw [if_pos escape, passCharacter_eq (r.position_advance 3), advance_advance, rest_advance, split]
    obtain ⟨u, rfl⟩ := List.head?_eq_some_iff.mp ((peek_one split (by decide)).mp escape)
    cases u with
    | nil =>
        -- The limit stands behind the backslash, and the step of three is cut off there.
        have length : r.rest.length = 2 := by rw [split]; rfl
        rw [r.advance_of_length_le (by omega), length]
        rfl
    | cons d u => rfl
  by_cases close : r.peek 2 = '\''
  · rw [if_neg escape, if_pos close]
    rw [peek_one split (by decide)] at escape
    rw [peek_two split (by decide)] at close
    cases t with
    | nil => cases close
    | cons d t =>
        obtain ⟨u, rfl⟩ := List.head?_eq_some_iff.mp close
        rw [quoted_eq_character u (by simpa using escape)]
        rfl
  · rw [if_neg escape, if_neg close, passWhile_eq isWordPart (r.position_advance 1), advance_advance,
      rest_advance_one split]
    rw [peek_one split (by decide)] at escape
    rw [peek_two split (by decide)] at close
    rw [quoted_eq_lifetime escape close]
    rfl

theorem literal?_eq {r : Reader} {c : Char} {t : Text} (split : r.rest = c :: t) :
    r.literal? = (ItemLayout.literal? r.rest).map r.reading := by
  have here := peek_zero split
  rw [Reader.literal?, here]
  by_cases quote : c = '"'
  · subst quote
    have string := r.string_eq 0
    rw [advance_zero (position_le split), Nat.zero_add, rest_advance_one split] at string
    rw [if_pos rfl, string, split]
    rfl
  by_cases tick : c = '\''
  · subst tick
    rw [if_neg (by decide), if_pos rfl, quoted_eq split, split]
    rfl
  rw [if_neg quote, if_neg tick]
  by_cases letter : c = 'r'
  · subst letter
    have opened : ItemLayout.literal? ('r' :: t) = rawString? 1 t := rfl
    have raw := r.rawString_eq 1
    rw [rest_advance_one split] at raw
    rw [split, opened, ← raw]
    simp
  by_cases byte : c = 'b'
  · subst byte
    by_cases next : r.peek 1 = '"'
    · rw [rest_of_pair here next (by decide) (by decide), if_neg (by simp), if_pos ⟨rfl, next⟩,
        r.string_eq 1]
      rfl
    by_cases letter : r.peek 1 = 'r'
    · have opened (u : Text) : ItemLayout.literal? ('b' :: 'r' :: u) = rawString? 2 u := rfl
      rw [rest_of_pair here letter (by decide) (by decide), opened, ← r.rawString_eq 2]
      simp [letter]
    · rw [if_neg (by simp), if_neg (by simp [next]), if_neg (by simp [letter])]
      rw [peek_one split (by decide)] at next letter
      rw [split, literal?_of_other (by decide) (by decide) (by decide) fun _ => ⟨next, letter⟩]
      rfl
  · rw [if_neg (by simp [letter]), if_neg (by simp [byte]), if_neg (by simp [byte]), split,
      literal?_of_other quote tick letter fun same => absurd same byte]
    rfl

theorem identifier_eq (raw : Bool) :
    r.identifier raw =
      r.reading { kind := .identifier, length := 1 + wordLength (r.advance 1).rest, raw } := by
  rw [identifier, passWhile_eq isWordPart (r.position_advance 1), advance_advance]
  rfl

theorem rawIdentifier_eq :
    (if r.peek 0 = 'r' ∧ r.peek 1 = '#' ∧ isWordStart (r.peek 2) then
      some ((r.advance 2).identifier true) else none) = (rawIdentifier? r.rest).map r.reading := by
  by_cases marked : r.peek 0 = 'r' ∧ r.peek 1 = '#' ∧ isWordStart (r.peek 2) = true
  · obtain ⟨letter, hash, start⟩ := marked
    have seen : r.peek 2 ≠ '\x00' := by
      intro null
      rw [null] at start
      exact absurd start (by decide)
    have split := rest_of_pair letter hash (by decide) (by decide)
    have name : (r.advance 2).rest = r.peek 2 :: (r.advance 3).rest := by
      rw [rest_advance, rest_advance, ← drop_of_peek rfl seen]
    rw [if_pos ⟨letter, hash, start⟩, identifier_eq, split, name, rawIdentifier?, if_pos start]
    simp only [reading, advance_advance, Option.map_some, ← Nat.add_assoc]
  · rw [if_neg marked]
    cases found : rawIdentifier? r.rest with
    | none => rfl
    | some lexeme =>
        unfold rawIdentifier? at found
        split at found
        · rename_i c t split
          split at found
          · rename_i start
            exact absurd (by simp [peek_eq, split, start]) marked
          · cases found
        · cases found

theorem word?_eq {r : Reader} {c : Char} {t : Text} (split : r.rest = c :: t) :
    r.word? = (ItemLayout.word? r.rest).map r.reading := by
  have here := peek_zero split
  have marked := r.rawIdentifier_eq
  rw [here] at marked
  rw [Reader.word?, here, split, ItemLayout.word?]
  by_cases digit : isDigit c = true
  · rw [if_pos digit, if_pos digit, passNumber_eq (position_le split), split, numberLength,
      if_pos (by rw [isWordPart_of_isDigit digit, Bool.true_or]), Nat.add_comm]
    rfl
  rw [if_neg digit, if_neg digit, ← split]
  by_cases raw : c = 'r' ∧ r.peek 1 = '#' ∧ isWordStart (r.peek 2) = true
  · rw [if_pos raw] at marked ⊢
    obtain ⟨lexeme, found, read⟩ := Option.map_eq_some_iff.mp marked.symm
    rw [found, ← read]
    rfl
  · rw [if_neg raw] at marked ⊢
    rw [Option.map_eq_none_iff.mp marked.symm, Option.none_or, identifier_eq, rest_advance_one split]
    split <;> rfl

theorem symbol_eq {r : Reader} {c : Char} {t : Text} (split : r.rest = c :: t) :
    r.symbol = r.reading (ItemLayout.symbol r.rest) := by
  rw [Reader.symbol, peek_zero split, split]
  rfl

theorem token_eq (more : r.rest ≠ []) : r.token = r.reading (scan r.rest) := by
  obtain ⟨c, t, split⟩ := List.exists_cons_of_ne_nil more
  rw [token, trivia?_eq split, literal?_eq split, word?_eq split, symbol_eq split, scan]
  cases ItemLayout.trivia? r.rest with
  | some lexeme => rfl
  | none =>
      cases ItemLayout.literal? r.rest with
      | some lexeme => rfl
      | none => cases ItemLayout.word? r.rest <;> rfl

theorem position_scan {r : Reader} (more : r.rest ≠ []) :
    (r.advance (scan r.rest).length).position = r.position + (scan r.rest).length := by
  have inside := scan_length_le more
  have length := r.length_rest
  have left := List.length_pos_iff.mpr more
  exact Nat.min_eq_left (by omega)

theorem position_lt_token {r : Reader} (more : ¬ r.atEnd = true) :
    r.position < r.token.behind.position := by
  rw [r.atEnd_iff] at more
  rw [token_eq r more, reading, position_scan more]
  exact Nat.lt_add_of_pos_right (scan_length_pos _)

end Reader

/-! ## All tokens -/

structure Lexer where
  reader : Reader
  mark : Nat
  afterBreak : Bool := false
  diagnostics : List Diagnostic := []
  mark_le : mark ≤ reader.position

namespace Lexer

def ofWindow (source : Text) (window : Span) : Lexer where
  reader := .ofWindow source window
  mark := window.start
  mark_le := Nat.le_of_eq rfl

def ofSource (source : Text) : Lexer := ofWindow source (.ofLength 0 source.length)

def next (lexer : Lexer) : Token × Lexer :=
  if done : lexer.reader.atEnd = true then
    ({ kind := .endOfText, span := .emptyAt lexer.reader.position },
      { lexer with mark := lexer.reader.position, mark_le := Nat.le_refl _ })
  else
    let read := lexer.reader.token
    let span : Span := ⟨lexer.reader.position, read.behind.position,
      Nat.le_of_lt (Reader.position_lt_token done)⟩
    let afterBreak := lexer.afterBreak || read.kind == .lineBreak
    ({ kind := read.kind, span, afterBreak, unterminated := read.unterminated, raw := read.raw },
      { reader := read.behind
        mark := span.start
        afterBreak := afterBreak && read.kind.isTrivia
        diagnostics :=
          if read.unterminated then
            lexer.diagnostics ++ [(Cursor.openNotice read.kind).locate span]
          else lexer.diagnostics
        mark_le := span.ordered })

/-- The same place as a cursor, which holds nothing but the text in front of the limit. -/
def cursor (lexer : Lexer) : Cursor where
  rest := lexer.reader.rest
  offset := lexer.reader.position
  mark := lexer.mark
  afterBreak := lexer.afterBreak
  diagnostics := lexer.diagnostics
  mark_le := lexer.mark_le

theorem next_cursor (lexer : Lexer) : lexer.cursor.next = (lexer.next.1, lexer.next.2.cursor) := by
  by_cases done : lexer.reader.atEnd = true
  · have rest : lexer.cursor.rest = [] := lexer.reader.atEnd_iff.mp done
    rw [next, dif_pos done]
    unfold Cursor.next
    split
    · rfl
    · simp_all
  · have more : lexer.cursor.rest ≠ [] := fun rest => done (lexer.reader.atEnd_iff.mpr rest)
    have read := lexer.reader.token_eq more
    have behind := Reader.position_scan more
    have place (ordered : lexer.reader.position ≤ lexer.reader.token.behind.position) :
        (⟨_, _, ordered⟩ : Span) =
          .ofLength lexer.reader.position (scan lexer.reader.rest).length := by
      simp only [Span.ofLength, read, Reader.reading, behind]
    rw [next, dif_neg done]
    unfold Cursor.next
    split
    · contradiction
    · rename_i c cs left
      have left : lexer.reader.rest = c :: cs := left
      simp only [place, ← left, cursor]
      simp only [read, Reader.reading, Reader.rest_advance, behind]
      rfl

theorem rest_next_lt {lexer : Lexer} (more : ¬ lexer.reader.atEnd = true) :
    lexer.next.2.reader.rest.length < lexer.reader.rest.length := by
  have left : lexer.cursor.rest ≠ [] := fun rest => more (lexer.reader.atEnd_iff.mpr rest)
  have shorter := Cursor.next_rest_length_lt left
  rwa [next_cursor] at shorter

def run (lexer : Lexer) : List Token × Lexer :=
  if lexer.reader.atEnd then ([lexer.next.1], lexer.next.2)
  else
    let (tokens, last) := run lexer.next.2
    (lexer.next.1 :: tokens, last)
termination_by lexer.reader.rest.length
decreasing_by exact rest_next_lt ‹_›

theorem run_cursor (lexer : Lexer) : lexer.cursor.run = (lexer.run.1, lexer.run.2.cursor) := by
  fun_induction run lexer with
  | case1 lexer done =>
      rw [Cursor.run_of_done (lexer.reader.atEnd_iff.mp done), next_cursor]
  | case2 lexer more tokens last split ih =>
      rw [Cursor.run_of_more fun rest => more (lexer.reader.atEnd_iff.mpr rest), next_cursor, ih, split]

theorem cursor_ofWindow (source : Text) (window : Span) :
    (ofWindow source window).cursor = .ofWindow source window := by
  have rest : (ofWindow source window).reader.rest = source.slice window := by
    rw [Text.slice_eq_drop_take]
    rfl
  simp only [cursor, rest]
  rfl

end Lexer

end ItemLayout
