import ItemLayout.Proofs.Token.Comments

/-!
# Cutting a text behind a token

A recogniser looks ahead as far as it likes, but what it finds does not depend on what stands behind
the token: a cut there only takes away what it looked at in vain. Main statement: the first token of
a text is that of each of its beginnings that hold the token (`scan_cut`), so that a run of tokens is
cut into the same tokens when it stands alone (`pieces_run`).
-/

namespace ItemLayout

/-! ## Runs of a class -/

theorem CodeRanges.contains_of_inside {small large : CodeRanges} {code : Nat}
    (inside : small.all (fun run => large.any fun wide => wide.1 ≤ run.1 && run.2 ≤ wide.2) = true)
    (mem : small.contains code = true) : large.contains code = true := by
  obtain ⟨run, here, within⟩ := List.any_eq_true.mp mem
  obtain ⟨wide, there, around⟩ := List.any_eq_true.mp (List.all_eq_true.mp inside run here)
  refine List.any_eq_true.mpr ⟨wide, there, ?_⟩
  simp only [Bool.and_eq_true, decide_eq_true_eq] at within around ⊢
  omega

theorem isWordPart_of_isDigit {c : Char} (digit : isDigit c = true) : isWordPart c = true := by
  have numeric : isNumeric c = true := by
    unfold isDigit at digit
    unfold isNumeric
    split at digit
    · rw [if_pos ‹_›]
      exact digit
    · rw [if_neg ‹_›]
      exact CodeRanges.contains_of_inside (by decide +kernel) digit
  simp [isWordPart, numeric]

theorem takeWhile_cut {p : Char → Bool} {u v : Text}
    (inside : ((u ++ v).takeWhile p).length ≤ u.length) :
    u.takeWhile p = (u ++ v).takeWhile p := by
  rw [List.takeWhile_append] at inside ⊢
  split at inside
  · rename_i all
    rw [List.length_append] at inside
    have none : v.takeWhile p = [] := List.length_eq_zero_iff.mp (by omega)
    rw [if_pos all, none, List.append_nil]
    exact (List.takeWhile_prefix p).eq_of_length all
  · rename_i some
    rw [if_neg some]

theorem numberLength_cut {u v : Text} (inside : numberLength (u ++ v) ≤ u.length) :
    numberLength u = numberLength (u ++ v) := by
  induction u with
  | nil => exact (Nat.le_zero.mp inside).symm
  | cons c u ih =>
      rw [List.cons_append, numberLength] at inside ⊢
      rw [numberLength]
      by_cases longer : isWordPart c || (c == '.' && (u ++ v).head?.any isDigit)
      · rw [if_pos longer] at inside ⊢
        have short : numberLength (u ++ v) ≤ u.length := Nat.le_of_succ_le_succ inside
        -- A digit behind the point is part of the number, so the cut does not take it away.
        have ahead : (u ++ v).head?.any isDigit = u.head?.any isDigit := by
          cases u with
          | cons d u => rfl
          | nil =>
              cases v with
              | nil => rfl
              | cons d v =>
                  cases digit : isDigit d with
                  | false => simp [digit]
                  | true => simp [numberLength, isWordPart_of_isDigit digit] at short
        rw [ahead] at longer
        rw [if_pos longer, ih short]
      · have stops : ¬(isWordPart c || (c == '.' && u.head?.any isDigit)) := by
          cases u with
          | cons d u => exact longer
          | nil => simp_all
        rw [if_neg longer, if_neg stops]

theorem wordLength_cut {u v : Text} (inside : wordLength (u ++ v) ≤ u.length) :
    wordLength u = wordLength (u ++ v) :=
  congrArg List.length (takeWhile_cut inside)

/-! ## Closings -/

theorem blockCommentLength_cut {depth : Nat} {u v : Text} {n : Nat}
    (closed : blockCommentLength depth (u ++ v) = some n) (inside : n ≤ u.length) :
    blockCommentLength depth u = some n := by
  have front := blockCommentLength_take closed
  rw [List.take_append_of_le_length inside] at front
  rw [← List.take_append_drop n u]
  exact blockCommentLength_append _ front

theorem stringLength_plain {c : Char} (quote : c ≠ '"') (backslash : c ≠ '\\') (t : Text) :
    stringLength (c :: t) = (stringLength t).map (· + 1) := by
  rw [stringLength]
  · exact quote
  · exact fun _ _ slash => absurd slash backslash

theorem stringLength_pos {t : Text} {n : Nat} (closed : stringLength t = some n) : 0 < n := by
  fun_induction stringLength t generalizing n with
  | case1 rest => cases closed; exact Nat.one_pos
  | case2 c rest ih =>
      obtain ⟨m, -, rfl⟩ := Option.map_eq_some_iff.mp closed
      exact Nat.succ_pos _
  | case3 c rest _ _ ih =>
      obtain ⟨m, -, rfl⟩ := Option.map_eq_some_iff.mp closed
      exact Nat.succ_pos _
  | case4 => cases closed

theorem stringLength_cut {u v : Text} {n : Nat} (closed : stringLength (u ++ v) = some n)
    (inside : n ≤ u.length) : stringLength u = some n := by
  fun_induction stringLength u generalizing n with
  | case1 rest => simpa [stringLength] using closed
  | case2 c rest ih =>
      obtain ⟨m, inner, rfl⟩ := Option.map_eq_some_iff.mp closed
      rw [ih inner (Nat.le_of_add_le_add_right inside)]
      rfl
  | case3 c rest quote escape ih =>
      by_cases backslash : c = '\\'
      · -- An escape that is cut in two is not closed in time.
        subst backslash
        cases rest with
        | cons d rest => exact absurd rfl (escape d rest rfl)
        | nil =>
            cases v with
            | nil => simp [stringLength] at closed
            | cons d v =>
                obtain ⟨m, inner, rfl⟩ := Option.map_eq_some_iff.mp closed
                simp at inside
      · rw [List.cons_append, stringLength] at closed
        · obtain ⟨m, inner, rfl⟩ := Option.map_eq_some_iff.mp closed
          rw [ih inner (Nat.le_of_succ_le_succ inside)]
          rfl
        · exact quote
        · exact fun _ _ slash => absurd slash backslash
  | case4 => exact absurd (stringLength_pos closed) (Nat.not_lt.mpr inside)

theorem rawStringLength_cut {closing u v : Text} {n : Nat} (some : closing ≠ [])
    (closed : rawStringLength closing (u ++ v) = .some n) (inside : n ≤ u.length) :
    rawStringLength closing u = .some n := by
  induction u generalizing n with
  | nil =>
      cases v with
      | nil => cases closed
      | cons d v =>
          rw [List.nil_append, rawStringLength] at closed
          split at closed
          · cases closed
            exact absurd (List.length_eq_zero_iff.mp (Nat.le_zero.mp inside)) some
          · obtain ⟨m, -, rfl⟩ := Option.map_eq_some_iff.mp closed
            cases inside
  | cons c u ih =>
      rw [List.cons_append, rawStringLength] at closed
      rw [rawStringLength]
      split at closed
      · rename_i here
        cases closed
        rw [List.isPrefixOf_iff_prefix, ← List.cons_append] at here
        rw [if_pos (List.isPrefixOf_iff_prefix.mpr
          (List.prefix_of_prefix_length_le here (List.prefix_append _ _) inside))]
      · rename_i later
        obtain ⟨m, inner, rfl⟩ := Option.map_eq_some_iff.mp closed
        have later' : ¬closing.isPrefixOf (c :: u) = true := by
          rw [List.isPrefixOf_iff_prefix] at later ⊢
          exact fun here => later (here.trans (List.prefix_append (c :: u) v))
        rw [if_neg later', ih inner (Nat.le_of_succ_le_succ inside)]
        rfl

theorem characterLength_cut {u v : Text} (inside : characterLength (u ++ v) ≤ u.length) :
    characterLength u = characterLength (u ++ v) := by
  induction u with
  | nil => exact (Nat.le_zero.mp inside).symm
  | cons c u ih =>
      rw [List.cons_append, characterLength] at inside ⊢
      rw [characterLength]
      split at inside
      · rw [if_pos ‹_›, if_pos ‹_›]
      · rw [if_neg ‹_›, if_neg ‹_›, ih (Nat.le_of_succ_le_succ inside)]

theorem Lexeme.delimited_cut {kind : TokenKind} {raw : Bool} {opening : Nat} {u v : Text}
    {close : Text → Option Nat}
    (cut : ∀ n, close (u ++ v) = some n → n ≤ u.length → close u = some n)
    (inside : (Lexeme.delimited kind raw opening (u ++ v) (close (u ++ v))).length ≤
      opening + u.length) :
    Lexeme.delimited kind raw opening u (close u) =
      Lexeme.delimited kind raw opening (u ++ v) (close (u ++ v)) := by
  cases closed : close (u ++ v) with
  | some n =>
      rw [closed] at inside
      rw [cut n closed (Nat.le_of_add_le_add_left inside)]
      rfl
  | none =>
      -- What is not closed reaches to the end, so nothing is cut off.
      rw [closed, Lexeme.delimited, List.length_append] at inside
      have nothing : v = [] := List.length_eq_zero_iff.mp (by simp only at inside; omega)
      subst nothing
      rw [List.append_nil] at closed ⊢
      rw [closed]

/-! ## The recognisers -/

/-- A recogniser that a cut cannot mislead: what it finds in front of a longer text it finds in each
beginning that holds it, and a cut lets it find nothing new. `taken` characters of the token stand
before the text that it is given. -/
structure Settled (taken : Nat) (recognise : Text → Option Lexeme) : Prop where
  found {u v : Text} {lexeme : Lexeme} : recognise (u ++ v) = some lexeme →
    lexeme.length ≤ taken + u.length → recognise u = some lexeme
  missed {u v : Text} : recognise (u ++ v) = none → recognise u = none

theorem Settled.or {f g : Text → Option Lexeme} {taken : Nat} (first : Settled taken f)
    (second : Settled taken g) : Settled taken fun t => (f t).or (g t) where
  found := by
    intro u v lexeme found inside
    rw [Option.or_eq_some_iff] at found ⊢
    rcases found with found | ⟨missed, found⟩
    · exact .inl (first.found found inside)
    · exact .inr ⟨first.missed missed, second.found found inside⟩
  missed := by
    intro u v missed
    rw [Option.or_eq_none_iff] at missed ⊢
    exact ⟨first.missed missed.1, second.missed missed.2⟩

theorem eq_append_of_append_eq (front : Text) {u v t : Text} (split : u ++ v = front ++ t)
    (inside : front.length ≤ u.length) : ∃ u', u = front ++ u' ∧ t = u' ++ v := by
  obtain ⟨u', rfl⟩ : front <+: u :=
    List.prefix_of_prefix_length_le ⟨t, split.symm⟩ (List.prefix_append u v) inside
  rw [List.append_assoc] at split
  exact ⟨u', rfl, (List.append_cancel_left split).symm⟩

theorem Lexeme.opening_le_delimited_length (kind : TokenKind) (raw : Bool) (opening : Nat)
    (body : Text) (closed : Option Nat) :
    opening ≤ (Lexeme.delimited kind raw opening body closed).length := by
  cases closed <;> exact Nat.le_add_right _ _

theorem trivia?_break {c : Char} (t : Text) (breaks : isBreak c = true) :
    trivia? (c :: t) =
      some { kind := .lineBreak, length := if c = '\r' ∧ t.head? = some '\n' then 2 else 1 } := by
  rw [← scan_break t breaks]
  apply trivia?_of_kind
  rw [scan_break t breaks]
  rfl

theorem trivia?_spacing {c : Char} (t : Text) (spacing : isSpacing c = true) :
    trivia? (c :: t) =
      some { kind := .spacing, length := 1 + (t.takeWhile isSpacing).length } := by
  rw [← scan_spacing t spacing]
  apply trivia?_of_kind
  rw [scan_spacing t spacing]
  rfl

theorem settled_trivia? : Settled 0 trivia? where
  found := by
    intro u v lexeme found inside
    rw [Nat.zero_add] at inside
    have pos := trivia?_length_pos found
    rcases trivia?_cases found with
      ⟨rest, split, rfl⟩ | ⟨rest, split, rfl⟩ | ⟨c, rest, split, breaks, rfl⟩ |
        ⟨c, rest, split, spacing, rfl⟩
    · obtain ⟨u, rfl, rfl⟩ := eq_append_of_append_eq ['/', '/'] split
        (Nat.le_trans (Nat.le_add_right _ _) inside)
      rw [List.length_append] at inside
      rw [← takeWhile_cut (Nat.le_of_add_le_add_left inside)]
      rfl
    · obtain ⟨u, rfl, rfl⟩ := eq_append_of_append_eq ['/', '*'] split
        (Nat.le_trans (Lexeme.opening_le_delimited_length _ _ _ _ _) inside)
      rw [List.length_append] at inside
      rw [← Lexeme.delimited_cut (fun _ => blockCommentLength_cut) inside]
      rfl
    · obtain ⟨u, rfl, rfl⟩ := eq_append_of_append_eq [c] split (Nat.le_trans pos inside)
      have same : (c = '\r' ∧ (u ++ v).head? = some '\n') ↔ (c = '\r' ∧ u.head? = some '\n') := by
        cases u with
        | cons d u => rfl
        | nil =>
            have single : ¬(c = '\r' ∧ v.head? = some '\n') := by
              intro pair
              simp [pair] at inside
            simp [single]
      simp only [same]
      exact trivia?_break u breaks
    · obtain ⟨u, rfl, rfl⟩ := eq_append_of_append_eq [c] split (Nat.le_trans pos inside)
      rw [List.length_append] at inside
      rw [← takeWhile_cut (Nat.le_of_add_le_add_left inside)]
      exact trivia?_spacing u spacing
  missed := by
    intro u v missed
    cases found : trivia? u with
    | none => rfl
    | some lexeme =>
        rcases trivia?_cases found with
          ⟨rest, rfl, -⟩ | ⟨rest, rfl, -⟩ | ⟨c, rest, rfl, breaks, -⟩ | ⟨c, rest, rfl, spacing, -⟩
        · cases missed
        · cases missed
        · rw [List.cons_append, trivia?_break _ breaks] at missed
          cases missed
        · rw [List.cons_append, trivia?_spacing _ spacing] at missed
          cases missed

theorem rawString?_quote (letters hashes : Nat) (body : Text) :
    rawString? letters (List.replicate hashes '#' ++ '"' :: body) =
      some (.delimited .string true (letters + hashes + 1) body
        (rawStringLength ('"' :: List.replicate hashes '#') body)) := by
  have run : (List.replicate hashes '#' ++ '"' :: body).takeWhile (· == '#') =
      List.replicate hashes '#' := by
    rw [List.takeWhile_append_of_pos (by simp)]
    simp
  simp [rawString?, run]

theorem rawString?_cases {letters : Nat} {t : Text} {lexeme : Lexeme}
    (found : rawString? letters t = some lexeme) :
    ∃ hashes body, t = List.replicate hashes '#' ++ '"' :: body := by
  unfold rawString? at found
  simp only at found
  split at found
  · rename_i body opened
    refine ⟨(t.takeWhile (· == '#')).length, body, ?_⟩
    have hashes : t.takeWhile (· == '#') = List.replicate (t.takeWhile (· == '#')).length '#' :=
      List.eq_replicate_of_mem fun c mem => by
        simpa using List.all_eq_true.mp List.all_takeWhile c mem
    rw [← hashes, ← opened, Text.drop_length_takeWhile, List.takeWhile_append_dropWhile]
  · cases found

theorem settled_rawString? (letters : Nat) : Settled letters (rawString? letters) where
  found := by
    intro u v lexeme found inside
    obtain ⟨hashes, body, split⟩ := rawString?_cases found
    rw [split, rawString?_quote] at found
    obtain rfl := Option.some.inj found
    have opening := Lexeme.opening_le_delimited_length .string true (letters + hashes + 1) body
      (rawStringLength ('"' :: List.replicate hashes '#') body)
    obtain ⟨u, rfl, rfl⟩ := eq_append_of_append_eq
      (List.replicate hashes '#' ++ ['"']) (t := body) (by rw [split]; simp)
      (by rw [List.length_append, List.length_replicate, List.length_singleton]; omega)
    rw [List.append_assoc, List.singleton_append, rawString?_quote]
    congr 1
    refine Lexeme.delimited_cut (fun _ => rawStringLength_cut (List.cons_ne_nil _ _)) ?_
    rw [List.length_append, List.length_append, List.length_replicate,
      List.length_singleton] at inside
    omega
  missed := by
    intro u v missed
    cases found : rawString? letters u with
    | none => rfl
    | some lexeme =>
        obtain ⟨hashes, body, rfl⟩ := rawString?_cases found
        rw [List.append_assoc, List.cons_append, rawString?_quote] at missed
        cases missed

theorem quoted_eq_character {c : Char} (t : Text) (escape : c ≠ '\\') :
    quoted (c :: '\'' :: t) = { kind := .character, length := 3 } := by
  unfold quoted
  split
  · simp_all
  · simp_all
  · rfl
  · rename_i other
    exact absurd rfl (other c t)

theorem quoted_eq_lifetime {t : Text} (escape : t.head? ≠ some '\\')
    (close : t.tail.head? ≠ some '\'') :
    quoted t = { kind := .lifetime, length := 1 + wordLength t } := by
  unfold quoted
  split
  · exact absurd rfl escape
  · exact absurd rfl escape
  · exact absurd rfl close
  · rfl

theorem quoted_cut {u v : Text} (inside : (quoted (u ++ v)).length ≤ 1 + u.length) :
    quoted u = quoted (u ++ v) := by
  by_cases escape : (u ++ v).head? = some '\\'
  · obtain ⟨rest, split⟩ := List.head?_eq_some_iff.mp escape
    cases rest with
    | nil =>
        have bound : 2 ≤ 1 + u.length := by rwa [split] at inside
        obtain ⟨u, rfl, rest⟩ := eq_append_of_append_eq ['\\'] split
          (Nat.le_of_add_le_add_left bound)
        obtain ⟨rfl, rfl⟩ := List.append_eq_nil_iff.mp rest.symm
        rfl
    | cons d rest =>
        have bound : 3 + characterLength rest ≤ 1 + u.length := by rwa [split] at inside
        obtain ⟨u, rfl, rfl⟩ := eq_append_of_append_eq ['\\', d] split
          (by simp only [List.length_cons, List.length_nil]; omega)
        have short : characterLength (u ++ v) ≤ u.length := by
          rw [List.length_append] at bound
          simp only [List.length_cons, List.length_nil] at bound
          omega
        rw [split]
        simp only [List.cons_append, List.nil_append, quoted, characterLength_cut short]
  · by_cases close : (u ++ v).tail.head? = some '\''
    · obtain ⟨rest, split⟩ := List.head?_eq_some_iff.mp close
      obtain ⟨c, split⟩ : ∃ c, u ++ v = c :: '\'' :: rest := by
        cases whole : u ++ v with
        | nil => simp [whole] at split
        | cons c t => exact ⟨c, by rw [← split, whole]; rfl⟩
      have plain : c ≠ '\\' := by
        rintro rfl
        exact escape (by rw [split]; rfl)
      rw [split, quoted_eq_character rest plain] at inside
      obtain ⟨u, rfl, rfl⟩ := eq_append_of_append_eq [c, '\''] split
        (Nat.le_of_add_le_add_left inside)
      rw [split, quoted_eq_character _ plain]
      exact quoted_eq_character u plain
    · rw [quoted_eq_lifetime escape close] at inside ⊢
      rw [quoted_eq_lifetime, wordLength_cut (Nat.le_of_add_le_add_left inside)]
      · cases u with
        | nil => simp
        | cons c u => exact escape
      · match u with
        | [] => simp
        | [c] => simp
        | c :: d :: u => exact close

theorem rawString?_letters_lt {letters : Nat} {t : Text} {lexeme : Lexeme}
    (found : rawString? letters t = some lexeme) : letters < lexeme.length := by
  obtain ⟨hashes, body, rfl⟩ := rawString?_cases found
  rw [rawString?_quote] at found
  obtain rfl := Option.some.inj found
  exact Nat.lt_of_lt_of_le (Nat.lt_succ_of_le (Nat.le_add_right _ _))
    (Lexeme.opening_le_delimited_length _ _ _ _ _)

theorem literal?_cases {t : Text} {lexeme : Lexeme} (found : literal? t = some lexeme) :
    (∃ rest, t = '"' :: rest ∧ lexeme = .delimited .string false 1 rest (stringLength rest)) ∨
    (∃ rest, t = '\'' :: rest ∧ lexeme = quoted rest) ∨
    (∃ rest, t = 'r' :: rest ∧ rawString? 1 rest = some lexeme) ∨
    (∃ rest, t = 'b' :: '"' :: rest ∧
      lexeme = .delimited .string false 2 rest (stringLength rest)) ∨
    (∃ rest, t = 'b' :: 'r' :: rest ∧ rawString? 2 rest = some lexeme) := by
  unfold literal? at found
  split at found
  · exact .inl ⟨_, rfl, (Option.some.inj found).symm⟩
  · exact .inr (.inl ⟨_, rfl, (Option.some.inj found).symm⟩)
  · exact .inr (.inr (.inl ⟨_, rfl, found⟩))
  · exact .inr (.inr (.inr (.inl ⟨_, rfl, (Option.some.inj found).symm⟩)))
  · exact .inr (.inr (.inr (.inr ⟨_, rfl, found⟩)))
  · cases found

theorem literal?_of_other {c : Char} {t : Text} (quote : c ≠ '"') (tick : c ≠ '\'') (letter : c ≠ 'r')
    (byte : c = 'b' → t.head? ≠ some '"' ∧ t.head? ≠ some 'r') :
    literal? (c :: t) = none := by
  cases found : literal? (c :: t) with
  | none => rfl
  | some lexeme =>
      rcases literal?_cases found with
        ⟨u, opened, -⟩ | ⟨u, opened, -⟩ | ⟨u, opened, -⟩ | ⟨u, opened, -⟩ | ⟨u, opened, -⟩
      · exact absurd (List.cons.inj opened).1 quote
      · exact absurd (List.cons.inj opened).1 tick
      · exact absurd (List.cons.inj opened).1 letter
      · obtain ⟨same, rfl⟩ := List.cons.inj opened
        exact absurd rfl (byte same).1
      · obtain ⟨same, rfl⟩ := List.cons.inj opened
        exact absurd rfl (byte same).2

theorem settled_literal? : Settled 0 literal? where
  found := by
    intro u v lexeme found inside
    rw [Nat.zero_add] at inside
    have pos := literal?_length_pos found
    rcases literal?_cases found with
      ⟨rest, split, rfl⟩ | ⟨rest, split, rfl⟩ | ⟨rest, split, raw⟩ | ⟨rest, split, rfl⟩ |
        ⟨rest, split, raw⟩
    · obtain ⟨u, rfl, rfl⟩ := eq_append_of_append_eq ['"'] split (Nat.le_trans pos inside)
      rw [List.length_append] at inside
      rw [← Lexeme.delimited_cut (fun _ => stringLength_cut) inside]
      rfl
    · obtain ⟨u, rfl, rfl⟩ := eq_append_of_append_eq ['\''] split (Nat.le_trans pos inside)
      rw [List.length_append] at inside
      rw [← quoted_cut inside]
      rfl
    · obtain ⟨u, rfl, rfl⟩ := eq_append_of_append_eq ['r'] split (Nat.le_trans pos inside)
      rw [List.length_append] at inside
      exact (settled_rawString? 1).found raw inside
    · obtain ⟨u, rfl, rfl⟩ := eq_append_of_append_eq ['b', '"'] split
        (Nat.le_trans (Lexeme.opening_le_delimited_length _ _ _ _ _) inside)
      rw [List.length_append] at inside
      rw [← Lexeme.delimited_cut (fun _ => stringLength_cut) inside]
      rfl
    · obtain ⟨u, rfl, rfl⟩ := eq_append_of_append_eq ['b', 'r'] split
        (Nat.le_trans (Nat.le_of_lt (rawString?_letters_lt raw)) inside)
      rw [List.length_append] at inside
      exact (settled_rawString? 2).found raw inside
  missed := by
    intro u v missed
    cases found : literal? u with
    | none => rfl
    | some lexeme =>
        rcases literal?_cases found with
          ⟨rest, rfl, -⟩ | ⟨rest, rfl, -⟩ | ⟨rest, rfl, raw⟩ | ⟨rest, rfl, -⟩ | ⟨rest, rfl, raw⟩
        · cases missed
        · cases missed
        · have none := (settled_rawString? 1).missed missed
          rw [raw] at none
          cases none
        · cases missed
        · have none := (settled_rawString? 2).missed missed
          rw [raw] at none
          cases none

theorem settled_rawIdentifier? : Settled 0 rawIdentifier? where
  found := by
    intro u v lexeme found inside
    rw [Nat.zero_add] at inside
    unfold rawIdentifier? at found
    split at found
    · rename_i c rest split
      split at found
      · rename_i starts
        obtain rfl := Option.some.inj found
        obtain ⟨u, rfl, rfl⟩ := eq_append_of_append_eq ['r', '#', c] split
          (Nat.le_trans (Nat.le_add_right _ _) inside)
        rw [List.length_append] at inside
        rw [← wordLength_cut (Nat.le_of_add_le_add_left inside)]
        exact if_pos starts
      · cases found
    · cases found
  missed := by
    intro u v missed
    unfold rawIdentifier?
    split
    · rw [List.cons_append, List.cons_append, List.cons_append, rawIdentifier?] at missed
      split at missed
      · cases missed
      · rw [if_neg ‹_›]
    · rfl

def startingWith (first : Char → Bool) (kind : TokenKind) (more : Text → Nat) :
    Text → Option Lexeme
  | [] => none
  | c :: rest => if first c then some { kind, length := 1 + more rest } else none

theorem settled_startingWith (first : Char → Bool) (kind : TokenKind) {more : Text → Nat}
    (cut : ∀ {u v : Text}, more (u ++ v) ≤ u.length → more u = more (u ++ v)) :
    Settled 0 (startingWith first kind more) where
  found := by
    intro u v lexeme found inside
    rw [Nat.zero_add] at inside
    cases u with
    | nil =>
        cases v with
        | nil => exact found
        | cons d v =>
            rw [List.nil_append, startingWith] at found
            split at found
            · obtain rfl := Option.some.inj found
              exact absurd inside (Nat.not_le.mpr (Nat.add_pos_left Nat.one_pos _))
            · cases found
    | cons c u =>
        rw [List.cons_append, startingWith] at found
        rw [startingWith]
        split at found
        · rename_i starts
          obtain rfl := Option.some.inj found
          rw [List.length_cons, Nat.add_comm] at inside
          rw [if_pos starts, cut (Nat.le_of_succ_le_succ inside)]
        · cases found
  missed := by
    intro u v missed
    cases u with
    | nil => rfl
    | cons c u =>
        rw [List.cons_append, startingWith] at missed
        rw [startingWith]
        split at missed
        · cases missed
        · rw [if_neg ‹_›]

theorem word?_eq (t : Text) :
    word? t = (startingWith isDigit .number numberLength t).or
      ((rawIdentifier? t).or (startingWith isWordStart .identifier wordLength t)) := by
  cases t with
  | nil => rfl
  | cons c t =>
      rw [word?, startingWith, startingWith]
      split <;> rfl

theorem settled_word? : Settled 0 word? := by
  have settled := (settled_startingWith isDigit .number numberLength_cut).or
    (settled_rawIdentifier?.or (settled_startingWith isWordStart .identifier wordLength_cut))
  rwa [← funext word?_eq] at settled

/-! ## The first token -/

theorem scan_cut {u v : Text} (more : u ≠ []) (inside : (scan (u ++ v)).length ≤ u.length) :
    scan u = scan (u ++ v) := by
  have settled := settled_trivia?.or (settled_literal?.or settled_word?)
  unfold scan at inside ⊢
  cases found : (trivia? (u ++ v)).or ((literal? (u ++ v)).or (word? (u ++ v))) with
  | some lexeme =>
      rw [found, Option.getD_some, ← Nat.zero_add u.length] at inside
      rw [settled.found found inside]
      rfl
  | none =>
      obtain ⟨c, u, rfl⟩ := List.exists_cons_of_ne_nil more
      rw [settled.missed found]
      rfl

/-! ## Runs of tokens -/

theorem pieces_of_append {u v : Text} {ps qs : List Piece} (cut : pieces (u ++ v) = ps ++ qs)
    (text : ps.flatMap Piece.text = u) : pieces u = ps := by
  induction ps generalizing u with
  | nil => rw [← text, List.flatMap_nil, pieces_nil]
  | cons piece ps ih =>
      have longer : u ++ v ≠ [] := by
        intro none
        rw [none, pieces_nil] at cut
        cases cut
      have first : Piece.front (u ++ v) = piece := by
        rw [pieces_of_ne_nil longer] at cut
        exact (List.cons.inj cut).1
      rw [List.flatMap_cons] at text
      have inside : (scan (u ++ v)).length ≤ u.length := by
        have length := congrArg List.length text
        rw [List.length_append, ← first, Piece.length_front longer] at length
        omega
      have more : u ≠ [] := by
        rintro rfl
        exact absurd inside (Nat.not_le.mpr (scan_length_pos _))
      have same := scan_cut more inside
      rw [pieces_append_of_scan more same.symm] at cut
      obtain ⟨rfl, rest⟩ := List.cons.inj cut
      have behind : ps.flatMap Piece.text = u.drop (scan u).length :=
        List.append_cancel_left (text.trans (List.take_append_drop (scan u).length u).symm)
      rw [pieces_of_ne_nil more, ih rest behind]

theorem pieces_behind {t : Text} {ps qs : List Piece} (cut : pieces t = ps ++ qs) :
    pieces (qs.flatMap Piece.text) = qs := by
  induction ps generalizing t with
  | nil =>
      rw [List.nil_append] at cut
      rw [← cut, flatMap_text_pieces]
  | cons piece ps ih =>
      have more : t ≠ [] := by
        rintro rfl
        rw [pieces_nil] at cut
        cases cut
      rw [pieces_of_ne_nil more] at cut
      exact ih (List.cons.inj cut).2

theorem pieces_run {t : Text} {before run after : List Piece}
    (cut : pieces t = before ++ run ++ after) : pieces (run.flatMap Piece.text) = run := by
  rw [List.append_assoc] at cut
  have rest := pieces_behind cut
  rw [List.flatMap_append] at rest
  exact pieces_of_append rest rfl

end ItemLayout
