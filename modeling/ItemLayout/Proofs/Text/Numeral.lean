import ItemLayout.Text.Numeral

namespace ItemLayout.Numeral

/-- A decimal numeral, how many digits it has and which number it writes. A single underscore may
stand between two digits. -/
inductive Writes : Text → Nat → Nat → Prop
  | digit {c : Char} {d : Nat} : decimalDigit? c = some d → Writes [c] 1 d
  | next {t : Text} {k n : Nat} {c : Char} {d : Nat} :
      Writes t k n → decimalDigit? c = some d → Writes (t ++ [c]) (k + 1) (10 * n + d)
  | apart {t : Text} {k n : Nat} {c : Char} {d : Nat} :
      Writes t k n → decimalDigit? c = some d → Writes (t ++ ['_', c]) (k + 1) (10 * n + d)

def Spells (t : Text) (n : Int) : Prop :=
  ∃ numeral digits value, Writes numeral digits value ∧ digits ≤ maxDigits ∧
    (n = value ∧ (t = numeral ∨ t = '+' :: numeral) ∨ n = -value ∧ t = '-' :: numeral)

/-! ## Digit by digit -/

theorem digits?_cons {c : Char} {t : Text} (more : t ≠ []) (joined : t.head? ≠ some '_') :
    digits? (c :: t) = (decimalDigit? c).bind fun d => (digits? t).map (d :: ·) := by
  obtain ⟨e, t, rfl⟩ := List.exists_cons_of_ne_nil more
  rw [digits?]
  · cases decimalDigit? c <;> cases digits? (e :: t) <;> rfl
  · simp
  · simpa using joined

theorem digits?_append {t s : Text} {ds es : List Nat} (first : digits? t = some ds)
    (joint : ∀ c, digits? (c :: s) = (decimalDigit? c).map (· :: es)) :
    digits? (t ++ s) = some (ds ++ es) := by
  fun_induction digits? t generalizing ds with
  | case1 => cases first
  | case2 c =>
      obtain ⟨d, digit, rfl⟩ := Option.map_eq_some_iff.mp first
      rw [List.singleton_append, joint, digit]
      rfl
  | case3 c rest ih =>
      obtain ⟨d, digit, later⟩ := Option.bind_eq_some_iff.mp first
      obtain ⟨others, rest', done⟩ := Option.bind_eq_some_iff.mp later
      obtain rfl := Option.some.inj done
      rw [List.cons_append, List.cons_append, digits?, digit, ih rest']
      rfl
  | case4 c rest single joined ih =>
      obtain ⟨d, digit, later⟩ := Option.bind_eq_some_iff.mp first
      obtain ⟨others, rest', done⟩ := Option.bind_eq_some_iff.mp later
      obtain rfl := Option.some.inj done
      obtain ⟨e, rest, rfl⟩ := List.exists_cons_of_ne_nil single
      have apart : (e :: (rest ++ s)).head? ≠ some '_' := by
        rintro ⟨⟩
        exact joined rest rfl
      rw [List.cons_append, List.cons_append, digits?_cons (List.cons_ne_nil _ _) apart, digit,
        ← List.cons_append, ih rest']
      rfl

theorem ofDigits_concat (ds : List Nat) (d : Nat) : ofDigits (ds ++ [d]) = 10 * ofDigits ds + d := by
  rw [ofDigits, List.foldl_append]
  rfl

theorem decimalDigit?_underscore : decimalDigit? '_' = none := by decide +kernel

theorem Writes.digits? {t : Text} {k n : Nat} (writes : Writes t k n) :
    ∃ ds, digits? t = some ds ∧ ds.length = k ∧ ofDigits ds = n := by
  induction writes with
  | @digit c d digit =>
      refine ⟨[d], ?_, rfl, ?_⟩
      · rw [Numeral.digits?, digit]
        rfl
      · simp [ofDigits]
  | @next t k n c d _ digit ih =>
      obtain ⟨ds, read, rfl, rfl⟩ := ih
      refine ⟨ds ++ [d], digits?_append read ?_, by simp, ofDigits_concat ds d⟩
      intro e
      have joined : [c].head? ≠ some '_' := by
        rintro ⟨⟩
        rw [decimalDigit?_underscore] at digit
        cases digit
      rw [digits?_cons (List.cons_ne_nil c []) joined, Numeral.digits?, digit]
      cases decimalDigit? e <;> rfl
  | @apart t k n c d _ digit ih =>
      obtain ⟨ds, read, rfl, rfl⟩ := ih
      refine ⟨ds ++ [d], digits?_append read ?_, by simp, ofDigits_concat ds d⟩
      intro e
      rw [Numeral.digits?, Numeral.digits?, digit]
      cases decimalDigit? e <;> rfl

theorem Writes.head {t : Text} {k n : Nat} (writes : Writes t k n) :
    ∃ c rest, t = c :: rest ∧ (decimalDigit? c).isSome = true := by
  induction writes with
  | @digit c d digit => exact ⟨c, [], rfl, by rw [digit]; rfl⟩
  | @next t k n c d _ _ ih =>
      obtain ⟨first, rest, rfl, known⟩ := ih
      exact ⟨first, rest ++ [c], rfl, known⟩
  | @apart t k n c d _ _ ih =>
      obtain ⟨first, rest, rfl, known⟩ := ih
      exact ⟨first, rest ++ ['_', c], rfl, known⟩

theorem Writes.magnitude? {t : Text} {k n : Nat} (writes : Writes t k n) (short : k ≤ maxDigits) :
    magnitude? t = some n := by
  obtain ⟨ds, read, rfl, rfl⟩ := writes.digits?
  rw [Numeral.magnitude?, read]
  exact if_pos short

/-! ## Integers -/

theorem strip_of_inked {t : Text} (inked : ∀ c ∈ t, isBlank c = false) : strip t = t := by
  have kept (t : Text) (inked : ∀ c ∈ t, isBlank c = false) : t.dropWhile isPadding = t := by
    cases t with
    | nil => rfl
    | cons c t =>
        rw [List.dropWhile_cons_of_neg]
        simp [isPadding, inked c List.mem_cons_self]
  rw [strip, kept t inked, kept t.reverse fun c mem => inked c (List.mem_reverse.mp mem),
    List.reverse_reverse]

theorem read?_of_spells {t : Text} {n : Int} (spells : Spells t n)
    (inked : ∀ c ∈ t, isBlank c = false) : read? t = some n := by
  obtain ⟨numeral, digits, value, writes, short, form⟩ := spells
  have found := writes.magnitude? short
  rw [read?, strip_of_inked inked]
  rcases form with ⟨rfl, rfl | rfl⟩ | ⟨rfl, rfl⟩
  · obtain ⟨c, rest, rfl, known⟩ := writes.head
    split
    · rename_i signed
      rw [(List.cons.inj signed).1] at known
      exact absurd known (by decide +kernel)
    · rename_i signed
      rw [(List.cons.inj signed).1] at known
      exact absurd known (by decide +kernel)
    · rw [found]
      rfl
  · simp only [found]
    rfl
  · simp only [found]
    rfl

/-! ## The usual numerals -/

theorem writes_toDigits (n : Nat) : Writes (Nat.toDigits 10 n) (Nat.toDigits 10 n).length n := by
  have single : ∀ d, d < 10 → decimalDigit? d.digitChar = some d := by decide +kernel
  induction n using Nat.strongRecOn with
  | ind n ih =>
      rcases Nat.lt_or_ge n 10 with small | large
      · rw [Nat.toDigits_of_lt_base small]
        exact .digit (single n small)
      · have last : n % 10 < 10 := Nat.mod_lt n (by decide)
        have split := Nat.toDigits_append_toDigits (b := 10) (by decide)
          (Nat.div_pos large (by decide)) last
        rw [Nat.div_add_mod, Nat.toDigits_of_lt_base last] at split
        have front := ih (n / 10) (Nat.div_lt_self (by omega) (by decide))
        have whole := Writes.next front (single (n % 10) last)
        rw [Nat.div_add_mod] at whole
        rw [← split, List.length_append]
        exact whole

theorem spells_toDigits {n : Nat} (short : (Nat.toDigits 10 n).length ≤ maxDigits) :
    Spells (Nat.toDigits 10 n) n :=
  ⟨_, _, n, writes_toDigits n, short, .inl ⟨rfl, .inl rfl⟩⟩

end ItemLayout.Numeral
