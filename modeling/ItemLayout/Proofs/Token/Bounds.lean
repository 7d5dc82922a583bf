import ItemLayout.Token.Scan

namespace ItemLayout

/-! ## What follows an opening -/

theorem blockCommentLength_le {depth : Nat} {t : Text} {n : Nat}
    (closed : blockCommentLength depth t = some n) : n ≤ t.length := by
  fun_induction blockCommentLength depth t generalizing n with
  | case1 depth rest ih =>
      obtain ⟨m, inner, rfl⟩ := Option.map_eq_some_iff.mp closed
      simpa using ih inner
  | case2 rest =>
      cases closed
      simp
  | case3 rest outer ih =>
      obtain ⟨m, inner, rfl⟩ := Option.map_eq_some_iff.mp closed
      simpa using ih inner
  | case4 depth c rest _ _ ih =>
      obtain ⟨m, inner, rfl⟩ := Option.map_eq_some_iff.mp closed
      simpa using ih inner
  | case5 => cases closed

theorem stringLength_le {t : Text} {n : Nat} (closed : stringLength t = some n) :
    n ≤ t.length := by
  fun_induction stringLength t generalizing n with
  | case1 rest =>
      cases closed
      simp
  | case2 c rest ih =>
      obtain ⟨m, inner, rfl⟩ := Option.map_eq_some_iff.mp closed
      simpa using ih inner
  | case3 c rest _ _ ih =>
      obtain ⟨m, inner, rfl⟩ := Option.map_eq_some_iff.mp closed
      simpa using ih inner
  | case4 => cases closed

theorem rawStringLength_le {closing t : Text} {n : Nat}
    (closed : rawStringLength closing t = some n) : n ≤ t.length := by
  fun_induction rawStringLength closing t generalizing n with
  | case1 => cases closed
  | case2 c rest here =>
      cases closed
      exact (List.isPrefixOf_iff_prefix.mp here).length_le
  | case3 c rest _ ih =>
      obtain ⟨m, inner, rfl⟩ := Option.map_eq_some_iff.mp closed
      simpa using ih inner

theorem characterLength_le (t : Text) : characterLength t ≤ t.length := by
  fun_induction characterLength t with
  | case1 => simp
  | case2 => simp
  | case3 c rest _ ih => simpa using ih

theorem numberLength_le (t : Text) : numberLength t ≤ t.length := by
  fun_induction numberLength t with
  | case1 => simp
  | case2 c rest _ ih => simpa using ih
  | case3 => simp

theorem wordLength_le (t : Text) : wordLength t ≤ t.length :=
  (List.takeWhile_prefix _).length_le

/-! ## The recognisers -/

theorem Lexeme.delimited_length_le (kind : TokenKind) (raw : Bool) (opening : Nat) {body : Text}
    {closed : Option Nat} (inside : ∀ n, closed = some n → n ≤ body.length) :
    (Lexeme.delimited kind raw opening body closed).length ≤ opening + body.length := by
  cases closed with
  | none => exact Nat.le_refl _
  | some n => exact Nat.add_le_add_left (inside n rfl) _

theorem trivia?_length_le {t : Text} {lexeme : Lexeme} (found : trivia? t = some lexeme) :
    lexeme.length ≤ t.length := by
  unfold trivia? at found
  split at found
  · rename_i rest
    cases found
    have := (List.takeWhile_prefix (p := fun c => !isBreak c) (l := rest)).length_le
    simp only [List.length_cons]
    omega
  · cases found
    refine Nat.le_trans (Lexeme.delimited_length_le _ _ _ fun _ => blockCommentLength_le) ?_
    simp only [List.length_cons]
    omega
  · cases found
    simp
  · rename_i c rest _ _ _
    split at found
    · cases found
      simp
    · split at found
      · cases found
        have := (List.takeWhile_prefix (p := isSpacing) (l := rest)).length_le
        simp only [List.length_cons]
        omega
      · cases found
  · cases found

theorem rawString?_length_le {letters : Nat} {t : Text} {lexeme : Lexeme}
    (found : rawString? letters t = some lexeme) : lexeme.length ≤ letters + t.length := by
  unfold rawString? at found
  simp only at found
  split at found
  · rename_i body opened
    cases found
    have opening := congrArg List.length opened
    rw [List.length_drop, List.length_cons] at opening
    refine Nat.le_trans (Lexeme.delimited_length_le _ _ _ fun _ => rawStringLength_le) ?_
    omega
  · cases found

theorem quoted_length_le (t : Text) : (quoted t).length ≤ 1 + t.length := by
  unfold quoted
  split
  · simp
  · rename_i rest
    have := characterLength_le rest
    simp only [List.length_cons]
    omega
  · simp only [List.length_cons]
    omega
  · exact Nat.add_le_add_left (wordLength_le _) 1

theorem literal?_length_le {t : Text} {lexeme : Lexeme} (found : literal? t = some lexeme) :
    lexeme.length ≤ t.length := by
  unfold literal? at found
  split at found
  · cases found
    refine Nat.le_trans (Lexeme.delimited_length_le _ _ _ fun _ => stringLength_le) ?_
    simp only [List.length_cons]
    omega
  · rename_i rest
    cases found
    have := quoted_length_le rest
    simp only [List.length_cons]
    omega
  · have := rawString?_length_le found
    simp only [List.length_cons]
    omega
  · cases found
    refine Nat.le_trans (Lexeme.delimited_length_le _ _ _ fun _ => stringLength_le) ?_
    simp only [List.length_cons]
    omega
  · have := rawString?_length_le found
    simp only [List.length_cons]
    omega
  · cases found

theorem rawIdentifier?_length_le {t : Text} {lexeme : Lexeme}
    (found : rawIdentifier? t = some lexeme) : lexeme.length ≤ t.length := by
  unfold rawIdentifier? at found
  split at found
  · rename_i c rest
    split at found
    · cases found
      have := wordLength_le rest
      simp only [List.length_cons]
      omega
    · cases found
  · cases found

theorem word?_length_le {t : Text} {lexeme : Lexeme} (found : word? t = some lexeme) :
    lexeme.length ≤ t.length := by
  unfold word? at found
  split at found
  · cases found
  · rename_i c rest
    split at found
    · cases found
      have := numberLength_le rest
      simp only [List.length_cons]
      omega
    · rw [Option.or_eq_some_iff] at found
      rcases found with found | ⟨-, found⟩
      · exact rawIdentifier?_length_le found
      · split at found
        · cases found
          have := wordLength_le rest
          simp only [List.length_cons]
          omega
        · cases found

theorem scan_length_le {t : Text} (more : t ≠ []) : (scan t).length ≤ t.length := by
  unfold scan
  cases found : (trivia? t).or ((literal? t).or (word? t)) with
  | none =>
      cases t with
      | nil => contradiction
      | cons c rest => simp [symbol]
  | some lexeme =>
      simp only [Option.or_eq_some_iff] at found
      rcases found with found | ⟨-, found | ⟨-, found⟩⟩
      · exact trivia?_length_le found
      · exact literal?_length_le found
      · exact word?_length_le found

end ItemLayout
