namespace ItemLayout

/-! ## Steps that succeed -/

theorem eq_ok_of_toOption {ε α : Type} {result : Except ε α} {value : α}
    (some : result.toOption = .some value) : result = .ok value := by
  cases result with
  | error fault => cases some
  | ok found => rw [Option.some.inj some]

theorem ok_bind {ε α β : Type} (value : α) (next : α → Except ε β) :
    (Except.ok value >>= next) = next value :=
  rfl

theorem bind_eq_ok_iff {ε α β : Type} {first : Except ε α} {next : α → Except ε β} {result : β} :
    first >>= next = .ok result ↔ ∃ value, first = .ok value ∧ next value = .ok result := by
  cases first with
  | error fault =>
      constructor
      · intro failed
        cases failed
      · rintro ⟨value, failed, -⟩
        cases failed
  | ok value => simp [bind, Except.bind]

/-! ## Steps that fail -/

def Fails {ε α : Type} (result : Except ε α) : Prop := ∃ fault, result = .error fault

theorem not_fails_ok {ε α : Type} (value : α) : ¬ Fails (Except.ok value : Except ε α) := by
  rintro ⟨fault, same⟩
  cases same

theorem fails_map_iff {ε α β : Type} (step : Except ε α) (f : α → β) :
    Fails (do return f (← step)) ↔ Fails step := by
  cases step with
  | error fault => exact iff_of_true ⟨fault, rfl⟩ ⟨fault, rfl⟩
  | ok value => exact iff_of_false (not_fails_ok _) (not_fails_ok _)

theorem fails_bind_iff {ε α β : Type} {first : Except ε α} {next : α → Except ε β} {broken : Prop}
    (later : ∀ value, Fails (next value) ↔ broken) :
    Fails (first >>= next) ↔ Fails first ∨ broken := by
  cases first with
  | error fault => exact iff_of_true ⟨fault, rfl⟩ (.inl ⟨fault, rfl⟩)
  | ok value =>
      rw [ok_bind, later value]
      exact (or_iff_right (not_fails_ok _)).symm

theorem fails_mapM_iff {ε α β : Type} (step : α → Except ε β) (values : List α) :
    Fails (values.mapM step) ↔ ∃ value ∈ values, Fails (step value) := by
  induction values with
  | nil => exact iff_of_false (not_fails_ok []) (by simp)
  | cons value rest ih =>
      simp only [List.mapM_cons, List.mem_cons, exists_eq_or_imp, ← ih]
      exact fails_bind_iff fun _ => fails_map_iff _ _

end ItemLayout
