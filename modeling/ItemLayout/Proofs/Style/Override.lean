import ItemLayout.Proofs.Outcome
import ItemLayout.Style.Directive

namespace ItemLayout

/-! ## Looking up names -/

namespace Overrides

def names (map : Overrides) : List Text := map.map Prod.fst

def Distinct (map : Overrides) : Prop := map.names.Nodup

instance (map : Overrides) : Decidable map.Distinct := inferInstanceAs (Decidable (List.Nodup _))

theorem lookup_cons (name other : Text) (value : Setting) (map : Overrides) :
    List.lookup other ((name, value) :: map) =
      if other = name then some value else map.lookup other := by
  rw [List.lookup_cons]
  by_cases same : other = name
  · rw [if_pos same, beq_iff_eq.mpr same]
  · rw [if_neg same, beq_false_of_ne same]

theorem lookup_insert (name other : Text) (value : Setting) (map : Overrides) :
    (insert name value map).lookup other =
      if other = name then some value else map.lookup other := by
  induction map with
  | nil => exact lookup_cons name other value []
  | cons entry rest ih =>
      obtain ⟨first, given⟩ := entry
      by_cases here : first = name
      · subst here
        rw [insert, if_pos rfl, lookup_cons, lookup_cons]
        split <;> rfl
      · rw [insert, if_neg here, lookup_cons, lookup_cons, ih]
        by_cases same : other = first
        · have apart : other ≠ name := fun clash => here (same.symm.trans clash)
          rw [if_pos same, if_neg apart, if_pos same]
        · rw [if_neg same, if_neg same]

theorem lookup_update (first second : Overrides) (name : Text) :
    (update first second).lookup name = (second.reverse.lookup name).or (first.lookup name) := by
  induction second generalizing first with
  | nil => rfl
  | cons entry rest ih =>
      have step : update first (entry :: rest) = update (insert entry.1 entry.2 first) rest := rfl
      rw [step, ih, List.reverse_cons, List.lookup_append, lookup_insert, lookup_cons]
      by_cases same : name = entry.1
      · cases rest.reverse.lookup name <;> simp [same]
      · cases rest.reverse.lookup name <;> simp [same]

theorem mem_names_iff {map : Overrides} {name : Text} :
    name ∈ map.names ↔ (map.lookup name).isSome = true := by
  simp [names, List.lookup_isSome_iff]

theorem lookup_eq_none {map : Overrides} {name : Text} (missing : name ∉ map.names) :
    map.lookup name = none := by
  rw [mem_names_iff] at missing
  exact Option.not_isSome_iff_eq_none.mp missing

theorem Distinct.lookup_reverse {map : Overrides} (distinct : map.Distinct) (name : Text) :
    List.lookup name map.reverse = map.lookup name := by
  induction map with
  | nil => rfl
  | cons entry rest ih =>
      obtain ⟨missing, distinct⟩ := List.nodup_cons.mp distinct
      rw [List.reverse_cons, List.lookup_append, ih distinct, lookup_cons, lookup_cons]
      by_cases same : name = entry.1
      · rw [if_pos same, if_pos same, same, lookup_eq_none missing]
        rfl
      · rw [if_neg same, if_neg same]
        exact Option.or_none

theorem mem_names_insert (name other : Text) (value : Setting) (map : Overrides) :
    other ∈ (insert name value map).names ↔ other = name ∨ other ∈ map.names := by
  rw [mem_names_iff, mem_names_iff, lookup_insert]
  by_cases same : other = name
  · simp [same]
  · simp [same]

theorem mem_names_update (first second : Overrides) (name : Text) :
    name ∈ (first.update second).names ↔ name ∈ first.names ∨ name ∈ second.names := by
  induction second generalizing first with
  | nil => exact (or_iff_left List.not_mem_nil).symm
  | cons entry rest ih =>
      have names : names (entry :: rest) = entry.1 :: names rest := rfl
      rw [names, List.mem_cons, ← or_assoc, or_comm (a := name ∈ first.names), ← mem_names_insert]
      exact ih (insert entry.1 entry.2 first)

theorem Distinct.insert {map : Overrides} (distinct : map.Distinct) (name : Text) (value : Setting) :
    (map.insert name value).Distinct := by
  induction map with
  | nil => exact List.nodup_cons.mpr ⟨List.not_mem_nil, List.nodup_nil⟩
  | cons entry rest ih =>
      obtain ⟨missing, later⟩ := List.nodup_cons.mp distinct
      by_cases here : entry.1 = name
      · rw [Overrides.insert, if_pos here]
        subst here
        exact distinct
      · rw [Overrides.insert, if_neg here]
        refine List.nodup_cons.mpr ⟨?_, ih later⟩
        intro mem
        exact ((mem_names_insert name entry.1 value rest).mp mem).elim here missing

theorem Distinct.update {first : Overrides} (distinct : first.Distinct) (second : Overrides) :
    (first.update second).Distinct := by
  induction second generalizing first with
  | nil => exact distinct
  | cons entry rest ih => exact ih (distinct.insert entry.1 entry.2)

theorem distinct_ofList (entries : List (Text × Setting)) : (ofList entries).Distinct := by
  have none : Distinct [] := List.nodup_nil
  exact none.update entries

theorem lookup_ofList (entries : List (Text × Setting)) (name : Text) :
    (ofList entries).lookup name = entries.reverse.lookup name :=
  (lookup_update [] entries name).trans Option.or_none

theorem mem_names_ofList {entries : List (Text × Setting)} {name : Text} :
    name ∈ (ofList entries).names ↔ name ∈ names entries :=
  (mem_names_update [] entries name).trans (or_iff_right List.not_mem_nil)

end Overrides

/-! ## The options of a style -/

namespace Style

def Change.key : Change → Key
  | .maxWidth _ => .maxWidth
  | .tabSpaces _ => .tabSpaces
  | .hardTabs _ => .hardTabs
  | .importsLayout _ => .importsLayout
  | .importsIndent _ => .importsIndent
  | .trailingComma _ => .trailingComma
  | .inlineComments _ => .inlineComments

def value (style : Style) : Key → Change
  | .maxWidth => .maxWidth style.maxWidth
  | .tabSpaces => .tabSpaces style.tabSpaces
  | .hardTabs => .hardTabs style.hardTabs
  | .importsLayout => .importsLayout style.importsLayout
  | .importsIndent => .importsIndent style.importsIndent
  | .trailingComma => .trailingComma style.trailingComma
  | .inlineComments => .inlineComments style.inlineComments

theorem value_change (style : Style) (change : Change) (key : Key) :
    (style.change change).value key = if change.key = key then change else style.value key := by
  cases change <;> cases key <;> rfl

theorem eq_of_value {style other : Style} (same : ∀ key, style.value key = other.value key) :
    style = other := by
  obtain ⟨w, t, h, l, i, c, n⟩ := style
  obtain ⟨w', t', h', l', i', c', n'⟩ := other
  obtain rfl := Change.maxWidth.inj (same .maxWidth)
  obtain rfl := Change.tabSpaces.inj (same .tabSpaces)
  obtain rfl := Change.hardTabs.inj (same .hardTabs)
  obtain rfl := Change.importsLayout.inj (same .importsLayout)
  obtain rfl := Change.importsIndent.inj (same .importsIndent)
  obtain rfl := Change.trailingComma.inj (same .trailingComma)
  obtain rfl := Change.inlineComments.inj (same .inlineComments)
  rfl

theorem Key.find?_label (key : Key) : Labelled.find? (Labelled.label key) = some key := by
  cases key <;> decide +kernel

theorem label_of_find? {α : Type} [Labelled α] {t : Text} {a : α}
    (found : Labelled.find? t = some a) : Labelled.label a = t := by
  have same := List.find?_some found
  exact eq_of_beq same

theorem Key.label_inj {key other : Key} (same : (Labelled.label key : Text) = Labelled.label other) :
    key = other := by
  have found := key.find?_label
  rw [same, other.find?_label] at found
  exact (Option.some.inj found).symm

theorem Key.label_ne_reserved (key : Key) : Labelled.label key ≠ reserved := by
  cases key <;> decide +kernel

theorem Change.key_of_read {key : Key} {value : Setting} {change : Change}
    (read : Change.read key value = .ok change) : change.key = key := by
  have mapped {α : Type} {f : α → Change} (keyed : ∀ a, (f a).key = key) {result : Except Fault α}
      (read : f <$> result = .ok change) : change.key = key := by
    cases result with
    | error fault => cases read
    | ok a =>
        obtain rfl := Except.ok.inj read
        exact keyed a
  cases key <;> exact mapped (fun _ => rfl) read

theorem checked_eq_ok_iff {style result : Style} :
    style.checked = .ok result ↔ style = result ∧ result.Valid := by
  unfold checked Valid
  split
  · refine iff_of_false (fun failed => by cases failed) ?_
    rintro ⟨rfl, width, -⟩
    omega
  · split
    · refine iff_of_false (fun failed => by cases failed) ?_
      rintro ⟨rfl, -, step⟩
      omega
    · constructor
      · intro same
        obtain rfl := Except.ok.inj same
        exact ⟨rfl, by omega, by omega⟩
      · rintro ⟨rfl, -⟩
        rfl

/-! ## Changing options one by one -/

def changed (style : Style) (map : Overrides) : Except Fault Style := do
  return (← map.mapM Change.ofEntry).foldl change style

theorem changed_cons (style : Style) (entry : Text × Setting) (map : Overrides) :
    style.changed (entry :: map) =
      Change.ofEntry entry >>= fun made => (style.change made).changed map := by
  unfold changed
  rw [List.mapM_cons]
  cases Change.ofEntry entry with
  | error fault => rfl
  | ok made => cases map.mapM Change.ofEntry <;> rfl

theorem override_eq (style : Style) (map : Overrides) :
    style.override map =
      if map.any (·.1 == reserved) then .error .reservedName else style.changed map >>= checked := by
  unfold override changed
  split
  · rfl
  · cases map.mapM Change.ofEntry <;> rfl

def Takes (style : Style) (map : Overrides) (result : Style) (key : Key) : Prop :=
  match map.lookup (Labelled.label key) with
  | some value => Change.read key value = .ok (result.value key)
  | none => result.value key = style.value key

def NamesOptions (map : Overrides) : Prop := ∀ name ∈ map.names, ∃ key : Key, Labelled.label key = name

theorem takes_of_some {style result : Style} {map : Overrides} {key : Key} {value : Setting}
    (given : map.lookup (Labelled.label key) = some value) :
    style.Takes map result key ↔ Change.read key value = .ok (result.value key) := by
  rw [Takes, given]

theorem takes_of_none {style result : Style} {map : Overrides} {key : Key}
    (missing : map.lookup (Labelled.label key) = none) :
    style.Takes map result key ↔ result.value key = style.value key := by
  rw [Takes, missing]

theorem takes_cons {style result : Style} {key : Key} {value : Setting} {made : Change}
    {map : Overrides} (missing : Labelled.label key ∉ map.names)
    (read : Change.read key value = .ok made) (other : Key) :
    style.Takes ((Labelled.label key, value) :: map) result other ↔
      (style.change made).Takes map result other := by
  have keyed := Change.key_of_read read
  by_cases same : other = key
  · subst same
    rw [takes_of_some ((Overrides.lookup_cons _ _ _ _).trans (if_pos rfl)),
      takes_of_none (Overrides.lookup_eq_none missing), value_change, if_pos keyed, read]
    exact ⟨fun same => (Except.ok.inj same).symm, fun same => congrArg Except.ok same.symm⟩
  · have apart : (Labelled.label other : Text) ≠ Labelled.label key :=
      fun clash => same (Key.label_inj clash)
    have kept : made.key ≠ other := by
      rw [keyed]
      exact Ne.symm same
    rw [Takes, Takes, Overrides.lookup_cons, if_neg apart, value_change, if_neg kept]

theorem changed_eq_ok_iff {map : Overrides} (distinct : map.Distinct) (style result : Style) :
    style.changed map = .ok result ↔ NamesOptions map ∧ ∀ key, style.Takes map result key := by
  induction map generalizing style with
  | nil =>
      constructor
      · intro same
        obtain rfl := Except.ok.inj same
        exact ⟨fun name mem => absurd mem List.not_mem_nil, fun key => rfl⟩
      · rintro ⟨-, same⟩
        exact congrArg Except.ok (eq_of_value same).symm
  | cons entry map ih =>
      obtain ⟨name, value⟩ := entry
      obtain ⟨missing, later⟩ := List.nodup_cons.mp distinct
      rw [changed_cons, Change.ofEntry]
      cases found : (Labelled.find? name : Option Key) with
      | none =>
          refine iff_of_false (fun failed => by cases failed) ?_
          rintro ⟨known, -⟩
          obtain ⟨key, rfl⟩ := known name List.mem_cons_self
          rw [key.find?_label] at found
          cases found
      | some key =>
          obtain rfl := label_of_find? found
          have known : NamesOptions ((Labelled.label key, value) :: map) ↔ NamesOptions map := by
            refine List.forall_mem_cons.trans (and_iff_right ⟨key, rfl⟩)
          cases read : Change.read key value with
          | error fault =>
              refine iff_of_false (fun failed => by simp [read, bind, Except.bind] at failed) ?_
              rintro ⟨-, takes⟩
              have here := (takes_of_some
                ((Overrides.lookup_cons _ _ _ _).trans (if_pos rfl))).mp (takes key)
              rw [read] at here
              cases here
          | ok made =>
              simp only [read, bind, Except.bind, known, takes_cons missing read]
              exact ih later (style.change made)

theorem override_eq_ok_iff {map : Overrides} (distinct : map.Distinct) (style result : Style) :
    style.override map = .ok result ↔
      NamesOptions map ∧ (∀ key, style.Takes map result key) ∧ result.Valid := by
  rw [override_eq]
  split
  · rename_i found
    refine iff_of_false (fun failed => by cases failed) ?_
    rintro ⟨known, -⟩
    obtain ⟨entry, mem, same⟩ := List.any_eq_true.mp found
    obtain ⟨key, label⟩ := known entry.1 (List.mem_map_of_mem mem)
    exact key.label_ne_reserved (label.trans (eq_of_beq same))
  · simp only [bind_eq_ok_iff, checked_eq_ok_iff, changed_eq_ok_iff distinct]
    constructor
    · rintro ⟨_, ⟨known, takes⟩, rfl, valid⟩
      exact ⟨known, takes, valid⟩
    · rintro ⟨known, takes, valid⟩
      exact ⟨result, ⟨known, takes⟩, rfl, valid⟩

/-! ## Changing a style twice -/

theorem namesOptions_update {first : Overrides} (known : NamesOptions first) (second : Overrides) :
    NamesOptions (first.update second) ↔ NamesOptions second := by
  unfold NamesOptions
  simp only [Overrides.mem_names_update]
  constructor
  · intro all name mem
    exact all name (.inr mem)
  · intro later name mem
    exact mem.elim (known name) (later name)

theorem takes_update {style changed : Style} {first second : Overrides} {key : Key}
    (distinct : second.Distinct) (before : style.Takes first changed key) (result : Style) :
    style.Takes (first.update second) result key ↔ changed.Takes second result key := by
  have found := Overrides.lookup_update first second (Labelled.label key)
  rw [distinct.lookup_reverse] at found
  cases later : second.lookup (Labelled.label key) with
  | some value =>
      rw [later] at found
      rw [takes_of_some found, takes_of_some later]
  | none =>
      rw [later, Option.none_or] at found
      rw [takes_of_none later]
      cases given : first.lookup (Labelled.label key) with
      | some value =>
          -- The value was read before, so reading it again can give nothing else.
          rw [takes_of_some given] at before
          rw [takes_of_some (found.trans given), before]
          exact ⟨fun same => (Except.ok.inj same).symm, fun same => congrArg Except.ok same.symm⟩
      | none =>
          rw [takes_of_none given] at before
          rw [takes_of_none (found.trans given), before]

theorem override_update {style changed : Style} {first second : Overrides}
    (distinct : first.Distinct) (distinct' : second.Distinct)
    (done : style.override first = .ok changed) (result : Style) :
    changed.override second = .ok result ↔ style.override (first.update second) = .ok result := by
  obtain ⟨known, before, -⟩ := (override_eq_ok_iff distinct style changed).mp done
  rw [override_eq_ok_iff distinct', override_eq_ok_iff (distinct.update second),
    namesOptions_update known]
  simp only [takes_update distinct' (before _)]

/-! ## Any number of changes -/

inductive Adjustment where
  | overrides (map : Overrides)
  | directives (source : Text)

def adjust (style : Style) : Adjustment → Except Fault Style
  | .overrides map => style.override map
  | .directives source => style.withDirectives source

theorem valid_of_override {style result : Style} {map : Overrides}
    (done : style.override map = .ok result) : result.Valid := by
  rw [override_eq] at done
  split at done
  · cases done
  · obtain ⟨made, -, checked⟩ := bind_eq_ok_iff.mp done
    exact (checked_eq_ok_iff.mp checked).2

theorem valid_of_adjust {style result : Style} {adjustment : Adjustment}
    (done : style.adjust adjustment = .ok result) : result.Valid := by
  cases adjustment with
  | overrides map => exact valid_of_override done
  | directives source => exact valid_of_override done

theorem valid_of_adjustments {style result : Style} {adjustments : List Adjustment}
    (valid : style.Valid) (done : adjustments.foldlM adjust style = .ok result) : result.Valid := by
  induction adjustments generalizing style with
  | nil =>
      obtain rfl := Except.ok.inj done
      exact valid
  | cons adjustment rest ih =>
      rw [List.foldlM_cons] at done
      obtain ⟨next, first, later⟩ := bind_eq_ok_iff.mp done
      exact ih (valid_of_adjust first) later

theorem override_twice (style : Style) :
    (∀ first second : Overrides, first.Distinct → second.Distinct →
      ∀ changed, style.override first = .ok changed →
        ∀ result, changed.override second = .ok result ↔
          style.override (first.update second) = .ok result) ∧
    (style.Valid → ∀ (adjustments : List Adjustment) (result : Style),
      adjustments.foldlM adjust style = .ok result →
        0 < result.maxWidth ∧ 0 < result.tabSpaces) := by
  constructor
  · intro first second distinct distinct' changed done result
    exact override_update distinct distinct' done result
  · intro valid adjustments result done
    exact valid_of_adjustments valid done

theorem override_twice_width :
    let first : Overrides :=
      [("max_width".toList, .text "8_0".toList), ("tab_spaces".toList, .bool true)]
    let second : Overrides :=
      [("hard_tabs".toList, .text "TRUE".toList), ("max_width".toList, .int 90)]
    let adjustments : List Adjustment :=
      [.overrides first, .directives "// rsfmt-tab_spaces: 3".toList]
    let changed : Style := { maxWidth := 80, tabSpaces := 1 }
    let result : Style := { maxWidth := 90, tabSpaces := 1, hardTabs := true }
    let last : Style := { maxWidth := 80, tabSpaces := 3 }
    (first.Distinct ∧ second.Distinct ∧ override {} first = .ok changed) ∧
      changed.override second = .ok result ∧ override {} (first.update second) = .ok result ∧
      (Valid {} ∧ adjustments.foldlM adjust {} = .ok last) ∧
      0 < last.maxWidth ∧ 0 < last.tabSpaces := by
  intro first second adjustments changed result last
  have distinct : first.Distinct ∧ second.Distinct := by decide
  have done : override {} first = .ok changed := rfl
  have again : changed.override second = .ok result := rfl
  have valid : Valid {} := ⟨by decide, by decide⟩
  have chain : adjustments.foldlM adjust {} = .ok last := rfl
  obtain ⟨twice, positive⟩ := override_twice {}
  have once := (twice first second distinct.1 distinct.2 changed done result).mp again
  exact ⟨⟨distinct.1, distinct.2, done⟩, again, once, ⟨valid, chain⟩,
    positive valid adjustments last chain⟩

end Style

end ItemLayout
