import ItemLayout.Proofs.Checked.Layout

namespace ItemLayout

/-! ## What does not fit the source -/

namespace Document

variable (doc : Document)

def Misses (ident : Ident) : Prop :=
  ident.span.isEmpty = false ∧ doc.source.length < ident.span.stop

def Lacks (word : Text) (window : Span) : Prop :=
  ∀ token ∈ tokensIn doc.source window,
    ¬(token.kind = .identifier ∧ token.text doc.source = word)

/-- A visibility that cannot be written. The first segment of a global path is its root. -/
def Bars : Visibility → Prop
  | .exported _ | .inherited _ => False
  | .restricted none _ => True
  | .restricted (some path) _ =>
      if path.isGlobal then path.segments = [] ∨ ∃ segment ∈ path.segments.tail, doc.Misses segment
      else ∃ segment ∈ path.segments, doc.Misses segment

instance (ident : Ident) : Decidable (doc.Misses ident) :=
  inferInstanceAs (Decidable (_ ∧ _))

instance (word : Text) (window : Span) : Decidable (doc.Lacks word window) :=
  inferInstanceAs (Decidable (∀ token ∈ tokensIn doc.source window, _))

theorem identText_fails_iff (ident : Ident) : Fails (doc.identText ident) ↔ doc.Misses ident := by
  unfold identText textAt Misses
  cases ident.span.isEmpty
  · by_cases inside : ident.span.stop ≤ doc.source.length
    · simp [Fails, inside, Nat.not_lt.mpr inside]
    · simp [Fails, inside, Nat.lt_of_not_le inside]
  · simp [Fails]

theorem names_fail_iff (segments : List Ident) :
    Fails (segments.mapM doc.identText) ↔ ∃ segment ∈ segments, doc.Misses segment := by
  simp only [fails_mapM_iff, identText_fails_iff]

theorem ofVisibility_fails_iff (seen : Visibility) :
    Fails (HeaderPart.ofVisibility doc seen) ↔ doc.Bars seen := by
  cases seen with
  | exported span => exact iff_of_false (not_fails_ok _) id
  | inherited span => exact iff_of_false (not_fails_ok _) id
  | restricted path span =>
      refine (fails_map_iff _ _).trans ?_
      cases path with
      | none => exact iff_of_true ⟨_, rfl⟩ trivial
      | some path =>
          obtain ⟨segments, isGlobal, place⟩ := path
          cases isGlobal with
          | false => exact (fails_map_iff _ _).trans (doc.names_fail_iff segments)
          | true =>
              cases segments with
              | nil => exact iff_of_true ⟨_, rfl⟩ (.inl rfl)
              | cons root rest =>
                  refine ((fails_map_iff _ _).trans (doc.names_fail_iff rest)).trans ?_
                  exact (or_iff_right (List.cons_ne_nil root rest)).symm

theorem ofKeyword_fails_iff {word : Text} (name : (scan word).kind = .identifier) (window : Span) :
    Fails (HeaderPart.ofKeyword doc word window) ↔ doc.Lacks word window :=
  (fails_map_iff _ _).trans (doc.find_isError_iff window name)

end Document

def HeaderSlot.Broken (doc : Document) : HeaderSlot → Prop
  | .visibility seen => doc.Bars seen
  | .safety _ => False
  | .keyword word window => doc.Lacks word.text window
  | .name ident => doc.Misses ident

theorem HeaderSlot.part_fails_iff (doc : Document) (slot : HeaderSlot) :
    Fails (slot.part doc) ↔ slot.Broken doc := by
  cases slot with
  | visibility seen => exact doc.ofVisibility_fails_iff seen
  | safety stated => exact iff_of_false (not_fails_ok _) id
  | keyword word window => exact doc.ofKeyword_fails_iff word.scan_kind window
  | name ident => exact (fails_map_iff _ _).trans (doc.identText_fails_iff ident)

theorem parts_fail_iff (doc : Document) (slots : List HeaderSlot) :
    Fails (slots.mapM (HeaderSlot.part doc)) ↔ ∃ slot ∈ slots, slot.Broken doc := by
  simp only [fails_mapM_iff, HeaderSlot.part_fails_iff]

namespace Document

variable (doc : Document) (frame : Frame)

theorem traitHeader_fails_iff (header : TraitHeader) :
    Fails (doc.traitHeader frame header) ↔
      doc.Bars header.visibility ∨ (∃ window ∈ header.autoSpan, doc.Lacks "auto".toList window) ∨
        doc.Lacks "trait".toList header.traitSpan ∨ doc.Misses header.ident := by
  unfold traitHeader
  rw [fails_map_iff, header.parts_eq, parts_fail_iff, TraitHeader.slots]
  cases header.autoSpan <;> simp [HeaderSlot.Broken, Keyword.text, Keyword.label]

theorem fnHeader_fails_iff (header : FnHeader) :
    Fails (doc.fnHeader frame header) ↔
      doc.Bars header.visibility ∨ (∃ window ∈ header.constSpan, doc.Lacks "const".toList window) ∨
        (∃ window ∈ header.asyncSpan, doc.Lacks "async".toList window) ∨
        doc.Lacks "fn".toList header.fnSpan ∨ doc.Misses header.ident := by
  unfold fnHeader
  rw [fails_map_iff, header.parts_eq, parts_fail_iff, FnHeader.slots]
  cases header.constSpan <;> cases header.asyncSpan <;>
    simp [HeaderSlot.Broken, Keyword.text, Keyword.label]

theorem importItem_fails_iff (item : Import) :
    Fails (doc.importItem frame item) ↔
      doc.Bars item.visibility ∨ doc.Lacks "use".toList item.keywordSpan := by
  rw [importItem_eq, ← ofVisibility_fails_iff]
  refine fails_bind_iff fun visibility => ?_
  exact (fails_map_iff _ _).trans (doc.ofKeyword_fails_iff rfl item.keywordSpan)

end Document

/-! ## Items with every check made -/

namespace Checked

def headerOf (doc : Document) (frame : Frame) (parts : Except Breach (List HeaderPart)) :
    Except Failure Text := do
  header doc frame (← parts)

def importText (doc : Document) (frame : Frame) (header : Text) (item : Import) :
    Except Failure Text := do
  let path := Path.joinNames item.path
  match item.entries with
  | none => return header ++ [' '] ++ path ++ [';']
  | some entries =>
      let path := if path = [] then [] else path ++ [':', ':']
      let used := header.lastLine.length + 1 + path.length
      let list ← importList doc (← between frame used) entries
      return header ++ [' '] ++ path ++ list ++ [';']

def importItem (doc : Document) (frame : Frame) (item : Import) : Except Failure Text := do
  let visibility ← HeaderPart.ofVisibility doc item.visibility
  let keyword ← HeaderPart.ofKeyword doc "use".toList item.keywordSpan
  importText doc frame (← header doc frame [visibility, keyword]) item

variable {doc : Document} (valid : doc.style.Valid) (frame : Frame)
include valid

theorem headerOf_eq (parts : Except Breach (List HeaderPart)) :
    headerOf doc frame parts = Except.mapError .breach (do return doc.header frame (← parts)) := by
  cases parts with
  | error breach => rfl
  | ok parts => exact header_eq valid frame parts

theorem importText_eq (header : Text) (item : Import) :
    importText doc frame header item = .ok (doc.importText frame header item) := by
  unfold importText Document.importText
  cases item.entries with
  | none => rfl
  | some entries =>
      dsimp only
      rw [between_eq, lift_ok, ok_bind, importList_eq valid]
      rfl

theorem importItem_eq (item : Import) :
    importItem doc frame item = (doc.importItem frame item).mapError .breach := by
  rw [Document.importItem_eq]
  unfold importItem
  cases HeaderPart.ofVisibility doc item.visibility with
  | error breach => rfl
  | ok visibility =>
      cases HeaderPart.ofKeyword doc "use".toList item.keywordSpan with
      | error breach => rfl
      | ok keyword =>
          change (header doc frame [visibility, keyword] >>= (importText doc frame · item)) = _
          rw [header_eq valid]
          exact importText_eq valid frame _ item

end Checked

theorem layout_failures (doc : Document) (frame : Frame) (valid : doc.style.Valid) :
    (∀ parts, Checked.header doc frame parts = .ok (doc.header frame parts)) ∧
    (∀ (form : ListForm) (entries : List Entry), form.style.Valid →
      Checked.write form entries = .ok (form.write entries)) ∧
    (∀ settings brackets nested lineWidth entries,
      Checked.layoutList doc frame settings brackets nested lineWidth entries =
        .ok (doc.layoutList frame settings brackets nested lineWidth entries)) ∧
    (∀ entries, Checked.importList doc frame entries = .ok (doc.importList frame entries)) ∧
    (∀ item : TraitHeader,
      Checked.headerOf doc frame (item.parts doc) =
          (doc.traitHeader frame item).mapError .breach ∧
        ((∃ breach, doc.traitHeader frame item = .error breach) ↔
          doc.Bars item.visibility ∨ (∃ window ∈ item.autoSpan, doc.Lacks "auto".toList window) ∨
            doc.Lacks "trait".toList item.traitSpan ∨ doc.Misses item.ident)) ∧
    (∀ item : FnHeader,
      Checked.headerOf doc frame (item.parts doc) = (doc.fnHeader frame item).mapError .breach ∧
        ((∃ breach, doc.fnHeader frame item = .error breach) ↔
          doc.Bars item.visibility ∨ (∃ window ∈ item.constSpan, doc.Lacks "const".toList window) ∨
            (∃ window ∈ item.asyncSpan, doc.Lacks "async".toList window) ∨
            doc.Lacks "fn".toList item.fnSpan ∨ doc.Misses item.ident)) ∧
    ∀ item : Import,
      Checked.importItem doc frame item = (doc.importItem frame item).mapError .breach ∧
        ((∃ breach, doc.importItem frame item = .error breach) ↔
          doc.Bars item.visibility ∨ doc.Lacks "use".toList item.keywordSpan) := by
  refine ⟨Checked.header_eq valid frame, fun form entries fair => Checked.write_eq form fair entries,
    Checked.layoutList_eq valid frame, Checked.importList_eq valid frame, fun item => ?_,
    fun item => ?_, fun item => ?_⟩
  · exact ⟨Checked.headerOf_eq valid frame _, doc.traitHeader_fails_iff frame item⟩
  · exact ⟨Checked.headerOf_eq valid frame _, doc.fnHeader_fails_iff frame item⟩
  · exact ⟨Checked.importItem_eq valid frame item, doc.importItem_fails_iff frame item⟩

theorem layout_failures_tabs :
    let source : Text := "pub(in a) /* fn */ f".toList
    let doc : Document := { source, style := { hardTabs := true, tabSpaces := 3, maxWidth := 1 } }
    let frame : Frame := { width := 0, indent := { block := 7, align := 2 } }
    let entry : Entry :=
      { text := "b".toList, after := some "/* x\n y */".toList, afterColumn := some (-4) }
    let item : FnHeader :=
      { visibility := .restricted (some (.ofNames ["a".toList] false)) (.ofLength 0 9)
        safety := .unstated
        ident := ⟨"f".toList, .ofLength 19 1⟩
        fnSpan := .ofLength 9 10 }
    doc.style.Valid ∧
      Checked.layoutList doc frame {} ⟨['['], [']']⟩ false (some (-5)) [entry] =
        .ok "[\n\t\t      b, /* x\n\t\t      y */\n\t\t   ]".toList ∧
      doc.Lacks "fn".toList item.fnSpan ∧ ∃ breach, doc.fnHeader frame item = .error breach := by
  intro source doc frame entry item
  have valid : doc.style.Valid := ⟨by decide, by decide⟩
  have lacks : doc.Lacks "fn".toList item.fnSpan := by decide +kernel
  have list : doc.layoutList frame {} ⟨['['], [']']⟩ false (some (-5)) [entry] =
      "[\n\t\t      b, /* x\n\t\t      y */\n\t\t   ]".toList := by decide +kernel
  obtain ⟨-, -, lists, -, -, headers, -⟩ := layout_failures doc frame valid
  refine ⟨valid, list ▸ lists {} ⟨['['], [']']⟩ false (some (-5)) [entry], lacks, ?_⟩
  exact (headers item).2.mpr (.inr (.inr (.inr (.inl lacks))))

end ItemLayout
