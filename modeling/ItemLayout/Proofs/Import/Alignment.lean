import ItemLayout.Proofs.Import.Items

/-!
# Lists under their first entry

In visual style the lines of a list start at a column that is computed from where its opener is taken
to stand. Main statement: in an import all of them start there, and the first entry stands there too
just if the header and the path are on one line, or on several with no indentation
(`Document.importItem_alignment_iff`).
-/

namespace ItemLayout

namespace Text

variable {column : Nat} {texts : List Text} {a t text : Text}

/-- Each line but the first is empty, or one of the texts starts it behind so many spaces. -/
def StartsAt (column : Nat) (texts : List Text) (t : Text) : Prop :=
  ∀ line ∈ t.lines.tail, line = [] ∨ ∃ text ∈ texts, List.replicate column ' ' ++ text <+: line

theorem startsAt_of_not_mem (single : '\n' ∉ t) : StartsAt column texts t := by
  rw [StartsAt, lines_of_not_mem single]
  exact fun line mem => absurd mem List.not_mem_nil

theorem startsAt_append (single : '\n' ∉ a) :
    StartsAt column texts (a ++ t) ↔ StartsAt column texts t := by
  rw [StartsAt, tail_lines_append single]
  rfl

theorem StartsAt.feed (starts : StartsAt column texts t) (empty : t.head? = some '\n') :
    StartsAt column texts ('\n' :: t) := by
  obtain ⟨rest, rfl⟩ := List.head?_eq_some_iff.mp empty
  rw [StartsAt, lines_cons_feed, List.tail_cons, lines_eq_cons]
  exact List.forall_mem_cons.mpr ⟨.inl rfl, starts⟩

theorem StartsAt.line (starts : StartsAt column texts t) (mem : text ∈ texts)
    (single : '\n' ∉ text) :
    StartsAt column texts ('\n' :: (List.replicate column ' ' ++ text ++ t)) := by
  have flat : '\n' ∉ List.replicate column ' ' ++ text := by simp [List.mem_replicate, single]
  rw [StartsAt, lines_cons_feed, List.tail_cons, lines_eq_cons, firstLine_append_of_not_mem flat,
    tail_lines_append flat]
  exact List.forall_mem_cons.mpr ⟨.inr ⟨text, mem, List.prefix_append _ _⟩, starts⟩

end Text

namespace ListWriter

variable {form : ListForm} {entry : Entry} {writer : ListWriter} {column : Nat} {texts : List Text}

theorem startsAt_behind (flat : '\n' ∉ form.mark) (separated : Bool) (entry : Entry) {last : Bool}
    {tail : Text} (starts : tail.StartsAt column texts)
    (next : form.arrangement = .vertical → last = false → tail.head? = some '\n') :
    Text.StartsAt column texts
      ((if separated then form.mark else []) ++ (blankLine form entry last ++ tail)) := by
  have single : '\n' ∉ if separated then form.mark else [] := by
    cases separated <;> simp [flat]
  rw [Text.startsAt_append single]
  unfold blankLine
  split
  · rename_i kept
    exact starts.feed (next kept.2.2.1 (by simpa using kept.2.1))
  · exact starts

theorem startsAt_divided (margin : form.margin = List.replicate column ' ') (bare : entry.Bare)
    (listed : entry.text ∈ texts) {divider tail : Text} (starts : tail.StartsAt column texts)
    (place : divider = [] ∨ divider = [' '] ∨ divider = form.newLine) :
    Text.StartsAt column texts (divider ++ entry.text ++ tail) := by
  rcases place with rfl | rfl | rfl
  · exact (Text.startsAt_append bare.single).mpr starts
  · rw [List.append_assoc, Text.startsAt_append (by simp), Text.startsAt_append bare.single]
    exact starts
  · have line := starts.line listed bare.single
    rwa [← margin] at line

theorem putAll_startsAt (flat : '\n' ∉ form.mark)
    (margin : form.margin = List.replicate column ' ') {entries : List Entry}
    (bare : ∀ entry ∈ entries, entry.Bare) (listed : ∀ entry ∈ entries, entry.text ∈ texts)
    (started : writer.previous.isSome = true → writer.text ≠ []) {close : Text}
    (single : '\n' ∉ close) :
    ∃ tail, (writer.putAll form entries).text ++ close = writer.text ++ tail ∧
      tail.StartsAt column texts ∧
      (form.arrangement = .vertical → writer.previous.isSome = true → entries ≠ [] →
        tail.head? = some '\n') := by
  induction entries generalizing writer with
  | nil => exact ⟨close, rfl, Text.startsAt_of_not_mem single, fun _ _ more => absurd rfl more⟩
  | cons entry rest ih =>
      obtain ⟨first, bare⟩ := List.forall_mem_cons.mp bare
      obtain ⟨mem, listed⟩ := List.forall_mem_cons.mp listed
      obtain ⟨separated, step, -, -⟩ := put_bare form writer first rest.isEmpty
      obtain ⟨divider, place, divided, -⟩ :=
        advance_text form entry (writer.separatorWidth form rest.isEmpty) writer
      have text : (writer.put form rest.isEmpty entry).text = writer.text ++ divider ++ entry.text ++
          (if separated then form.mark else []) ++ blankLine form entry rest.isEmpty := by
        rw [step, ← divided]
      have written : (writer.put form rest.isEmpty entry).text ≠ [] := by simp [text, first.shown]
      obtain ⟨tail, later, starts, next⟩ := ih bare listed fun _ => written
      have behind : Text.StartsAt column texts ((if separated then form.mark else []) ++
          (blankLine form entry rest.isEmpty ++ tail)) :=
        startsAt_behind flat separated entry starts fun vertical inside =>
          next vertical rfl (by simpa using inside)
      refine ⟨_, ?_, startsAt_divided margin first mem behind place, fun vertical later _ => ?_⟩
      · rw [putAll, later, text]
        simp only [List.append_assoc]
      · have broken : divider = form.newLine := by
          rw [advance_vertical vertical later (started later)] at divided
          exact (List.append_cancel_left divided).symm
        rw [broken]
        rfl

end ListWriter

theorem ListForm.write_startsAt {form : ListForm} {column : Nat} (flat : '\n' ∉ form.mark)
    (margin : form.margin = List.replicate column ' ') {first : Entry} {rest : List Entry}
    (bare : ∀ entry ∈ first :: rest, entry.Bare) {close : Text} (single : '\n' ∉ close) :
    ∃ tail, form.write (first :: rest) ++ close = first.text ++ tail ∧
      tail.StartsAt column (rest.map Entry.text) := by
  rw [write, Entry.filter_isSubstantial fun entry mem => (bare entry mem).shown]
  obtain ⟨own, bare⟩ := List.forall_mem_cons.mp bare
  obtain ⟨separated, step, -, -⟩ := ListWriter.put_bare form (.start form) own rest.isEmpty
  have text : ((ListWriter.start form).put form rest.isEmpty first).text = first.text ++
      (if separated then form.mark else []) ++ ListWriter.blankLine form first rest.isEmpty := by
    rw [step, ListWriter.advance_start, List.nil_append]
  have written : ((ListWriter.start form).put form rest.isEmpty first).text ≠ [] := by
    simp [text, own.shown]
  obtain ⟨tail, later, starts, next⟩ := ListWriter.putAll_startsAt flat margin bare
    (fun entry mem => List.mem_map_of_mem mem) (fun _ => written) single
  refine ⟨(if separated then form.mark else []) ++
    (ListWriter.blankLine form first rest.isEmpty ++ tail), ?_, ?_⟩
  · rw [ListWriter.putAll, later, text]
    simp only [List.append_assoc]
  · refine ListWriter.startsAt_behind flat separated first starts fun vertical inside => ?_
    exact next vertical rfl (by simpa using inside)

namespace Document

variable {doc : Document}

theorem layoutList_startsAt {frame : Frame} {settings : ListSettings} {brackets : Brackets}
    {nested : Bool} {lineWidth : Int} {first : Entry} {rest : List Entry}
    (visual : settings.indentStyle = .visual) (spaces : doc.style.hardTabs = false)
    (flat : '\n' ∉ settings.separator.trimRight) (bare : ∀ entry ∈ first :: rest, entry.Bare)
    {close : Text} (single : '\n' ∉ brackets.closer ++ close) :
    ∃ tail,
      doc.layoutList frame settings brackets nested (some lineWidth) (first :: rest) ++ close =
        brackets.opener ++ first.text ++ tail ∧
      tail.StartsAt (frame.indent.block + frame.offset + brackets.opener.length)
        (rest.map Entry.text) := by
  obtain ⟨form, formed⟩ : ∃ form, doc.listForm frame settings brackets nested (some lineWidth)
      (first :: rest) = form := ⟨_, rfl⟩
  have mark : form.mark = settings.separator.trimRight := by
    rw [← formed, ListForm.mark, listForm, settings.form_separator]
  have length : form.margin.length =
      frame.indent.block + frame.offset + brackets.opener.length := by
    rw [← formed]
    exact ListSettings.length_margin_visual visual spaces
  have margin : form.margin =
      List.replicate (frame.indent.block + frame.offset + brackets.opener.length) ' ' := by
    have style : form.style = doc.style := by
      rw [← formed]
      exact ListSettings.form_style
    rw [← length, ListForm.margin, style, Indent.render_spaces spaces, List.length_replicate]
  rw [layoutList_bare formed bare (List.cons_ne_nil _ _), if_neg (by simp [visual])]
  obtain ⟨tail, text, starts⟩ := ListForm.write_startsAt (mark ▸ flat) margin bare single
  refine ⟨tail, ?_, starts⟩
  rw [List.append_assoc, List.append_assoc, text, List.append_assoc]

theorem importList_startsAt (frame : Frame) {first : Entry} {rest : List Entry}
    (visual : doc.style.importsIndent = .visual) (spaces : doc.style.hardTabs = false)
    (bare : ∀ entry ∈ first :: rest, entry.Bare) :
    ∃ tail, doc.importList frame (first :: rest) ++ [';'] = ['\x7b'] ++ first.text ++ tail ∧
      tail.StartsAt (frame.indent.block + frame.offset + 1) (rest.map Entry.text) := by
  obtain ⟨nested, lineWidth, -, list⟩ := doc.importList_eq frame (first :: rest)
  have flat : '\n' ∉ doc.importSettings.separator.trimRight :=
    (by decide : '\n' ∉ Text.trimRight [','])
  have single : '\n' ∉ (Brackets.mk ['\x7b'] ['\x7d']).closer ++ [';'] := by simp
  rw [list]
  exact layoutList_startsAt visual spaces flat bare single

def importPath (item : Import) : Text :=
  if Path.joinNames item.path = [] then [] else Path.joinNames item.path ++ [':', ':']

theorem importText_startsAt {indent : Indent} {item : Import} {first : Entry} {rest : List Entry}
    (visual : doc.style.importsIndent = .visual) (spaces : doc.style.hardTabs = false)
    (given : item.entries = some (first :: rest)) (bare : ∀ entry ∈ first :: rest, entry.Bare)
    (header : Text) :
    ∃ tail,
      doc.importText (.atIndent doc.style indent) header item =
        header ++ [' '] ++ importPath item ++ ['\x7b'] ++ first.text ++ tail ∧
      tail.StartsAt (indent.width + header.lastLine.length + (importPath item).length + 2)
        (rest.map Entry.text) := by
  obtain ⟨tail, list, starts⟩ := importList_startsAt
    (((Frame.atIndent doc.style indent).behind
      (header.lastLine.length + 1 + (importPath item).length)).shrunk 1) visual spaces bare
  rw [place_behind] at starts
  refine ⟨tail, ?_, ?_⟩
  · have text : doc.importText (.atIndent doc.style indent) header item =
        header ++ [' '] ++ importPath item ++ (doc.importList
          (((Frame.atIndent doc.style indent).behind
            (header.lastLine.length + 1 + (importPath item).length)).shrunk 1) (first :: rest) ++
          [';']) := by
      simp only [importText, given, importPath, List.append_assoc]
    rw [text, list]
    simp only [List.append_assoc]
  · have counted : indent.width + (header.lastLine.length + 1 + (importPath item).length) + 1 =
        indent.width + header.lastLine.length + (importPath item).length + 2 := by omega
    rwa [counted] at starts

theorem endColumn_lead_iff (column : Nat) (header path : Text) :
    Text.endColumn column (header ++ [' '] ++ path ++ ['\x7b']) =
        column + header.lastLine.length + path.length + 2 ↔
      '\n' ∉ path ∧ ('\n' ∈ header → column = 0) := by
  have ends : Text.endColumn column (header ++ [' '] ++ path ++ ['\x7b']) =
      Text.endColumn (Text.endColumn column header + 1) path + 1 := by
    have space : '\n' ∉ [' '] := by simp
    have brace : '\n' ∉ ['\x7b'] := by simp
    rw [Text.endColumn_append, Text.endColumn_append, Text.endColumn_append,
      Text.endColumn_of_not_mem _ space, Text.endColumn_of_not_mem _ brace]
    rfl
  rw [ends]
  by_cases broken : '\n' ∈ path
  · -- The last line of the path alone is shorter than what is counted.
    have short := path.length_lastLine_le
    rw [Text.endColumn, if_pos broken]
    exact iff_of_false (by omega) fun both => both.1 broken
  · rw [Text.endColumn_of_not_mem _ broken, Text.endColumn]
    by_cases several : '\n' ∈ header
    · rw [if_pos several]
      simp only [broken, several, not_false_eq_true, true_and, true_implies]
      omega
    · rw [if_neg several, Text.lastLine_of_not_mem several]
      simp only [broken, several, not_false_eq_true, true_and, false_implies, iff_true]
      omega

theorem importItem_alignment_iff {indent : Indent} {item : Import} {out : Text} {first : Entry}
    {rest : List Entry} (visual : doc.style.importsIndent = .visual)
    (spaces : doc.style.hardTabs = false) (given : item.entries = some (first :: rest))
    (bare : ∀ entry ∈ first :: rest, entry.Bare)
    (laid : doc.importItem (.atIndent doc.style indent) item = .ok out) :
    ∃ visibility keyword tail,
      HeaderPart.ofVisibility doc item.visibility = .ok visibility ∧
      HeaderPart.ofKeyword doc "use".toList item.keywordSpan = .ok keyword ∧
      let header := doc.header (.atIndent doc.style indent) [visibility, keyword]
      let lead := header ++ [' '] ++ importPath item ++ ['\x7b']
      let column := indent.width + header.lastLine.length + (importPath item).length + 2
      out = lead ++ first.text ++ tail ∧
      tail.StartsAt column (rest.map Entry.text) ∧
      (Text.endColumn indent.width lead = column ↔
        '\n' ∉ importPath item ∧ ('\n' ∈ header → indent.width = 0)) := by
  obtain ⟨visibility, keyword, seen, found, rfl⟩ := importItem_ok laid
  obtain ⟨tail, text, starts⟩ := importText_startsAt visual spaces given bare
    (doc.header (.atIndent doc.style indent) [visibility, keyword])
  refine ⟨visibility, keyword, tail, seen, found, text, starts, ?_⟩
  exact endColumn_lead_iff indent.width _ (importPath item)

theorem importItem_alignment_one_line :
    let doc : Document :=
      { source := "use".toList, style := { maxWidth := 24, importsIndent := .visual } }
    let first : Entry := .ofText "bb".toList
    let rest := ["cc", "dd", "ee"].map (Entry.ofText ·.toList)
    let item : Import := ⟨.exported .nowhere, .ofLength 0 3, ["a".toList], some (first :: rest)⟩
    let indent : Indent := { block := 2, align := 1 }
    let lead : Text := "pub use a::\x7b".toList
    let out : Text := lead ++ "bb, cc,\n".toList ++ List.replicate 15 ' ' ++ "dd, ee\x7d;".toList
    doc.importItem (.atIndent doc.style indent) item = .ok out ∧
      (∀ entry ∈ first :: rest, entry.Bare) ∧
      ∃ tail, out = lead ++ first.text ++ tail ∧ tail.StartsAt 15 (rest.map Entry.text) ∧
        Text.endColumn 3 lead = 15 := by
  intro doc first rest item indent lead out
  have laid : doc.importItem (.atIndent doc.style indent) item = .ok out :=
    eq_ok_of_toOption (by decide +kernel)
  have bare : ∀ entry ∈ first :: rest, entry.Bare := by decide
  obtain ⟨visibility, keyword, tail, seen, found, text, starts, aligned⟩ :=
    importItem_alignment_iff rfl rfl rfl bare laid
  have written : HeaderPart.ofVisibility doc item.visibility = .ok ⟨"pub".toList, .nowhere⟩ := rfl
  have keyed : HeaderPart.ofKeyword doc "use".toList item.keywordSpan =
      .ok ⟨"use".toList, .ofLength 0 3⟩ := eq_ok_of_toOption (by decide +kernel)
  obtain rfl := Except.ok.inj (written.symm.trans seen)
  obtain rfl := Except.ok.inj (keyed.symm.trans found)
  have header : doc.header (.atIndent doc.style indent)
      [⟨"pub".toList, .nowhere⟩, ⟨"use".toList, .ofLength 0 3⟩] = "pub use".toList := by
    decide +kernel
  have path : importPath item = "a::".toList := by decide +kernel
  rw [header, path] at text starts aligned
  exact ⟨laid, bare, tail, text, starts, aligned.mpr (by decide +kernel)⟩

theorem importItem_misaligned_behind_comment :
    let doc : Document :=
      { source := "pub // c\nuse".toList, style := { maxWidth := 24, importsIndent := .visual } }
    let entries := ["bbbb", "cccc"].map (Entry.ofText ·.toList)
    let item : Import := ⟨.exported (.ofLength 0 3), .ofLength 9 3, ["a".toList], some entries⟩
    let lead : Text := "pub\n    // c\n    use a::\x7b".toList
    doc.importItem (.atIndent doc.style { block := 4 }) item =
        .ok (lead ++ "bbbb,\n".toList ++ List.replicate 16 ' ' ++ "cccc\x7d;".toList) ∧
      Text.endColumn 4 lead = 12 := by
  intro doc entries item lead
  exact ⟨eq_ok_of_toOption (by decide +kernel), by decide +kernel⟩

end Document

end ItemLayout
