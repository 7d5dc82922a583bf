import ItemLayout.Import
import ItemLayout.Proofs.Header.Items
import ItemLayout.Proofs.ItemList.Width

namespace ItemLayout

namespace Document

variable {doc : Document} {frame : Frame} {item : Import} {out : Text}

def importText (doc : Document) (frame : Frame) (header : Text) (item : Import) : Text :=
  match item.entries with
  | none => header ++ [' '] ++ Path.joinNames item.path ++ [';']
  | some entries =>
      let path := if Path.joinNames item.path = [] then [] else Path.joinNames item.path ++ [':', ':']
      let used := header.lastLine.length + 1 + path.length
      header ++ [' '] ++ path ++ doc.importList ((frame.behind used).shrunk 1) entries ++ [';']

theorem importItem_eq (doc : Document) (frame : Frame) (item : Import) :
    doc.importItem frame item = do
      let visibility ← HeaderPart.ofVisibility doc item.visibility
      let keyword ← HeaderPart.ofKeyword doc "use".toList item.keywordSpan
      return doc.importText frame (doc.header frame [visibility, keyword]) item := by
  unfold importItem importText
  cases item.entries <;> rfl

theorem importItem_ok (laid : doc.importItem frame item = .ok out) :
    ∃ visibility keyword, HeaderPart.ofVisibility doc item.visibility = .ok visibility ∧
      HeaderPart.ofKeyword doc "use".toList item.keywordSpan = .ok keyword ∧
      out = doc.importText frame (doc.header frame [visibility, keyword]) item := by
  rw [importItem_eq] at laid
  obtain ⟨visibility, seen, laid⟩ := bind_eq_ok_iff.mp laid
  obtain ⟨keyword, found, laid⟩ := bind_eq_ok_iff.mp laid
  exact ⟨visibility, keyword, seen, found, (Except.ok.inj laid).symm⟩

/-! ## The width of an import -/

def importSettings (doc : Document) : ListSettings where
  packing := doc.style.importsLayout
  indentStyle := doc.style.importsIndent
  trailing := doc.style.trailingComma

theorem importList_eq (doc : Document) (frame : Frame) (entries : List Entry) :
    ∃ nested lineWidth, lineWidth ≤ frame.width - 2 ∧
      doc.importList frame entries =
        doc.layoutList frame doc.importSettings ⟨['\x7b'], ['\x7d']⟩ nested
          (some (lineWidth : Nat)) entries := by
  refine ⟨_, _, ?_, rfl⟩
  split
  · exact Nat.zero_le _
  · exact Nat.le_refl _

theorem importList_fits {entries : List Entry} {column : Nat}
    (packing : doc.style.importsLayout = .mixed ∨ doc.style.importsLayout = .horizontalVertical)
    (optional : doc.style.trailingComma ≠ .always) (spaces : doc.style.hardTabs = false)
    (bounded : doc.style.maxWidth < Frame.unbounded) (narrow : frame.width < Frame.unbounded)
    (bare : ∀ entry ∈ entries, entry.Bare)
    (start : column ≤ frame.indent.block + frame.offset)
    (room : 0 < frame.width →
      frame.indent.block + frame.offset + frame.width + 1 ≤ doc.style.maxWidth.toNat) :
    ∃ lead links white, White white ∧ doc.importList frame entries ++ [';'] = lead ++ chain links ∧
      Linked [','] (white ++ ['\x7d', ';']) (entries.map Entry.text) links ∧
      Fits doc.style.maxWidth.toNat (Text.endColumn column lead) links := by
  by_cases none : entries = []
  · subst none
    exact ⟨_, [], [], white_nil, (List.append_nil _).symm, .nil, trivial⟩
  · obtain ⟨nested, lineWidth, inside, list⟩ := doc.importList_eq frame entries
    have flexible : doc.importSettings.Flexible :=
      ⟨packing, optional, (by decide : '\n' ∉ Text.trimRight [',']),
        (by decide : (Text.trimRight [',']).length ≤ 1)⟩
    have opens : '\n' ∉ (Brackets.mk ['\x7b'] ['\x7d']).opener := by simp
    have within : 0 < (lineWidth : Int) → lineWidth + (Brackets.mk ['\x7b'] ['\x7d']).opener.length +
        (Brackets.mk ['\x7b'] ['\x7d']).closer.length ≤ (frame.width : Int) := by
      simp only [List.length_singleton]
      omega
    rw [list]
    obtain ⟨opening, closing, links, white, text, linked, fits⟩ :=
      layoutList_fits [';'] flexible spaces bounded narrow bare none opens within start room
    exact ⟨_, links, closing, white, text, linked, fits⟩

theorem place_behind (style : Style) (indent : Indent) (used : Nat) :
    (((Frame.atIndent style indent).behind used).shrunk 1).indent.block +
      (((Frame.atIndent style indent).behind used).shrunk 1).offset = indent.width + used := by
  simp only [Frame.behind, Frame.indent_shrunk, Frame.offset_shrunk, Frame.shifted, Frame.atIndent,
    Indent.width]
  omega

theorem importText_fits {indent : Indent} {entries : List Entry}
    (packing : doc.style.importsLayout = .mixed ∨ doc.style.importsLayout = .horizontalVertical)
    (optional : doc.style.trailingComma ≠ .always) (spaces : doc.style.hardTabs = false)
    (bounded : doc.style.maxWidth < Frame.unbounded) (given : item.entries = some entries)
    (bare : ∀ entry ∈ entries, entry.Bare) (header : Text) :
    ∃ lead links white, White white ∧
      doc.importText (.atIndent doc.style indent) header item = lead ++ chain links ∧
      Linked [','] (white ++ ['\x7d', ';']) (entries.map Entry.text) links ∧
      Fits doc.style.maxWidth.toNat (Text.endColumn indent.width lead) links := by
  simp only [importText, given]
  generalize (if Path.joinNames item.path = [] then []
    else Path.joinNames item.path ++ [':', ':']) = path
  obtain ⟨used, counted⟩ : ∃ used, used = header.lastLine.length + 1 + path.length := ⟨_, rfl⟩
  rw [← counted]
  have bound : (Frame.atIndent doc.style indent).width < Frame.unbounded := by
    simp only [Frame.atIndent, Frame.roomBeside, Frame.unbounded] at bounded ⊢
    omega
  have behind := Frame.width_behind bound used
  have width : (((Frame.atIndent doc.style indent).behind used).shrunk 1).width =
      (Frame.atIndent doc.style indent).width - used - 1 := by
    rw [Frame.width_shrunk (by omega), behind]
  have place := place_behind doc.style indent used
  have start : Text.endColumn indent.width (header ++ [' '] ++ path) ≤ indent.width + used := by
    have first := Text.endColumn_le indent.width header
    have rest := Text.endColumn_le_add (Text.endColumn indent.width header) ([' '] ++ path)
    rw [List.append_assoc, Text.endColumn_append]
    rw [List.length_append, List.length_singleton] at rest
    omega
  obtain ⟨lead, links, white, blank, text, linked, fits⟩ :=
    importList_fits packing optional spaces bounded (by omega) bare (place ▸ start) (by
      rw [place, width]
      simp only [Frame.atIndent, Frame.roomBeside]
      omega)
  refine ⟨header ++ [' '] ++ path ++ lead, links, white, blank, ?_, linked, ?_⟩
  · rw [List.append_assoc, text]
    simp only [List.append_assoc]
  · rwa [Text.endColumn_append]

theorem importItem_lines_fit (indent : Indent) (entries : List Entry) (valid : doc.style.Valid)
    (packing : doc.style.importsLayout = .mixed ∨ doc.style.importsLayout = .horizontalVertical)
    (optional : doc.style.trailingComma ≠ .always) (spaces : doc.style.hardTabs = false)
    (bounded : doc.style.maxWidth < Frame.unbounded) (given : item.entries = some entries)
    (bare : ∀ entry ∈ entries, entry.Bare)
    (laid : doc.importItem (.atIndent doc.style indent) item = .ok out) :
    ∃ lead links white, White white ∧ out = lead ++ chain links ∧
      Linked [','] (white ++ ['\x7d', ';']) (entries.map Entry.text) links ∧
      ∀ left link right, links = left ++ link :: right → right ≠ [] → '\n' ∉ link.glue →
        (out.lineWidth indent.width (lead ++ chain left).length : Int) ≤ doc.style.maxWidth := by
  obtain ⟨visibility, keyword, -, -, rfl⟩ := importItem_ok laid
  obtain ⟨lead, links, white, blank, text, linked, fits⟩ :=
    importText_fits packing optional spaces bounded given bare
      (doc.header (.atIndent doc.style indent) [visibility, keyword])
  refine ⟨lead, links, white, blank, text, linked, fun left link right split more flat => ?_⟩
  have width := fits.lineWidth_le split more flat
  rw [← text] at width
  have positive := valid.1
  omega

theorem importItem_lines_fit_full_line :
    let doc : Document := { source := "use".toList, style := { maxWidth := 20 } }
    let entries := ["bb", "cc", "dd", "eee"].map (Entry.ofText ·.toList)
    let item : Import := ⟨.exported .nowhere, .ofLength 0 3, ["a".toList], some entries⟩
    let out : Text := "pub use a::\x7b\n    bb, cc, dd, eee,\n\x7d;".toList
    doc.importItem (.atIndent doc.style {}) item = .ok out ∧
      ∃ lead links white, White white ∧ out = lead ++ chain links ∧
        Linked [','] (white ++ ['\x7d', ';']) (entries.map Entry.text) links ∧
        ∀ left link right, links = left ++ link :: right → right ≠ [] → '\n' ∉ link.glue →
          (out.lineWidth 0 (lead ++ chain left).length : Int) ≤ 20 := by
  intro doc entries item out
  have laid : doc.importItem (.atIndent doc.style {}) item = .ok out :=
    eq_ok_of_toOption (by decide +kernel)
  have bare : ∀ entry ∈ entries, entry.Bare := by
    refine List.forall_mem_map.mpr fun name mem => ⟨?_, ?_, rfl, rfl⟩
    · revert name
      decide
    · revert name
      decide
  exact ⟨laid, importItem_lines_fit {} entries ⟨by decide, by decide⟩ (.inl rfl) (by decide) rfl
    (by decide) rfl bare laid⟩

end Document

/-! ## The comments of an import -/

def InOrder : List Text → Text → Prop
  | [], _ => True
  | text :: texts, out => ∃ before after, out = before ++ text ++ after ∧ InOrder texts after

namespace InOrder

variable {texts : List Text} {out : Text}

theorem append_left (found : InOrder texts out) (before : Text) : InOrder texts (before ++ out) := by
  cases texts with
  | nil => trivial
  | cons text texts =>
      obtain ⟨left, right, rfl, rest⟩ := found
      exact ⟨before ++ left, right, by simp only [List.append_assoc], rest⟩

theorem append_right (found : InOrder texts out) (after : Text) : InOrder texts (out ++ after) := by
  induction texts generalizing out with
  | nil => trivial
  | cons text texts ih =>
      obtain ⟨left, right, rfl, rest⟩ := found
      exact ⟨left, right ++ after, List.append_assoc _ _ _, ih rest⟩

end InOrder

namespace Gap

variable (style : Style)

theorem inOrder_renderAfter (indent : Indent) (previous : GapComment) (comments : List GapComment) :
    InOrder (comments.map (GapComment.render style indent))
      (renderAfter style indent previous comments) := by
  induction comments generalizing previous with
  | nil => trivial
  | cons comment rest ih =>
      obtain ⟨divider, -, -, text⟩ := renderAfter_cons style indent previous comment rest
      rw [text, ← List.append_assoc]
      exact ⟨divider, _, rfl, ih comment⟩

theorem inOrder_join (gap : Gap) (frame : Frame) (extend : Bool) (before after : Text) :
    InOrder (gap.comments.map (GapComment.render style frame.indent))
      (gap.join style frame extend before after) := by
  cases comments : gap.comments with
  | nil => trivial
  | cons first rest =>
      obtain ⟨opening, closing, -, -, -, -, -, text⟩ :=
        join_eq style comments frame extend before after
      rw [text]
      have later := inOrder_renderAfter style frame.indent first rest
      have front : InOrder ((first :: rest).map (GapComment.render style frame.indent))
          (first.render style frame.indent ++ renderAfter style frame.indent first rest) :=
        ⟨[], _, rfl, later⟩
      exact (((front.append_right closing).append_left opening).append_left before).append_right after

end Gap

namespace Document

variable {doc : Document} {frame : Frame} {item : Import} {seen keyword : HeaderPart}

theorem header_pair (written : seen.text ≠ []) (shown : keyword.text ≠ []) :
    doc.header frame [seen, keyword] = doc.headerJoin frame.unlimited seen.text seen keyword := by
  simp [header, written, shown, headerFrom]

theorem header_single (absent : seen.text = []) (shown : keyword.text ≠ []) :
    doc.header frame [seen, keyword] = keyword.text := by
  simp [header, absent, shown, headerFrom]

theorem commentsBetween_eq_nil
    (apart : seen.span.isEmpty = true ∨
      ∃ token ∈ tokensIn doc.source (seen.span.gapTo keyword.span), ¬token.fillsGap) :
    doc.commentsBetween seen keyword = [] := by
  rcases apart with nowhere | ⟨token, among, other⟩
  · simp [commentsBetween, nowhere]
  · unfold commentsBetween
    split
    · cases found : Gap.read doc.source (seen.span.gapTo keyword.span) with
      | error fault => rfl
      | ok gap => exact absurd ((Gap.ofTokens_isOk_iff ..).mp ⟨gap, found⟩ token among) other
    · rfl

theorem headerJoin_inOrder {gap : Gap} (frame : Frame)
    (found : Gap.read doc.source (seen.gap keyword) = .ok gap) (written : Text) :
    InOrder (gap.comments.map (GapComment.render doc.style frame.indent))
      (doc.headerJoin frame written seen keyword) := by
  rw [headerJoin, join_of_read found]
  exact gap.inOrder_join doc.style frame true written keyword.text

theorem headerJoin_bare (none : doc.commentsBetween seen keyword = []) (written : Text) :
    ∃ divider, White divider ∧
      doc.headerJoin frame written seen keyword = written ++ divider ++ keyword.text := by
  rw [commentsBetween_eq] at none
  cases found : Gap.read doc.source (seen.gap keyword) with
  | error fault =>
      refine ⟨[' '], white_space, ?_⟩
      rw [headerJoin, join, found]
      simp [Functor.map, Except.map]
  | ok gap =>
      rw [found] at none
      obtain ⟨divider, white, text, -⟩ :=
        Gap.joinBare_eq doc.style frame true written keyword.text
      refine ⟨divider, white, ?_⟩
      rw [headerJoin, join_of_read found]
      exact (Gap.join_of_bare doc.style none frame true written keyword.text).trans text

theorem importText_inOrder {texts : List Text} {header : Text} (found : InOrder texts header)
    (frame : Frame) (item : Import) : InOrder texts (doc.importText frame header item) := by
  unfold importText
  split
  · exact ((found.append_right _).append_right _).append_right _
  · exact (((found.append_right _).append_right _).append_right _).append_right _

def useAt (span : Span) : HeaderPart := ⟨"use".toList, span⟩

theorem ofKeyword_use {window : Span} {use : Token} {early late : List Token}
    (split : tokensIn doc.source window = early ++ use :: late)
    (kind : use.kind = .identifier) (text : use.text doc.source = "use".toList)
    (trivia : ∀ token ∈ early, token.fillsGap) :
    HeaderPart.ofKeyword doc "use".toList window = .ok (useAt use.span) ∧
      HeaderPart.ofKeyword doc "use".toList use.span = .ok (useAt use.span) := by
  have name : (scan "use".toList).kind = .identifier := rfl
  have mem : use ∈ tokensIn doc.source window := by simp [split]
  have length := length_of_mem_tokensIn mem
  rw [text] at length
  have span : Span.ofLength use.span.start "use".toList.length = use.span := by
    simp only [Span.ofLength, length]
  have others : ∀ other ∈ early,
      ¬(other.kind = .identifier ∧ other.text doc.source = "use".toList) := by
    rintro other here ⟨identifier, -⟩
    have kind := (trivia other here).1
    rw [identifier] at kind
    cases kind
  have alone : tokensIn doc.source window = early ++ ([] ++ use :: []) ++ late := by
    simpa using split
  have tiles : Tiles use.span.start use.span.stop ([] ++ use :: []) :=
    ⟨rfl, ((tiles_tokensIn doc.source window).bounds mem).2.1, rfl⟩
  have wide := find_first name split kind text others
  have tight := find_run name alone tiles kind text (by simp)
  constructor
  · rw [HeaderPart.ofKeyword, wide, ok_bind, span]
    rfl
  · rw [HeaderPart.ofKeyword, tight, ok_bind, span]
    rfl

theorem importItem_comments (doc : Document) (frame : Frame) (item : Import) {seen : HeaderPart}
    {early late : List Token} {use : Token}
    (made : HeaderPart.ofVisibility doc item.visibility = .ok seen)
    (split : tokensIn doc.source item.keywordSpan = early ++ use :: late)
    (kind : use.kind = .identifier) (text : use.text doc.source = "use".toList)
    (trivia : ∀ token ∈ early, token.fillsGap) :
    ∃ out, doc.importItem frame item = .ok out ∧
      doc.importItem frame { item with keywordSpan := use.span } = .ok out ∧
      (∀ between, seen.text ≠ [] → seen.span.isEmpty = false →
        seen.span.stop ≤ item.keywordSpan.start →
        (tokensIn doc.source (seen.span.gapTo use.span)).map Token.alone =
          (between ++ early).map Token.alone →
        (∀ token ∈ between, token.fillsGap) →
        InOrder (((between ++ early).filter (·.kind.isComment)).map fun token =>
          (doc.commentAt frame.indent token).2) out) ∧
      ((seen.text = [] ∨ seen.span.isEmpty = true ∨
          ∃ token ∈ tokensIn doc.source (seen.span.gapTo use.span), ¬token.fillsGap) →
        ∃ divider, White divider ∧
          out = doc.importText frame (seen.text ++ divider ++ "use".toList) item) := by
  obtain ⟨wide, tight⟩ := ofKeyword_use split kind text trivia
  have shown : (useAt use.span).text ≠ [] := by simp [useAt]
  have mem : use ∈ tokensIn doc.source item.keywordSpan := by simp [split]
  have bounds := (tiles_tokensIn doc.source item.keywordSpan).bounds mem
  refine ⟨doc.importText frame (doc.header frame [seen, useAt use.span]) item, ?_, ?_, ?_, ?_⟩
  · rw [importItem_eq, made, ok_bind, wide]
    rfl
  · rw [importItem_eq, made, ok_bind, tight]
    rfl
  · intro between written located order same fills
    have here : seen.gap (useAt use.span) = seen.span.gapTo use.span := by
      have size : use.span.isEmpty = false := beq_eq_false_iff_ne.mpr (Nat.ne_of_lt bounds.2.1)
      have behind : seen.span.relation use.span = .lt := if_pos (Nat.le_trans order bounds.1)
      simp [HeaderPart.gap, useAt, located, size, behind]
    obtain ⟨gap, found, comments⟩ :=
      read_of_fills same (List.forall_mem_append.mpr ⟨fills, trivia⟩) frame.indent
    have texts := congrArg (List.map Prod.snd) comments
    rw [List.map_map, List.map_map] at texts
    rw [← here] at found
    apply importText_inOrder
    rw [header_pair written shown]
    exact texts ▸ headerJoin_inOrder frame.unlimited found seen.text
  · intro absent
    by_cases none : seen.text = []
    · refine ⟨[], white_nil, ?_⟩
      rw [header_single none shown, none]
      rfl
    · have nothing : doc.commentsBetween seen (useAt use.span) = [] := by
        rcases absent with absent | apart
        · exact absurd absent none
        · exact commentsBetween_eq_nil apart
      obtain ⟨divider, white, header⟩ := headerJoin_bare nothing seen.text
      refine ⟨divider, white, ?_⟩
      rw [header_pair none shown, header]
      rfl

theorem importItem_comments_before_keyword :
    let doc : Document := { source := "pub /* a */ use /* b */ x;".toList }
    let item : Import := ⟨.exported (.ofLength 0 3), .ofLength 4 19, ["x".toList], none⟩
    let early : List Token :=
      [{ kind := .blockComment, span := .ofLength 4 7 }, { kind := .spacing, span := .ofLength 11 1 }]
    let use : Token := { kind := .identifier, span := .ofLength 12 3 }
    let late : List Token :=
      [{ kind := .spacing, span := .ofLength 15 1 }, { kind := .blockComment, span := .ofLength 16 7 }]
    let out : Text := "pub\n/* a */\nuse x;".toList
    tokensIn doc.source item.keywordSpan = early ++ use :: late ∧
      doc.importItem { width := 40 } item = .ok out ∧
      doc.importItem { width := 40 } { item with keywordSpan := use.span } = .ok out ∧
      InOrder ["/* a */".toList] out := by
  intro doc item early use late out
  have split : tokensIn doc.source item.keywordSpan = early ++ use :: late := by decide +kernel
  have trivia : ∀ token ∈ early, token.fillsGap := by
    refine List.forall_mem_cons.mpr ⟨?_, List.forall_mem_singleton.mpr ?_⟩
    · exact ⟨rfl, fun _ => rfl⟩
    · exact ⟨rfl, fun _ => rfl⟩
  obtain ⟨out', laid, tight, found, -⟩ :=
    doc.importItem_comments { width := 40 } item rfl split rfl (by decide +kernel) trivia
  have same : doc.importItem { width := 40 } item = .ok out := eq_ok_of_toOption (by decide +kernel)
  obtain rfl := Except.ok.inj (same.symm.trans laid)
  let between : List Token := [{ kind := .spacing, span := .ofLength 3 1 }]
  have kept := found between (by decide) rfl (by decide) (by decide +kernel)
    (List.forall_mem_singleton.mpr ⟨rfl, fun _ => rfl⟩)
  have texts : (((between ++ early).filter (·.kind.isComment)).map fun token =>
      (doc.commentAt {} token).2) = ["/* a */".toList] := by decide +kernel
  exact ⟨split, laid, tight, Eq.mp (congrArg (InOrder · out) texts) kept⟩

theorem importItem_drops_comment :
    let doc : Document :=
      { source := "use /* c */ a;".toList, style := { inlineComments := true } }
    let item : Import := ⟨.inherited .nowhere, .ofLength 0 11, ["a".toList], none⟩
    let comment : Token := { kind := .blockComment, span := .ofLength 4 7 }
    comment ∈ tokensIn doc.source item.keywordSpan ∧
      doc.importItem { width := 100 } item = .ok "use a;".toList ∧
      ¬InOrder [comment.text doc.source] "use a;".toList := by
  intro doc item comment
  refine ⟨by decide +kernel, eq_ok_of_toOption (by decide +kernel), ?_⟩
  rintro ⟨before, after, text, -⟩
  have length := congrArg List.length text
  have long : (comment.text doc.source).length = 7 := by decide +kernel
  have short : "use a;".toList.length = 6 := rfl
  rw [List.length_append, List.length_append] at length
  omega

end Document

end ItemLayout
