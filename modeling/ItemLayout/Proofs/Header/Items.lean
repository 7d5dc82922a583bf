import ItemLayout.Header.Items
import ItemLayout.Proofs.Comment.Trivia
import ItemLayout.Proofs.Header.Assembly
import ItemLayout.Proofs.Token.Lookup

/-!
# Comments in the headers of items

A keyword may be given by any run of tokens in which it stands, so the windows of two keywords may
overlap and may hold comments and other parts. The header still has each comment of the source once:
those that stand between its parts (`itemHeader_comments`).
-/

namespace ItemLayout

inductive Keyword where
  | auto
  | trait
  | const
  | async
  | fn

def Keyword.label : Keyword → String
  | auto => "auto"
  | trait => "trait"
  | const => "const"
  | async => "async"
  | fn => "fn"

def Keyword.text (word : Keyword) : Text := word.label.toList

inductive HeaderSlot where
  | visibility (visibility : Visibility)
  | safety (safety : Safety)
  | keyword (word : Keyword) (window : Span)
  | name (ident : Ident)

def TraitHeader.slots (header : TraitHeader) : List HeaderSlot :=
  .visibility header.visibility :: .safety header.safety ::
    (header.autoSpan.map (.keyword .auto)).toList ++
    [.keyword .trait header.traitSpan, .name header.ident]

def FnHeader.slots (header : FnHeader) : List HeaderSlot :=
  .visibility header.visibility :: (header.constSpan.map (.keyword .const)).toList ++
    (header.asyncSpan.map (.keyword .async)).toList ++
    [.safety header.safety, .keyword .fn header.fnSpan, .name header.ident]

namespace HeaderSlot

def part (doc : Document) : HeaderSlot → Except Breach HeaderPart
  | .visibility seen => HeaderPart.ofVisibility doc seen
  | .safety stated => return .ofSafety stated
  | .keyword word window => HeaderPart.ofKeyword doc word.text window
  | .name ident => HeaderPart.ofIdent doc ident

def isWritten : HeaderSlot → Bool
  | .visibility (.inherited _) | .safety .unstated => false
  | _ => true

/-- The tokens that are a slot's own, and the span that they cover. -/
inductive Owns (doc : Document) : HeaderSlot → List Token → Span → Prop
  | visibility {seen : Visibility} {part : HeaderPart} {run : List Token}
      (made : HeaderPart.ofVisibility doc seen = .ok part) (plain : Plain part.text)
      (more : run ≠ []) (tiles : Tiles seen.span.start seen.span.stop run) :
      Owns doc (.visibility seen) run seen.span
  | safety {stated : Safety} {run : List Token} (more : run ≠ [])
      (tiles : Tiles (HeaderPart.ofSafety stated).span.start (HeaderPart.ofSafety stated).span.stop
        run) :
      Owns doc (.safety stated) run (HeaderPart.ofSafety stated).span
  | keyword {word : Keyword} {window : Span} {token : Token}
      (first : doc.FirstIn word.text window token) :
      Owns doc (.keyword word window) [token] token.span
  | name {ident : Ident} {token : Token} (kind : token.kind = .identifier)
      (covered : ident.span = token.span) :
      Owns doc (.name ident) [token] token.span

/-- Slots that stand one behind the other in a run of tokens, with trivia between them. -/
inductive Laid (doc : Document) : List HeaderSlot → List Token → List Span → Prop
  | last {slot : HeaderSlot} {run : List Token} {span : Span} (own : slot.Owns doc run span) :
      Laid doc [slot] run [span]
  | cons {slot : HeaderSlot} {slots : List HeaderSlot} {run between body : List Token} {span : Span}
      {spans : List Span} (own : slot.Owns doc run span)
      (trivia : ∀ token ∈ between, token.kind.isTrivia = true) (rest : Laid doc slots body spans) :
      Laid doc (slot :: slots) (run ++ between ++ body) (span :: spans)

end HeaderSlot

/-! ## The parts of the slots -/

theorem TraitHeader.parts_eq (doc : Document) (header : TraitHeader) :
    header.parts doc = header.slots.mapM (HeaderSlot.part doc) := by
  unfold parts slots
  cases header.autoSpan <;> simp [HeaderSlot.part, HeaderPart.ofKeyword?, Keyword.text, Keyword.label, ok_bind]

theorem FnHeader.parts_eq (doc : Document) (header : FnHeader) :
    header.parts doc = header.slots.mapM (HeaderSlot.part doc) := by
  unfold parts slots
  cases header.constSpan <;> cases header.asyncSpan <;>
    simp [HeaderSlot.part, HeaderPart.ofKeyword?, Keyword.text, Keyword.label, ok_bind]

theorem Keyword.scan_kind (word : Keyword) : (scan word.text).kind = .identifier := by
  cases word <;> rfl

theorem Document.restrictedText_closed {doc : Document} {path : Option Path} {text : Text}
    (found : doc.restrictedText path = .ok text) : ∃ front, text = front ++ [')'] := by
  cases path with
  | none => cases found
  | some path =>
      obtain ⟨segments, -, rest⟩ := bind_eq_ok_iff.mp found
      obtain ⟨names, -, done⟩ := bind_eq_ok_iff.mp rest
      exact ⟨_, (Except.ok.inj done).symm⟩

theorem HeaderPart.ofVisibility_spec {doc : Document} {seen : Visibility} {part : HeaderPart}
    (made : ofVisibility doc seen = .ok part) :
    part.span = seen.span ∧ EndsInk part.text ∧
      (part.text = [] ↔ HeaderSlot.isWritten (.visibility seen) = false) := by
  cases seen with
  | exported span =>
      cases made
      exact ⟨rfl, by simp [EndsInk, isBlank], by simp [HeaderSlot.isWritten]⟩
  | inherited span =>
      cases made
      exact ⟨rfl, by simp [EndsInk], by simp [HeaderSlot.isWritten]⟩
  | restricted path span =>
      obtain ⟨text, found, done⟩ := bind_eq_ok_iff.mp made
      cases done
      obtain ⟨front, rfl⟩ := Document.restrictedText_closed found
      have ends : EndsInk [')'] := by simp [EndsInk, isBlank]
      exact ⟨rfl, ends.append (by simp), by simp [HeaderSlot.isWritten]⟩

namespace HeaderSlot

variable {doc : Document} {slot : HeaderSlot} {run : List Token} {span : Span}

theorem Owns.tiles (own : slot.Owns doc run span) (mem : ∀ token ∈ run, token ∈ doc.tokens) :
    run ≠ [] ∧ Tiles span.start span.stop run := by
  cases own with
  | visibility _ _ more tiles => exact ⟨more, tiles⟩
  | safety more tiles => exact ⟨more, tiles⟩
  | keyword _ | name _ _ =>
      have bounds := doc.tiles_tokens.bounds (mem _ List.mem_cons_self)
      exact ⟨List.cons_ne_nil _ _, rfl, bounds.2.1, rfl⟩

theorem Owns.part (own : slot.Owns doc run span) (written : slot.isWritten = true)
    (mem : ∀ token ∈ run, token ∈ doc.tokens) :
    ∃ part, slot.part doc = .ok part ∧ part.span = span ∧
      part.text ≠ [] ∧ EndsInk part.text ∧ Plain part.text := by
  cases own with
  | visibility made plain _ _ =>
      obtain ⟨place, ends, shown⟩ := HeaderPart.ofVisibility_spec made
      refine ⟨_, made, place, fun none => ?_, ends, plain⟩
      rw [shown.mp none] at written
      cases written
  | @safety stated _ _ _ =>
      refine ⟨_, rfl, rfl, ?_⟩
      cases stated with
      | hazard =>
          show "unsafe".toList ≠ [] ∧ EndsInk "unsafe".toList ∧ Plain "unsafe".toList
          simp [EndsInk, isBlank, Plain]
      | safe =>
          show "safe".toList ≠ [] ∧ EndsInk "safe".toList ∧ Plain "safe".toList
          simp [EndsInk, isBlank, Plain]
      | unstated => cases written
  | @keyword word window token first =>
      have here := mem token List.mem_cons_self
      have length := length_of_mem_tokensIn here
      have tidy := tidy_of_identifier here first.kind
      rw [first.text] at length tidy
      refine ⟨⟨word.text, token.span⟩, ?_, rfl, tidy⟩
      have span : Span.ofLength token.span.start word.text.length = token.span := by
        simp only [Span.ofLength, length]
      rw [HeaderSlot.part, HeaderPart.ofKeyword, Document.find_word word.scan_kind first, ok_bind, span]
      rfl
  | @name ident token kind covered =>
      have here := mem token List.mem_cons_self
      have bounds := doc.tiles_tokens.bounds here
      refine ⟨⟨token.text doc.source, token.span⟩, ?_, rfl, tidy_of_identifier here kind⟩
      have located : ident.span.isEmpty = false := by
        rw [covered, Span.isEmpty, beq_eq_false_iff_ne]
        exact Nat.ne_of_lt bounds.2.1
      have text : doc.identText ident = .ok (token.text doc.source) := by
        rw [Document.identText, located, covered, text_of_mem_tokensIn here]
        exact if_pos bounds.2.2
      rw [HeaderSlot.part, HeaderPart.ofIdent, text, ok_bind, covered]
      rfl

/-! ## Slots in order -/

theorem Laid.parts {slots : List HeaderSlot} {body : List Token} {spans : List Span}
    (laid : Laid doc slots body spans) (written : ∀ slot ∈ slots, slot.isWritten = true)
    (mem : ∀ token ∈ body, token ∈ doc.tokens) :
    ∃ parts, slots.mapM (HeaderSlot.part doc) = .ok parts ∧ parts.map (·.span) = spans ∧
      ∀ part ∈ parts, part.text ≠ [] ∧ EndsInk part.text ∧ Plain part.text := by
  induction laid with
  | last own =>
      obtain ⟨part, made, place, tidy⟩ := own.part (written _ List.mem_cons_self) mem
      refine ⟨[part], ?_, by rw [← place]; rfl, List.forall_mem_singleton.mpr tidy⟩
      rw [List.mapM_cons, made]
      rfl
  | cons own _ _ ih =>
      obtain ⟨first, written⟩ := List.forall_mem_cons.mp written
      obtain ⟨mem, behind⟩ := List.forall_mem_append.mp mem
      obtain ⟨part, made, place, tidy⟩ := own.part first (List.forall_mem_append.mp mem).1
      obtain ⟨parts, rest, places, tidies⟩ := ih written behind
      refine ⟨part :: parts, ?_, ?_, List.forall_mem_cons.mpr ⟨tidy, tidies⟩⟩
      · rw [List.mapM_cons, made, ok_bind, rest]
        rfl
      · rw [List.map_cons, place, places]

theorem part_of_not_written (absent : slot.isWritten = false) :
    ∃ part, slot.part doc = .ok part ∧ part.text = [] := by
  cases slot with
  | visibility seen =>
      cases seen with
      | inherited span => exact ⟨_, rfl, rfl⟩
      | exported | restricted => cases absent
  | safety stated =>
      cases stated with
      | unstated => exact ⟨_, rfl, rfl⟩
      | hazard | safe => cases absent
  | keyword | name => cases absent

theorem mapM_part_of_filter {slots : List HeaderSlot} {shown : List HeaderPart}
    (made : (slots.filter isWritten).mapM (HeaderSlot.part doc) = .ok shown)
    (visible : ∀ part ∈ shown, part.text ≠ []) :
    ∃ parts, slots.mapM (HeaderSlot.part doc) = .ok parts ∧
      parts.filter (·.text ≠ []) = shown := by
  induction slots generalizing shown with
  | nil =>
      cases made
      exact ⟨[], rfl, rfl⟩
  | cons slot slots ih =>
      cases written : slot.isWritten with
      | true =>
          rw [List.filter_cons_of_pos written, List.mapM_cons] at made
          obtain ⟨part, first, made⟩ := bind_eq_ok_iff.mp made
          obtain ⟨others, rest, made⟩ := bind_eq_ok_iff.mp made
          cases made
          obtain ⟨here, visible⟩ := List.forall_mem_cons.mp visible
          obtain ⟨parts, all, filtered⟩ := ih rest visible
          refine ⟨part :: parts, ?_, ?_⟩
          · rw [List.mapM_cons, first, ok_bind, all]
            rfl
          · rw [List.filter_cons_of_pos (by simpa using here), filtered]
      | false =>
          rw [List.filter_cons_of_neg (by simp [written])] at made
          obtain ⟨parts, all, filtered⟩ := ih made visible
          obtain ⟨part, none, nothing⟩ := part_of_not_written written
          refine ⟨part :: parts, ?_, ?_⟩
          · rw [List.mapM_cons, none, ok_bind, all]
            rfl
          · rw [List.filter_cons_of_neg (by simp [nothing]), filtered]

end HeaderSlot

/-! ## The comments between two parts -/

theorem Gap.column_of_mem_comments {source : Text} {span : Span} {gap : Gap}
    (found : read source span = .ok gap) {comment : GapComment} (mem : comment ∈ gap.comments) :
    comment.column = source.column comment.span.start := by
  obtain ⟨items, trivia⟩ := trivia_of_read found
  obtain rfl := Except.ok.inj (found.symm.trans (read_of_trivia trivia))
  change comment ∈ Trivium.comments source span.start [] items at mem
  generalize ([] : List Trivium) = before at mem
  clear trivia found
  induction items generalizing before with
  | nil => cases mem
  | cons item items ih =>
      rw [Trivium.comments, List.mem_append] at mem
      rcases mem with mem | mem
      · split at mem
        · obtain rfl := List.mem_singleton.mp mem
          rfl
        · cases mem
      · exact ih _ mem

theorem Comment.reindent_trimRight (margin : Text) (column : Option Int) (comment : Text) :
    reindent margin column comment.trimRight = reindent margin column comment := by
  unfold reindent
  rw [Text.trim_trimRight]

namespace Document

variable (doc : Document)

def commentAt (indent : Indent) (token : Token) : TokenKind × Text :=
  (token.kind, Comment.reindent (indent.render doc.style) (some (doc.source.column token.span.start))
    (token.text doc.source))

variable {doc} {before between after : List Token}

theorem read_of_fills {span : Span} {tokens : List Token}
    (same : (tokensIn doc.source span).map Token.alone = tokens.map Token.alone)
    (fills : ∀ token ∈ tokens, token.fillsGap) (indent : Indent) :
    ∃ gap, Gap.read doc.source span = .ok gap ∧
      gap.comments.map (fun comment => (comment.kind, comment.render doc.style indent)) =
        (tokens.filter (·.kind.isComment)).map (doc.commentAt indent) := by
  obtain ⟨gap, found⟩ : ∃ gap, Gap.read doc.source span = .ok gap := by
    refine (Gap.ofTokens_isOk_iff doc.source span false _).mpr fun token mem => ?_
    have mem := List.mem_map_of_mem (f := Token.alone) mem
    rw [same] at mem
    obtain ⟨token', mem, alone⟩ := List.mem_map.mp mem
    have here : token'.alone.fillsGap := fills token' mem
    rwa [alone] at here
  refine ⟨gap, found, ?_⟩
  have located := congrArg (List.map fun entry : Span × TokenKind × Text =>
    (entry.2.1, Comment.reindent (indent.render doc.style)
      (some (doc.source.column entry.1.start)) entry.2.2)) (Gap.read_comments_of_tokens same found)
  rw [List.map_map, List.map_map] at located
  refine (List.map_congr_left fun comment mem => ?_).trans
    (located.trans (List.map_congr_left fun token here => ?_))
  · rw [GapComment.render, Gap.column_of_mem_comments found mem]
    rfl
  · have among := List.mem_map_of_mem (f := Token.alone) (List.mem_filter.mp here).1
    rw [← same] at among
    obtain ⟨token', mem, alone⟩ := List.mem_map.mp among
    have kind : token.kind ≠ .endOfText := (Token.mk.inj alone).1 ▸ kind_of_mem_tokensIn mem
    rw [commentAt, Token.text, if_neg kind, Function.comp_apply, Comment.reindent_trimRight]

theorem read_between {span : Span} (split : doc.tokens = before ++ between ++ after) (more : after ≠ [])
    (tiles : Tiles span.start span.stop between)
    (trivia : ∀ token ∈ between, token.kind.isTrivia = true) (indent : Indent) :
    ∃ gap, Gap.read doc.source span = .ok gap ∧
      gap.comments.map (fun comment => (comment.kind, comment.render doc.style indent)) =
        (between.filter (·.kind.isComment)).map (doc.commentAt indent) := by
  have fills : ∀ token ∈ between, token.fillsGap := by
    intro token mem
    refine ⟨trivia token mem, fun _ => ?_⟩
    obtain ⟨left, right, rfl⟩ := List.append_of_mem mem
    have here : doc.tokens = before ++ left ++ token :: (right ++ after) := by simpa using split
    exact closed_of_split here (by simp [more])
  exact read_of_fills (tokensIn_run split tiles) fills indent

theorem commentsBetween_of_trivia {previous part : HeaderPart}
    (split : doc.tokens = before ++ between ++ after) (more : after ≠ [])
    (tiles : Tiles previous.span.stop part.span.start between)
    (trivia : ∀ token ∈ between, token.kind.isTrivia = true)
    (here : previous.span.isEmpty = false) (there : part.span.isEmpty = false) (indent : Indent) :
    (doc.commentsBetween previous part).map
        (fun comment => (comment.kind, comment.render doc.style indent)) =
      (between.filter (·.kind.isComment)).map (doc.commentAt indent) := by
  have order := tiles.start_le_stop
  obtain ⟨start, stop⟩ := Span.gapTo_bounds order
  rw [← start, ← stop] at tiles
  obtain ⟨gap, found, comments⟩ := read_between split more tiles trivia indent
  rw [commentsBetween, if_pos ⟨here, there, if_pos order⟩, found, comments]

end Document

/-! ## The comments of a header -/

namespace Tiles

variable {start stop start' stop' : Nat} {tokens : List Token}

theorem stop_unique (first : Tiles start stop tokens) (second : Tiles start stop' tokens) :
    stop = stop' := by
  induction tokens generalizing start with
  | nil => exact first.symm.trans second
  | cons token tokens ih => exact ih first.2.2 second.2.2

theorem unique (more : tokens ≠ []) (first : Tiles start stop tokens)
    (second : Tiles start' stop' tokens) : start = start' ∧ stop = stop' := by
  obtain ⟨token, rest, rfl⟩ := List.exists_cons_of_ne_nil more
  exact ⟨first.1.symm.trans second.1, first.2.2.stop_unique second.2.2⟩

end Tiles

def Token.isOutside (spans : List Span) (token : Token) : Bool :=
  !spans.any (·.contains token.span)

namespace Token

variable {token : Token} {span : Span} {spans : List Span}

theorem isOutside_of_inside (inside : span.contains token.span = true) :
    token.isOutside (span :: spans) = false := by
  simp [isOutside, inside]

theorem isOutside_of_before (size : token.span.start < token.span.stop)
    (ahead : ∀ span ∈ spans, token.span.stop ≤ span.start) : token.isOutside spans = true := by
  have none : ∀ span ∈ spans, ¬span.contains token.span = true := by
    intro span mem
    have order := ahead span mem
    simp only [Span.contains, Bool.and_eq_true, decide_eq_true_eq]
    omega
  rw [isOutside, List.any_eq_false.mpr none]
  rfl

theorem isOutside_cons_of_behind (size : token.span.start < token.span.stop)
    (behind : span.stop ≤ token.span.start) :
    token.isOutside (span :: spans) = token.isOutside spans := by
  have apart : span.contains token.span = false := by
    simp only [Span.contains, Bool.and_eq_false_iff, decide_eq_false_iff_not]
    omega
  simp [isOutside, apart]

end Token

namespace HeaderSlot

variable {doc : Document} {start stop : Nat} {slots : List HeaderSlot}
  {before body after : List Token} {spans : List Span}

theorem Owns.bounds {slot : HeaderSlot} {run : List Token} {span : Span}
    (own : slot.Owns doc run span) (mem : ∀ token ∈ run, token ∈ doc.tokens)
    (tiles : Tiles start stop run) :
    span.start = start ∧ span.stop = stop ∧ span.isEmpty = false := by
  obtain ⟨more, covered⟩ := own.tiles mem
  obtain ⟨first, last⟩ := covered.unique more tiles
  have size := List.length_pos_iff.mpr more
  have length := covered.length_le
  refine ⟨first, last, beq_eq_false_iff_ne.mpr ?_⟩
  omega

theorem Laid.bounds (laid : Laid doc slots body spans) (mem : ∀ token ∈ body, token ∈ doc.tokens)
    (tiles : Tiles start stop body) :
    (∀ span ∈ spans, start ≤ span.start) ∧
      ∃ first rest, spans = first :: rest ∧ first.start = start ∧ first.isEmpty = false := by
  induction laid generalizing start with
  | last own =>
      obtain ⟨first, -, visible⟩ := own.bounds mem tiles
      exact ⟨List.forall_mem_singleton.mpr (Nat.le_of_eq first.symm), _, [], rfl, first, visible⟩
  | cons own _ _ ih =>
      obtain ⟨mem, behind⟩ := List.forall_mem_append.mp mem
      obtain ⟨late, tiles, rest⟩ := Tiles.append.mp tiles
      obtain ⟨middle, early, between⟩ := Tiles.append.mp tiles
      obtain ⟨first, -, visible⟩ := own.bounds (List.forall_mem_append.mp mem).1 early
      refine ⟨List.forall_mem_cons.mpr ⟨Nat.le_of_eq first.symm, fun span here => ?_⟩, _, _, rfl,
        first, visible⟩
      exact Nat.le_trans tiles.start_le_stop ((ih behind rest).1 span here)

theorem Laid.spans_ne_nil (laid : Laid doc slots body spans) : spans ≠ [] := by
  cases laid <;> exact List.cons_ne_nil _ _

theorem Laid.ne_nil (laid : Laid doc slots body spans) (mem : ∀ token ∈ body, token ∈ doc.tokens) :
    body ≠ [] := by
  cases laid with
  | last own => exact (own.tiles mem).1
  | cons own _ _ =>
      have front := (List.forall_mem_append.mp (List.forall_mem_append.mp mem).1).1
      simp [(own.tiles front).1]

theorem filter_inside {run : List Token} {span : Span} (spans : List Span)
    (tiles : Tiles span.start span.stop run) :
    (run.filter fun token => token.kind.isComment && token.isOutside (span :: spans)) = [] := by
  refine List.filter_eq_nil_iff.mpr fun token mem => ?_
  have bounds := tiles.bounds mem
  have inside : span.contains token.span = true := by
    simp only [Span.contains, Bool.and_eq_true, decide_eq_true_eq]
    omega
  simp [Token.isOutside_of_inside inside]

theorem filter_between {between : List Token} {span : Span}
    (tiles : Tiles span.stop stop between) (ahead : ∀ span ∈ spans, stop ≤ span.start) :
    (between.filter fun token => token.kind.isComment && token.isOutside (span :: spans)) =
      between.filter (·.kind.isComment) := by
  refine List.filter_congr fun token mem => ?_
  obtain ⟨behind, size, before⟩ := tiles.bounds mem
  rw [Token.isOutside_cons_of_behind size behind,
    Token.isOutside_of_before size fun span here => Nat.le_trans before (ahead span here),
    Bool.and_true]

theorem filter_behind {span : Span} (spans : List Span)
    (tiles : Tiles start stop body) (behind : span.stop ≤ start) :
    (body.filter fun token => token.kind.isComment && token.isOutside (span :: spans)) =
      body.filter fun token => token.kind.isComment && token.isOutside spans := by
  refine List.filter_congr fun token mem => ?_
  obtain ⟨after, size, -⟩ := tiles.bounds mem
  rw [Token.isOutside_cons_of_behind size (Nat.le_trans behind after)]

theorem Laid.comments (laid : Laid doc slots body spans) (split : doc.tokens = before ++ body ++ after)
    {parts : List HeaderPart} (places : parts.map (·.span) = spans) (indent : Indent) :
    (doc.headerComments parts).map
        (fun comment => (comment.kind, comment.render doc.style indent)) =
      (body.filter fun token => token.kind.isComment && token.isOutside spans).map
        (doc.commentAt indent) := by
  induction laid generalizing before parts with
  | last own =>
      obtain ⟨part, rfl, -⟩ := List.map_eq_singleton_iff.mp places
      rw [filter_inside [] (own.tiles (Document.mem_of_split split)).2]
      rfl
  | @cons slot slots run between body span spans own trivia rest ih =>
      obtain ⟨front, behind⟩ := List.forall_mem_append.mp (Document.mem_of_split split)
      obtain ⟨here, -⟩ := List.forall_mem_append.mp front
      -- The tokens follow each other without holes, so the gap between two own spans is exactly the
      -- trivia between them.
      have whole := doc.tiles_tokens
      rw [split] at whole
      obtain ⟨stop, tiles, -⟩ := Tiles.append.mp whole
      obtain ⟨start, -, tiles⟩ := Tiles.append.mp tiles
      obtain ⟨late, tiles, last⟩ := Tiles.append.mp tiles
      obtain ⟨middle, early, gap⟩ := Tiles.append.mp tiles
      obtain ⟨-, rfl, visible⟩ := own.bounds here early
      obtain ⟨ahead, first, others, rfl, rfl, next⟩ := rest.bounds behind last
      obtain ⟨part, later, rfl, rfl, located⟩ := List.map_eq_cons_iff.mp places
      obtain ⟨part', final, rfl, rfl, -⟩ := List.map_eq_cons_iff.mp located
      have around : doc.tokens = before ++ run ++ between ++ (body ++ after) := by simpa using split
      have onwards : doc.tokens = before ++ run ++ between ++ body ++ after := by simpa using split
      rw [Document.headerComments, List.map_append, ih onwards located,
        Document.commentsBetween_of_trivia around (by simp [rest.ne_nil behind]) gap trivia visible
          next indent,
        List.filter_append, List.filter_append, filter_inside _ (own.tiles here).2,
        filter_between gap ahead, filter_behind _ last gap.start_le_stop, List.nil_append,
        List.map_append]

end HeaderSlot

namespace Document

variable (doc : Document) (frame : Frame)

structure Keeps (body : List Token) (spans : List Span) (parts : List HeaderPart) (out : Text) :
    Prop where
  closed : LeavesNothingOpen out
  comments : commentsOf out =
    (body.filter fun token => token.kind.isComment && token.isOutside spans).map
      (doc.commentAt frame.indent)
  code : codeOf out = parts.flatMap fun part => codeOf part.text

variable {doc}

theorem flatMap_codeOf_filter (parts : List HeaderPart) :
    ((parts.filter (·.text ≠ [])).flatMap fun part => codeOf part.text) =
      parts.flatMap fun part => codeOf part.text := by
  induction parts with
  | nil => rfl
  | cons part parts ih =>
      by_cases none : part.text = []
      · have nothing : codeOf part.text = [] := by rw [none, codeOf_eq, pieces_nil]; rfl
        rw [List.filter_cons_of_neg (by simp [none]), ih, List.flatMap_cons, nothing, List.nil_append]
      · rw [List.filter_cons_of_pos (by simpa using none), List.flatMap_cons, List.flatMap_cons, ih]

theorem header_keeps {slots : List HeaderSlot} {before body after : List Token} {spans : List Span}
    (split : doc.tokens = before ++ body ++ after)
    (laid : HeaderSlot.Laid doc (slots.filter HeaderSlot.isWritten) body spans) :
    ∃ parts, slots.mapM (HeaderSlot.part doc) = .ok parts ∧
      doc.Keeps frame body spans parts (doc.header frame parts) := by
  obtain ⟨shown, made, places, tidy⟩ :=
    laid.parts (fun slot mem => (List.mem_filter.mp mem).2) (mem_of_split split)
  obtain ⟨parts, all, filtered⟩ :=
    HeaderSlot.mapM_part_of_filter made fun part mem => (tidy part mem).1
  obtain ⟨first, rest, rfl⟩ : ∃ first rest, shown = first :: rest := by
    refine List.exists_cons_of_ne_nil fun none => laid.spans_ne_nil ?_
    rw [← places, none, List.map_nil]
  obtain ⟨⟨more, ink, plain⟩, tidy⟩ := List.forall_mem_cons.mp tidy
  have plains : ∀ part ∈ rest, Plain part.text := fun part mem => (tidy part mem).2.2
  have closed : ∀ piece ∈ solid first.text ++ doc.headerPieces frame.indent first rest,
      piece.unterminated = false :=
    List.forall_mem_append.mpr
      ⟨fun piece mem => (pieces_plain plain (List.mem_filter.mp mem).1).2,
        doc.headerPieces_unterminated frame.indent first plains⟩
  obtain ⟨nothing, comments, code⟩ :=
    (doc.headerFrom_reads frame.unlimited first plain.reads ink more tidy).views closed
  have out : doc.header frame parts = doc.headerFrom frame.unlimited first.text first rest := by
    rw [header, filtered]
  refine ⟨parts, all, ?_⟩
  rw [out]
  refine ⟨nothing, ?_, ?_⟩
  · rw [comments, List.filter_append, plain.filter_comment_solid, List.nil_append,
      doc.filter_comment_headerPieces _ first plains, List.map_map,
      ← laid.comments split places frame.indent]
    rfl
  · rw [code, List.filter_append, List.map_append, ← codeOf_eq_solid, ← flatMap_codeOf_filter, filtered,
      List.flatMap_cons]
    exact congrArg _ (doc.filter_code_headerPieces frame.indent first rest)

end Document

theorem itemHeader_comments (doc : Document) (frame : Frame) (before body after : List Token)
    (spans : List Span) (split : doc.tokens = before ++ body ++ after) :
    (∀ header : FnHeader,
        HeaderSlot.Laid doc (header.slots.filter HeaderSlot.isWritten) body spans →
        ∃ parts out, header.parts doc = .ok parts ∧ doc.fnHeader frame header = .ok out ∧
          doc.Keeps frame body spans parts out) ∧
      ∀ header : TraitHeader,
        HeaderSlot.Laid doc (header.slots.filter HeaderSlot.isWritten) body spans →
        ∃ parts out, header.parts doc = .ok parts ∧ doc.traitHeader frame header = .ok out ∧
          doc.Keeps frame body spans parts out := by
  constructor
  · intro header laid
    obtain ⟨parts, made, keeps⟩ := Document.header_keeps frame split laid
    rw [← header.parts_eq] at made
    exact ⟨parts, _, made, by rw [Document.fnHeader, made]; rfl, keeps⟩
  · intro header laid
    obtain ⟨parts, made, keeps⟩ := Document.header_keeps frame split laid
    rw [← header.parts_eq] at made
    exact ⟨parts, _, made, by rw [Document.traitHeader, made]; rfl, keeps⟩

theorem itemHeader_comments_wide_windows :
    let doc : Document := { source := "pub /*a*/ async // b\nfn f".toList }
    let header : FnHeader :=
      { visibility := .exported (.ofLength 0 3), safety := .unstated
        ident := { name := "f".toList, span := .ofLength 24 1 }
        fnSpan := .ofLength 4 21, asyncSpan := some (.ofLength 0 25) }
    let spans : List Span := [.ofLength 0 3, .ofLength 10 5, .ofLength 21 2, .ofLength 24 1]
    HeaderSlot.Laid doc (header.slots.filter HeaderSlot.isWritten) doc.tokens spans ∧
      ∃ parts out, header.parts doc = .ok parts ∧ doc.fnHeader { width := 20 } header = .ok out ∧
        LeavesNothingOpen out ∧
        commentsOf out = [(.blockComment, "/*a*/".toList), (.lineComment, "// b".toList)] ∧
        codeOf out = parts.flatMap fun part => codeOf part.text := by
  intro doc header spans
  let space (start : Nat) : Token := { kind := .spacing, span := .ofLength start 1 }
  let pub : Token := { kind := .identifier, span := .ofLength 0 3 }
  let block : Token := { kind := .blockComment, span := .ofLength 4 5 }
  let async : Token := { kind := .identifier, span := .ofLength 10 5 }
  let line : Token := { kind := .lineComment, span := .ofLength 16 4 }
  let feed : Token := { kind := .lineBreak, span := .ofLength 20 1, afterBreak := true }
  let fn : Token := { kind := .identifier, span := .ofLength 21 2, afterBreak := true }
  let name : Token := { kind := .identifier, span := .ofLength 24 1 }
  have tokens : doc.tokens = [pub] ++ [space 3, block, space 9] ++ ([async] ++
      [space 15, line, feed] ++ ([fn] ++ [space 23] ++ [name])) := by decide +kernel
  have asyncFirst : doc.FirstIn Keyword.async.text (.ofLength 0 25) async :=
    ⟨rfl, by decide +kernel, [], [pub, space 3, block, space 9],
      [space 15, line, feed, fn, space 23, name], [], tokens, by decide +kernel, by decide +kernel⟩
  have fnFirst : doc.FirstIn Keyword.fn.text (.ofLength 4 21) fn :=
    ⟨rfl, by decide +kernel, [pub, space 3], [block, space 9, async, space 15, line, feed],
      [space 23, name], [], tokens, by decide +kernel, by decide +kernel⟩
  have laid : HeaderSlot.Laid doc (header.slots.filter HeaderSlot.isWritten) doc.tokens spans := by
    rw [tokens]
    exact .cons (.visibility rfl (by decide +kernel) (by decide +kernel) (by decide +kernel))
      (by decide +kernel)
      (.cons (.keyword asyncFirst) (by decide +kernel)
        (.cons (.keyword fnFirst) (by decide +kernel) (.last (.name rfl rfl))))
  obtain ⟨parts, out, made, written, keeps⟩ :=
    (itemHeader_comments doc { width := 20 } [] doc.tokens [] spans (by simp)).1 header laid
  exact ⟨laid, parts, out, made, written, keeps.closed,
    keeps.comments.trans (by decide +kernel), keeps.code⟩

end ItemLayout
