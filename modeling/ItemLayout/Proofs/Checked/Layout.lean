import ItemLayout.Frame.Signed
import ItemLayout.Proofs.Import.Items

/-!
# Layouts with every check made

A layout is made here once more, with each check that may refuse it: a frame is built from signed
numbers at every step, an indentation is divided by the tab step, the text of a comment is looked up
in the source, and a gap that cannot be read is a failure until someone recovers from it. Where one
and the same indentation is written several times it is checked at least once. In a valid style
nothing is ever refused, and the result is that of the layout without checks. Spans and tokens bring
the order of their ends along, so that there is nothing to check about them.
-/

namespace ItemLayout

inductive Failure where
  | frame (fault : Frame.Fault)
  | gap (fault : Gap.Fault)
  | breach (breach : Breach)
  | zeroDivision
  deriving DecidableEq, Repr

instance : MonadLift (Except Frame.Fault) (Except Failure) := ⟨Except.mapError .frame⟩

instance : MonadLift (Except Breach) (Except Failure) := ⟨Except.mapError .breach⟩

namespace Checked

theorem lift_ok {α : Type} (value : α) :
    (liftM (Except.ok value : Except Frame.Fault α) : Except Failure α) = .ok value :=
  rfl

/-! ## Indentations and frames -/

def margin (style : Style) (indent : Indent) : Except Failure Text :=
  if style.hardTabs then
    if style.tabSpaces = 0 then .error .zeroDivision
    else
      .ok (List.replicate (Int.fdiv indent.block style.tabSpaces).toNat '\t' ++
        List.replicate (Int.fmod indent.block style.tabSpaces + indent.align).toNat ' ')
  else .ok (List.replicate indent.width ' ')

def unlimited (frame : Frame) : Except Frame.Fault Frame :=
  Frame.ofInts Frame.unbounded frame.indent frame.offset

def widened (style : Style) (frame : Frame) : Except Frame.Fault Frame :=
  Frame.ofInts (max (style.maxWidth - frame.indent.width) 0) frame.indent frame.offset

def narrowed? (frame : Frame) (columns : Int) : Except Frame.Fault (Option Frame) :=
  if frame.isUnbounded then .ok (some frame)
  else if frame.width < columns then .ok none
  else some <$> Frame.ofInts (frame.width - columns) frame.indent frame.offset

def shrunk (frame : Frame) (columns : Int) : Except Frame.Fault Frame := do
  match ← narrowed? frame columns with
  | some narrow => return narrow
  | none => Frame.ofInts 0 frame.indent frame.offset

def between (frame : Frame) (used : Int) : Except Frame.Fault Frame := do
  let moved ← frame.shiftedBy used
  match ← narrowed? moved used with
  | none => Frame.ofInts 0 frame.indent (frame.offset + used)
  | some behind =>
      match ← narrowed? behind 1 with
      | none => Frame.ofInts 0 frame.indent (frame.offset + used)
      | some narrow => return narrow

theorem margin_eq {style : Style} (valid : style.Valid) (indent : Indent) :
    margin style indent = .ok (indent.render style) := by
  obtain ⟨-, positive⟩ := valid
  obtain ⟨step, tabs⟩ := Int.eq_ofNat_of_zero_le (Int.le_of_lt positive)
  have step_eq : style.tabStep = step := by
    rw [Style.tabStep, tabs]
    rfl
  unfold margin Indent.render
  rw [if_neg (Int.ne_of_gt positive), tabs, step_eq, ← Int.ofNat_fdiv, ← Int.ofNat_fmod]
  split <;> rfl

theorem ofInts_eq (width : Nat) (indent : Indent) (offset : Nat) :
    Frame.ofInts width indent offset = .ok ⟨width, indent, offset⟩ := by
  unfold Frame.ofInts
  rw [if_neg (by omega)]
  rfl

theorem unlimited_eq (frame : Frame) : unlimited frame = .ok frame.unlimited :=
  ofInts_eq Frame.unbounded frame.indent frame.offset

theorem shiftedBy_eq (frame : Frame) (extra : Nat) :
    frame.shiftedBy extra = .ok (frame.shifted extra) :=
  ofInts_eq frame.width frame.indent (frame.offset + extra)

theorem indent_ofInts_eq (block align : Nat) : Indent.ofInts block align = .ok ⟨block, align⟩ := by
  unfold Indent.ofInts
  rw [if_neg (by omega)]
  rfl

theorem alignedBy_eq (frame : Frame) (extra : Nat) :
    frame.alignedBy extra = .ok (frame.aligned extra) := by
  unfold Frame.alignedBy
  simp only [← Int.natCast_add, indent_ofInts_eq]
  exact ofInts_eq _ _ _

theorem stepInBy_eq (frame : Frame) (extra : Nat) :
    frame.stepInBy extra = .ok (frame.stepIn extra) := by
  unfold Frame.stepInBy Frame.stepIn Indent.plus
  simp only [← Int.natCast_add, indent_ofInts_eq]
  split
  · exact congrArg (Bind.bind · _) (indent_ofInts_eq _ 0) |>.trans (ofInts_eq _ _ 0)
  · exact ofInts_eq _ _ _

theorem widened_eq (style : Style) (frame : Frame) :
    widened style frame = .ok (frame.widened style) := by
  have room : max (style.maxWidth - frame.indent.width) 0 =
      (Frame.roomBeside style frame.indent : Int) := by
    unfold Frame.roomBeside
    omega
  unfold widened
  rw [room]
  exact ofInts_eq _ _ _

theorem narrowed?_eq (frame : Frame) (columns : Nat) :
    narrowed? frame columns = .ok (some (frame.shrunk columns)) ∨
      narrowed? frame columns = .ok none ∧ frame.shrunk columns = { frame with width := 0 } := by
  unfold narrowed? Frame.shrunk
  by_cases unbounded : frame.isUnbounded = true
  · simp [unbounded]
  rw [if_neg unbounded, if_neg unbounded]
  by_cases wide : columns ≤ frame.width
  · have narrow : ¬ ((frame.width : Int) < columns) := by omega
    rw [if_neg narrow, ← Int.natCast_sub wide, ofInts_eq]
    exact .inl rfl
  · have narrow : (frame.width : Int) < columns := by omega
    rw [if_pos narrow, Nat.sub_eq_zero_of_le (by omega)]
    exact .inr ⟨rfl, rfl⟩

theorem shrunk_eq (frame : Frame) (columns : Nat) :
    shrunk frame columns = .ok (frame.shrunk columns) := by
  unfold shrunk
  obtain some | ⟨none, empty⟩ := narrowed?_eq frame columns
  · rw [some]
    rfl
  · rw [none, empty]
    exact ofInts_eq 0 frame.indent frame.offset

theorem between_eq (frame : Frame) (used : Nat) :
    between frame used = .ok ((frame.behind used).shrunk 1) := by
  have none : Frame.ofInts 0 frame.indent (frame.offset + used : Int) =
      .ok { frame.shifted used with width := 0 } := ofInts_eq 0 frame.indent (frame.offset + used)
  unfold between Frame.behind
  rw [shiftedBy_eq, ok_bind, none]
  obtain behind | ⟨full, empty⟩ := narrowed?_eq (frame.shifted used) used
  · rw [behind, ok_bind]
    obtain more | ⟨full, empty⟩ := narrowed?_eq ((frame.shifted used).shrunk used) 1
    · exact congrArg (Bind.bind · _) more
    · -- The last column is taken from a frame that has none left.
      rw [empty]
      refine (congrArg (Bind.bind · _) full).trans ?_
      unfold Frame.shrunk
      split <;> rfl
  · rw [full, empty]
    rfl

/-! ## Gaps and headers -/

def gapOf (doc : Document) (span : Span) (afterBreak : Bool) : List Token → Except Failure Gap
  | [] => .ok ⟨[], afterBreak⟩
  | token :: rest =>
      match token.kind with
      | .spacing => gapOf doc span afterBreak rest
      | .lineBreak => gapOf doc span true rest
      | .lineComment | .blockComment =>
          if token.unterminated then .error (.gap (.unterminated span))
          else do
            let text ← doc.textAt token.span
            let gap ← gapOf doc span false rest
            let comment : GapComment :=
              { text := text.trimRight
                span := token.span
                isLine := token.kind == .lineComment
                afterBreak
                column := doc.source.column token.span.start }
            return { gap with comments := comment :: gap.comments }
      | kind => .error (.gap (.unexpected kind span))

def join (doc : Document) (frame : Frame) (extend : Bool) (span : Span) (before after : Text) :
    Except Failure Text := do
  let _ ← margin doc.style frame.indent
  let gap ← gapOf doc span false (tokensIn doc.source span)
  return gap.join doc.style frame extend before after

/-- Only a gap that cannot be read is recovered from. -/
def headerJoin (doc : Document) (frame : Frame) (written : Text) (previous part : HeaderPart) :
    Except Failure Text :=
  match join doc frame true (previous.gap part) written part.text with
  | .error (.gap _) => .ok (written ++ ' ' :: part.text)
  | result => result

def headerFrom (doc : Document) (frame : Frame) (written : Text) (previous : HeaderPart) :
    List HeaderPart → Except Failure Text
  | [] => .ok written
  | part :: rest => do
      headerFrom doc frame (← headerJoin doc frame written previous part) part rest

def header (doc : Document) (frame : Frame) (parts : List HeaderPart) : Except Failure Text := do
  let frame ← unlimited frame
  match parts.filter (·.text ≠ []) with
  | [] => return []
  | part :: rest => headerFrom doc frame part.text part rest

theorem gapOf_eq (doc : Document) (span : Span) (afterBreak : Bool) {tokens : List Token}
    (inside : ∀ token ∈ tokens, token.span.stop ≤ doc.source.length) :
    gapOf doc span afterBreak tokens =
      (Gap.ofTokens doc.source span afterBreak tokens).mapError .gap := by
  induction tokens generalizing afterBreak with
  | nil => rfl
  | cons token rest ih =>
      obtain ⟨here, inside⟩ := List.forall_mem_cons.mp inside
      -- A window may reach beyond the source, but its tokens do not.
      have lookup : doc.textAt token.span = .ok (doc.source.slice token.span) := if_pos here
      unfold gapOf Gap.ofTokens
      cases token.kind
      case spacing => exact ih afterBreak inside
      case lineBreak => exact ih true inside
      case lineComment | blockComment =>
        by_cases closed : token.unterminated = true
        · simp only [closed, if_true]
          rfl
        · simp only [closed, lookup, ih false inside]
          cases Gap.ofTokens doc.source span false rest <;> rfl
      all_goals rfl

section

variable {doc : Document} (valid : doc.style.Valid) (frame : Frame)
include valid

theorem join_eq (extend : Bool) (span : Span) (before after : Text) :
    join doc frame extend span before after =
      (doc.join frame extend span before after).mapError .gap := by
  have inside : ∀ token ∈ tokensIn doc.source span, token.span.stop ≤ doc.source.length :=
    fun token mem => stop_of_mem_tokensIn mem
  unfold join Document.join Gap.read
  rw [margin_eq valid, ok_bind, gapOf_eq doc span false inside]
  cases Gap.ofTokens doc.source span false (tokensIn doc.source span) <;> rfl

theorem headerJoin_eq (written : Text) (previous part : HeaderPart) :
    headerJoin doc frame written previous part =
      .ok (doc.headerJoin frame written previous part) := by
  unfold headerJoin Document.headerJoin
  rw [join_eq valid]
  cases doc.join frame true (previous.gap part) written part.text <;> rfl

theorem headerFrom_eq (written : Text) (previous : HeaderPart) (parts : List HeaderPart) :
    headerFrom doc frame written previous parts =
      .ok (doc.headerFrom frame written previous parts) := by
  induction parts generalizing written previous with
  | nil => rfl
  | cons part rest ih =>
      rw [headerFrom, headerJoin_eq valid]
      exact ih _ part

theorem header_eq (parts : List HeaderPart) :
    header doc frame parts = .ok (doc.header frame parts) := by
  unfold header Document.header
  rw [unlimited_eq]
  cases parts.filter (·.text ≠ []) with
  | nil => rfl
  | cons part rest => exact headerFrom_eq valid frame.unlimited part.text part rest

end

/-! ## Lists -/

/-- One more entry. A comment is moved to the margin of the list, or, if it is a block comment on the
one line of the list, to that of a frame of its own. Both are checked for every entry. -/
def put (form : ListForm) (last : Bool) (writer : ListWriter) (entry : Entry) :
    Except Failure ListWriter := do
  let _ ← margin form.style form.frame.indent
  let line ← Frame.ofWidth form.frame.width {}
  let _ ← margin form.style line.indent
  return writer.put form last entry

def putAll (form : ListForm) (writer : ListWriter) : List Entry → Except Failure ListWriter
  | [] => .ok writer
  | entry :: rest => do putAll form (← put form rest.isEmpty writer entry) rest

def write (form : ListForm) (entries : List Entry) : Except Failure Text := do
  let _ ← margin form.style form.frame.indent
  let writer ← putAll form (.start form) (entries.filter Entry.isSubstantial)
  return writer.text

def inner (style : Style) (frame : Frame) (brackets : Brackets) :
    IndentStyle → Except Frame.Fault Frame
  | .block => do
      let stepped ← frame.stepInBy style.tabSpaces
      shrunk (← widened style stepped) 1
  | .visual => do
      let moved ← frame.shiftedBy brackets.opener.length
      let narrow ← shrunk moved (brackets.opener.length + brackets.closer.length)
      narrow.alignedBy 0

def form (style : Style) (frame : Frame) (settings : ListSettings) (brackets : Brackets)
    (nested : Bool) (arrangement : Arrangement) : Except Frame.Fault ListForm := do
  let frame' ← inner style frame brackets settings.indentStyle
  return { settings.form style frame brackets nested arrangement with frame := frame' }

def layoutList (doc : Document) (frame : Frame) (settings : ListSettings) (brackets : Brackets)
    (nested : Bool) (lineWidth : Option Int) (entries : List Entry) : Except Failure Text := do
  let lineWidth := lineWidth.getD (frame.inside brackets)
  let arrangement := Arrangement.choose settings.packing settings.separator lineWidth entries
  let form ← form doc.style frame settings brackets nested arrangement
  let body ← write form entries
  let _ ← margin doc.style frame.indent
  return if body = [] then brackets.opener ++ brackets.closer
    else if settings.indentStyle = .block ∧
        ('\n' ∈ body ∨ lineWidth < body.length ∨ arrangement = .vertical) then
      brackets.opener ++ form.newLine ++ body ++ frame.indent.newLine doc.style ++ brackets.closer
    else if brackets.closer ≠ [] ∧ entries.getLast?.any Entry.endsInLineComment then
      brackets.opener ++ body ++ frame.indent.newLine doc.style ++ brackets.closer
    else brackets.opener ++ body ++ brackets.closer

def importList (doc : Document) (frame : Frame) (entries : List Entry) : Except Failure Text :=
  let nested := entries.any fun entry => entry.text.contains '\x7b'
  let lineWidth : Int := if nested then 0 else max (frame.width - 2) 0
  layoutList doc frame doc.importSettings ⟨['\x7b'], ['\x7d']⟩ nested (some lineWidth) entries

theorem put_eq (form : ListForm) (valid : form.style.Valid) (last : Bool) (writer : ListWriter)
    (entry : Entry) : put form last writer entry = .ok (writer.put form last entry) := by
  have line : Frame.ofWidth form.frame.width {} = .ok ⟨form.frame.width, {}, 0⟩ :=
    ofInts_eq form.frame.width {} 0
  unfold put
  rw [margin_eq valid, ok_bind, line, lift_ok, ok_bind, margin_eq valid]
  rfl

theorem putAll_eq (form : ListForm) (valid : form.style.Valid) (writer : ListWriter)
    (entries : List Entry) : putAll form writer entries = .ok (writer.putAll form entries) := by
  induction entries generalizing writer with
  | nil => rfl
  | cons entry rest ih =>
      rw [putAll, put_eq form valid]
      exact ih _

theorem write_eq (form : ListForm) (valid : form.style.Valid) (entries : List Entry) :
    write form entries = .ok (form.write entries) := by
  unfold write
  rw [margin_eq valid, ok_bind, putAll_eq form valid]
  rfl

theorem inner_eq {style : Style} (valid : style.Valid) (frame : Frame) (settings : ListSettings)
    (brackets : Brackets) (nested : Bool) (arrangement : Arrangement) :
    inner style frame brackets settings.indentStyle =
      .ok (settings.form style frame brackets nested arrangement).frame := by
  have tabs : style.tabSpaces = (style.tabStep : Int) :=
    (Int.toNat_of_nonneg (Int.le_of_lt valid.2)).symm
  unfold ListSettings.form
  cases settings.indentStyle with
  | block =>
      rw [inner, tabs, stepInBy_eq, ok_bind, widened_eq]
      exact shrunk_eq _ 1
  | visual =>
      rw [inner, shiftedBy_eq, ok_bind, ← Int.natCast_add, shrunk_eq]
      exact alignedBy_eq _ 0

theorem form_eq {style : Style} (valid : style.Valid) (frame : Frame) (settings : ListSettings)
    (brackets : Brackets) (nested : Bool) (arrangement : Arrangement) :
    form style frame settings brackets nested arrangement =
      .ok (settings.form style frame brackets nested arrangement) := by
  unfold form
  rw [inner_eq valid frame settings brackets nested arrangement]
  rfl

section

variable {doc : Document} (valid : doc.style.Valid) (frame : Frame)
include valid

theorem layoutList_eq (settings : ListSettings) (brackets : Brackets) (nested : Bool)
    (lineWidth : Option Int) (entries : List Entry) :
    layoutList doc frame settings brackets nested lineWidth entries =
      .ok (doc.layoutList frame settings brackets nested lineWidth entries) := by
  have fair (arrangement : Arrangement) :
      (settings.form doc.style frame brackets nested arrangement).style.Valid :=
    ListSettings.form_style.symm ▸ valid
  unfold layoutList Document.layoutList
  dsimp only
  rw [form_eq valid, lift_ok, ok_bind, write_eq _ (fair _), ok_bind, margin_eq valid]
  rfl

theorem importList_eq (entries : List Entry) :
    importList doc frame entries = .ok (doc.importList frame entries) := by
  have room (nested : Bool) : (if nested then 0 else max ((frame.width : Int) - 2) 0) =
      ((if nested then 0 else frame.width - 2 : Nat) : Int) := by
    split <;> omega
  unfold importList Document.importList
  dsimp only
  rw [room]
  exact layoutList_eq valid frame _ _ _ _ entries

end

end Checked

end ItemLayout
