import ItemLayout.Proofs.ItemList.Ink
import ItemLayout.Proofs.ItemList.Substantial

namespace ItemLayout

instance : (t : Text) → Decidable (AtBreak t)
  | [] => isTrue nofun
  | c :: _ => decidable_of_iff (isBreak c = true) (by simp [AtBreak])

namespace Entry

variable {entry : Entry} {mark : Text}

def awaitsBreak (entry : Entry) : Bool := entry.text == [] && entry.before.any Text.isLineComment

/-- The comment of an entry without a text is followed on its line by a mark or a comment. -/
def RunsOn (mark : Text) (entry : Entry) : Prop :=
  entry.awaitsBreak = true ∧ ¬AtBreak (mark ++ if entry.after.isSome then [' '] else [])

instance (mark : Text) (entry : Entry) : Decidable (entry.RunsOn mark) :=
  inferInstanceAs (Decidable (_ ∧ _))

def leavesOpen (mark : Text) (entry : Entry) : Bool :=
  match entry.after with
  | some comment => comment.isLineComment
  | none => entry.awaitsBreak && mark == []

theorem hasLineComment_of_awaitsBreak (awaits : entry.awaitsBreak = true) :
    entry.hasLineComment = true := by
  obtain ⟨-, line⟩ := Bool.and_eq_true_iff.mp awaits
  obtain ⟨comment, before, line⟩ := (Option.any_eq_true _ _).mp line
  exact List.any_eq_true.mpr ⟨comment, by simp [comments, before], line⟩

theorem hasLineComment_of_leavesOpen (pending : entry.leavesOpen mark = true) :
    entry.hasLineComment = true := by
  unfold leavesOpen at pending
  cases after : entry.after with
  | none =>
      rw [after] at pending
      exact hasLineComment_of_awaitsBreak (Bool.and_eq_true_iff.mp pending).1
  | some comment =>
      rw [after] at pending
      exact List.any_eq_true.mpr ⟨comment, by simp [comments, after], pending⟩

theorem leavesOpen_eq_closesLine
    (apart : entry.awaitsBreak = false ∨ mark ≠ [] ∨ entry.after.isSome = true) :
    entry.leavesOpen mark = entry.closesLine := by
  unfold leavesOpen closesLine
  cases after : entry.after with
  | some comment => rfl
  | none =>
      rcases apart with apart | apart | apart
      · simp [apart]
      · simp [apart]
      · simp [after] at apart

theorem runsOn_congr {other : Text} (same : entry.hasLineComment = true → mark = other) :
    entry.RunsOn mark ↔ entry.RunsOn other :=
  and_congr_right fun awaits => by rw [same (hasLineComment_of_awaitsBreak awaits)]

theorem leavesOpen_congr {other : Text} (same : entry.hasLineComment = true → mark = other) :
    entry.leavesOpen mark = entry.leavesOpen other := by
  rw [Bool.eq_iff_iff]
  constructor
  · intro pending
    rwa [← same (hasLineComment_of_leavesOpen pending)]
  · intro pending
    rwa [same (hasLineComment_of_leavesOpen pending)]

theorem Legible.trim_ne_nil (legible : entry.Legible) {comment : Text}
    (mem : comment ∈ entry.comments) : comment.trim ≠ [] := by
  obtain ⟨kind, closed, -⟩ := (legible.comments comment mem).closed
  intro none
  rw [none] at closed
  cases closed

theorem Legible.shown (legible : entry.Legible) (substantial : entry.isSubstantial = true) :
    entry.text ≠ [] ∨ ∃ comment ∈ entry.comments, comment.trim ≠ [] := by
  rw [isSubstantial, Bool.or_eq_true, bne_iff_ne, List.any_eq_true] at substantial
  apply substantial.imp_right
  rintro ⟨comment, mem, -⟩
  exact ⟨comment, mem, legible.trim_ne_nil mem⟩

theorem Legible.movedComments_eq_nil (legible : entry.Legible) (none : entry.isSubstantial = false)
    (margin afterMargin : Text) : entry.movedComments margin afterMargin = [] := by
  have bare : entry.comments = [] := by
    refine List.eq_nil_iff_forall_not_mem.mpr fun comment mem => legible.trim_ne_nil mem ?_
    rw [(eq_nil_of_not_substantial none).2 comment mem]
    rfl
  obtain ⟨before, after⟩ := List.append_eq_nil_iff.mp bare
  simp [movedComments, moved, before, after]

theorem flatMap_movedComments_filter {entries : List Entry}
    (legible : ∀ entry ∈ entries, entry.Legible) (margin afterMargin : Text) :
    (entries.filter isSubstantial).flatMap (movedComments margin afterMargin) =
      entries.flatMap (movedComments margin afterMargin) := by
  induction entries with
  | nil => rfl
  | cons entry entries ih =>
      obtain ⟨first, legible⟩ := List.forall_mem_cons.mp legible
      cases shown : entry.isSubstantial with
      | true => rw [List.filter_cons_of_pos shown, List.flatMap_cons, List.flatMap_cons, ih legible]
      | false =>
          rw [List.filter_cons_of_neg (by simp [shown]), List.flatMap_cons,
            first.movedComments_eq_nil shown, List.nil_append, ih legible]

end Entry

namespace ListWriter

variable {form : ListForm} {entry : Entry} {writer : ListWriter} {pre : Text}
  {comments : List (TokenKind × Text)} {code : Text}

/-! ## One more entry -/

/-- A writer between two entries. All that is written by then is known, and a line comment stands at
its end only if the next entry is put on a line of its own. -/
structure Poised (form : ListForm) (pre : Text) (comments : List (TokenKind × Text)) (code : Text)
    (writer : ListWriter) : Prop where
  steady : writer.Steady form
  started : writer.previous.isSome = true → writer.text ≠ []
  lined : writer.previous.any Entry.hasLineComment = true → form.arrangement = .vertical
  weaves : Weaves (writer.previous.any Entry.hasLineComment) (pre ++ writer.text) comments code

theorem Poised.advance (poised : writer.Poised form pre comments code) (entry : Entry)
    (width : Nat) :
    Weaves false (pre ++ (writer.advance form entry width).text) comments code := by
  have weaves := poised.weaves
  cases pending : writer.previous.any Entry.hasLineComment with
  | false =>
      rw [pending] at weaves
      obtain ⟨divider, white, text, -⟩ := writer.advance_eq form entry width poised.started
      rw [text, ← List.append_assoc]
      exact weaves.white_append white (by simp)
  | true =>
      obtain ⟨previous, some, -⟩ := (Option.any_eq_true _ _).mp pending
      have later : writer.previous.isSome = true := by rw [some]; rfl
      rw [advance_vertical (poised.lined pending) later (poised.started later), ← List.append_assoc]
      exact weaves.white_append form.white_newLine fun _ => form.atBreak_newLine

theorem putBefore_woven (form : ListForm) (legible : entry.Legible) (width : Nat)
    (weaves : Weaves false (pre ++ writer.text) comments code) :
    Woven entry.awaitsBreak (pre ++ (writer.putBefore form entry width).text)
      (comments ++ moved form.margin entry.beforeColumn entry.before) code := by
  by_cases titled : entry.text = []
  · cases before : entry.before with
    | none => simpa [putBefore, before, moved, Entry.awaitsBreak] using weaves.woven
    | some comment =>
        have inside : comment ∈ entry.comments := by simp [Entry.comments, before]
        obtain ⟨kind, closed, found⟩ := (legible.comments comment inside).moved
        have placed := closed.reindent form.blank_margin legible.beforeColumn
        have awaits : entry.awaitsBreak = (kind == .lineComment) := by
          rw [Entry.awaitsBreak, titled, before, Option.any_some, closed.isLineComment]
          rfl
        obtain ⟨c, rest, rfl⟩ := List.exists_cons_of_ne_nil closed.ne_nil
        have text : (writer.putBefore form entry width).text =
            writer.text ++ Comment.reindent form.margin entry.beforeColumn (c :: rest) := by
          simp only [putBefore, before, if_pos titled]
        rw [text, found, awaits, ← List.append_assoc]
        exact weaves.comment_woven placed
  · have awaits : entry.awaitsBreak = false := by simp [Entry.awaitsBreak, titled]
    rw [awaits]
    exact putBefore_weaves form legible titled width weaves

theorem text_woven (legible : entry.Legible) {t : Text}
    (woven : Woven entry.awaitsBreak t comments code) :
    Woven entry.awaitsBreak (t ++ entry.text) comments (code ++ inked entry.text) := by
  by_cases titled : entry.text = []
  · simpa [titled, inked] using woven
  · have awaits : entry.awaitsBreak = false := by simp [Entry.awaitsBreak, titled]
    rw [awaits] at woven ⊢
    exact woven.weaves.code_append legible.plain (by simp)

theorem ending_head? (legible : entry.Legible) (apart : form.arrangement ≠ .horizontal)
    (separated : Bool) :
    (ending form entry separated).head? =
      ((if separated then form.mark else []) ++ if entry.after.isSome then [' '] else []).head? := by
  cases after : entry.after with
  | none => simp [ending, after]
  | some comment =>
      have inside : comment ∈ entry.comments := by simp [Entry.comments, after]
      have more : comment ≠ [] := by
        rintro rfl
        exact legible.trim_ne_nil inside rfl
      rw [ending_of_some after more, if_neg (fun inline => apart inline.1)]
      cases (if separated then form.mark else []) <;> rfl

theorem ending_spoils (legible : entry.Legible) (separated : Bool)
    (lined : entry.hasLineComment = true → form.arrangement = .vertical) {t : Text}
    (woven : Woven entry.awaitsBreak t comments code)
    (runs : entry.RunsOn (if separated then form.mark else [])) :
    Spoilt (t ++ ending form entry separated)
      (comments ++ moved form.afterMargin entry.afterColumn entry.after) := by
  obtain ⟨awaits, runs⟩ := runs
  rw [awaits] at woven
  have joined : ¬AtBreak (ending form entry separated) := by
    unfold AtBreak at runs ⊢
    rwa [ending_head? legible (by simp [lined (Entry.hasLineComment_of_awaitsBreak awaits)])]
  have spoilt := (woven.spoilt joined).append []
    (moved form.afterMargin entry.afterColumn entry.after)
  rwa [List.append_nil] at spoilt

theorem ending_stops (legible : entry.Legible) (plain : Plain form.separator) (separated : Bool)
    (lined : entry.hasLineComment = true → form.arrangement = .vertical) {t : Text}
    (woven : Woven entry.awaitsBreak t comments code)
    (stops : ¬entry.RunsOn (if separated then form.mark else [])) :
    ∃ more, Woven (entry.leavesOpen (if separated then form.mark else []))
      (t ++ ending form entry separated)
      (comments ++ moved form.afterMargin entry.afterColumn entry.after) more := by
  cases awaits : entry.awaitsBreak with
  | false =>
      rw [awaits] at woven
      rw [Entry.leavesOpen_eq_closesLine (.inl awaits)]
      exact ⟨_, ending_woven legible plain separated woven.weaves (by simp)⟩
  | true =>
      rw [awaits] at woven
      have apart : form.arrangement ≠ .horizontal := by
        simp [lined (Entry.hasLineComment_of_awaitsBreak awaits)]
      have head := ending_head? legible apart separated
      have breaks : AtBreak (ending form entry separated) := by
        unfold AtBreak
        rw [head]
        exact Classical.byContradiction fun runs => stops ⟨awaits, runs⟩
      cases written : ending form entry separated with
      | nil =>
          -- Nothing follows, and the comment is still the end.
          rw [written, List.head?_nil, eq_comm, List.head?_eq_none_iff,
            List.append_eq_nil_iff] at head
          obtain ⟨unmarked, after⟩ := head
          have after : entry.after = none := by simpa using after
          refine ⟨code, ?_⟩
          simpa [Entry.leavesOpen, after, awaits, unmarked, moved] using woven
      | cons c rest =>
          have behind : (if separated then form.mark else []) ≠ [] ∨ entry.after.isSome = true := by
            refine Decidable.or_iff_not_imp_left.mpr fun unmarked => ?_
            rw [written, Decidable.not_not.mp unmarked] at head
            cases after : entry.after with
            | none => simp [after] at head
            | some comment => rfl
          rw [Entry.leavesOpen_eq_closesLine (.inr behind), ← written]
          refine ⟨_, ending_woven legible plain separated woven.weaves fun _ r => ?_⟩
          rw [written] at breaks ⊢
          exact breaks

end ListWriter

def ListForm.markBehind (form : ListForm) (last : Bool) : Text :=
  if !last || form.closesWithMark false then form.mark else []

theorem ListForm.closesWithMark_of_vertical {form : ListForm}
    (vertical : form.arrangement = .vertical) (broken : Bool) :
    form.closesWithMark broken = form.closesWithMark false := by
  simp [closesWithMark, vertical]

namespace ListWriter

variable {form : ListForm} {entry : Entry} {writer : ListWriter} {pre : Text}
  {comments : List (TokenKind × Text)} {code : Text}

theorem Poised.put_front (poised : writer.Poised form pre comments code) (legible : entry.Legible)
    (lined : entry.hasLineComment = true → form.arrangement = .vertical) (last : Bool) :
    ∃ front separated more,
      (writer.put form last entry).text =
        front ++ ending form entry separated ++ blankLine form entry last ∧
      Woven entry.awaitsBreak (pre ++ front)
        (comments ++ moved form.margin entry.beforeColumn entry.before) more ∧
      (entry.hasLineComment = true →
        (if separated then form.mark else []) = form.markBehind last) := by
  obtain ⟨separated, text, middle, final⟩ := writer.put_text form last entry
  have advanced := poised.advance entry (writer.separatorWidth form last)
  have woven := text_woven legible
    (putBefore_woven form legible (writer.separatorWidth form last) advanced)
  rw [List.append_assoc] at woven
  refine ⟨_, separated, _, text, woven, fun line => ?_⟩
  unfold ListForm.markBehind
  cases last with
  | false => simp [middle rfl]
  | true => simp [final rfl poised.steady, ListForm.closesWithMark_of_vertical (lined line)]

theorem Poised.put_spoils (poised : writer.Poised form pre comments code) (legible : entry.Legible)
    (lined : entry.hasLineComment = true → form.arrangement = .vertical) {last : Bool}
    (runs : entry.RunsOn (form.markBehind last)) :
    Spoilt (pre ++ (writer.put form last entry).text)
      (comments ++ entry.movedComments form.margin form.afterMargin) := by
  obtain ⟨front, separated, more, text, woven, mark⟩ := poised.put_front legible lined last
  rw [← Entry.runsOn_congr mark] at runs
  have spoilt := (ending_spoils legible separated lined woven runs).append
    (blankLine form entry last) []
  rw [text, Entry.movedComments]
  simpa only [List.append_assoc, List.append_nil] using spoilt

theorem Poised.put_stops (poised : writer.Poised form pre comments code) (legible : entry.Legible)
    (plain : Plain form.separator)
    (lined : entry.hasLineComment = true → form.arrangement = .vertical) {last : Bool}
    (stops : ¬entry.RunsOn (form.markBehind last)) :
    ∃ written more,
      (writer.put form last entry).text = written ++ blankLine form entry last ∧
      Woven (entry.leavesOpen (form.markBehind last)) (pre ++ written)
        (comments ++ entry.movedComments form.margin form.afterMargin) more := by
  obtain ⟨front, separated, more, text, woven, mark⟩ := poised.put_front legible lined last
  rw [← Entry.runsOn_congr mark] at stops
  obtain ⟨more, woven⟩ := ending_stops legible plain separated lined woven stops
  rw [Entry.leavesOpen_congr mark, List.append_assoc pre, List.append_assoc comments] at woven
  exact ⟨_, more, text, woven⟩

theorem Poised.put (poised : writer.Poised form pre comments code) (legible : entry.Legible)
    (plain : Plain form.separator) (substantial : entry.isSubstantial = true)
    (lined : entry.hasLineComment = true → form.arrangement = .vertical)
    (stops : ¬entry.RunsOn (form.markBehind false)) :
    ∃ more, (writer.put form false entry).Poised form pre
      (comments ++ entry.movedComments form.margin form.afterMargin) more := by
  obtain ⟨written, more, text, woven⟩ := poised.put_stops legible plain lined stops
  have weaves := blankLine_weaves form entry false woven.weaves
  rw [List.append_assoc, ← text] at weaves
  refine ⟨more, put_steady poised.steady false entry, fun _ => ?_, lined, ?_⟩
  · exact put_ne_nil form false writer (legible.shown substantial)
  · show Weaves entry.hasLineComment _ _ _
    cases pending : entry.leavesOpen (form.markBehind false) with
    | false =>
        rw [pending] at weaves
        exact weaves.relax _
    | true =>
        rw [Entry.hasLineComment_of_leavesOpen pending]
        rwa [pending] at weaves

/-! ## All entries -/

theorem poised_start (form : ListForm) (weaves : Weaves false pre comments code) :
    (start form).Poised form pre comments code where
  steady := fun _ => rfl
  started := by simp [start]
  lined := by simp [start]
  weaves := by simpa [start] using weaves

theorem put_grows (form : ListForm) (last : Bool) (writer : ListWriter) (entry : Entry) :
    writer.text <+: (writer.put form last entry).text := by
  obtain ⟨separated, text, -, -⟩ := writer.put_text form last entry
  obtain ⟨gap, -, before⟩ := putBefore_blank form entry (writer.separatorWidth form last)
    (writer.advance form entry (writer.separatorWidth form last))
  obtain ⟨divider, -, divided, -⟩ :=
    advance_text form entry (writer.separatorWidth form last) writer
  rw [text, before, divided]
  simp only [List.append_assoc]
  exact List.prefix_append _ _

theorem putAll_grows (form : ListForm) (writer : ListWriter) (entries : List Entry) :
    writer.text <+: (writer.putAll form entries).text := by
  induction entries generalizing writer with
  | nil => exact List.prefix_rfl
  | cons entry entries ih => exact (put_grows form _ writer entry).trans (ih _)

theorem Poised.putAll {first : Entry} {rest : List Entry}
    (poised : writer.Poised form pre comments code) (plain : Plain form.separator)
    (legible : ∀ entry ∈ first :: rest, entry.Legible)
    (substantial : ∀ entry ∈ first :: rest, entry.isSubstantial = true)
    (lined : ∀ entry ∈ first :: rest, entry.hasLineComment = true → form.arrangement = .vertical) :
    let clear := (∀ entry ∈ (first :: rest).dropLast, ¬entry.RunsOn (form.markBehind false)) ∧
      ∀ entry ∈ (first :: rest).getLast?, ¬entry.RunsOn (form.markBehind true)
    let found := comments ++ (first :: rest).flatMap
      (Entry.movedComments form.margin form.afterMargin)
    (clear → ∃ more,
        Woven ((first :: rest).getLast?.any (Entry.leavesOpen (form.markBehind true)))
          (pre ++ (writer.putAll form (first :: rest)).text) found more) ∧
      (¬clear → Spoilt (pre ++ (writer.putAll form (first :: rest)).text) found) := by
  induction rest generalizing first writer comments code with
  | nil =>
      have legible := legible first List.mem_cons_self
      have lined := lined first List.mem_cons_self
      intro clear found
      have ends : clear ↔ ¬first.RunsOn (form.markBehind true) := by simp [clear]
      have moved : found = comments ++ first.movedComments form.margin form.afterMargin := by
        simp [found]
      rw [ends, moved]
      constructor
      · intro stops
        obtain ⟨written, more, text, woven⟩ := poised.put_stops legible plain lined stops
        rw [show blankLine form first true = [] by simp [blankLine], List.append_nil] at text
        rw [← text] at woven
        exact ⟨more, woven⟩
      · intro runs
        exact poised.put_spoils legible lined (Classical.not_not.mp runs)
  | cons second rest ih =>
      obtain ⟨own, legible⟩ := List.forall_mem_cons.mp legible
      obtain ⟨shown, substantial⟩ := List.forall_mem_cons.mp substantial
      obtain ⟨alone, lined⟩ := List.forall_mem_cons.mp lined
      intro clear found
      by_cases runs : first.RunsOn (form.markBehind false)
      · have unclear : ¬clear := fun ⟨stop, _⟩ => stop first List.mem_cons_self runs
        refine ⟨fun stop => absurd stop unclear, fun _ => ?_⟩
        -- The text of the first entry is the front of the whole.
        obtain ⟨tail, text⟩ := putAll_grows form (writer.put form false first) (second :: rest)
        have spoilt := (poised.put_spoils own alone runs).append tail
          ((second :: rest).flatMap (Entry.movedComments form.margin form.afterMargin))
        rw [List.append_assoc, text, List.append_assoc, ← List.flatMap_cons] at spoilt
        exact spoilt
      · obtain ⟨more, next⟩ := poised.put own plain shown alone runs
        have run := ih next legible substantial lined
        rw [List.append_assoc, ← List.flatMap_cons] at run
        have ends : clear ↔
            (∀ entry ∈ (second :: rest).dropLast, ¬entry.RunsOn (form.markBehind false)) ∧
              ∀ entry ∈ (second :: rest).getLast?, ¬entry.RunsOn (form.markBehind true) := by
          simp only [clear, List.dropLast_cons_cons, List.forall_mem_cons, List.getLast?_cons_cons]
          exact and_congr_left fun _ => and_iff_right runs
        rw [ends, List.getLast?_cons_cons]
        exact run

end ListWriter

theorem ListForm.write_comments (form : ListForm) (plain : Plain form.separator)
    {entries : List Entry} (legible : ∀ entry ∈ entries, entry.Legible)
    (lined : ∀ entry ∈ entries, entry.hasLineComment = true → form.arrangement = .vertical)
    (more : entries.filter Entry.isSubstantial ≠ []) {pre code : Text}
    (weaves : Weaves false pre [] code) :
    let shown := entries.filter Entry.isSubstantial
    let clear := (∀ entry ∈ shown.dropLast, ¬entry.RunsOn (form.markBehind false)) ∧
      ∀ entry ∈ shown.getLast?, ¬entry.RunsOn (form.markBehind true)
    let found := entries.flatMap (Entry.movedComments form.margin form.afterMargin)
    (clear → ∃ code, Woven (shown.getLast?.any (Entry.leavesOpen (form.markBehind true)))
        (pre ++ form.write entries) found code) ∧
      (¬clear → Spoilt (pre ++ form.write entries) found) := by
  rw [← Entry.flatMap_movedComments_filter legible, write]
  have inside : ∀ entry ∈ entries.filter Entry.isSubstantial, entry ∈ entries :=
    fun entry mem => (List.mem_filter.mp mem).1
  have shown : ∀ entry ∈ entries.filter Entry.isSubstantial, entry.isSubstantial = true :=
    fun entry mem => (List.mem_filter.mp mem).2
  generalize entries.filter Entry.isSubstantial = entries at more inside shown
  obtain ⟨first, rest, rfl⟩ := List.exists_cons_of_ne_nil more
  exact (ListWriter.poised_start form weaves).putAll plain
    (fun entry mem => legible entry (inside entry mem)) shown
    (fun entry mem => lined entry (inside entry mem))

namespace Document

variable (doc : Document) (frame : Frame) (settings : ListSettings) (brackets : Brackets)
  (nested : Bool) (lineWidth : Option Int) (entries : List Entry)

/-! ## The closer -/

theorem enclose_comments_iff (form : ListForm) {body : Text} (some : body ≠ []) (ends : Bool)
    {clear : Prop} {pending : Bool} {found : List (TokenKind × Text)}
    (opener : Plain brackets.opener) (closer : Plain brackets.closer)
    (lined : pending = true → form.arrangement = .vertical)
    (keeps : ∀ pre code, Weaves false pre [] code → clear →
      ∃ more, Woven pending (pre ++ body) found more)
    (spoils : ∀ pre code, Weaves false pre [] code → ¬clear → Spoilt (pre ++ body) found) :
    let out := doc.enclose frame settings brackets lineWidth form body ends
    let whole := clear ∧
      (settings.indentStyle = .visual → pending = true → ends = false → AtBreak brackets.closer)
    (commentsOf out = found ↔ whole) ∧ (whole → LeavesNothingOpen out) := by
  obtain ⟨opening, closing, before, behind, text, place⟩ :=
    doc.enclose_eq frame settings brackets lineWidth form some ends
  have opened := opener.weaves.white_append (Indent.white_of_newLine before) (by simp)
  rw [text]
  by_cases stops : clear
  · obtain ⟨more, woven⟩ := keeps _ _ opened stops
    simp only [stops, true_and]
    rcases place with ⟨breaks, style⟩ | ⟨rfl, unseen, style⟩
    · -- On a line of its own the closer is never taken in.
      obtain ⟨closed, comments, -⟩ :=
        (woven.weaves.white_append (Indent.white_of_newLine behind) fun _ => breaks).finish_append
          closer (by simp)
      refine ⟨iff_of_true comments fun visual _ unseen => ?_, fun _ => closed⟩
      simp [visual, unseen] at style
    · have needed : (pending = true → AtBreak brackets.closer) ↔
          (settings.indentStyle = .visual → pending = true → ends = false →
            AtBreak brackets.closer) := by
        refine ⟨fun breaks _ line _ => breaks line, fun breaks line => ?_⟩
        by_cases none : brackets.closer = []
        · simp [none, AtBreak]
        · exact breaks (style (lined line)) line (unseen none)
      rw [List.append_nil, ← needed]
      exact ⟨woven.commentsOf_append_iff closer,
        fun breaks => (woven.weaves.finish_append closer breaks).1⟩
  · have spoilt := spoils _ _ opened stops
    simp only [stops, false_and, iff_false, false_implies, and_true]
    rw [List.append_assoc]
    exact spoilt.commentsOf_ne _

theorem markBehind_listForm (last : Bool) :
    (doc.listForm frame settings brackets nested lineWidth entries).markBehind last =
      if !last || settings.trails (listArrangement frame settings brackets lineWidth entries) then
        settings.separator.trimRight else [] := by
  rw [ListForm.markBehind, ListForm.mark, listForm, settings.form_separator,
    settings.form_closesWithMark]

variable {entries} in
theorem listForm_of_hasLineComment {entry : Entry} (mem : entry ∈ entries)
    (line : entry.hasLineComment = true) :
    (doc.listForm frame settings brackets nested lineWidth entries).arrangement = .vertical := by
  have lined := List.any_eq_true.mpr ⟨entry, mem, line⟩
  exact (settings.form_arrangement ..).trans
    ((Arrangement.choose_vertical_iff entries).mpr lined ..)

theorem layoutList_comments_iff (opener : Plain brackets.opener) (closer : Plain brackets.closer)
    (separator : Plain settings.separator) (legible : ∀ entry ∈ entries, entry.Legible) :
    let arrangement := listArrangement frame settings brackets lineWidth entries
    let margin := (settings.form doc.style frame brackets nested arrangement).margin
    let out := doc.layoutList frame settings brackets nested lineWidth entries
    let shown := entries.filter Entry.isSubstantial
    let mark := settings.separator.trimRight
    let final := if settings.trails arrangement then mark else []
    let clear := (∀ entry ∈ shown.dropLast, ¬entry.RunsOn mark) ∧
      (∀ entry ∈ shown.getLast?, ¬entry.RunsOn final) ∧
      (settings.indentStyle = .visual → shown.getLast?.any (Entry.leavesOpen final) = true →
        entries.getLast?.any Entry.endsInLineComment = false → AtBreak brackets.closer)
    (commentsOf out = entries.flatMap
        (Entry.movedComments margin (if arrangement = .horizontal then [] else margin)) ↔ clear) ∧
      (clear → LeavesNothingOpen out) := by
  intro arrangement margin out shown mark final clear
  let form := doc.listForm frame settings brackets nested lineWidth entries
  have moved : (if arrangement = .horizontal then [] else margin) = form.afterMargin := by
    rw [ListForm.afterMargin, show form.arrangement = arrangement from settings.form_arrangement ..]
    rfl
  have text : out = doc.enclose frame settings brackets lineWidth form (form.write entries)
      (entries.getLast?.any Entry.endsInLineComment) := doc.layoutList_eq_enclose ..
  rw [moved, text]
  by_cases more : shown = []
  · have empty : form.write entries = [] := by
      rw [ListForm.write, show entries.filter Entry.isSubstantial = [] from more]
      rfl
    have none : entries.flatMap (Entry.movedComments margin form.afterMargin) = [] := by
      rw [← Entry.flatMap_movedComments_filter legible,
        show entries.filter Entry.isSubstantial = [] from more]
      rfl
    obtain ⟨closed, comments, -⟩ := (opener.append closer).weaves.finish
    simp [clear, more, none, enclose, empty, closed, comments]
  · have lined : ∀ entry ∈ entries, entry.hasLineComment = true → form.arrangement = .vertical :=
      fun entry => doc.listForm_of_hasLineComment frame settings brackets nested lineWidth
    have plain : Plain form.separator := by
      rwa [show form.separator = settings.separator from settings.form_separator ..]
    obtain ⟨last, ends⟩ : ∃ last, shown.getLast? = some last :=
      Option.isSome_iff_exists.mp (by simpa using more)
    obtain ⟨inside, substantial⟩ := List.mem_filter.mp (List.mem_of_getLast? ends)
    have written := form.write_ne_nil_of_last ends ((legible last inside).shown substantial)
    have run (pre code : Text) (weaves : Weaves false pre [] code) :=
      form.write_comments plain legible lined more weaves
    rw [show form.markBehind false = mark from doc.markBehind_listForm ..,
      show form.markBehind true = final from doc.markBehind_listForm ..] at run
    have vertical : shown.getLast?.any (Entry.leavesOpen final) = true →
        form.arrangement = .vertical := by
      rw [ends]
      exact fun line => lined last inside (Entry.hasLineComment_of_leavesOpen line)
    have whole := doc.enclose_comments_iff frame settings brackets lineWidth form written
      (entries.getLast?.any Entry.endsInLineComment) opener closer vertical
      (fun pre code weaves => (run pre code weaves).1)
      (fun pre code weaves => (run pre code weaves).2)
    rwa [and_assoc] at whole

theorem layoutList_comments_comment_only :
    let doc : Document := { source := [] }
    let settings : ListSettings := { indentStyle := .visual, trailing := .never }
    let brackets : Brackets := { opener := ['('], closer := [')'] }
    let entries : List Entry :=
      [{ text := ['a'], after := some "// x".toList }, { text := [], after := some "/* y */".toList },
        { text := [], before := some " // z".toList }]
    let out := doc.layoutList { width := 40 } settings brackets false none entries
    (Plain brackets.opener ∧ Plain brackets.closer ∧ Plain settings.separator ∧
        ∀ entry ∈ entries, entry.Legible) ∧
      commentsOf out =
        [(.lineComment, "// x".toList), (.blockComment, "/* y */".toList),
          (.lineComment, "// z".toList)] ∧
      LeavesNothingOpen out ∧ out = "(a, // x\n , /* y */\n // z\n)".toList := by
  intro doc settings brackets entries out
  have opener : Plain brackets.opener := by decide
  have closer : Plain brackets.closer := by decide
  have separator : Plain settings.separator := by decide
  have first : IsComment (Text.trim "// x".toList) :=
    ⟨{ kind := .lineComment, span := .ofLength 0 4 }, by decide +kernel, rfl, rfl⟩
  have second : IsComment (Text.trim "/* y */".toList) :=
    ⟨{ kind := .blockComment, span := .ofLength 0 7 }, by decide +kernel, rfl, rfl⟩
  have third : IsComment (Text.trim " // z".toList) :=
    ⟨{ kind := .lineComment, span := .ofLength 0 4 }, by decide +kernel, rfl, rfl⟩
  have legible : ∀ entry ∈ entries, entry.Legible := by
    refine List.forall_mem_cons.mpr ⟨?_, List.forall_mem_cons.mpr ⟨?_, ?_⟩⟩
    · exact ⟨by decide, List.forall_mem_singleton.mpr first, by decide, by decide⟩
    · exact ⟨by decide, List.forall_mem_singleton.mpr second, by decide, by decide⟩
    · refine List.forall_mem_singleton.mpr ?_
      exact ⟨by decide, List.forall_mem_singleton.mpr third, by decide, by decide⟩
  obtain ⟨same, closed⟩ := doc.layoutList_comments_iff { width := 40 } settings brackets false none
    entries opener closer separator legible
  have comments := same.mpr (by decide +kernel)
  exact ⟨⟨opener, closer, separator, legible⟩, comments.trans (by decide +kernel),
    closed (by decide +kernel), by decide +kernel⟩

theorem layoutList_separator_in_comment :
    let doc : Document := { source := [] }
    let settings : ListSettings := { trailing := .never }
    let brackets : Brackets := { opener := ['('], closer := [')'] }
    let entries : List Entry := [{ text := [], before := some "// c".toList }, .ofText ['a']]
    let out := doc.layoutList { width := 40 } settings brackets false none entries
    out = "(\n    // c,\n    a\n)".toList ∧ commentsOf out = [(.lineComment, "// c,".toList)] := by
  decide +kernel

end Document

end ItemLayout
