import ItemLayout.Proofs.Comment.Gap
import ItemLayout.Proofs.Token.Windows

/-!
# The grammar of gaps

A gap is made of spacing, line breaks and closed comments, in one way only. Main statement: a gap can
be read if and only if it is made so, and what is read are its comments, each with its place and with
whether a line break stands before it (`Gap.read_grammar`).
-/

namespace ItemLayout

/-! ## Nested comments -/

inductive BlockBody : Text → Prop
  | closing : BlockBody ['*', '/']
  | nested {inner rest : Text} (inside : BlockBody inner) (after : BlockBody rest) :
      BlockBody ('/' :: '*' :: (inner ++ rest))
  | other {c : Char} {rest : Text} (opens : ¬(c = '/' ∧ rest.head? = some '*'))
      (closes : ¬(c = '*' ∧ rest.head? = some '/')) (after : BlockBody rest) :
      BlockBody (c :: rest)

namespace BlockBody

theorem head?_append {t : Text} (body : BlockBody t) (r : Text) : (t ++ r).head? = t.head? := by
  cases body <;> rfl

theorem length_deeper {t : Text} (body : BlockBody t) (depth : Nat) (r : Text) :
    blockCommentLength (depth + 1) (t ++ r) =
      (blockCommentLength depth r).map (· + t.length) := by
  induction body generalizing depth r with
  | closing => rfl
  | @nested inner rest _ _ ihInner ihRest =>
      have step : blockCommentLength (depth + 1) ('/' :: '*' :: (inner ++ rest) ++ r) =
          (blockCommentLength (depth + 2) (inner ++ (rest ++ r))).map (· + 2) := by
        rw [← List.append_assoc]
        rfl
      rw [step, ihInner, ihRest, Option.map_map, Option.map_map]
      congr 1
      funext n
      simp only [Function.comp_apply, List.length_cons, List.length_append]
      omega
  | @other c rest opens closes after ih =>
      have plain : ¬MarkerAt c (rest ++ r) := by
        rw [MarkerAt, after.head?_append]
        exact not_or.mpr ⟨opens, closes⟩
      rw [List.cons_append, blockCommentLength_other _ plain, ih, Option.map_map]
      rfl

theorem closed {t : Text} (body : BlockBody t) : blockCommentLength 0 t = some t.length := by
  induction body with
  | closing => rfl
  | @nested inner rest inside _ _ ih =>
      have step : blockCommentLength 0 ('/' :: '*' :: (inner ++ rest)) =
          (blockCommentLength 1 (inner ++ rest)).map (· + 2) := rfl
      rw [step, inside.length_deeper, ih, List.length_cons, List.length_cons, List.length_append,
        Nat.add_comm inner.length]
      rfl
  | other opens closes _ ih =>
      rw [blockCommentLength_other 0 (not_or.mpr ⟨opens, closes⟩), ih]
      rfl

end BlockBody

theorem blockBodies_of_closed {depth : Nat} {t : Text}
    (closed : blockCommentLength depth t = some t.length) :
    ∃ bodies : List Text, bodies.length = depth + 1 ∧ (∀ body ∈ bodies, BlockBody body) ∧
      t = bodies.flatten := by
  -- One body for each comment that is open, the innermost first.
  fun_induction blockCommentLength depth t with
  | case1 depth rest ih =>
      obtain ⟨m, inner, length⟩ := Option.map_eq_some_iff.mp closed
      obtain rfl : m = rest.length := by simpa using length
      obtain ⟨bodies, count, valid, rfl⟩ := ih inner
      obtain ⟨first, later, rfl⟩ := List.exists_cons_of_length_eq_add_one count
      obtain ⟨second, bodies, rfl⟩ := List.exists_cons_of_length_eq_add_one (Nat.succ.inj count)
      obtain ⟨first', second', valid⟩ : BlockBody first ∧ BlockBody second ∧
          ∀ body ∈ bodies, BlockBody body := by simpa using valid
      refine ⟨('/' :: '*' :: (first ++ second)) :: bodies, ?_, ?_, ?_⟩
      · simpa using count
      · exact List.forall_mem_cons.mpr ⟨.nested first' second', valid⟩
      · simp
  | case2 rest =>
      obtain rfl : rest = [] := by simpa using closed
      exact ⟨[['*', '/']], rfl, List.forall_mem_singleton.mpr .closing, rfl⟩
  | case3 rest outer ih =>
      obtain ⟨m, inner, length⟩ := Option.map_eq_some_iff.mp closed
      obtain rfl : m = rest.length := by simpa using length
      obtain ⟨bodies, count, valid, rfl⟩ := ih inner
      exact ⟨['*', '/'] :: bodies, by rw [List.length_cons, count],
        List.forall_mem_cons.mpr ⟨.closing, valid⟩, rfl⟩
  | case4 depth c rest opens closes ih =>
      obtain ⟨m, inner, length⟩ := Option.map_eq_some_iff.mp closed
      obtain rfl : m = rest.length := by simpa using length
      obtain ⟨bodies, count, valid, rfl⟩ := ih inner
      obtain ⟨first, bodies, rfl⟩ := List.exists_cons_of_length_eq_add_one count
      obtain ⟨first', valid⟩ := List.forall_mem_cons.mp valid
      have head := first'.head?_append bodies.flatten
      refine ⟨(c :: first) :: bodies, count, List.forall_mem_cons.mpr ⟨?_, valid⟩, rfl⟩
      refine .other ?_ ?_ first'
      · rintro ⟨rfl, ahead⟩
        obtain ⟨rest, split⟩ := List.head?_eq_some_iff.mp (head.trans ahead)
        exact opens rest rfl split
      · rintro ⟨rfl, ahead⟩
        obtain ⟨rest, split⟩ := List.head?_eq_some_iff.mp (head.trans ahead)
        exact closes rest rfl split
  | case5 => cases closed

theorem blockBody_of_closed {t : Text} (closed : blockCommentLength 0 t = some t.length) :
    BlockBody t := by
  obtain ⟨bodies, count, valid, rfl⟩ := blockBodies_of_closed closed
  obtain ⟨body, rfl⟩ := List.length_eq_one_iff.mp count
  simpa using valid

/-! ## Trivia -/

inductive Trivium where
  | spacing (c : Char)
  | lineBreak (t : Text)
  | lineComment (t : Text)
  | blockComment (t : Text)
  deriving DecidableEq, Repr

namespace Trivium

def text : Trivium → Text
  | spacing c => [c]
  | lineBreak t | lineComment t | blockComment t => t

def isBreak : Trivium → Bool
  | lineBreak _ => true
  | _ => false

def isLine : Trivium → Bool
  | lineComment _ => true
  | _ => false

def isComment : Trivium → Bool
  | lineComment _ | blockComment _ => true
  | _ => false

end Trivium

/-- The ways in which a text is made of trivia. A carriage return and a line feed are one line break,
and a line comment runs up to a line break or to the end. -/
inductive Trivia : Text → List Trivium → Prop
  | nil : Trivia [] []
  | spacing {c : Char} {t : Text} {items : List Trivium} (spacing : isSpacing c = true)
      (rest : Trivia t items) : Trivia (c :: t) (.spacing c :: items)
  | pair {t : Text} {items : List Trivium} (rest : Trivia t items) :
      Trivia ('\r' :: '\n' :: t) (.lineBreak ['\r', '\n'] :: items)
  | single {c : Char} {t : Text} {items : List Trivium} (breaks : isBreak c = true)
      (alone : ¬(c = '\r' ∧ t.head? = some '\n')) (rest : Trivia t items) :
      Trivia (c :: t) (.lineBreak [c] :: items)
  | line {body t : Text} {items : List Trivium} (inside : ∀ c ∈ body, isBreak c = false)
      (ends : AtBreak t) (rest : Trivia t items) :
      Trivia ('/' :: '/' :: body ++ t) (.lineComment ('/' :: '/' :: body) :: items)
  | block {body t : Text} {items : List Trivium} (closed : BlockBody body) (rest : Trivia t items) :
      Trivia ('/' :: '*' :: body ++ t) (.blockComment ('/' :: '*' :: body) :: items)

/-! ## Trivia as tokens -/

def Piece.trivia (piece : Piece) : List Trivium :=
  match piece.kind with
  | .spacing => piece.text.map .spacing
  | .lineBreak => [.lineBreak piece.text]
  | .lineComment => [.lineComment piece.text]
  | .blockComment => [.blockComment piece.text]
  | _ => []

theorem pieces_spacing {c : Char} (t : Text) (spacing : isSpacing c = true) :
    pieces (c :: t) =
      { kind := .spacing, text := c :: t.takeWhile isSpacing } :: pieces (t.dropWhile isSpacing) := by
  have length : (scan (c :: t)).length = (c :: t.takeWhile isSpacing).length := by
    rw [scan_spacing t spacing, Nat.add_comm]
    rfl
  have whole : c :: t = c :: t.takeWhile isSpacing ++ t.dropWhile isSpacing := by
    rw [List.cons_append, List.takeWhile_append_dropWhile]
  have first := pieces_of_scan (t := c :: t.takeWhile isSpacing) (r := t.dropWhile isSpacing)
    (List.cons_ne_nil _ _) rfl (by rw [← whole, length])
  rw [← whole] at first
  rw [first, scan_spacing t spacing]

theorem pieces_break {c : Char} (t : Text) (breaks : isBreak c = true)
    (alone : ¬(c = '\r' ∧ t.head? = some '\n')) :
    pieces (c :: t) = { kind := .lineBreak, text := [c] } :: pieces t := by
  have first : scan ([c] ++ t) = { kind := .lineBreak, length := 1 } := by
    rw [List.singleton_append, scan_break t breaks, if_neg alone]
  exact pieces_of_scan (List.cons_ne_nil _ _) first rfl

theorem pieces_pair (t : Text) :
    pieces ('\r' :: '\n' :: t) = { kind := .lineBreak, text := ['\r', '\n'] } :: pieces t :=
  pieces_of_scan (t := ['\r', '\n']) (List.cons_ne_nil _ _) (scan_break ('\n' :: t) rfl) rfl

theorem flatMap_trivia_spacing (t : Text) :
    (pieces t).flatMap Piece.trivia =
      (t.takeWhile isSpacing).map .spacing ++
        (pieces (t.dropWhile isSpacing)).flatMap Piece.trivia := by
  cases t with
  | nil => simp
  | cons c t =>
      cases spacing : isSpacing c with
      | false => simp [spacing]
      | true =>
          rw [pieces_spacing t spacing]
          simp [Piece.trivia, spacing]

theorem Trivia.items_eq {t : Text} {items : List Trivium} (trivia : Trivia t items) :
    items = (pieces t).flatMap Piece.trivia := by
  induction trivia with
  | nil => rw [pieces_nil, List.flatMap_nil]
  | @spacing c t items spacing rest ih =>
      rw [pieces_spacing t spacing, List.flatMap_cons, ih, flatMap_trivia_spacing t]
      rfl
  | @pair t items rest ih =>
      rw [pieces_pair, List.flatMap_cons, ← ih]
      rfl
  | @single c t items breaks alone rest ih =>
      rw [pieces_break t breaks alone, List.flatMap_cons, ← ih]
      rfl
  | @line body t items inside ends rest ih =>
      rw [pieces_comment (.line inside) fun _ => ends, List.flatMap_cons, ← ih]
      rfl
  | @block body t items closed rest ih =>
      rw [pieces_comment (.block closed.closed) (by simp), List.flatMap_cons, ← ih]
      rfl

theorem Trivia.spaced {u t : Text} {items : List Trivium} (spacing : ∀ c ∈ u, isSpacing c = true)
    (rest : Trivia t items) : Trivia (u ++ t) (u.map .spacing ++ items) := by
  induction u with
  | nil => exact rest
  | cons c u ih =>
      obtain ⟨first, spacing⟩ := List.forall_mem_cons.mp spacing
      exact .spacing first (ih spacing)

theorem ClosedComment.trivia {kind : TokenKind} {c t : Text} {items : List Trivium}
    (closed : ClosedComment kind c) (ends : kind = .lineComment → AtBreak t)
    (rest : Trivia t items) : Trivia (c ++ t) (Piece.trivia { kind, text := c } ++ items) := by
  cases closed with
  | line inside => exact .line inside (ends rfl) rest
  | block closed => exact .block (blockBody_of_closed closed) rest

theorem atBreak_behind_lineComment (rest : Text) :
    AtBreak (('/' :: '/' :: rest).drop (scan ('/' :: '/' :: rest)).length) := by
  intro c head
  rw [scan_lineComment, Nat.add_comm, List.drop_succ_cons, List.drop_succ_cons,
    Text.drop_length_takeWhile] at head
  have stop := List.head?_dropWhile_not (!isBreak ·) rest
  rw [Option.mem_def.mp head] at stop
  simpa using stop

theorem trivia_of_pieces {t : Text}
    (fills : ∀ piece ∈ pieces t, piece.kind.isTrivia = true ∧
      (piece.kind.isComment = true → piece.unterminated = false)) :
    Trivia t ((pieces t).flatMap Piece.trivia) := by
  induction t using pieces_induction with
  | nil =>
      rw [pieces_nil]
      exact .nil
  | cut t more ih =>
      have cut := pieces_of_ne_nil more
      rw [cut] at fills
      obtain ⟨⟨trivial, closed⟩, fills⟩ := List.forall_mem_cons.mp fills
      have rest := ih fills
      have comment (kind : (scan t).kind.isComment = true)
          (ends : (scan t).kind = .lineComment → AtBreak (t.drop (scan t).length)) :
          Trivia t ((pieces t).flatMap Piece.trivia) := by
        have text := (closedComment_front kind (closed kind)).trivia ends rest
        rw [cut, List.flatMap_cons]
        rwa [show (Piece.front t).text = t.take (scan t).length from rfl,
          List.take_append_drop] at text
      rcases trivia?_cases (trivia?_of_kind trivial) with
        ⟨body, rfl, lexeme⟩ | ⟨body, rfl, lexeme⟩ | ⟨c, t, rfl, breaks, lexeme⟩ |
          ⟨c, t, rfl, spacing, lexeme⟩
      · exact comment (by rw [lexeme]; rfl) fun _ => atBreak_behind_lineComment body
      · refine comment (by rw [lexeme, Lexeme.delimited_kind]; rfl) fun line => ?_
        rw [lexeme, Lexeme.delimited_kind] at line
        cases line
      · by_cases pair : c = '\r' ∧ t.head? = some '\n'
        · obtain ⟨rfl, head⟩ := pair
          obtain ⟨t, rfl⟩ := List.head?_eq_some_iff.mp head
          rw [lexeme, if_pos ⟨rfl, rfl⟩] at rest
          rw [pieces_pair]
          exact .pair rest
        · rw [lexeme, if_neg pair] at rest
          rw [pieces_break t breaks pair]
          exact .single breaks pair rest
      · rw [lexeme, Nat.add_comm, List.drop_succ_cons, Text.drop_length_takeWhile] at rest
        have run : ∀ d ∈ c :: t.takeWhile isSpacing, isSpacing d = true :=
          List.forall_mem_cons.mpr ⟨spacing, List.all_eq_true.mp List.all_takeWhile⟩
        have text := rest.spaced run
        rw [List.cons_append, List.takeWhile_append_dropWhile] at text
        rw [pieces_spacing t spacing]
        exact text

/-! ## The comments of trivia -/

namespace Trivium

def breakSince (items : List Trivium) : Bool :=
  (items.reverse.takeWhile (!·.isComment)).any isBreak

/-- The comments of a text that starts at `start`, of which `before` is behind us already. -/
def comments (source : Text) (start : Nat) (before : List Trivium) :
    List Trivium → List GapComment
  | [] => []
  | item :: rest =>
      let offset := start + (before.flatMap text).length
      let comment : GapComment :=
        { text := item.text.trimRight
          span := .ofLength offset item.text.length
          isLine := item.isLine
          afterBreak := breakSince before
          column := source.column offset }
      (if item.isComment then [comment] else []) ++ comments source start (before ++ [item]) rest

theorem breakSince_concat (before : List Trivium) (item : Trivium) :
    breakSince (before ++ [item]) = (!item.isComment && (item.isBreak || breakSince before)) := by
  cases comment : item.isComment <;> simp [breakSince, comment]

theorem comments_append (source : Text) (start : Nat) (before xs ys : List Trivium) :
    comments source start before (xs ++ ys) =
      comments source start before xs ++ comments source start (before ++ xs) ys := by
  induction xs generalizing before with
  | nil => rw [List.nil_append, List.append_nil, comments, List.nil_append]
  | cons item xs ih =>
      rw [List.cons_append, comments, comments, ih, List.append_assoc, List.append_assoc]
      rfl

theorem comments_of_none (source : Text) (start : Nat) (before : List Trivium) {items : List Trivium}
    (none : ∀ item ∈ items, item.isComment = false) : comments source start before items = [] := by
  induction items generalizing before with
  | nil => rfl
  | cons item items ih =>
      obtain ⟨first, none⟩ := List.forall_mem_cons.mp none
      rw [comments, first, ih _ none]
      rfl

end Trivium

namespace Gap

def ofTrivia (source : Text) (start : Nat) (items : List Trivium) : Gap :=
  ⟨Trivium.comments source start [] items, Trivium.breakSince items⟩

theorem ofTokens_place (source : Text) (span : Span) (afterBreak : Bool) (offset : Nat)
    (known known' : Bool) (ps : List Piece) :
    ofTokens source span afterBreak (place offset known ps) =
      ofTokens source span afterBreak (place offset known' ps) := by
  induction ps generalizing afterBreak offset known known' with
  | nil => rfl
  | cons piece ps ih =>
      have rest (afterBreak : Bool) := ih afterBreak (offset + piece.text.length)
        ((known || piece.kind == .lineBreak) && piece.kind.isTrivia)
        ((known' || piece.kind == .lineBreak) && piece.kind.isTrivia)
      simp only [place, ofTokens, rest]

variable (source : Text) (span : Span) (afterBreak : Bool) (offset : Nat)

def readAt (t : Text) : Except Fault Gap :=
  ofTokens source span afterBreak (place offset false (pieces t))

theorem readAt_spacing (t : Text) :
    readAt source span afterBreak offset t =
      readAt source span afterBreak (offset + (t.takeWhile isSpacing).length)
        (t.dropWhile isSpacing) := by
  cases t with
  | nil => rfl
  | cons c t =>
      cases spacing : isSpacing c with
      | false => simp [spacing]
      | true =>
          rw [List.dropWhile_cons_of_pos spacing, List.takeWhile_cons_of_pos spacing]
          simp only [readAt, pieces_spacing t spacing, place, ofTokens]
          apply ofTokens_place

theorem readAt_break {piece : Piece} {t r : Text} (cut : pieces t = piece :: pieces r)
    (kind : piece.kind = .lineBreak) :
    readAt source span afterBreak offset t =
      readAt source span true (offset + piece.text.length) r := by
  simp only [readAt, cut, place, ofTokens, kind]
  apply ofTokens_place

theorem readAt_comment {kind : TokenKind} {c t : Text} (closed : ClosedComment kind c)
    (ends : kind = .lineComment → AtBreak t) (located : c <+: source.drop offset) :
    readAt source span afterBreak offset (c ++ t) =
      (readAt source span false (offset + c.length) t).map fun gap =>
        { gap with
          comments :=
            { text := c.trimRight
              span := .ofLength offset c.length
              isLine := kind == .lineComment
              afterBreak
              column := source.column offset } :: gap.comments } := by
  have text : source.slice (.ofLength offset c.length) = c := by
    obtain ⟨behind, split⟩ := located
    simp [Text.slice, Span.ofLength, Span.length, ← split]
  rw [readAt, pieces_comment closed ends, place,
    ofTokens_of_comment source span afterBreak _ closed.kind_isComment rfl, text, readAt]
  congr 1
  apply ofTokens_place

theorem readAt_cons {whole : Text} {item : Trivium} {items : List Trivium}
    (trivia : Trivia whole (item :: items)) (located : whole <+: source.drop offset) :
    ∃ t, whole = item.text ++ t ∧ Trivia t items ∧
      readAt source span afterBreak offset whole =
        (readAt source span (!item.isComment && (item.isBreak || afterBreak))
          (offset + item.text.length) t).map fun gap =>
            { gap with
              comments :=
                (if item.isComment then
                  [{ text := item.text.trimRight
                     span := .ofLength offset item.text.length
                     isLine := item.isLine
                     afterBreak
                     column := source.column offset }]
                else []) ++ gap.comments } := by
  have keep (read : Except Fault Gap) :
      read = read.map fun gap => { gap with comments := [] ++ gap.comments } := by
    cases read <;> rfl
  cases trivia with
  | @spacing c t _ spacing rest =>
      refine ⟨t, rfl, rest, ?_⟩
      rw [readAt_spacing, List.takeWhile_cons_of_pos spacing, List.dropWhile_cons_of_pos spacing,
        List.length_cons, Nat.add_comm (t.takeWhile isSpacing).length, ← Nat.add_assoc,
        ← readAt_spacing]
      exact keep _
  | @pair t _ rest =>
      refine ⟨t, rfl, rest, ?_⟩
      rw [readAt_break source span afterBreak offset (pieces_pair t) rfl]
      exact keep _
  | @single c t _ breaks alone rest =>
      refine ⟨t, rfl, rest, ?_⟩
      rw [readAt_break source span afterBreak offset (pieces_break t breaks alone) rfl]
      exact keep _
  | @line body t _ inside ends rest =>
      refine ⟨t, rfl, rest, ?_⟩
      exact readAt_comment source span afterBreak offset (.line inside) (fun _ => ends)
        ((List.prefix_append _ _).trans located)
  | @block body t _ closed rest =>
      refine ⟨t, rfl, rest, ?_⟩
      exact readAt_comment source span afterBreak offset (.block closed.closed) (by simp)
        ((List.prefix_append _ _).trans located)

theorem readAt_trivia (start : Nat) (before : List Trivium) {t : Text} {items : List Trivium}
    (trivia : Trivia t items)
    (located : t <+: source.drop (start + (before.flatMap Trivium.text).length)) :
    readAt source span (Trivium.breakSince before) (start + (before.flatMap Trivium.text).length) t =
      .ok ⟨Trivium.comments source start before items, Trivium.breakSince (before ++ items)⟩ := by
  induction items generalizing before t with
  | nil =>
      cases trivia
      rw [List.append_nil, readAt, pieces_nil]
      rfl
  | cons item items ih =>
      obtain ⟨t, rfl, rest, step⟩ := readAt_cons source span (Trivium.breakSince before) _ trivia located
      have behind : t <+: source.drop (start + ((before ++ [item]).flatMap Trivium.text).length) := by
        obtain ⟨r, split⟩ := located
        refine ⟨r, ?_⟩
        rw [List.append_assoc] at split
        rw [List.flatMap_append, List.flatMap_singleton, List.length_append, ← Nat.add_assoc,
          ← List.drop_drop, ← split, List.drop_left]
      have next := ih (before ++ [item]) rest behind
      rw [Trivium.breakSince_concat, List.flatMap_append, List.flatMap_singleton, List.length_append,
        ← Nat.add_assoc] at next
      rw [step, next, List.append_assoc, List.singleton_append]
      rfl

variable {source span}

theorem read_of_trivia {items : List Trivium} (trivia : Trivia (source.slice span) items) :
    read source span = .ok (ofTrivia source span.start items) := by
  have located : source.slice span <+: source.drop span.start := List.take_prefix _ _
  have found := readAt_trivia source span span.start [] trivia located
  rw [read, tokensIn_eq_place]
  exact found

theorem trivia_of_read {gap : Gap} (found : read source span = .ok gap) :
    ∃ items, Trivia (source.slice span) items :=
  ⟨_, trivia_of_pieces (read_isOk_iff.mp ⟨gap, found⟩)⟩

theorem textAt_of_mem_comments {gap : Gap} (found : read source span = .ok gap)
    {comment : GapComment} (mem : comment ∈ gap.comments) :
    ∃ raw, ({ source } : Document).textAt comment.span = .ok raw ∧ comment.text = raw.trimRight := by
  have mem := List.mem_map_of_mem
    (f := fun comment => (comment.span, comment.kind, comment.text)) mem
  rw [ofTokens_comments found] at mem
  obtain ⟨token, inside, same⟩ := List.mem_map.mp mem
  obtain ⟨span, rest⟩ := Prod.mk.inj same
  obtain ⟨-, text⟩ := Prod.mk.inj rest
  have bound := stop_of_mem_tokensIn (List.mem_filter.mp inside).1
  rw [← span, ← text]
  exact ⟨_, if_pos bound, rfl⟩

theorem read_grammar (source : Text) (span : Span) :
    ((∃ fault, read source span = .error fault) ↔
        ¬∃ items, Trivia (source.slice span) items) ∧
      (∀ items, Trivia (source.slice span) items →
        (∀ others, Trivia (source.slice span) others → others = items) ∧
        read source span = .ok (ofTrivia source span.start items)) ∧
      ∀ gap, read source span = .ok gap → ∀ comment ∈ gap.comments,
        ∃ raw, ({ source } : Document).textAt comment.span = .ok raw ∧
          comment.text = raw.trimRight := by
  refine ⟨⟨?_, ?_⟩, fun items trivia => ⟨fun others again => ?_, read_of_trivia trivia⟩,
    fun gap found comment mem => textAt_of_mem_comments found mem⟩
  · rintro ⟨fault, failed⟩ ⟨items, trivia⟩
    rw [read_of_trivia trivia] at failed
    cases failed
  · intro none
    cases found : read source span with
    | error fault => exact ⟨fault, rfl⟩
    | ok gap => exact absurd (trivia_of_read found) none
  · rw [again.items_eq, trivia.items_eq]

theorem read_grammar_nested_comment :
    let source : Text := "x/*/*b*/*/\r\n\t// c \ny".toList
    let span : Span := .ofLength 1 18
    let items : List Trivium :=
      [.blockComment "/*/*b*/*/".toList, .lineBreak "\r\n".toList, .spacing '\t',
        .lineComment "// c ".toList, .lineBreak "\n".toList]
    let comment : GapComment := ⟨"// c".toList, .ofLength 13 5, true, true, 1⟩
    let gap : Gap := ⟨[⟨"/*/*b*/*/".toList, .ofLength 1 9, false, false, 1⟩, comment], true⟩
    Trivia (source.slice span) items ∧
      (∀ others, Trivia (source.slice span) others → others = items) ∧
      read source span = .ok gap ∧
      ∃ raw, ({ source } : Document).textAt comment.span = .ok raw ∧
        comment.text = raw.trimRight := by
  intro source span items comment gap
  have fills : (pieces (source.slice span)).all (fun piece => piece.kind.isTrivia ∧
      (piece.kind.isComment = true → piece.unterminated = false)) = true := by decide +kernel
  have trivia := trivia_of_pieces fun piece mem =>
    of_decide_eq_true (List.all_eq_true.mp fills piece mem)
  have same : (pieces (source.slice span)).flatMap Piece.trivia = items := by decide +kernel
  rw [same] at trivia
  obtain ⟨-, accepts, texts⟩ := read_grammar source span
  obtain ⟨unique, found⟩ := accepts items trivia
  have found : read source span = .ok gap := found.trans (congrArg _ (by decide +kernel))
  exact ⟨trivia, unique, found, texts gap found comment (by decide +kernel)⟩

end Gap

end ItemLayout
