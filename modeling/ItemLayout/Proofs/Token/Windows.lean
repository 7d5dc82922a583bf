import ItemLayout.Proofs.Comment.Gap
import ItemLayout.Proofs.Token.Cuts
import ItemLayout.Proofs.Token.Lossless

namespace ItemLayout

/-! ## Tilings -/

namespace Tiles

instance decidable : (start stop : Nat) → (tokens : List Token) →
    Decidable (Tiles start stop tokens)
  | start, stop, [] => inferInstanceAs (Decidable (start = stop))
  | start, stop, token :: tokens =>
      have := decidable token.span.stop stop tokens
      inferInstanceAs (Decidable (token.span.start = start ∧ start < token.span.stop ∧
        Tiles token.span.stop stop tokens))

variable {start stop : Nat} {tokens : List Token} {token : Token}

theorem append {a b : List Token} :
    Tiles start stop (a ++ b) ↔ ∃ middle, Tiles start middle a ∧ Tiles middle stop b := by
  induction a generalizing start with
  | nil =>
      constructor
      · intro tiles
        exact ⟨start, rfl, tiles⟩
      · rintro ⟨_, rfl, tiles⟩
        exact tiles
  | cons token a ih =>
      rw [List.cons_append, Tiles, ih]
      constructor
      · rintro ⟨first, more, middle, left, right⟩
        exact ⟨middle, ⟨first, more, left⟩, right⟩
      · rintro ⟨middle, ⟨first, more, left⟩, right⟩
        exact ⟨first, more, middle, left, right⟩

theorem start_le_stop (tiles : Tiles start stop tokens) : start ≤ stop :=
  Nat.le_trans (Nat.le_add_right _ _) tiles.length_le

theorem bounds (tiles : Tiles start stop tokens) (mem : token ∈ tokens) :
    start ≤ token.span.start ∧ token.span.start < token.span.stop ∧ token.span.stop ≤ stop := by
  obtain ⟨before, after, rfl⟩ := List.append_of_mem mem
  obtain ⟨middle, left, first, more, right⟩ := append.mp tiles
  rw [first]
  exact ⟨left.start_le_stop, more, right.start_le_stop⟩

theorem at_index {i : Nat} (tiles : Tiles start stop tokens) (here : tokens[i]? = some token) :
    Tiles start token.span.start (tokens.take i) ∧ Tiles token.span.start stop (tokens.drop i) ∧
      Tiles start token.span.stop (tokens.take (i + 1)) ∧
      Tiles token.span.stop stop (tokens.drop (i + 1)) := by
  obtain ⟨inside, rfl⟩ := List.getElem?_eq_some_iff.mp here
  have whole := List.take_append_drop i tokens
  rw [List.drop_eq_getElem_cons inside] at whole
  rw [← whole] at tiles
  obtain ⟨middle, left, first, more, right⟩ := append.mp tiles
  subst first
  rw [List.drop_eq_getElem_cons inside, List.take_add_one, here]
  exact ⟨left, ⟨rfl, more, right⟩, append.mpr ⟨_, left, rfl, more, rfl⟩, right⟩

theorem eq_of_covers {offset : Nat} {a b : Token} (tiles : Tiles start stop tokens)
    (first : a ∈ tokens) (second : b ∈ tokens)
    (inside : a.span.start ≤ offset ∧ offset < a.span.stop)
    (inside' : b.span.start ≤ offset ∧ offset < b.span.stop) : a = b := by
  obtain ⟨before, after, rfl⟩ := List.append_of_mem first
  obtain ⟨middle, left, here, -, right⟩ := append.mp tiles
  rcases List.mem_append.mp second with mem | mem
  · have bounds := left.bounds mem
    omega
  · rcases List.mem_cons.mp mem with rfl | mem
    · rfl
    · have bounds := right.bounds mem
      omega

end Tiles

theorem Text.slice_append (source : Text) {a b c : Nat} (first : a ≤ b) (second : b ≤ c) :
    source.slice ⟨a, b, first⟩ ++ source.slice ⟨b, c, second⟩ =
      source.slice ⟨a, c, Nat.le_trans first second⟩ := by
  simp only [Text.slice, Span.length]
  rw [← Nat.sub_add_sub_cancel second first, Nat.add_comm (c - b), List.take_add, List.drop_drop,
    Nat.add_sub_cancel' first]

theorem Tiles.flatMap_slice (source : Text) {start stop : Nat} {tokens : List Token}
    (tiles : Tiles start stop tokens) :
    tokens.flatMap (fun token => source.slice token.span) =
      source.slice ⟨start, stop, tiles.start_le_stop⟩ := by
  induction tokens generalizing start with
  | nil =>
      obtain rfl : start = stop := tiles
      simp [Text.slice, Span.length]
  | cons token tokens ih =>
      obtain ⟨rfl, more, rest⟩ := tiles
      rw [List.flatMap_cons, ih rest, Text.slice_append]

/-! ## The tokens of a window -/

theorem Cursor.exists_window (source : Text) (window : Option Span) : ∃ covered : Span,
    window.elim (ofSource source) (ofWindow source) = ofWindow source covered ∧
      (window.elim source.length fun window => min window.stop source.length) =
        min covered.stop source.length := by
  cases window with
  | none => exact ⟨.ofLength 0 source.length, rfl, by simp [Span.ofLength]⟩
  | some window => exact ⟨window, rfl, rfl⟩

theorem tiles_tokensIn (source : Text) (window : Span) :
    Tiles window.start (max window.start (min window.stop source.length))
      (tokensIn source window) := by
  obtain ⟨body, last, tokens, -, -, -, tiles, -⟩ := Cursor.ofWindow_lossless source window
  rwa [tokensIn, tokens, List.dropLast_concat]

theorem kind_of_mem_tokensIn {source : Text} {window : Span} {token : Token}
    (mem : token ∈ tokensIn source window) : token.kind ≠ .endOfText := by
  have piece := List.mem_map_of_mem (f := Token.piece source) mem
  rw [map_piece_tokensIn] at piece
  exact kind_ne_endOfText_of_mem_pieces piece

theorem text_of_mem_tokensIn {source : Text} {window : Span} {token : Token}
    (mem : token ∈ tokensIn source window) : token.text source = source.slice token.span := by
  rw [Token.text, if_neg (kind_of_mem_tokensIn mem)]

theorem stop_of_mem_tokensIn {source : Text} {window : Span} {token : Token}
    (mem : token ∈ tokensIn source window) : token.span.stop ≤ source.length := by
  have bounds := (tiles_tokensIn source window).bounds mem
  omega

theorem length_of_mem_tokensIn {source : Text} {window : Span} {token : Token}
    (mem : token ∈ tokensIn source window) :
    token.span.start + (token.text source).length = token.span.stop := by
  have bound := stop_of_mem_tokensIn mem
  have ordered := token.span.ordered
  rw [text_of_mem_tokensIn mem, Text.length_slice]
  omega

def Token.alone (token : Token) : Token := { token with afterBreak := false }

theorem map_alone_place {source : Text} {start stop : Nat} {tokens : List Token} (afterBreak : Bool)
    (tiles : Tiles start stop tokens)
    (inside : ∀ token ∈ tokens, (token.text source).length = token.span.length) :
    (place start afterBreak (tokens.map (Token.piece source))).map Token.alone =
      tokens.map Token.alone := by
  induction tokens generalizing start afterBreak with
  | nil => rfl
  | cons token tokens ih =>
      obtain ⟨rfl, more, rest⟩ := tiles
      obtain ⟨length, inside⟩ := List.forall_mem_cons.mp inside
      have stop : token.span.start + (token.piece source).text.length = token.span.stop := by
        have ordered := token.span.ordered
        rw [show (token.piece source).text = token.text source from rfl, length, Span.length]
        omega
      have span : Span.ofLength token.span.start (token.piece source).text.length = token.span := by
        simp only [Span.ofLength, stop]
      rw [List.map_cons, place, List.map_cons, stop, ih _ rest inside, List.map_cons]
      simp only [Token.alone, span]
      rfl

theorem flatMap_text_run {source : Text} {window : Span} {start stop : Nat} {run : List Token}
    (tiles : Tiles start stop run) (mem : ∀ token ∈ run, token ∈ tokensIn source window) :
    (run.map (Token.piece source)).flatMap Piece.text =
      source.slice ⟨start, stop, tiles.start_le_stop⟩ := by
  rw [← tiles.flatMap_slice source, List.flatMap_map, List.flatMap_def, List.flatMap_def]
  exact congrArg List.flatten
    (List.map_congr_left fun token here => text_of_mem_tokensIn (mem token here))

theorem tokensIn_run {source : Text} {window span : Span} {before run after : List Token}
    (split : tokensIn source window = before ++ run ++ after)
    (tiles : Tiles span.start span.stop run) :
    (tokensIn source span).map Token.alone = run.map Token.alone := by
  have mem : ∀ token ∈ run, token ∈ tokensIn source window := by
    intro token mem
    rw [split]
    exact List.mem_append_left _ (List.mem_append_right _ mem)
  have cut := map_piece_tokensIn source window
  rw [split, List.map_append, List.map_append] at cut
  have text : (run.map (Token.piece source)).flatMap Piece.text = source.slice span :=
    flatMap_text_run tiles mem
  have alone := pieces_run cut.symm
  rw [tokensIn_eq_place, ← text, alone]
  refine map_alone_place false tiles fun token here => ?_
  have bound := stop_of_mem_tokensIn (mem token here)
  rw [text_of_mem_tokensIn (mem token here), Text.length_slice, Span.length]
  omega

/-! ## The first token of what is left -/

theorem front_of_split {source : Text} {window : Span} {before after : List Token} {token : Token}
    (split : tokensIn source window = before ++ token :: after) :
    let left := (source.take (min window.stop source.length)).drop token.span.start
    left ≠ [] ∧ Piece.front left = token.piece source ∧
      pieces (left.drop (scan left).length) = after.map (Token.piece source) := by
  intro left
  have tiles := tiles_tokensIn source window
  have cut := map_piece_tokensIn source window
  have mem : ∀ other ∈ token :: after, other ∈ tokensIn source window := by
    rw [split]
    exact fun other here => List.mem_append_right before here
  rw [split] at tiles
  obtain ⟨start, -, run⟩ := Tiles.append.mp tiles
  obtain rfl := run.1
  have text : ((token :: after).map (Token.piece source)).flatMap Piece.text = left := by
    have bounds := (tiles_tokensIn source window).bounds (mem token List.mem_cons_self)
    rw [flatMap_text_run run mem, Text.slice_eq_drop_take]
    congr 2
    simp only
    omega
  rw [split, List.map_append] at cut
  have whole := pieces_behind cut.symm
  rw [text] at whole
  have more : left ≠ [] := by
    intro none
    rw [none, pieces_nil] at whole
    cases whole
  rw [pieces_of_ne_nil more] at whole
  exact ⟨more, List.cons.inj whole⟩

/-! ## From one token to another -/

theorem Span.gapTo_bounds {a b : Span} (apart : a.stop ≤ b.start) :
    (a.gapTo b).start = a.stop ∧ (a.gapTo b).stop = b.start := by
  unfold Span.gapTo
  split
  · rename_i touching
    exact ⟨Nat.le_antisymm touching apart, rfl⟩
  · exact ⟨rfl, rfl⟩

theorem take_drop_split (tokens : List Token) {i j : Nat} (ordered : i ≤ j) :
    tokens = tokens.take i ++ (tokens.take j).drop i ++ tokens.drop j := by
  have front : tokens.take i = (tokens.take j).take i := by
    rw [List.take_take, Nat.min_eq_left ordered]
  rw [front, List.take_append_drop, List.take_append_drop]

theorem Gap.read_comments_of_tokens {source : Text} {span : Span} {tokens : List Token} {gap : Gap}
    (same : (tokensIn source span).map Token.alone = tokens.map Token.alone)
    (found : Gap.read source span = .ok gap) :
    gap.comments.map (fun comment => (comment.span, comment.kind, comment.text)) =
      (tokens.filter (·.kind.isComment)).map fun token =>
        (token.span, token.kind, (source.slice token.span).trimRight) := by
  have forget (ts : List Token) :
      (ts.filter (·.kind.isComment)).map (fun token =>
        (token.span, token.kind, (source.slice token.span).trimRight)) =
      ((ts.map Token.alone).filter (·.kind.isComment)).map fun token =>
        (token.span, token.kind, (source.slice token.span).trimRight) := by
    rw [List.filter_map, List.map_map]
    rfl
  rw [ofTokens_comments found, forget, same, ← forget]

theorem tokensIn_between_tokens (source : Text) (window : Option Span) :
    let tokens := (window.elim (Cursor.ofSource source) (Cursor.ofWindow source)).run.1.dropLast
    ∀ (i j : Nat) (first last : Token),
      i ≤ j → tokens[i]? = some first → tokens[j]? = some last →
      (∃ forward : first.span.start ≤ last.span.stop,
        (tokensIn source ⟨first.span.start, last.span.stop, forward⟩).map Token.alone =
          ((tokens.take (j + 1)).drop i).map Token.alone) ∧
      (i < j →
        (tokensIn source (first.span.gapTo last.span)).map Token.alone =
          ((tokens.take j).drop (i + 1)).map Token.alone ∧
        ∀ gap, Gap.read source (first.span.gapTo last.span) = .ok gap →
          gap.comments.map (fun comment => (comment.span, comment.kind, comment.text)) =
            (((tokens.take j).drop (i + 1)).filter (·.kind.isComment)).map fun token =>
              (token.span, token.kind, (token.text source).trimRight)) := by
  obtain ⟨covered, whole⟩ : ∃ covered, tokensIn source covered =
      (window.elim (Cursor.ofSource source) (Cursor.ofWindow source)).run.1.dropLast := by
    cases window with
    | none => exact ⟨.ofLength 0 source.length, rfl⟩
    | some window => exact ⟨window, rfl⟩
  rw [← whole]
  intro tokens i j first last ordered starts ends
  obtain ⟨front, -, upTo, -⟩ := (tiles_tokensIn source covered).at_index ends
  refine ⟨?_, fun apart => ?_⟩
  · have here : (tokens.take (j + 1))[i]? = some first := by
      rwa [List.getElem?_take_of_lt (Nat.lt_succ_of_le ordered)]
    obtain ⟨-, run, -, -⟩ := upTo.at_index here
    exact ⟨run.start_le_stop,
      tokensIn_run (take_drop_split tokens (Nat.le_succ_of_le ordered)) run⟩
  · have here : (tokens.take j)[i]? = some first := by
      rwa [List.getElem?_take_of_lt apart]
    obtain ⟨-, -, -, run⟩ := front.at_index here
    obtain ⟨start, stop⟩ := Span.gapTo_bounds run.start_le_stop
    rw [← start, ← stop] at run
    have same := tokensIn_run (take_drop_split tokens apart) run
    refine ⟨same, fun gap found => ?_⟩
    rw [Gap.read_comments_of_tokens same found]
    refine List.map_congr_left fun token mem => ?_
    have inside : token ∈ tokensIn source covered :=
      List.mem_of_mem_take (List.mem_of_mem_drop (List.mem_filter.mp mem).1)
    rw [text_of_mem_tokensIn inside]

theorem tokensIn_between_tokens_raw_string :
    let source := "a.1 /* // */ r#\"/*\"# 'b // c".toList
    let tokens := (Cursor.ofSource source).run.1.dropLast
    let first : Token := { kind := .number, span := .ofLength 2 1 }
    let last : Token := { kind := .string, span := .ofLength 13 7, raw := true }
    let gap : Gap := ⟨[⟨"/* // */".toList, .ofLength 4 8, false, false, 4⟩], false⟩
    (tokens[2]? = some first ∧ tokens[6]? = some last ∧
        Gap.read source (first.span.gapTo last.span) = .ok gap) ∧
      (∃ forward : first.span.start ≤ last.span.stop,
        (tokensIn source ⟨first.span.start, last.span.stop, forward⟩).map Token.alone =
          ((tokens.take 7).drop 2).map Token.alone) ∧
      (tokensIn source (first.span.gapTo last.span)).map Token.alone =
        ((tokens.take 6).drop 3).map Token.alone ∧
      gap.comments.map (fun comment => (comment.span, comment.kind, comment.text)) =
        (((tokens.take 6).drop 3).filter (·.kind.isComment)).map fun token =>
          (token.span, token.kind, (token.text source).trimRight) := by
  intro source tokens first last gap
  have starts : tokens[2]? = some first := by decide +kernel
  have ends : tokens[6]? = some last := by decide +kernel
  have found : Gap.read source (first.span.gapTo last.span) = .ok gap :=
    eq_ok_of_toOption (by decide +kernel)
  obtain ⟨run, between⟩ :=
    tokensIn_between_tokens source none 2 6 first last (by decide) starts ends
  obtain ⟨same, comments⟩ := between (by decide)
  exact ⟨⟨starts, ends, found⟩, run, same, comments gap found⟩

end ItemLayout
