import ItemLayout.Proofs.Text.Blanks
import ItemLayout.Proofs.Token.Pieces

namespace ItemLayout

/-- A text in which no comment and no literal starts. -/
def Plain (t : Text) : Prop := ∀ c ∈ t, c ≠ '/' ∧ c ≠ '\'' ∧ c ≠ '"'

instance (t : Text) : Decidable (Plain t) := List.decidableBAll _ t

def isWhite (c : Char) : Bool := isSpacing c || isBreak c

def White (t : Text) : Prop := ∀ c ∈ t, isWhite c = true

theorem white_nil : White [] := by simp [White]

theorem white_space : White [' '] := by simp [White, isWhite, isSpacing]

theorem White.append {a b : Text} (left : White a) (right : White b) : White (a ++ b) := by
  intro c mem
  rcases List.mem_append.mp mem with mem | mem
  · exact left c mem
  · exact right c mem

def isJoint (c : Char) : Bool := c == '/' || isWhite c

def AtComment (t : Text) : Prop := ∀ c ∈ t.head?, c = '/'

def AtJoint (t : Text) : Prop := ∀ c ∈ t.head?, isJoint c = true

def AtBreak (t : Text) : Prop := ∀ c ∈ t.head?, isBreak c = true

theorem Plain.of_append {a b : Text} (plain : Plain (a ++ b)) : Plain a ∧ Plain b :=
  List.forall_mem_append.mp plain

theorem Plain.append {a b : Text} (left : Plain a) (right : Plain b) : Plain (a ++ b) :=
  List.forall_mem_append.mpr ⟨left, right⟩

theorem Plain.drop {t : Text} (plain : Plain t) (n : Nat) : Plain (t.drop n) :=
  fun c mem => plain c (List.mem_of_mem_drop mem)

theorem AtComment.atJoint {t : Text} (comment : AtComment t) : AtJoint t := by
  intro c head
  rw [comment c head]
  rfl

/-! ## Classes of characters -/

def whites : List Char :=
  [' ', '\t', '\x0b', '\x0c', '\u200e', '\u200f', '\r', '\n', '\u0085', '\u2028', '\u2029']

theorem mem_whites {c : Char} (white : isWhite c = true) : c ∈ whites := by
  simpa [whites, isWhite, isSpacing, isBreak, or_assoc] using white

theorem White.plain {t : Text} (white : White t) : Plain t := by
  intro c mem
  have table : whites.all (fun d => d ≠ '/' ∧ d ≠ '\'' ∧ d ≠ '"') = true := by decide
  exact of_decide_eq_true (List.all_eq_true.mp table c (mem_whites (white c mem)))

theorem mem_of_isJoint {c : Char} (joint : isJoint c = true) : c ∈ '/' :: whites := by
  rw [isJoint, Bool.or_eq_true, beq_iff_eq] at joint
  rcases joint with rfl | white
  · exact List.mem_cons_self
  · exact List.mem_cons_of_mem _ (mem_whites white)

theorem isJoint_spec {c : Char} (joint : isJoint c = true) :
    isWordPart c = false ∧ isDigit c = false ∧ c ≠ '.' ∧ c ≠ '#' ∧ c ≠ '"' := by
  have table : ('/' :: whites).all (fun d =>
      isWordPart d = false ∧ isDigit d = false ∧ d ≠ '.' ∧ d ≠ '#' ∧ d ≠ '"') = true := by
    decide +kernel
  exact of_decide_eq_true (List.all_eq_true.mp table c (mem_of_isJoint joint))

theorem isWordStart_of_isJoint {c : Char} (joint : isJoint c = true) : isWordStart c = false := by
  have part := (isJoint_spec joint).1
  simp only [isWordPart, isWordStart, Bool.or_eq_false_iff] at part ⊢
  exact ⟨part.1.1, part.2⟩

/-! ## Words and numbers -/

theorem wordLength_append {r : Text} (joint : AtJoint r) (t : Text) :
    wordLength (t ++ r) = wordLength t := by
  unfold wordLength
  induction t with
  | nil =>
      cases r with
      | nil => rfl
      | cons d r => simp [(isJoint_spec (joint d rfl)).1]
  | cons c t ih => cases part : isWordPart c <;> simp [part, ih]

theorem numberLength_append {r : Text} (joint : AtJoint r) (t : Text) :
    numberLength (t ++ r) = numberLength t := by
  induction t with
  | nil =>
      cases r with
      | nil => rfl
      | cons d r =>
          obtain ⟨part, -, point, -⟩ := isJoint_spec (joint d rfl)
          simp [numberLength, part, point]
  | cons c t ih =>
      have ahead : (t ++ r).head?.any isDigit = t.head?.any isDigit := by
        cases t with
        | cons d t => rfl
        | nil =>
            cases r with
            | nil => rfl
            | cons d r => simp [(isJoint_spec (joint d rfl)).2.1]
      rw [List.cons_append, numberLength, numberLength, ahead, ih]

theorem rawString?_append {r : Text} (joint : AtJoint r) (letters : Nat) {t : Text}
    (plain : Plain t) : rawString? letters (t ++ r) = none := by
  have noQuote : ∀ body, (t ++ r).dropWhile (· == '#') ≠ '"' :: body := by
    intro body
    induction t with
    | nil =>
        cases r with
        | nil => simp
        | cons d r =>
            obtain ⟨-, -, -, hash, quote⟩ := isJoint_spec (joint d rfl)
            simp [hash, quote]
    | cons c t ih =>
        by_cases hash : c = '#'
        · simpa [hash] using ih fun d mem => plain d (List.mem_cons_of_mem _ mem)
        · simp [hash, (plain c List.mem_cons_self).2.2]
  simp only [rawString?, Text.drop_length_takeWhile]

theorem rawIdentifier?_of_ne {c d : Char} (t : Text) (unmarked : ¬(c = 'r' ∧ d = '#')) :
    rawIdentifier? (c :: d :: t) = none := by
  unfold rawIdentifier?
  split
  · simp_all
  · rfl

theorem rawIdentifier?_append {r : Text} (joint : AtJoint r) {t : Text} (more : t ≠ []) :
    rawIdentifier? (t ++ r) = rawIdentifier? t := by
  match t with
  | [] => contradiction
  | [c] =>
      cases r with
      | nil => rfl
      | cons d r =>
          have hash := (isJoint_spec (joint d rfl)).2.2.2.1
          rw [List.singleton_append, rawIdentifier?_of_ne r fun marked => hash marked.2]
          simp [rawIdentifier?]
  | c :: d :: t =>
      by_cases marked : c = 'r' ∧ d = '#'
      · obtain ⟨rfl, rfl⟩ := marked
        cases t with
        | cons e t => simp only [rawIdentifier?, List.cons_append, wordLength_append joint]
        | nil =>
            cases r with
            | nil => rfl
            | cons e r => simp [rawIdentifier?, isWordStart_of_isJoint (joint e rfl)]
      · rw [List.cons_append, List.cons_append, rawIdentifier?_of_ne _ marked,
          rawIdentifier?_of_ne _ marked]

/-! ## The first token -/

theorem literal?_append {c : Char} {t r : Text} (plain : Plain (c :: t)) (joint : AtJoint r) :
    literal? (c :: (t ++ r)) = none := by
  obtain ⟨-, quote, doubleQuote⟩ := plain c List.mem_cons_self
  have rest : Plain t := fun d mem => plain d (List.mem_cons_of_mem _ mem)
  -- The letters in front of a literal are plain, so what follows them is to be looked at.
  unfold literal?
  split
  · simp_all
  · simp_all
  · rename_i rest' split
    rw [← (List.cons.inj split).2]
    exact rawString?_append joint 1 rest
  · rename_i rest' split
    have split := (List.cons.inj split).2
    cases t with
    | nil =>
        rw [List.nil_append] at split
        subst split
        exact absurd rfl (isJoint_spec (joint '"' rfl)).2.2.2.2
    | cons d t => exact absurd (List.cons.inj split).1 (rest d List.mem_cons_self).2.2
  · rename_i rest' split
    have split := (List.cons.inj split).2
    cases t with
    | nil =>
        rw [List.nil_append] at split
        subst split
        exact absurd (isJoint_spec (joint 'r' rfl)).1 (by decide)
    | cons d t =>
        rw [← (List.cons.inj split).2]
        exact rawString?_append joint 2 fun e mem => rest e (List.mem_cons_of_mem _ mem)
  · rfl

theorem scan_append_of_not_white {c : Char} {t r : Text} (plain : Plain (c :: t))
    (white : isWhite c = false) (joint : AtJoint r) : scan (c :: t ++ r) = scan (c :: t) := by
  have slash := (plain c List.mem_cons_self).1
  have literal := literal?_append plain joint
  have literal' := literal?_append (r := []) plain (by simp [AtJoint])
  have word : word? (c :: (t ++ r)) = word? (c :: t) := by
    have marked := rawIdentifier?_append joint (List.cons_ne_nil c t)
    rw [List.cons_append] at marked
    simp only [word?, numberLength_append joint, wordLength_append joint, marked]
  rw [List.append_nil] at literal'
  rw [List.cons_append]
  rw [isWhite, Bool.or_eq_false_iff] at white
  simp [scan, trivia?_cons _ slash, white, literal, literal', word, symbol]

theorem scan_break {c : Char} (t : Text) (breaks : isBreak c = true) :
    scan (c :: t) =
      { kind := .lineBreak, length := if c = '\r' ∧ t.head? = some '\n' then 2 else 1 } := by
  apply scan_eq_of_trivia?
  rw [trivia?_cons t (by rintro rfl; simp [isBreak] at breaks), if_pos breaks]

theorem scan_spacing {c : Char} (t : Text) (spacing : isSpacing c = true) :
    scan (c :: t) = { kind := .spacing, length := 1 + (t.takeWhile isSpacing).length } := by
  have unbroken : isBreak c = false := by
    have table : whites.all (fun d => isSpacing d = true → isBreak d = false) = true := by decide
    have white : c ∈ whites := mem_whites (by simp [isWhite, spacing])
    exact of_decide_eq_true (List.all_eq_true.mp table c white) spacing
  apply scan_eq_of_trivia?
  rw [trivia?_cons t (by rintro rfl; simp [isSpacing] at spacing)]
  simp [unbroken, spacing]

theorem scan_append_of_white {c : Char} (t : Text) {r : Text} (white : isWhite c = true)
    (comment : AtComment r) : scan (c :: t ++ r) = scan (c :: t) := by
  rw [isWhite, Bool.or_eq_true] at white
  rcases white with spacing | breaks
  · have stop : r.takeWhile isSpacing = [] := by
      cases r with
      | nil => rfl
      | cons d r => simp [comment d rfl, isSpacing]
    rw [List.cons_append, scan_spacing _ spacing, scan_spacing _ spacing, List.takeWhile_append,
      stop]
    split
    · simp_all
    · rfl
  · have head : (t ++ r).head? = some '\n' ↔ t.head? = some '\n' := by
      cases t with
      | cons d t => rfl
      | nil =>
          cases r with
          | nil => rfl
          | cons d r => simp [comment d rfl]
    rw [List.cons_append, scan_break _ breaks, scan_break _ breaks]
    simp only [head]

theorem scan_append {t r : Text} (more : t ≠ []) (plain : Plain t) (comment : AtComment r) :
    scan (t ++ r) = scan t := by
  obtain ⟨c, t, rfl⟩ := List.exists_cons_of_ne_nil more
  cases white : isWhite c with
  | false => exact scan_append_of_not_white plain white comment.atJoint
  | true => exact scan_append_of_white t white comment

/-! ## All tokens -/

theorem pieces_append_of_scan {t r : Text} (more : t ≠ []) (same : scan (t ++ r) = scan t) :
    pieces (t ++ r) = .front t :: pieces (t.drop (scan t).length ++ r) := by
  have bound := scan_length_le more
  have longer : t ++ r ≠ [] := by simp [more]
  rw [pieces_of_ne_nil longer, Piece.front, same, List.take_append_of_le_length bound,
    List.drop_append_of_le_length bound]
  rfl

theorem pieces_append {t r : Text} (plain : Plain t) (comment : AtComment r) :
    pieces (t ++ r) = pieces t ++ pieces r := by
  induction t using pieces_induction with
  | nil => simp
  | cut t more ih =>
      rw [pieces_append_of_scan more (scan_append more plain comment), ih (plain.drop _),
        pieces_of_ne_nil more, List.cons_append]

/-! ## Tokens that are not spacing -/

def Piece.isWhite (piece : Piece) : Bool := piece.kind == .spacing || piece.kind == .lineBreak

def solid (t : Text) : List Piece := (pieces t).filter (!·.isWhite)

@[simp] theorem solid_nil : solid [] = [] := by simp [solid]

theorem solid_of_spacing {c : Char} (t : Text) (spacing : isSpacing c = true) :
    solid (c :: t) = solid (t.dropWhile isSpacing) := by
  have length : (scan (c :: t)).length = (t.takeWhile isSpacing).length + 1 := by
    rw [scan_spacing t spacing, Nat.add_comm]
  have kind : (Piece.front (c :: t)).isWhite = true := by
    simp [Piece.front, Piece.isWhite, scan_spacing t spacing]
  rw [solid, pieces_of_ne_nil (List.cons_ne_nil c t), length, List.drop_succ_cons,
    Text.drop_length_takeWhile]
  simp [kind, solid]

theorem solid_dropWhile (t : Text) : solid (t.dropWhile isSpacing) = solid t := by
  cases t with
  | nil => rfl
  | cons c t =>
      cases spacing : isSpacing c with
      | false => simp [spacing]
      | true => simp [spacing, solid_of_spacing t spacing]

theorem solid_of_break {c : Char} (t : Text) (breaks : isBreak c = true) :
    solid (c :: t) = solid (if c = '\r' ∧ t.head? = some '\n' then t.tail else t) := by
  have kind : (Piece.front (c :: t)).isWhite = true := by
    simp [Piece.front, Piece.isWhite, scan_break t breaks]
  rw [solid, pieces_of_ne_nil (List.cons_ne_nil c t), scan_break t breaks]
  split
  · simp [kind, solid]
  · simp [kind, solid]

theorem solid_cons {c : Char} (t : Text) (white : isWhite c = true) : solid (c :: t) = solid t := by
  rw [ItemLayout.isWhite, Bool.or_eq_true] at white
  rcases white with spacing | breaks
  · rw [solid_of_spacing t spacing, solid_dropWhile]
  · rw [solid_of_break t breaks]
    split
    · rename_i pair
      obtain ⟨rest, rfl⟩ := List.head?_eq_some_iff.mp pair.2
      rw [solid_of_break rest (by decide), if_neg (by simp)]
      rfl
    · rfl

theorem solid_white_append {t : Text} (r : Text) (white : White t) :
    solid (t ++ r) = solid r := by
  induction t with
  | nil => rfl
  | cons c t ih =>
      rw [List.cons_append, solid_cons _ (white c List.mem_cons_self)]
      exact ih fun d mem => white d (List.mem_cons_of_mem _ mem)

theorem White.pieces {t : Text} (white : White t) : (pieces t).filter (!·.isWhite) = [] := by
  have none := solid_white_append [] white
  rw [List.append_nil, solid_nil] at none
  exact none

theorem solid_append {t r : Text} (plain : Plain t) (joint : AtJoint r) :
    solid (t ++ r) = solid t ++ solid r := by
  cases t with
  | nil => simp
  | cons c t =>
      cases white : isWhite c with
      | true =>
          -- The character is left out on both sides, also where it merges with what follows.
          rw [List.cons_append, solid_cons _ white, solid_cons _ white]
          exact solid_append (fun d mem => plain d (List.mem_cons_of_mem _ mem)) joint
      | false =>
          have more := List.cons_ne_nil c t
          have same := scan_append_of_not_white plain white joint
          have shorter := scan_length_pos (c :: t)
          have rest := solid_append (plain.drop (scan (c :: t)).length) joint
          unfold solid at rest ⊢
          rw [pieces_append_of_scan more same, pieces_of_ne_nil more, List.filter_cons,
            List.filter_cons, rest]
          split <;> rfl
termination_by t.length
decreasing_by
  all_goals
    subst_vars
    simp only [List.length_cons, List.length_drop]
    omega

/-! ## Texts that go on -/

/-- However a text goes on where words end, its tokens come first. -/
def Reads (t : Text) (ps : List Piece) : Prop :=
  ∀ r, AtJoint r → solid (t ++ r) = ps ++ solid r

theorem Plain.reads {t : Text} (plain : Plain t) : Reads t (solid t) :=
  fun _ joint => solid_append plain joint

theorem White.atJoint {t : Text} (white : White t) (more : t ≠ []) (r : Text) :
    AtJoint (t ++ r) := by
  obtain ⟨c, t, rfl⟩ := List.exists_cons_of_ne_nil more
  rintro _ ⟨⟩
  simp [isJoint, white c List.mem_cons_self]

theorem Reads.append {t divider u : Text} {ps qs : List Piece} (first : Reads t ps)
    (white : White divider) (more : divider ≠ []) (second : Reads u qs) :
    Reads (t ++ divider ++ u) (ps ++ qs) := by
  intro r joint
  rw [List.append_assoc, List.append_assoc, first _ (white.atJoint more _),
    solid_white_append _ white, second r joint, List.append_assoc]

theorem Reads.solid_eq {t : Text} {ps : List Piece} (reads : Reads t ps) : solid t = ps := by
  simpa using reads [] (by simp [AtJoint])

end ItemLayout
