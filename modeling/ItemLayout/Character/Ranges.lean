namespace ItemLayout

/-- A class of characters: the first and the last code point of each run, in ascending order. -/
abbrev CodeRanges := List (Nat × Nat)

def CodeRanges.contains (ranges : CodeRanges) (code : Nat) : Bool :=
  ranges.any fun run => run.1 ≤ code && code ≤ run.2

end ItemLayout
