import ItemLayout.Text.Basic

namespace ItemLayout

namespace Offset

inductive Fault where
  | negative
  | negativeDifference
  deriving DecidableEq, Repr

def Fault.message : Fault → String
  | .negative => "TextSize cannot be negative"
  | .negativeDifference => "Resulting TextSize cannot be negative"

def ofInt (n : Int) : Except Fault Nat :=
  if n < 0 then .error .negative else .ok n.toNat

def sub (a b : Nat) : Except Fault Nat :=
  if a < b then .error .negativeDifference else .ok (a - b)

def describe (n : Nat) : String := s!"TextSize({n})"

end Offset

structure Span where
  start : Nat
  stop : Nat
  ordered : start ≤ stop
  deriving DecidableEq, Repr

namespace Span

inductive Fault where
  | negative
  | reversed
  deriving DecidableEq, Repr

def Fault.message : Fault → String
  | .negative => "TextRange positions cannot be negative"
  | .reversed => "TextRange invariant violated: start > end"

def ofInts (start stop : Int) : Except Fault Span :=
  if start < 0 ∨ stop < 0 then .error .negative
  else if h : start ≤ stop then .ok ⟨start.toNat, stop.toNat, Int.toNat_le_toNat h⟩
  else .error .reversed

def emptyAt (offset : Nat) : Span := ⟨offset, offset, Nat.le_refl _⟩

def ofLength (offset length : Nat) : Span := ⟨offset, offset + length, Nat.le_add_right _ _⟩

def nowhere : Span := emptyAt 0

def length (s : Span) : Nat := s.stop - s.start

def isEmpty (s : Span) : Bool := s.start == s.stop

def contains (s other : Span) : Bool := s.start ≤ other.start && other.stop ≤ s.stop

/-- What lies between two spans: empty at the start of the second if they touch or overlap. -/
def gapTo (s other : Span) : Span :=
  if h : other.start ≤ s.stop then emptyAt other.start
  else ⟨s.stop, other.start, Nat.le_of_not_le h⟩

/-- Where a span lies: before another one, after it, or neither. Touching spans do not overlap. -/
def relation (s other : Span) : Ordering :=
  if s.stop ≤ other.start then .lt else if other.stop ≤ s.start then .gt else .eq

instance : Ord Span where
  compare s other := (compare s.start other.start).then (compare s.stop other.stop)

def describe (s : Span) : String := s!"TextRange({s.start}, {s.stop})"

end Span

/-- The part of a text that a span covers, as far as the text goes. -/
def Text.slice (t : Text) (s : Span) : Text := (t.drop s.start).take s.length

end ItemLayout
