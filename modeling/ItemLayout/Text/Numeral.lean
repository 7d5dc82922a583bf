import ItemLayout.Text.Basic
import ItemLayout.Character.Numeric

namespace ItemLayout.Numeral

def maxDigits : Nat := 4300

/-- The blanks that may surround an integer: all but the four information separators. -/
def isPadding (c : Char) : Bool :=
  isBlank c && !(0x1C ≤ c.toNat && c.toNat ≤ 0x1F)

def strip (t : Text) : Text :=
  ((t.dropWhile isPadding).reverse.dropWhile isPadding).reverse

def digits? : Text → Option (List Nat)
  | [] => none
  | [c] => (decimalDigit? c).map ([·])
  | c :: '_' :: rest => do
      let digit ← decimalDigit? c
      return digit :: (← digits? rest)
  | c :: rest => do
      let digit ← decimalDigit? c
      return digit :: (← digits? rest)

def ofDigits (digits : List Nat) : Nat := digits.foldl (fun n digit => 10 * n + digit) 0

def magnitude? (t : Text) : Option Nat := do
  let digits ← digits? t
  if digits.length ≤ maxDigits then some (ofDigits digits) else none

def read? (t : Text) : Option Int :=
  match strip t with
  | '-' :: rest => (magnitude? rest).map fun n => -(n : Int)
  | '+' :: rest => (magnitude? rest).map fun n => (n : Int)
  | rest => (magnitude? rest).map fun n => (n : Int)

end ItemLayout.Numeral
