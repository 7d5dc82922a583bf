import ItemLayout.Text.Basic
import ItemLayout.Character.Printable

/-!
# Quoted texts

How a text is shown in messages and listings: in single quotes, or in double quotes if it holds a
single quote and no double one. The quote in use, the backslash, and every unprintable character are
escaped, the last by the shortest of the two-, four- and eight-digit hexadecimal forms.
-/

namespace ItemLayout.Text

def hex (width n : Nat) : Text :=
  let digits := Nat.toDigits 16 n
  List.replicate (width - digits.length) '0' ++ digits

def escape (quote c : Char) : Text :=
  if c == quote || c == '\\' then ['\\', c]
  else if c == '\n' then ['\\', 'n']
  else if c == '\r' then ['\\', 'r']
  else if c == '\t' then ['\\', 't']
  else if isPrintable c then [c]
  else if c.toNat < 0x100 then '\\' :: 'x' :: hex 2 c.toNat
  else if c.toNat < 0x10000 then '\\' :: 'u' :: hex 4 c.toNat
  else '\\' :: 'U' :: hex 8 c.toNat

def quoteFor (t : Text) : Char :=
  if t.contains '\'' && !t.contains '"' then '"' else '\''

def quoted (t : Text) : Text :=
  let quote := quoteFor t
  quote :: t.flatMap (escape quote) ++ [quote]

def describe (t : Text) : String := String.ofList (quoted t)

end ItemLayout.Text
