import ItemLayout.Text.Basic

namespace ItemLayout.Utf8

inductive Reason where
  | invalidStart
  | invalidContinuation
  | unexpectedEnd
  deriving DecidableEq, Repr

def Reason.describe : Reason → String
  | .invalidStart => "invalid start byte"
  | .invalidContinuation => "invalid continuation byte"
  | .unexpectedEnd => "unexpected end of data"

/-- Bytes that are no character: `accepted` continuation bytes after the lead byte at `position`. -/
structure Fault where
  position : Nat
  lead : Nat
  accepted : Nat
  reason : Reason
  deriving DecidableEq, Repr

def Fault.message (f : Fault) : String :=
  let place :=
    if f.accepted = 0 then
      s!"byte 0x{String.ofList (Nat.toDigits 16 f.lead)} in position {f.position}"
    else s!"bytes in position {f.position}-{f.position + f.accepted}"
  s!"'utf-8' codec can't decode {place}: {f.reason.describe}"

structure Lead where
  more : Nat
  low : Nat
  high : Nat
  bits : Nat

/-- The bounds leave out overlong forms, surrogates and what lies beyond the last code point. -/
def lead? (byte : Nat) : Option Lead :=
  if byte < 0xC2 then none
  else if byte < 0xE0 then some ⟨1, 0x80, 0xBF, byte - 0xC0⟩
  else if byte < 0xF0 then
    some ⟨2, if byte = 0xE0 then 0xA0 else 0x80, if byte = 0xED then 0x9F else 0xBF, byte - 0xE0⟩
  else if byte < 0xF5 then
    some ⟨3, if byte = 0xF0 then 0x90 else 0x80, if byte = 0xF4 then 0x8F else 0xBF, byte - 0xF0⟩
  else none

def accepted (low high : Nat) : Nat → List Nat → List Nat
  | more + 1, byte :: rest =>
      if low ≤ byte ∧ byte ≤ high then byte :: accepted 0x80 0xBF more rest else []
  | _, _ => []

def codePoint (bits : Nat) (tail : List Nat) : Nat :=
  tail.foldl (fun n byte => 64 * n + (byte - 0x80)) bits

def decodeFrom (position : Nat) : List Nat → Except Fault Text
  | [] => .ok []
  | byte :: rest =>
    if byte < 0x80 then do
      return Char.ofNat byte :: (← decodeFrom (position + 1) rest)
    else match lead? byte with
      | none => .error ⟨position, byte, 0, .invalidStart⟩
      | some lead =>
        let tail := accepted lead.low lead.high lead.more rest
        if tail.length = lead.more then do
          return Char.ofNat (codePoint lead.bits tail) ::
            (← decodeFrom (position + 1 + lead.more) (rest.drop lead.more))
        else if tail.length = rest.length then
          .error ⟨position, byte, tail.length, .unexpectedEnd⟩
        else .error ⟨position, byte, tail.length, .invalidContinuation⟩
termination_by bytes => bytes.length
decreasing_by
  · simp
  · simp only [List.length_drop, List.length_cons]
    omega

def decode (bytes : List Nat) : Except Fault Text := decodeFrom 0 bytes

end ItemLayout.Utf8
