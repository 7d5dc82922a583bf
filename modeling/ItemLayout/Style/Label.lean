import ItemLayout.Text.Quoted

namespace ItemLayout

class Labelled (α : Type) where
  all : List α
  label : α → Text
  vocabulary : String

structure UnknownLabel where
  label : Text
  vocabulary : String
  deriving DecidableEq, Repr

def UnknownLabel.message (u : UnknownLabel) : String :=
  s!"{u.label.describe} is not a valid {u.vocabulary}"

namespace Labelled

variable {α : Type} [Labelled α]

def find? (t : Text) : Option α := all.find? fun a => label a == t

def ofLabel (t : Text) : Except UnknownLabel α :=
  match find? t with
  | some a => .ok a
  | none => .error ⟨t, vocabulary α⟩

end Labelled

end ItemLayout
