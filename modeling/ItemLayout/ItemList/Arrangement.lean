import ItemLayout.ItemList.Entry

namespace ItemLayout

inductive Arrangement where
  | horizontal
  | vertical
  | mixed
  deriving DecidableEq, Repr

instance : Labelled Arrangement where
  all := [.horizontal, .vertical, .mixed]
  label
    | .horizontal => "Horizontal".toList
    | .vertical => "Vertical".toList
    | .mixed => "Mixed".toList
  vocabulary := "DefinitiveListTactic"

def oneLineWidth (separator : Text) (entries : List Entry) : Nat :=
  entries.foldr (fun entry total => entry.width + total) 0 +
    (separator.trimRight.length + 1) * (entries.length - 1)

def Arrangement.choose (packing : Packing) (separator : Text) (width : Int)
    (entries : List Entry) : Arrangement :=
  if entries.any Entry.hasLineComment then .vertical
  else
    let fits := oneLineWidth separator entries ≤ width && !entries.any Entry.isMultiline
    match packing with
    | .horizontal => .horizontal
    | .vertical => .vertical
    | .mixed => if fits then .horizontal else .mixed
    | .horizontalVertical => if fits then .horizontal else .vertical

end ItemLayout
