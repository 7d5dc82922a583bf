import ItemLayout.Style.Label

namespace ItemLayout

inductive Packing where
  | horizontal
  | vertical
  | mixed
  | horizontalVertical
  deriving DecidableEq, Repr

instance : Labelled Packing where
  all := [.horizontal, .vertical, .mixed, .horizontalVertical]
  label
    | .horizontal => "Horizontal".toList
    | .vertical => "Vertical".toList
    | .mixed => "Mixed".toList
    | .horizontalVertical => "HorizontalVertical".toList
  vocabulary := "ListTactic"

/-- Where continuation lines start: one step in, or under the first entry. -/
inductive IndentStyle where
  | block
  | visual
  deriving DecidableEq, Repr

instance : Labelled IndentStyle where
  all := [.block, .visual]
  label
    | .block => "Block".toList
    | .visual => "Visual".toList
  vocabulary := "IndentStyle"

inductive TrailingPolicy where
  | always
  | never
  | multilineOnly
  deriving DecidableEq, Repr

instance : Labelled TrailingPolicy where
  all := [.always, .never, .multilineOnly]
  label
    | .always => "Always".toList
    | .never => "Never".toList
    | .multilineOnly => "MultilineOnly".toList
  vocabulary := "SeparatorTactic"

structure Style where
  maxWidth : Int := 100
  tabSpaces : Int := 4
  /-- Indent with tabs as far as whole steps go. -/
  hardTabs : Bool := false
  importsLayout : Packing := .mixed
  importsIndent : IndentStyle := .block
  trailingComma : TrailingPolicy := .multilineOnly
  inlineComments : Bool := false
  deriving DecidableEq, Repr

def Style.Valid (style : Style) : Prop := 0 < style.maxWidth ∧ 0 < style.tabSpaces

def Style.tabStep (style : Style) : Nat := style.tabSpaces.toNat

end ItemLayout
