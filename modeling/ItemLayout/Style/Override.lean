import ItemLayout.Style.Basic
import ItemLayout.Text.Numeral

/-!
# Overrides

Options are changed by name. A value may be given with its type or as a text, which is then read.
Names are looked at in the order in which they were first given; a name that is given again keeps
its place and takes the later value. Only when all values are read is the new style checked.
-/

namespace ItemLayout

inductive Setting where
  | text (t : Text)
  | int (n : Int)
  | bool (b : Bool)
  | null
  | list (settings : List Setting)
  deriving Inhabited, Repr

namespace Setting

mutual

def describe : Setting → String
  | text t => t.describe
  | int n => toString n
  | bool true => "True"
  | bool false => "False"
  | null => "None"
  | list settings => "[" ++ describeAll settings ++ "]"

def describeAll : List Setting → String
  | [] => ""
  | [setting] => describe setting
  | setting :: rest => describe setting ++ ", " ++ describeAll rest

end

end Setting

/-! ## Maps from names to values -/

/-- Names with their values, no name twice, in the order of their first insertion. -/
abbrev Overrides := List (Text × Setting)

namespace Overrides

/-- The value of a name that is there already is replaced in its place. -/
def insert (name : Text) (value : Setting) : Overrides → Overrides
  | [] => [(name, value)]
  | entry :: rest =>
      if entry.1 = name then (name, value) :: rest else entry :: insert name value rest

def update (first second : Overrides) : Overrides :=
  second.foldl (fun map entry => insert entry.1 entry.2 map) first

def ofList (entries : List (Text × Setting)) : Overrides := update [] entries

end Overrides

/-! ## Reading values -/

namespace Style

inductive Key where
  | maxWidth
  | tabSpaces
  | hardTabs
  | importsLayout
  | importsIndent
  | trailingComma
  | inlineComments
  deriving DecidableEq, Repr

instance : Labelled Key where
  all := [.maxWidth, .tabSpaces, .hardTabs, .importsLayout, .importsIndent, .trailingComma,
    .inlineComments]
  label
    | .maxWidth => "max_width".toList
    | .tabSpaces => "tab_spaces".toList
    | .hardTabs => "hard_tabs".toList
    | .importsLayout => "imports_layout".toList
    | .importsIndent => "imports_indent".toList
    | .trailingComma => "trailing_comma".toList
    | .inlineComments => "inline_comments".toList
  vocabulary := "option"

inductive Expectation where
  | truth
  | integer
  | oneOf (labels : List Text)
  deriving DecidableEq, Repr

def Expectation.describe : Expectation → String
  | truth => "true or false"
  | integer => "an integer"
  | oneOf labels => "one of " ++ ", ".intercalate (labels.map String.ofList)

inductive Fault where
  /-- The name that stands for the style itself is used for an option. -/
  | reservedName
  | unknownOption (name : Text)
  | invalidValue (key : Key) (value : Setting) (expected : Option Expectation)
  | widthNotPositive
  | tabNotPositive

def Fault.message : Fault → String
  | reservedName => "FormatOptions.with_overrides() got multiple values for argument 'self'"
  | unknownOption name => s!"Unknown formatting option: {name.describe}"
  | invalidValue key value expected =>
      let reason := match expected with
        | some expectation => s!" (expected {expectation.describe})"
        | none => ""
      s!"Invalid value for {String.ofList (Labelled.label key)}: {value.describe}{reason}"
  | widthNotPositive => "max_width must be a positive number of columns"
  | tabNotPositive => "tab_spaces must be positive"

/-- A truth value counts as zero or one. -/
def readInt (key : Key) : Setting → Except Fault Int
  | .int n => .ok n
  | .bool b => .ok b.toInt
  | .text t =>
      match Numeral.read? t with
      | some n => .ok n
      | none => .error (.invalidValue key (.text t) (some .integer))
  | value => .error (.invalidValue key value none)

def truth? (t : Text) : Option Bool :=
  if t.map Char.toLower = ['t', 'r', 'u', 'e'] then some true
  else if t.map Char.toLower = ['f', 'a', 'l', 's', 'e'] then some false
  else none

def readBool (key : Key) : Setting → Except Fault Bool
  | .bool b => .ok b
  | .text t =>
      match truth? t with
      | some b => .ok b
      | none => .error (.invalidValue key (.text t) (some .truth))
  | value => .error (.invalidValue key value none)

def readLabel {α : Type} [Labelled α] (key : Key) : Setting → Except Fault α
  | .text t =>
      match Labelled.find? t with
      | some a => .ok a
      | none =>
          .error (.invalidValue key (.text t)
            (some (.oneOf ((Labelled.all : List α).map Labelled.label))))
  | value => .error (.invalidValue key value none)

inductive Change where
  | maxWidth (n : Int)
  | tabSpaces (n : Int)
  | hardTabs (b : Bool)
  | importsLayout (packing : Packing)
  | importsIndent (indent : IndentStyle)
  | trailingComma (policy : TrailingPolicy)
  | inlineComments (b : Bool)
  deriving DecidableEq, Repr

def Change.read (key : Key) (value : Setting) : Except Fault Change :=
  match key with
  | .maxWidth => .maxWidth <$> readInt key value
  | .tabSpaces => .tabSpaces <$> readInt key value
  | .hardTabs => .hardTabs <$> readBool key value
  | .importsLayout => .importsLayout <$> readLabel key value
  | .importsIndent => .importsIndent <$> readLabel key value
  | .trailingComma => .trailingComma <$> readLabel key value
  | .inlineComments => .inlineComments <$> readBool key value

def Change.ofEntry (entry : Text × Setting) : Except Fault Change :=
  match Labelled.find? entry.1 with
  | some key => Change.read key entry.2
  | none => .error (.unknownOption entry.1)

def change (style : Style) : Change → Style
  | .maxWidth n => { style with maxWidth := n }
  | .tabSpaces n => { style with tabSpaces := n }
  | .hardTabs b => { style with hardTabs := b }
  | .importsLayout packing => { style with importsLayout := packing }
  | .importsIndent indent => { style with importsIndent := indent }
  | .trailingComma policy => { style with trailingComma := policy }
  | .inlineComments b => { style with inlineComments := b }

/-! ## Changing a style -/

def checked (style : Style) : Except Fault Style :=
  if style.maxWidth ≤ 0 then .error .widthNotPositive
  else if style.tabSpaces ≤ 0 then .error .tabNotPositive
  else .ok style

def reserved : Text := ['s', 'e', 'l', 'f']

def override (style : Style) (overrides : Overrides) : Except Fault Style :=
  if overrides.any (·.1 == reserved) then .error .reservedName
  else do
    let changes ← overrides.mapM Change.ofEntry
    checked (changes.foldl change style)

end Style

end ItemLayout
