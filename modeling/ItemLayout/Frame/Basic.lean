import ItemLayout.Style.Basic

namespace ItemLayout

/-- Columns in front of a line: steps of indentation, and then alignment, which is never tabs. -/
structure Indent where
  block : Nat := 0
  align : Nat := 0
  deriving DecidableEq, Repr

namespace Indent

def width (indent : Indent) : Nat := indent.block + indent.align

def render (style : Style) (indent : Indent) : Text :=
  if style.hardTabs then
    List.replicate (indent.block / style.tabStep) '\t' ++
      List.replicate (indent.block % style.tabStep + indent.align) ' '
  else List.replicate indent.width ' '

def newLine (style : Style) (indent : Indent) : Text := '\n' :: indent.render style

end Indent

/-- Room for output. `offset` is the column, past the block indentation, of the first line. -/
structure Frame where
  width : Nat
  indent : Indent := {}
  offset : Nat := 0
  deriving DecidableEq, Repr

namespace Frame

/-- The width that nothing exceeds and nothing uses up. -/
def unbounded : Nat := 9223372036854775807

def isUnbounded (frame : Frame) : Bool := frame.width == unbounded

def unlimited (frame : Frame) : Frame := { frame with width := unbounded }

def roomBeside (style : Style) (indent : Indent) : Nat := (style.maxWidth - indent.width).toNat

def atIndent (style : Style) (indent : Indent) : Frame where
  width := roomBeside style indent
  indent
  offset := indent.align

def widened (style : Style) (frame : Frame) : Frame :=
  { frame with width := roomBeside style frame.indent }

def aligned (extra : Nat) (frame : Frame) : Frame :=
  { frame with
    indent := { frame.indent with align := frame.offset + extra }
    offset := frame.offset + extra }

/-- All lines start `extra` columns further in; a frame that is aligned stays so. -/
def stepIn (extra : Nat) (frame : Frame) : Frame :=
  if frame.indent.align = 0 then
    { frame with indent := { block := frame.indent.block + extra }, offset := 0 }
  else
    { frame with
      indent := { frame.indent with align := frame.indent.align + extra }
      offset := frame.indent.align + extra }

def shifted (extra : Nat) (frame : Frame) : Frame := { frame with offset := frame.offset + extra }

def shrunk (columns : Nat) (frame : Frame) : Frame :=
  if frame.isUnbounded then frame else { frame with width := frame.width - columns }

def behind (columns : Nat) (frame : Frame) : Frame := (frame.shifted columns).shrunk columns

end Frame

end ItemLayout
