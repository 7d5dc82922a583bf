import ItemLayout.Frame.Basic

namespace ItemLayout

inductive Frame.Fault where
  | negativeIndent
  | negativeFrame
  deriving DecidableEq, Repr

def Frame.Fault.message : Frame.Fault → String
  | negativeIndent => "Indent cannot be negative"
  | negativeFrame => "Shape width and offset cannot be negative"

def Indent.ofInts (block align : Int) : Except Frame.Fault Indent :=
  if block < 0 ∨ align < 0 then .error .negativeIndent else .ok ⟨block.toNat, align.toNat⟩

def Indent.plus (indent : Indent) (extra : Int) : Except Frame.Fault Indent :=
  ofInts indent.block (indent.align + extra)

namespace Frame

def ofInts (width : Int) (indent : Indent) (offset : Int) : Except Fault Frame :=
  if width < 0 ∨ offset < 0 then .error .negativeFrame
  else .ok ⟨width.toNat, indent, offset.toNat⟩

/-- A frame whose first line starts where its alignment ends. -/
def ofWidth (width : Int) (indent : Indent) : Except Fault Frame :=
  ofInts width indent indent.align

def alignedBy (frame : Frame) (extra : Int) : Except Fault Frame := do
  let column := frame.offset + extra
  let indent ← Indent.ofInts frame.indent.block column
  ofInts frame.width indent column

def stepInBy (frame : Frame) (extra : Int) : Except Fault Frame := do
  if frame.indent.align = 0 then
    let indent ← Indent.ofInts (frame.indent.block + extra) 0
    ofInts frame.width indent 0
  else
    let indent ← frame.indent.plus extra
    ofInts frame.width indent (frame.indent.align + extra)

def shiftedBy (frame : Frame) (extra : Int) : Except Fault Frame :=
  ofInts frame.width frame.indent (frame.offset + extra)

/-- Less room on the right, or nothing if there is not so much; a step to the left gives room. -/
def narrowed? (frame : Frame) (columns : Int) : Option Frame :=
  if frame.isUnbounded then some frame
  else if frame.width < columns then none
  else some { frame with width := (frame.width - columns).toNat }

def behindBy? (frame : Frame) (columns : Int) : Except Fault (Option Frame) := do
  let moved ← frame.shiftedBy columns
  return moved.narrowed? columns

end Frame

end ItemLayout
