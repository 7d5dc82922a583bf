import ItemLayout.Header.Assembly
import ItemLayout.ItemList.Layout

namespace ItemLayout

structure Import where
  visibility : Visibility
  /-- It covers the keyword and may cover comments around it. -/
  keywordSpan : Span
  path : List Text
  entries : Option (List Entry) := none

namespace Document

/-- The braces of an import with its entries. Entries that have braces themselves are never all on
one line. -/
def importList (doc : Document) (frame : Frame) (entries : List Entry) : Text :=
  let nested := entries.any fun entry => entry.text.contains '\x7b'
  let settings : ListSettings :=
    { packing := doc.style.importsLayout
      indentStyle := doc.style.importsIndent
      trailing := doc.style.trailingComma }
  let lineWidth : Nat := if nested then 0 else frame.width - 2
  doc.layoutList frame settings ⟨['\x7b'], ['\x7d']⟩ nested (some lineWidth) entries

def importItem (doc : Document) (frame : Frame) (item : Import) : Except Breach Text := do
  let visibility ← HeaderPart.ofVisibility doc item.visibility
  let keyword ← HeaderPart.ofKeyword doc "use".toList item.keywordSpan
  let header := doc.header frame [visibility, keyword]
  let path := Path.joinNames item.path
  match item.entries with
  | none => return header ++ [' '] ++ path ++ [';']
  | some entries =>
      let path := if path = [] then [] else path ++ [':', ':']
      let used := header.lastLine.length + 1 + path.length
      -- One column is for the semicolon.
      let list := doc.importList ((frame.behind used).shrunk 1) entries
      return header ++ [' '] ++ path ++ list ++ [';']

end Document

end ItemLayout
