import ItemLayout.Token.Listing

open ItemLayout

def main (args : List String) : IO UInt32 := do
  match args with
  | [path] =>
      let bytes ← IO.FS.readBinFile path
      match Listing.ofBytes (bytes.toList.map UInt8.toNat) with
      | .ok report =>
          IO.print report.output
          return report.status.toUInt32
      | .error fault =>
          IO.eprintln fault.message
          return 1
  | _ =>
      IO.eprintln "usage: one source file"
      return 2
