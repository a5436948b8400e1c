import Specwright.Command.Line

/-!
# The program

Runs a command line on the files of the disk.
-/

namespace Specwright

/-- What an error in reading a file says about its content.  A path through something that is no
directory leads nowhere; its error names the path, unlike that of reading from a directory. -/
def contentOfError : IO.Error → FileContent
  | .noFileOrDirectory .. => .missing
  | .inappropriateType (some _) .. => .missing
  | .invalidArgument .. => .missing
  | _ => .unreadable

/-- The access to the files of the disk. -/
def diskAccess : FileAccess IO where
  read path := do
    try
      let bytes ← IO.FS.readBinFile path
      match String.fromUTF8? bytes with
      | some content => pure (.text content)
      | none => pure .unreadable
    catch cause => pure (contentOfError cause)
  write path content := do
    try
      IO.FS.writeFile path content
      pure true
    catch _ => pure false

end Specwright

/-- Runs the program. -/
def main (args : List String) : IO UInt32 := do
  let outcome ← Specwright.CommandLine.runWords Specwright.diskAccess args
  IO.print outcome.output
  pure outcome.exit.toUInt32
