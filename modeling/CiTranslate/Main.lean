import CiTranslate.CommandLine.Run

/-!
The program.
-/

namespace CiTranslate.Terminal

open CommandLine

/-- Reads a stream to its end. -/
partial def readToEnd (stream : IO.FS.Stream) (read : ByteArray) : IO ByteArray := do
  let more ← stream.read 65536
  if more.isEmpty then return read
  readToEnd stream (read ++ more)

def contentOf? (path : String) : IO (Option ByteArray) := do
  try return some (← IO.FS.readBinFile path)
  catch _ => return none

def hasFile (name : String) : IO Bool := do
  let path := (← IO.currentDir) / name
  return (← path.pathExists) && !(← path.isDir)

def access : Access IO where
  contentOf := contentOf?
  hasFile := hasFile
  readInput := do readToEnd (← IO.getStdin) .empty

end CiTranslate.Terminal

open CiTranslate in
def main (arguments : List String) : IO UInt32 := do
  let config? ← IO.getEnv CommandLine.configVariable
  let outcome ← CommandLine.run Terminal.access config? arguments
  IO.eprint outcome.report
  IO.print outcome.output
  return outcome.code.toUInt32
