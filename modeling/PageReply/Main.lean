import PageReply.Demo

/-!
# Command line

Runs the demonstration and prints what it printed.
-/

/-- Runs the demonstration with the given arguments. -/
def main (args : List String) : IO UInt32 := do
  let printout := PageReply.Demo.run (args.map fun arg => arg.toUTF8.toList)
  let out ← IO.getStdout
  out.write (ByteArray.mk printout.out.toArray)
  out.flush
  let err ← IO.getStderr
  err.write (ByteArray.mk printout.err.toArray)
  err.flush
  return printout.exitCode.toUInt32
