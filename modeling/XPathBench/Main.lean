import XPathBench.CommandLine.Program

/-!
The command line program: real files, the real standard streams and the real clock.
-/

namespace XPathBench

/-- Reads a stream to its end. -/
partial def readToEnd (stream : IO.FS.Stream) (read : ByteArray) : IO ByteArray := do
  let chunk ← stream.read 65536
  if chunk.isEmpty then return read else readToEnd stream (read ++ chunk)

/-- What an action reads, if it succeeds. -/
def bytesOf (action : IO ByteArray) : IO (Option (List UInt8)) := do
  try return some (← action).toList
  catch _ => return none

/-- Documents from the file system and standard input. -/
def systemInputs : CommandLine.Inputs IO where
  file path := bytesOf (IO.FS.readBinFile path)
  standardInput := bytesOf do readToEnd (← IO.getStdin) ByteArray.empty

/-- The time that the system's steady clock shows. -/
def systemClock : IO Duration := do return .ofNanoseconds (← IO.monoNanosNow)

end XPathBench

def main (arguments : List String) : IO UInt32 := do
  let color ← (← IO.getStdout).isTty
  let result ← XPathBench.CommandLine.Program.run XPathBench.systemInputs XPathBench.systemClock
    color arguments
  IO.print result.out
  IO.eprint result.err
  return result.exitCode.toUInt32
