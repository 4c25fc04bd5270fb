import KernelMenu.CommandLine

/-!
The program: reads the files that its arguments name, and prints what the run of the command line
says.
-/

namespace KernelMenu.CommandLine

def readFile? (path : String) : IO (Option ByteArray) := do
  try
    let bytes ← IO.FS.readBinFile path
    return some bytes
  catch _ => return none

end KernelMenu.CommandLine

open KernelMenu

def main (arguments : List String) : IO UInt32 := do
  let contents ← (CommandLine.neededFiles arguments).mapM fun path => do
    return (path, ← CommandLine.readFile? path)
  let report := CommandLine.run arguments fun path => (contents.lookup path).join
  for note in report.notes do
    IO.eprintln note
  IO.print report.output
  return report.exitCode.toUInt32
