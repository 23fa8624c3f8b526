import Dialer.CommandLine.Report

/-!
# The command line

Reads the configuration file that the arguments name, if they name one, and prints the
report. No nameserver is asked: a host that is not written as a number has no addresses.
-/

namespace Dialer.CommandLine

/-- The bytes of a file, if it can be read. -/
def readFile? (name : String) : IO (Option ByteArray) := do
  try
    return some (← IO.FS.readBinFile name)
  catch _ =>
    return none

/-- The file that an invocation needs. -/
def Invocation.file? : Invocation → Option String
  | .run file _ => file
  | _ => none

end Dialer.CommandLine

open Dialer.CommandLine in
/-- Runs the program. -/
def main (args : List String) : IO UInt32 := do
  let invocation := Invocation.ofArguments args
  let bytes ← match invocation.file? with
    | some name => readFile? name
    | none => pure none
  let report := Report.ofInvocation (fun _ => bytes) ⟨[]⟩ invocation
  (← IO.getStdout).putStr report.output
  (← IO.getStderr).putStr report.complaint
  return report.status
