import FormFlow.CommandLine.Run
/-!
The program on the command line.

Files and variables are read before the run, and what the run reports is printed and written after it. There is no
network: every request fails.
-/

set_option autoImplicit false

namespace FormFlow

/-- The text of a file that can be read. -/
def readText (path : String) : IO (Option String) := do
  try
    let text ← IO.FS.readFile path
    return some text
  catch _ => return none

/-- A variable as the system lists it. -/
def environmentEntry (cs : List Char) : String × String :=
  let (name, value) := Text.cut (· == '=') cs
  (.ofList name, .ofList (value.getD []))

/-- The variables of the environment. -/
def readEnvironment : IO Environment := do
  let listed := (← readText "/proc/self/environ").getD ""
  return ((Text.pieces '\x00' listed.toList).filter (!·.isEmpty)).map environmentEntry

/-- An exchange where no request reaches anyone. -/
def offline : Exchange := ⟨List.replicate 4096 (.failed "there is no network"), []⟩

/-- What is around the program for a run. -/
def readSurroundings (arguments : List String) : IO Surroundings := do
  let mut files : Array (Path × String) := #[]
  for path in filesRead arguments do
    if let some text ← readText path.toText then files := files.push (path, text)
  let targets := (filesWritten arguments).map Path.folder
  return { files := files.toList, folders := targets, environment := ← readEnvironment, exchange := offline }

/-- Prints and writes what a run reports. -/
def deliver (r : Report) : IO Unit := do
  for (path, text) in r.written do IO.FS.writeFile path.toText text
  for line in r.output do IO.println line
  for note in r.notes do IO.eprintln note
  if r.logsJson then
    for entry in r.log do IO.eprintln entry.line
  match r.ending with
  | .failed panel =>
    IO.eprintln panel.title
    for line in panel.lines do IO.eprintln line
  | .misused => IO.eprintln usage
  | .stopped cause => IO.eprintln (reprStr cause)
  | .done | .unprepared => return ()

end FormFlow

/-- Runs the program and ends with the code of its run. -/
def main (arguments : List String) : IO UInt32 := do
  let report := FormFlow.run arguments (← FormFlow.readSurroundings arguments)
  FormFlow.deliver report
  return report.ending.code.toUInt32
