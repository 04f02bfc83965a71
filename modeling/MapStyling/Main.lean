import MapStyling.CommandLine
import MapStyling.Interpreters

/-!
# Program

The outer layer: it reads the files of a directory, prints and writes, and
leaves every decision to the modules below.
-/

open MapStyling

open scoped Interpreters

/-- The case files of a directory, with their texts. -/
def readCaseFiles (directory : String) : IO (List CaseFile) := do
  let path ← IO.FS.realPath directory
  let mut files := #[]
  for entry in ← path.readDir do
    if (CaseFile.stem? entry.fileName).isSome then
      files := files.push ⟨entry.fileName, ← IO.FS.readFile entry.path⟩
  return files.toList

/-- Run the cases of a directory; the exit code. -/
def runCompare (directory : String) (page : Option String) : IO UInt32 := do
  match Report.ofFiles (← readCaseFiles directory) with
  | .error message =>
    IO.eprintln message
    return 1
  | .ok report =>
    for line in report.lines do IO.println line
    if let some file := page then
      IO.FS.writeFile file report.page
      IO.println (Report.writtenLine file)
    match report.failure? with
    | none => return 0
    | some message =>
      IO.eprintln message
      return 1

/-- Nanoseconds that an action takes, so many times. -/
def timed {α : Type} (iterations : Nat) (action : Unit → α) : IO Nat := do
  let start ← IO.monoNanosNow
  for _ in [0:iterations] do
    discard <| pure (action ())
  return (← IO.monoNanosNow) - start

/-- Time reads of a property; the exit code. -/
def runBench (iterations : Nat) : IO UInt32 := do
  for k in BackendKind.all do
    match Benchmark.prepared k with
    | .error message =>
      IO.eprintln message
      return 1
    | .ok s =>
      let elapsed ← timed iterations fun _ => (Benchmark.read k).run s
      IO.println (Benchmark.line (Benchmark.backendLabel k) iterations elapsed)
  let elapsed ← timed iterations fun _ => Benchmark.readDirectly
  IO.println (Benchmark.line Benchmark.directLabel iterations elapsed)
  return 0

/-- The program. A file that cannot be read or written ends it with code one. -/
def main (arguments : List String) : IO UInt32 := do
  match Command.ofArguments arguments with
  | .usage =>
    for line in Command.usageLines do IO.eprintln line
    return 1
  | .unknown name =>
    IO.eprintln (Command.unknownLine name)
    return 1
  | .pageWithoutName =>
    IO.eprintln Command.pageWithoutNameLine
    return 1
  | .bench iterations => runBench iterations
  | .badIterations fault =>
    IO.eprintln fault.message
    return 1
  | .compare directory page => runCompare directory page
  | .features =>
    -- No build tool can be started from here, so its calls are listed and none of them passes.
    for options in Command.featureSets do
      IO.println (Command.featureLine options)
    IO.eprintln ((Command.featureFailure? fun _ => false).getD "")
    return 1
