import MapStyling.Benchmark
import MapStyling.Case.File
import MapStyling.Report.Lines
import MapStyling.Report.Page

/-!
# The Command Line

What the arguments of a call ask for, and what a comparison answers.

There are three commands: timing reads of a property, comparing the backends, and
testing the library in each of its forms. For the last one a call of the build
tool is worked out for each form, and what is said if some of them fail.

The comparison is a function of the files of a directory. Nothing is run when
one of the case files cannot be read, and the first bad file in the order of
names is the one that is told about.

## Main definitions

* `Command`: What a call asks for.
* `Command.ofArguments`: Reading arguments.
* `Command.featureSets`: The forms that the library is tested in.
* `Report.ofFiles`: The comparison.
-/

namespace MapStyling

/-- What a call asks for. -/
inductive Command
  | usage
  | unknown (name : String)
  /-- Time reads of a property. -/
  | bench (iterations : Nat)
  | badIterations (fault : Literal.IntegerError)
  /-- Run the cases of a directory; write a page if a file is named for it. -/
  | compare (directory : String) (page : Option String)
  | pageWithoutName
  /-- Test the library in each of its forms. -/
  | features
  deriving DecidableEq, Repr

namespace Command

/-- Where cases are looked for when no directory is named. -/
def standardDirectory : String := "tests/cases"

/-- The option that names the file of the page. -/
def pageOption : String := "--html"

/-- The comparison that arguments ask for, starting from what earlier ones have
    named. The last directory counts and so does the last page. -/
def compareWith (directory : String) (page : Option String) : List String → Command
  | [] => compare directory page
  | a :: rest =>
    if a = pageOption then
      -- Whatever stands behind the option is a file, even what looks like an option.
      match rest with
      | [] => pageWithoutName
      | file :: rest => compareWith directory (some file) rest
    else compareWith a page rest

/-- The timing that arguments ask for. Only the first of them counts. -/
def benchWith : List String → Command
  | [] => bench Benchmark.standardIterations
  | count :: _ => match Literal.natural? count.toList with
    | .ok n => bench n
    | .error fault => badIterations fault

/-- What the arguments of a call ask for. -/
def ofArguments : List String → Command
  | [] => usage
  | name :: arguments =>
    if name = "bench" then benchWith arguments
    else if name = "compare" then compareWith standardDirectory none arguments
    else if name = "features" then features
    else unknown name

/-- What a call without arguments is told. -/
def usageLines : List String :=
  ["Usage: cargo xtask <command>",
   "Commands:",
   "  bench [ITERATIONS]           Time feature property reads through each backend",
   "  compare [DIR] [--html FILE]  Run every style case on every backend",
   "  features                     Test the library under each feature set"]

/-- What is said of a command that does not exist. -/
def unknownLine (name : String) : String := "Unknown command: " ++ name

/-- What is said when the option for the page is the last argument. -/
def pageWithoutNameLine : String := pageOption ++ " needs a file name"

/-- The forms that the library is tested in, as options of the build tool. -/
def featureSets : List (List String) :=
  [[], ["--no-default-features", "--features", "boa"],
   ["--no-default-features", "--features", "rhai"], ["--no-default-features"],
   ["--features", "tracing"]]

def featureLabel (options : List String) : String :=
  if options.isEmpty then "default" else String.intercalate " " options

/-- What is said before the library is tested in a form. -/
def featureLine (options : List String) : String :=
  "==> cargo test -p tilestyle " ++ featureLabel options

/-- What is said of the forms whose tests failed, if there are any. -/
def featureFailure? (passed : List String → Bool) : Option String :=
  let failed := featureSets.filter fun options => !passed options
  if failed.isEmpty then none
  else some ("failed feature sets: " ++ String.intercalate ", " (failed.map featureLabel))

end Command

namespace Report

/-- The comparison of the case files among some files, or what is said of the
    first one that is not a case. -/
def ofFiles [Languages] (files : List CaseFile) : Except String Report :=
  ((CaseFile.sorted files).mapM CaseFile.load).map ofCases

/-- What is said after a page was written. -/
def writtenLine (file : String) : String := "Generated comparison at: " ++ file

/-- What is said of cases that do not match, if there are any. -/
def failure? (r : Report) : Option String :=
  if r.passed = r.total then none
  else some (Digits.text (r.total - r.passed) ++ " case(s) failed")

end Report

end MapStyling
