import MapStyling.Backend
import MapStyling.Number.Digits

/-!
# Benchmark

How long reads of one property take, through each backend and without one.

What is timed is the same on all backends: a styler that was shown a feature, and
a question about the first of two functions. Taking the time is left to the
program.

## Main definitions

* `Benchmark.prepared`: A styler ready to be timed.
* `Benchmark.read`, `Benchmark.readDirectly`: What is timed.
* `Benchmark.line`: What is said of a time.
-/

namespace MapStyling

namespace Benchmark

/-- How often a property is read unless a number is given. -/
def standardIterations : Nat := 10000

def feature : Feature :=
  ⟨.points, (Properties.empty.set "message" (.text "Hello World!")).set "message2"
    (.text "Hello World!")⟩

def sources : List String :=
  ["function () { return feature.message; }", "function () { return feature.message2; }"]

section

variable [Languages]

/-- A styler that was shown the feature and has the functions, or what is said if they do not
    compile. -/
def prepared (k : BackendKind) : Except String (StylerOn k) :=
  let prepare : StateM (StylerOn k) Bool := do
    Styler.setFeature feature
    Styler.setFunctions sources
  match prepare.run (.fresh k) with
  | (true, s) => .ok s
  | (false, _) => .error (k.name ++ ": bench functions failed to compile")

/-- A read through a backend. -/
def read (k : BackendKind) : StateM (StylerOn k) StyleValue := Styler.evalStyle 0 .textSource

end

/-- A read without a backend. -/
def readDirectly : StyleValue :=
  match feature.properties.get? "message" with
  | some (.text s) => .text s
  | _ => .none

/-- A text in a field of a width, behind blanks. -/
def behindBlanks (width : Nat) (s : String) : String :=
  String.ofList (List.replicate (width - s.length) ' ') ++ s

/-- A text in a field of a width, with blanks behind it. -/
def beforeBlanks (width : Nat) (s : String) : String :=
  s ++ String.ofList (List.replicate (width - s.length) ' ')

/-- A quotient of counts, to the nearest tenth. -/
def tenthsText (m n : Nat) : String :=
  let (num, den) := (Double.datum (Double.ofInt m / Double.ofInt n)).ratio
  let tenths := BinaryLayout.divNearest (10 * num) den
  Digits.text (tenths / 10) ++ "." ++ Digits.text (tenths % 10)

/-- What is said of reads that took some nanoseconds together. -/
def line (label : String) (iterations nanoseconds : Nat) : String :=
  beforeBlanks 24 label ++ " " ++ behindBlanks 8 (Digits.text iterations) ++ " iterations  "
    ++ behindBlanks 10 (tenthsText nanoseconds (max iterations 1)) ++ " ns/iter"

def backendLabel (k : BackendKind) : String := k.name ++ " get property"

def directLabel : String := "direct get property"

end Benchmark

end MapStyling
