import MapStyling.EmbeddedScript.Value

/-!
# Terms of Embedded Scripts

Expressions, statements and scripts, as the parser builds them.

Blocks and branches are expressions: their value is that of the last statement
in them. A property is an element under a name. Definitions stand beside the
statements of a script and are no part of them, and a definition sees nothing
of the scope that a script runs in.

## Main definitions

* `Expression`, `Statement`: The terms.
* `Definition`, `Library`: Functions by name and number of parameters.
* `Script`: Definitions and statements.
* `Library.merge`: Definitions over others.
-/

namespace MapStyling

namespace EmbeddedScript

/-- Operators with one operand. -/
inductive UnaryOperator
  | plus
  | minus
  | not
  deriving DecidableEq

mutual

inductive Expression
  | literal (v : Value)
  | name (n : String)
  | array (items : List Expression)
  | map (entries : List (String × Expression))
  | element (container key : Expression)
  | call (name : String) (arguments : List Expression)
  | callOn (target : Expression) (name : String) (arguments : List Expression)
  | unary (op : UnaryOperator) (operand : Expression)
  | binary (op : BinaryOperator) (left right : Expression)
  | both (left right : Expression)
  | either (left right : Expression)
  | block (body : List Statement)
  | branch (condition yes no : Expression)

inductive Statement
  | expression (e : Expression)
  | declare (name : String) (isConstant : Bool) (value : Expression)
  /-- Plain, or combined with the old value. The path leads to an element of the
      variable. -/
  | assign (name : String) (path : List Expression) (op : Option BinaryOperator)
      (value : Expression)
  | giveBack (value : Expression)
  | throw (value : Expression)

end

/-- A function. -/
structure Definition where
  name : String
  parameters : List String
  body : List Statement

/-- Functions by name and number of parameters. -/
abbrev Library := List Definition

/-- Definitions and statements. -/
structure Script where
  definitions : Library
  body : List Statement

namespace Definition

/-- Whether a definition is the one of a call. -/
def fits (d : Definition) (name : String) (count : Nat) : Bool :=
  d.name = name && d.parameters.length = count

end Definition

namespace Library

/-- The definition of a call. -/
def find? (library : Library) (name : String) (count : Nat) : Option Definition :=
  List.find? (·.fits name count) library

/-- Definitions over others of the same name and number of parameters. -/
def merge (library newer : Library) : Library :=
  (library.filter fun d => (newer.find? d.name d.parameters.length).isNone) ++ newer

end Library

namespace Expression

/-- The unit. -/
def unit : Expression := literal .unit

mutual

/-- Whether a value is all that an expression can bring about. -/
def isPure : Expression → Bool
  | literal _ | name _ => true
  | array items => arePure items
  | map entries => arePureEntries entries
  | both e f | either e f => isPure e && isPure f
  | block body => isPureBody body
  | _ => false

def arePure : List Expression → Bool
  | [] => true
  | e :: rest => isPure e && arePure rest

def arePureEntries : List (String × Expression) → Bool
  | [] => true
  | (_, e) :: rest => isPure e && arePureEntries rest

def isPureBody : List Statement → Bool
  | [] => true
  | .expression e :: rest => isPure e && isPureBody rest
  | _ :: _ => false

end

/-- Whether an expression is written as a value that is no truth value. -/
def isForeign : Expression → Bool
  | literal (.boolean _) => false
  | literal _ | array _ | map _ => true
  | _ => false

end Expression

namespace Statement

/-- Whether a statement can be left out if its value is not used. -/
def isPure : Statement → Bool
  | expression e => e.isPure
  | _ => false

end Statement

end EmbeddedScript

end MapStyling
