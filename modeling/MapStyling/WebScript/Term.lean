import MapStyling.Text.CodeUnits

/-!
# Terms of Web Scripts

Expressions and statements, as the parser builds them.

Members are always computed: `x.y` is the member of `x` under the text `y`. An
arrow function with an expression for a body is one whose body returns that
expression. What a function declares in its body is found by walking over
statements only, never into the functions inside.

## Main definitions

* `Expression`, `Statement`: The terms.
* `Function`: A function as it is written.
* `Statement.hoisted`, `Statement.lexicals`: Names that statements declare.
-/

namespace MapStyling

namespace WebScript

/-- Operators with one operand. -/
inductive UnaryOperator
  | plus
  | minus
  | not
  | typeof
  deriving DecidableEq

/-- Operators that compute with the values of both operands. -/
inductive BinaryOperator
  | add
  | subtract
  | multiply
  | divide
  | remainder
  | equal
  | unequal
  | same
  | different
  | less
  | lessOrEqual
  | greater
  | greaterOrEqual
  deriving DecidableEq

/-- How a name is declared: for a whole function, or for a block, or for a block
    once and for all. -/
inductive DeclarationKind
  | variable
  | mutable
  | constant
  deriving DecidableEq

mutual

inductive Expression
  | null
  | boolean (b : Bool)
  | number (v : Float)
  | text (u : Units)
  | this
  | name (n : Units)
  /-- Items may be left out. -/
  | array (items : List (Option Expression))
  | object (entries : List (Units × Expression))
  | function (name : Option Units) (parameters : List Units) (body : List Statement)
  | arrow (parameters : List Units) (body : List Statement)
  | member (object key : Expression)
  | call (callee : Expression) (arguments : List Expression)
  | unary (op : UnaryOperator) (operand : Expression)
  | binary (op : BinaryOperator) (left right : Expression)
  | both (left right : Expression)
  | either (left right : Expression)
  | conditional (condition yes no : Expression)
  | sequence (first second : Expression)
  /-- Plain, or combined with the old value. -/
  | assignName (name : Units) (op : Option BinaryOperator) (value : Expression)
  | assignMember (object key : Expression) (op : Option BinaryOperator) (value : Expression)

inductive Statement
  | empty
  | expression (e : Expression)
  | declare (kind : DeclarationKind) (bindings : List (Units × Option Expression))
  | function (name : Units) (parameters : List Units) (body : List Statement)
  | block (body : List Statement)
  | branch (condition : Expression) (yes no : Statement)
  | giveBack (value : Option Expression)
  | throw (value : Expression)

end

/-- A function as it is written. Arrow functions take `this` from where they are
    written. -/
structure Function where
  name : Units
  parameters : List Units
  body : List Statement
  isArrow : Bool

namespace Statement

mutual

/-- Names declared for the whole function, blocks included. -/
def hoisted : Statement → List Units
  | declare .variable bindings => bindings.map Prod.fst
  | block body => hoistedOf body
  | branch _ yes no => hoisted yes ++ hoisted no
  | _ => []

def hoistedOf : List Statement → List Units
  | [] => []
  | s :: rest => hoisted s ++ hoistedOf rest

end

/-- Functions declared by a statement itself. -/
def function? : Statement → Option Function
  | function name parameters body => some ⟨name, parameters, body, false⟩
  | _ => none

/-- Names that a statement declares for its block, and whether once and for
    all. -/
def lexicals : Statement → List (Units × Bool)
  | declare .mutable bindings => bindings.map fun b => (b.1, false)
  | declare .constant bindings => bindings.map fun b => (b.1, true)
  | _ => []

end Statement

end WebScript

end MapStyling
