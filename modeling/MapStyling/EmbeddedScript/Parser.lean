import MapStyling.EmbeddedScript.Term
import MapStyling.EmbeddedScript.Token
import MapStyling.Text.TokenParser

/-!
# Parsing Embedded Scripts

From tokens to scripts.

The parser descends over the grammar and takes tokens off the front of a list.
Every call that it makes costs one unit of fuel. Between two tokens there are
fewer calls than `callsPerToken`, so a parse that starts with that many units
for each token never runs out of them.

Some faults of a script are found before it runs. A condition may not be
written as a value that is no truth value, a name of a map and a parameter may
not be given twice, and nothing can be assigned to a constant.

## Main definitions

* `Parser.expression`, `Parser.statement`: The levels of the grammar.
* `Expression.isSound`, `soundBody`: Constants that stay constant.
* `parse?`: The script of a source.
-/

namespace MapStyling

namespace EmbeddedScript

/-- A value off the front of tokens. -/
abbrev Parser := TokenParser Token

namespace Parser

open TokenParser

/-- Words of the language. -/
def keywords : List String :=
  ["true", "false", "let", "const", "if", "else", "switch", "do", "while", "until", "loop", "for",
   "in", "fn", "private", "continue", "break", "return", "throw", "try", "catch", "import",
   "export", "as"]

/-- Words that are kept for later, or for functions with a meaning of their own. -/
def reserved : List String :=
  ["public", "protected", "super", "new", "use", "module", "package", "var", "static", "shared",
   "with", "is", "goto", "exit", "match", "case", "default", "void", "null", "nil", "spawn",
   "thread", "go", "sync", "async", "await", "yield"]

/-- Names of functions that no variable can have. -/
def functionWords : List String :=
  ["print", "debug", "type_of", "eval", "Fn", "call", "curry", "this", "is_def_fn", "is_def_var",
   "is_shared"]

/-- Whether a word can be the name of a variable or of a property. -/
def isFree (w : String) : Bool :=
  !(keywords ++ reserved ++ functionWords).contains w

/-- Whether a word can be the name of a function in a call. -/
def isCallable (w : String) : Bool :=
  !(keywords ++ reserved).contains w

def isMark (m : String) (t : Token) : Bool := t = .mark m

def isWord (w : String) (t : Token) : Bool := t = .word w

def seesMark (m : String) : Parser Bool := sees (isMark m)

/-- Take a mark if it is the next token. -/
def takeMark (m : String) : Parser Bool := take (isMark m)

/-- Take a word if it is the next token. -/
def takeWord (w : String) : Parser Bool := take (isWord w)

/-- Take a mark that has to follow. -/
def expectMark (m : String) : Parser Unit := expect (isMark m)

/-- Take a name that has to follow. -/
def name : Parser String := do
  match ← next with
  | .word w => if isFree w then return w else failure
  | _ => failure

/-- Operators by precedence, the weakest first, and what they build. -/
def binaryOperators : List (String × Nat × (Expression → Expression → Expression)) :=
  [("||", 1, .either), ("&&", 2, .both), ("==", 3, .binary .equal), ("!=", 3, .binary .unequal),
   ("<", 4, .binary .less), ("<=", 4, .binary .lessOrEqual), (">", 4, .binary .greater),
   (">=", 4, .binary .greaterOrEqual), ("+", 5, .binary .add), ("-", 5, .binary .subtract),
   ("*", 6, .binary .multiply), ("/", 6, .binary .divide), ("%", 6, .binary .remainder)]

def unaryOperator? : Token → Option UnaryOperator
  | .mark "+" => some .plus
  | .mark "-" => some .minus
  | .mark "!" => some .not
  | _ => none

/-- What an assignment combines the old value with, if anything. -/
def assignmentOperator? : Token → Option (Option BinaryOperator)
  | .mark "=" => some none
  | .mark "+=" => some (some .add)
  | .mark "-=" => some (some .subtract)
  | .mark "*=" => some (some .multiply)
  | .mark "/=" => some (some .divide)
  | .mark "%=" => some (some .remainder)
  | _ => none

/-- A number with a sign is written as one value. -/
def withSign (op : UnaryOperator) (e : Expression) : Expression :=
  match op, e with
  | .minus, .literal (.integer n) =>
    .literal ((negate? (.integer n)).getD (.number (-(Value.ofInteger n))))
  | .minus, .literal (.number v) => .literal (.number (-v))
  | .plus, .literal (.integer n) => .literal (.integer n)
  | .plus, .literal (.number v) => .literal (.number v)
  | op, e => .unary op e

/-- An expression without a truth value that is written out beside another
    expression. The other one then need not be a truth value. -/
def fold : Expression → Expression
  | .both (.literal (.boolean true)) e | .both e (.literal (.boolean true)) => e
  | .both (.literal (.boolean false)) _ => .literal (.boolean false)
  | .either (.literal (.boolean false)) e | .either e (.literal (.boolean false)) => e
  | .either (.literal (.boolean true)) _ => .literal (.boolean true)
  | e => e

/-- An operation, unless one side has to be a truth value and is written as
    another one. -/
def combine? (precedence : Nat) (build : Expression → Expression → Expression)
    (left right : Expression) : Option Expression :=
  if precedence ≤ 2 && (left.isForeign || right.isForeign) then none
  else some (fold (build left right))

/-- The variable and the path to an element of it that an expression stands for. -/
def place? : Expression → Option (String × List Expression)
  | .name n => some (n, [])
  | .element container key => (place? container).map fun (n, path) => (n, path ++ [key])
  | _ => none

/-- Names between parentheses, the first parenthesis taken. -/
def parameterNames : Nat → Parser (List String)
  | 0 => failure
  | fuel + 1 => do
    if ← takeMark ")" then return []
    let n ← name
    if ← takeMark "," then return n :: (← parameterNames fuel)
    expectMark ")"
    return [n]

/-- Whether no name stands in a list twice. -/
def allDifferent (names : List String) : Bool :=
  match names with
  | [] => true
  | n :: rest => !rest.contains n && allDifferent rest

mutual

/-- Operands joined by operators of a precedence or a stronger one. -/
def binary : Nat → Nat → Parser Expression
  | 0, _ => failure
  | fuel + 1, least => do
    let left ← unary fuel
    moreOperands fuel least left

def moreOperands : Nat → Nat → Expression → Parser Expression
  | 0, _, _ => failure
  | fuel + 1, least, left => do
    match ← peek with
    | some (.mark m) => match binaryOperators.lookup m with
      | some (precedence, build) =>
        if precedence < least then return left
        discard next
        -- The right side takes stronger operators only, so equal ones lean to the left.
        let right ← binary fuel (precedence + 1)
        match combine? precedence build left right with
        | some e => moreOperands fuel least e
        | none => failure
      | none => return left
    | _ => return left

def expression : Nat → Parser Expression
  | 0 => failure
  | fuel + 1 => binary fuel 1

def unary : Nat → Parser Expression
  | 0 => failure
  | fuel + 1 => do
    match (← peek).bind unaryOperator? with
    | some op =>
      discard next
      return withSign op (← unary fuel)
    | none =>
      let e ← primary fuel
      elements fuel e

/-- Elements, properties and calls behind an expression. -/
def elements : Nat → Expression → Parser Expression
  | 0, _ => failure
  | fuel + 1, e => do
    if ← takeMark "." then
      match ← next with
      | .word w =>
        -- Any word can stand behind a point until it is known whether it is called, as the two
        -- cases forbid different words.
        if ← takeMark "(" then
          if !isCallable w then failure
          let arguments ← callArguments fuel
          elements fuel (.callOn e w arguments)
        -- A property is the element of a map under a text.
        else if isFree w then elements fuel (.element e (.literal (.text w)))
        else failure
      | _ => failure
    else if ← takeMark "[" then
      let key ← expression fuel
      expectMark "]"
      elements fuel (.element e key)
    else return e

def callArguments : Nat → Parser (List Expression)
  | 0 => failure
  | fuel + 1 => do
    if ← takeMark ")" then return []
    let e ← expression fuel
    if ← takeMark "," then return e :: (← callArguments fuel)
    expectMark ")"
    return [e]

def primary : Nat → Parser Expression
  | 0 => failure
  | fuel + 1 => do
    -- A block is an expression, and so is a branch.
    if ← seesMark "\x7b" then return .block (← block fuel)
    if ← takeWord "if" then return ← branch fuel
    match ← next with
    | .integer n => return .literal (.integer n)
    | .number v => return .literal (.number v)
    | .character c => return .literal (.character c)
    | .text s => return .literal (.text s)
    | .word "true" => return .literal (.boolean true)
    | .word "false" => return .literal (.boolean false)
    | .word w =>
      if ← takeMark "(" then
        if !isCallable w then failure
        return .call w (← callArguments fuel)
      else if isFree w then return .name w
      else failure
    | .mark "(" =>
      -- Nothing between parentheses is the unit.
      if ← takeMark ")" then return .unit
      let e ← expression fuel
      expectMark ")"
      return e
    | .mark "[" => return .array (← arrayItems fuel)
    | .mark "#\x7b" =>
      let entries ← mapEntries fuel
      -- Of two entries of one name neither could win.
      if allDifferent (entries.map Prod.fst) then return .map entries
      failure
    | .mark _ => failure

/-- Items up to the closing bracket. -/
def arrayItems : Nat → Parser (List Expression)
  | 0 => failure
  | fuel + 1 => do
    if ← takeMark "]" then return []
    let e ← expression fuel
    if ← takeMark "," then return e :: (← arrayItems fuel)
    expectMark "]"
    return [e]

/-- Entries up to the closing brace. -/
def mapEntries : Nat → Parser (List (String × Expression))
  | 0 => failure
  | fuel + 1 => do
    if ← takeMark "\x7d" then return []
    let key ← match ← next with
      | .word w => if isFree w then pure w else failure
      -- A text may be any name, also one that no variable can have.
      | .text s => pure s
      | _ => failure
    expectMark ":"
    let e ← expression fuel
    if ← takeMark "," then return (key, e) :: (← mapEntries fuel)
    expectMark "\x7d"
    return [(key, e)]

/-- A condition and its branches, the first word taken. -/
def branch : Nat → Parser Expression
  | 0 => failure
  | fuel + 1 => do
    let condition ← expression fuel
    -- A condition that is written out and no truth value is found out while reading.
    if condition.isForeign then failure
    let yes ← block fuel
    let no ← if ← takeWord "else" then
        if ← takeWord "if" then branch fuel else .block <$> block fuel
      else pure .unit
    return .branch condition (.block yes) no

/-- Statements between braces. -/
def block : Nat → Parser (List Statement)
  | 0 => failure
  | fuel + 1 => do
    expectMark "\x7b"
    let body ← statements fuel
    expectMark "\x7d"
    return body

/-- Statements up to a closing brace, or the end. Lone semicolons are none. -/
def statements : Nat → Parser (List Statement)
  | 0 => failure
  | fuel + 1 => do
    if (← get).isEmpty || (← seesMark "\x7d") then return []
    if ← takeMark ";" then statements fuel
    else
      let s ← endedStatement fuel
      return s :: (← statements fuel)

/-- A statement and its semicolon, which may be left out behind a brace and before
    one, and at the end. -/
def endedStatement : Nat → Parser Statement
  | 0 => failure
  | fuel + 1 => do
    -- Whether the semicolon may be missing depends on how the statement begins, and has to be seen
    -- before it is taken.
    let endsItself := (← seesMark "\x7b") || (← sees (isWord "if"))
    let s ← statement fuel
    if ← takeMark ";" then return s
    if endsItself || (← get).isEmpty || (← seesMark "\x7d") then return s
    failure

def statement : Nat → Parser Statement
  | 0 => failure
  | fuel + 1 => do
    -- A block or a branch at the beginning is the whole statement: no operator can follow it.
    if ← seesMark "\x7b" then return .expression (.block (← block fuel))
    else if ← takeWord "if" then return .expression (← branch fuel)
    else if ← takeWord "let" then declaration fuel false
    else if ← takeWord "const" then declaration fuel true
    else if ← takeWord "return" then return .giveBack (← optionalExpression fuel)
    else if ← takeWord "throw" then return .throw (← optionalExpression fuel)
    else
      -- Only the token behind an expression tells whether it was the left side of an assignment.
      let e ← expression fuel
      match (← peek).bind assignmentOperator? with
      | none => return .expression e
      | some op =>
        discard next
        let value ← expression fuel
        match place? e with
        | some (n, path) => return .assign n path op value
        | none => failure

/-- An expression, or the unit where a statement ends. -/
def optionalExpression : Nat → Parser Expression
  | 0 => failure
  | fuel + 1 => do
    if (← get).isEmpty || (← seesMark "\x7d") || (← seesMark ";") then return .unit
    expression fuel

def declaration : Nat → Bool → Parser Statement
  | 0, _ => failure
  | fuel + 1, isConstant => do
    let n ← name
    let value ← if ← takeMark "=" then expression fuel else pure .unit
    return .declare n isConstant value

end

/-- Name, parameters and body of a function, the first word taken. -/
def definition (fuel : Nat) : Parser Definition := do
  let n ← name
  expectMark "("
  let parameters ← parameterNames fuel
  -- Two parameters of one name are an error here, and not a hidden parameter.
  if !allDifferent parameters then failure
  let body ← block fuel
  return ⟨n, parameters, body⟩

/-- Definitions and statements up to the end, after definitions that may not come
    again. -/
def script : Nat → Library → Parser Script
  | 0, _ => failure
  | fuel + 1, known => do
    if (← get).isEmpty then return ⟨known, []⟩
    if ← takeWord "fn" then
      let d ← definition fuel
      -- Functions are told apart by name and number of parameters.
      if (known.find? d.name d.parameters.length).isSome then failure
      script fuel (known ++ [d])
    else if ← takeMark ";" then script fuel known
    else
      let s ← endedStatement fuel
      -- Definitions further down count for the statements before them too.
      let rest ← script fuel known
      return { rest with body := s :: rest.body }

/-- More than the calls between two tokens. -/
def callsPerToken : Nat := 32

/-- The script that all of the tokens make up. -/
def script? (tokens : List Token) : Option Script :=
  ((script (callsPerToken * (tokens.length + 1)) []).run tokens).map Prod.fst

end Parser

/-- Variables that have been declared, the latest first, and whether they are
    constants. -/
abbrev Declared := List (String × Bool)

/-- The variables after a statement. -/
def Declared.after (declared : Declared) : Statement → Declared
  | .declare n isConstant _ => (n, isConstant) :: declared
  | _ => declared

mutual

/-- Whether nothing is assigned to a constant in an expression. -/
def Expression.isSound (declared : Declared) : Expression → Bool
  | .literal _ | .name _ => true
  | .array items => soundAll declared items
  | .map entries => soundEntries declared entries
  | .element e key => e.isSound declared && key.isSound declared
  | .call _ arguments => soundAll declared arguments
  | .callOn e _ arguments => e.isSound declared && soundAll declared arguments
  | .unary _ e => e.isSound declared
  | .binary _ e f | .both e f | .either e f => e.isSound declared && f.isSound declared
  | .block body => soundBody declared body
  | .branch c e f => c.isSound declared && e.isSound declared && f.isSound declared

def soundAll (declared : Declared) : List Expression → Bool
  | [] => true
  | e :: rest => e.isSound declared && soundAll declared rest

def soundEntries (declared : Declared) : List (String × Expression) → Bool
  | [] => true
  | (_, e) :: rest => e.isSound declared && soundEntries declared rest

/-- Whether nothing is assigned to a constant in statements. -/
def soundBody (declared : Declared) : List Statement → Bool
  | [] => true
  | s :: rest =>
    (match s with
    | .expression e | .declare _ _ e | .giveBack e | .throw e => e.isSound declared
    | .assign n path _ e =>
      (!path.isEmpty || declared.lookup n != some true) && soundAll declared path &&
        e.isSound declared) &&
    soundBody (declared.after s) rest

end

/-- Whether nothing is assigned to a constant in a function. -/
def Definition.isSound (d : Definition) : Bool :=
  soundBody (d.parameters.map fun n => (n, false)) d.body

/-- The script of a source. -/
def parse? (source : List Char) : Option Script := do
  let s ← Parser.script? (← tokenize? source)
  if s.definitions.all Definition.isSound && soundBody [] s.body then some s else none

end EmbeddedScript

end MapStyling
