import MapStyling.Text.TokenParser
import MapStyling.WebScript.Number
import MapStyling.WebScript.Term

/-!
# Parsing Web Scripts

From tokens to statements.

The parser descends over the grammar and takes tokens off the front of a list.
Every call that it makes costs one unit of fuel. Between two tokens there are
fewer calls than `callsPerToken`, so a parse that starts with that many units
for each token never runs out of them.

What a script may not declare is checked on the finished statements: a name
twice in one block, or a name both for a block and for its function.

## Main definitions

* `Parser`: A value off the front of tokens.
* `Parser.expression`, `Parser.statement`: The levels of the grammar.
* `Expression.isSound`, `Statement.isSound`: Declarations that may be made.
* `parse?`: The statements of a source.
-/

namespace MapStyling

namespace WebScript

/-- A value off the front of tokens. -/
abbrev Parser := TokenParser Lexeme

namespace Parser

open TokenParser

/-- Words that are no names. -/
def reserved : List String :=
  ["break", "case", "catch", "class", "const", "continue", "debugger", "default", "delete", "do",
   "else", "enum", "export", "extends", "false", "finally", "for", "function", "if", "import",
   "in", "instanceof", "new", "null", "return", "super", "switch", "this", "throw", "true", "try",
   "typeof", "var", "void", "while", "with"]

def isReserved (name : Units) : Bool :=
  reserved.any fun w => Units.ofString w == name

/-- Whether a token is a mark. -/
def isMark (m : String) (l : Lexeme) : Bool := l.token = .mark m

/-- Whether a token is a word. -/
def isWord (w : String) (l : Lexeme) : Bool := l.token = .word (Units.ofString w)

def seesMark (m : String) : Parser Bool := sees (isMark m)

/-- Take a mark if it is the next token. -/
def takeMark (m : String) : Parser Bool := take (isMark m)

/-- Take a word if it is the next token. -/
def takeWord (w : String) : Parser Bool := take (isWord w)

/-- Take a mark that has to follow. -/
def expectMark (m : String) : Parser Unit := expect (isMark m)

/-- Whether a line ends before the next token, or the tokens end. -/
def atNewLine : Parser Bool := return (← get).head?.all Lexeme.startsLine

/-- Take a name that has to follow. -/
def name : Parser Units := do
  match (← next).token with
  -- A reserved word is no name, not even where nothing else could stand.
  | .word n => if isReserved n then failure else return n
  | _ => failure

/-- The end of a statement: a semicolon, or a place where it may be left out. -/
def statementEnd : Parser Unit := do
  if ← takeMark ";" then return
  -- A brace or a new line ends a statement without being part of it, so neither is taken.
  if (← seesMark "\x7d") || (← atNewLine) then return
  failure

/-- Parameters between parentheses that an arrow follows on the same line, or one
    parameter without them; and the tokens behind the arrow. -/
def arrow? : List Lexeme → Option (List Units × List Lexeme)
  | ⟨.word n, _⟩ :: ⟨.mark "=>", false⟩ :: rest => if isReserved n then none else some ([n], rest)
  | ⟨.mark "(", _⟩ :: rest => names [] rest
  | _ => none
where
  /-- Names and commas up to the arrow. -/
  names (before : List Units) : List Lexeme → Option (List Units × List Lexeme)
    | ⟨.mark ")", _⟩ :: ⟨.mark "=>", false⟩ :: rest => some (before.reverse, rest)
    | ⟨.word n, _⟩ :: ⟨.mark ",", _⟩ :: rest =>
      if isReserved n then none else names (n :: before) rest
    | ⟨.word n, _⟩ :: ⟨.mark ")", _⟩ :: ⟨.mark "=>", false⟩ :: rest =>
      if isReserved n then none else some ((n :: before).reverse, rest)
    | _ => none

/-- Operators by precedence, the weakest first, and what they build. -/
def binaryOperators : List (String × Nat × (Expression → Expression → Expression)) :=
  [("||", 1, .either), ("&&", 2, .both),
   ("==", 3, .binary .equal), ("!=", 3, .binary .unequal),
   ("===", 3, .binary .same), ("!==", 3, .binary .different),
   ("<", 4, .binary .less), ("<=", 4, .binary .lessOrEqual),
   (">", 4, .binary .greater), (">=", 4, .binary .greaterOrEqual),
   ("+", 5, .binary .add), ("-", 5, .binary .subtract),
   ("*", 6, .binary .multiply), ("/", 6, .binary .divide), ("%", 6, .binary .remainder)]

def unaryOperator? : Token → Option UnaryOperator
  | .mark "+" => some .plus
  | .mark "-" => some .minus
  | .mark "!" => some .not
  | .word w => if w = Units.ofString "typeof" then some .typeof else none
  | _ => none

/-- Reserved words that stand for a value. -/
def constants : List (Units × Expression) :=
  [(Units.ofString "null", .null), (Units.ofString "true", .boolean true),
   (Units.ofString "false", .boolean false), (Units.ofString "this", .this)]

/-- What an assignment combines the old value with, if anything. -/
def assignmentOperator? : Token → Option (Option BinaryOperator)
  | .mark "=" => some none
  | .mark "+=" => some (some .add)
  | .mark "-=" => some (some .subtract)
  | .mark "*=" => some (some .multiply)
  | .mark "/=" => some (some .divide)
  | .mark "%=" => some (some .remainder)
  | _ => none

/-- An assignment to what stands on its left side. -/
def assign? (target : Expression) (op : Option BinaryOperator) (value : Expression) :
    Option Expression :=
  match target with
  | .name n => some (.assignName n op value)
  | .member object key => some (.assignMember object key op value)
  | _ => none

/-- Key of an entry of an object. -/
def entryKey : Parser Units := do
  match (← next).token with
  | .word n => return n
  | .text u => return u
  | .number v => return numberText v
  | .mark _ => failure

/-- The names between the parentheses of a function, the first of them taken. -/
def parameterNames : Nat → Parser (List Units)
  | 0 => failure
  | fuel + 1 => do
    if ← takeMark ")" then return []
    let n ← name
    if ← takeMark "," then return n :: (← parameterNames fuel)
    expectMark ")"
    return [n]

mutual

/-- Expressions with commas between them. -/
def expression : Nat → Parser Expression
  | 0 => failure
  | fuel + 1 => do
    let e ← assignment fuel
    moreExpressions fuel e

def moreExpressions : Nat → Expression → Parser Expression
  | 0, _ => failure
  | fuel + 1, first => do
    if ← takeMark "," then
      let e ← assignment fuel
      moreExpressions fuel (.sequence first e)
    else return first

/-- An arrow function, an assignment, or what can stand on the right of one. -/
def assignment : Nat → Parser Expression
  | 0 => failure
  | fuel + 1 => do
    -- Parameters are read ahead up to the arrow: what stands between the parentheses could as well
    -- begin an operand.
    match arrow? (← get) with
    | some (parameters, rest) =>
      set rest
      arrowBody fuel parameters
    | none =>
      let target ← conditional fuel
      match (← peek).bind (assignmentOperator? ·.token) with
      | none => return target
      | some op =>
        discard next
        -- Assignments lean to the right, so a chain of them is read by this very function.
        let value ← assignment fuel
        match assign? target op value with
        | some e => return e
        | none => failure

def arrowBody : Nat → List Units → Parser Expression
  | 0, _ => failure
  | fuel + 1, parameters => do
    -- Behind an arrow, a brace opens a body and never an object.
    if ← seesMark "\x7b" then return .arrow parameters (← block fuel)
    let e ← assignment fuel
    return .arrow parameters [.giveBack (some e)]

def conditional : Nat → Parser Expression
  | 0 => failure
  | fuel + 1 => do
    let condition ← binary fuel 1
    if ← takeMark "?" then
      -- Neither branch holds a comma that is not between brackets.
      let yes ← assignment fuel
      expectMark ":"
      let no ← assignment fuel
      return .conditional condition yes no
    else return condition

/-- Operands joined by operators of a precedence or a stronger one. -/
def binary : Nat → Nat → Parser Expression
  | 0, _ => failure
  | fuel + 1, least => do
    let left ← unary fuel
    moreOperands fuel least left

def moreOperands : Nat → Nat → Expression → Parser Expression
  | 0, _, _ => failure
  | fuel + 1, least, left => do
    match (← peek).map Lexeme.token with
    | some (.mark m) => match binaryOperators.lookup m with
      | some (precedence, build) =>
        if precedence < least then return left
        discard next
        -- The right side takes stronger operators only, so equal ones lean to the left.
        let right ← binary fuel (precedence + 1)
        moreOperands fuel least (build left right)
      | none => return left
    | _ => return left

def unary : Nat → Parser Expression
  | 0 => failure
  | fuel + 1 => do
    match (← peek).bind (unaryOperator? ·.token) with
    | some op =>
      discard next
      return .unary op (← unary fuel)
    | none =>
      let e ← primary fuel
      members fuel e

/-- Members and calls behind an expression. -/
def members : Nat → Expression → Parser Expression
  | 0, _ => failure
  | fuel + 1, e => do
    if ← takeMark "." then
      match (← next).token with
      -- Behind a point, reserved words are names like all others.
      | .word n => members fuel (.member e (.text n))
      | _ => failure
    else if ← takeMark "[" then
      let key ← expression fuel
      expectMark "]"
      members fuel (.member e key)
    else if ← takeMark "(" then
      let arguments ← callArguments fuel
      members fuel (.call e arguments)
    else return e

def callArguments : Nat → Parser (List Expression)
  | 0 => failure
  | fuel + 1 => do
    if ← takeMark ")" then return []
    let e ← assignment fuel
    if ← takeMark "," then return e :: (← callArguments fuel)
    expectMark ")"
    return [e]

def primary : Nat → Parser Expression
  | 0 => failure
  | fuel + 1 => do
    match (← next).token with
    | .number v => return .number v
    | .text u => return .text u
    | .mark "(" =>
      let e ← expression fuel
      expectMark ")"
      return e
    | .mark "[" => return .array (← arrayItems fuel)
    | .mark "\x7b" => return .object (← objectEntries fuel)
    | .mark _ => failure
    | .word w =>
      if w = Units.ofString "function" then
        -- A function as a value may go without a name.
        let own ← if ← seesMark "(" then pure none else some <$> name
        let (parameters, body) ← functionRest fuel
        return .function own parameters body
      else if isReserved w then
        -- Of the reserved words, those that are values can stand here.
        match constants.lookup w with
        | some e => return e
        | none => failure
      else return .name w

/-- Items up to the closing bracket. -/
def arrayItems : Nat → Parser (List (Option Expression))
  | 0 => failure
  | fuel + 1 => do
    if ← takeMark "]" then return []
    -- A comma with nothing in front of it leaves a hole, which counts towards the length.
    if ← takeMark "," then return none :: (← arrayItems fuel)
    let e ← assignment fuel
    if ← takeMark "," then return some e :: (← arrayItems fuel)
    expectMark "]"
    return [some e]

/-- Entries up to the closing brace. -/
def objectEntries : Nat → Parser (List (Units × Expression))
  | 0 => failure
  | fuel + 1 => do
    if ← takeMark "\x7d" then return []
    let key ← entryKey
    expectMark ":"
    let e ← assignment fuel
    if ← takeMark "," then return (key, e) :: (← objectEntries fuel)
    expectMark "\x7d"
    return [(key, e)]

/-- Parameters and body. -/
def functionRest : Nat → Parser (List Units × List Statement)
  | 0 => failure
  | fuel + 1 => do
    expectMark "("
    let parameters ← parameterNames fuel
    let body ← block fuel
    return (parameters, body)

/-- Statements between braces. -/
def block : Nat → Parser (List Statement)
  | 0 => failure
  | fuel + 1 => do
    expectMark "\x7b"
    let body ← statements fuel
    expectMark "\x7d"
    return body

/-- Statements up to a closing brace, or the end. -/
def statements : Nat → Parser (List Statement)
  | 0 => failure
  | fuel + 1 => do
    if (← get).isEmpty || (← seesMark "\x7d") then return []
    let s ← declaration fuel
    return s :: (← statements fuel)

/-- A statement where declarations may stand. -/
def declaration : Nat → Parser Statement
  | 0 => failure
  | fuel + 1 => do
    if ← takeWord "function" then
      let own ← name
      let (parameters, body) ← functionRest fuel
      return .function own parameters body
    -- Declarations of a block are read here and not below, where a clause would end up: a branch
    -- has no block that they could belong to.
    else if ← takeWord "let" then bindings fuel .mutable
    else if ← takeWord "const" then bindings fuel .constant
    else statement fuel

/-- The names that a declaration binds, to its end. -/
def bindings : Nat → DeclarationKind → Parser Statement
  | 0, _ => failure
  | fuel + 1, kind => do
    let bs ← bindingList fuel kind
    statementEnd
    return .declare kind bs

def bindingList : Nat → DeclarationKind → Parser (List (Units × Option Expression))
  | 0, _ => failure
  | fuel + 1, kind => do
    let n ← name
    let value ← if ← takeMark "=" then some <$> assignment fuel
      -- What cannot be assigned to needs its value where it is declared.
      else if kind = .constant then failure
      else pure none
    if ← takeMark "," then return (n, value) :: (← bindingList fuel kind)
    return [(n, value)]

/-- A statement where no declaration for a block may stand. -/
def statement : Nat → Parser Statement
  | 0 => failure
  | fuel + 1 => do
    if ← seesMark "\x7b" then return .block (← block fuel)
    else if ← takeMark ";" then return .empty
    else if ← takeWord "var" then bindings fuel .variable
    else if ← takeWord "if" then
      expectMark "("
      let condition ← expression fuel
      expectMark ")"
      let yes ← clause fuel
      let no ← if ← takeWord "else" then clause fuel else pure .empty
      return .branch condition yes no
    else if ← takeWord "return" then
      -- A value on the next line is a statement of its own.
      if (← seesMark ";") || (← seesMark "\x7d") || (← atNewLine) then
        statementEnd
        return .giveBack none
      let e ← expression fuel
      statementEnd
      return .giveBack (some e)
    else if ← takeWord "throw" then
      -- There is nothing to throw without a value, so the line may not end here.
      if ← atNewLine then failure
      let e ← expression fuel
      statementEnd
      return .throw e
    -- An expression may not begin like a declaration.
    else if ← sees (isWord "function") then failure
    else
      let e ← expression fuel
      statementEnd
      return .expression e

/-- A clause of a branch. A function may be declared there, as if in a block of
    its own. -/
def clause : Nat → Parser Statement
  | 0 => failure
  | fuel + 1 => do
    if ← sees (isWord "function") then return .block [← declaration fuel]
    else statement fuel

end

/-- More than the calls between two tokens. -/
def callsPerToken : Nat := 32

/-- The statements that all of the tokens make up. -/
def script? (tokens : List Lexeme) : Option (List Statement) := do
  -- Each call takes a token or goes one rule deeper, and the rules nest less deeply than this.
  let (body, rest) ← (statements (callsPerToken * (tokens.length + 1))).run tokens
  if rest.isEmpty then some body else none

end Parser

/-- Whether no name stands in a list twice. -/
def allDifferent (names : List Units) : Bool :=
  match names with
  | [] => true
  | n :: rest => !rest.contains n && allDifferent rest

/-- Whether statements of one block declare no name twice, and no name that is
    `taken`, for the block. -/
def areDeclarable (taken : List Units) (body : List Statement) : Bool :=
  let names := (body.flatMap Statement.lexicals).map Prod.fst
  -- Parameters, variables declared further inside and the functions of the block are in the way too.
  allDifferent names && names.all fun n =>
    !(taken ++ Statement.hoistedOf body ++
      (body.filterMap Statement.function?).map Function.name).contains n

mutual

/-- Whether an expression makes only declarations that it may make. -/
def Expression.isSound : Expression → Bool
  | .array items => soundItems items
  | .object entries => soundEntries entries
  | .function _ parameters body => areDeclarable parameters body && soundBody true body
  | .arrow parameters body =>
    -- Only an arrow refuses to name a parameter twice.
    allDifferent parameters && areDeclarable parameters body && soundBody true body
  | .member e key => e.isSound && key.isSound
  | .call e arguments => e.isSound && soundAll arguments
  | .unary _ e => e.isSound
  | .binary _ e f | .both e f | .either e f | .sequence e f => e.isSound && f.isSound
  | .conditional c e f => c.isSound && e.isSound && f.isSound
  | .assignName _ _ e => e.isSound
  | .assignMember e key _ f => e.isSound && key.isSound && f.isSound
  | _ => true

def soundAll : List Expression → Bool
  | [] => true
  | e :: rest => e.isSound && soundAll rest

def soundItems : List (Option Expression) → Bool
  | [] => true
  | none :: rest => soundItems rest
  | some e :: rest => e.isSound && soundItems rest

def soundEntries : List (Units × Expression) → Bool
  | [] => true
  | (_, e) :: rest => e.isSound && soundEntries rest

/-- The same of a statement, which may return only inside a function. -/
def Statement.isSound (inFunction : Bool) : Statement → Bool
  | .empty => true
  | .expression e | .throw e => e.isSound
  | .declare _ bindings => soundBindings bindings
  | .function _ parameters body => areDeclarable parameters body && soundBody true body
  | .block body => areDeclarable [] body && soundBody inFunction body
  | .branch c yes no => c.isSound && yes.isSound inFunction && no.isSound inFunction
  | .giveBack none => inFunction
  | .giveBack (some e) => inFunction && e.isSound

def soundBindings : List (Units × Option Expression) → Bool
  | [] => true
  | (_, none) :: rest => soundBindings rest
  | (_, some e) :: rest => e.isSound && soundBindings rest

def soundBody (inFunction : Bool) : List Statement → Bool
  | [] => true
  | s :: rest => s.isSound inFunction && soundBody inFunction rest

end

/-- The statements of a source. -/
def parse? (source : List Char) : Option (List Statement) := do
  let body ← Parser.script? (← tokenize? source)
  -- The source itself is no function, so nothing can return from it.
  if areDeclarable [] body && soundBody false body then some body else none

end WebScript

end MapStyling
