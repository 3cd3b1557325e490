import SceneScript.Source.Error
import SceneScript.Source.Tree

/-!
# Parsing

Recursive descent over the tokens of a text. Two bounds hold. Blocks, `else if`, expressions and
unary operators enter a level each, and a parser for `levels` more levels is defined by recursion on
that number. A compound expression must not be higher than the same limit. Lists (operator chains,
arguments, statements) take at least one token per round, so the number of tokens bounds their
length.

Negative numeric literals are constants: a minus in front of a literal is folded into it.
-/

namespace SceneScript.Source

structure Parsing where
  /-- The position behind the text. -/
  finish : Position
  /-- The greatest height of an expression and depth of nesting. -/
  maxDepth : Nat
  /-- No list is longer than the text has tokens. -/
  rounds : Nat

/-- A parser reads tokens from the front of those ahead. -/
abbrev Parser := ReaderT Parsing (StateT (List Token) (Except Fault))

namespace Parser

def fail (error : Error) (position : Position) : Parser α :=
  throw ⟨error, position⟩

/-! ## Tokens -/

/-- The next token; at the end of the text it stays there. -/
def peek : Parser Token := do
  match ← get with
  | [] => return ⟨.finish, (← read).finish⟩
  | t :: _ => return t

def peekKind : Parser Token.Kind :=
  return (← peek).kind

def peekPosition : Parser Position :=
  return (← peek).position

def advance : Parser Token := do
  let t ← peek
  modify List.tail
  return t

def eat (s : Symbol) : Parser Bool := do
  if (← peekKind) = .symbol s then
    let _ ← advance
    return true
  else
    return false

def eatKeyword (k : Keyword) : Parser Bool := do
  if (← peekKind) = .keyword k then
    let _ ← advance
    return true
  else
    return false

/-- Fails at the next token, which is not what the grammar asks for. -/
def unexpected (wanted : Expectation) : Parser α := do
  let t ← peek
  fail (.expected wanted t.kind) t.position

def expect (s : Symbol) : Parser Position := do
  let t ← peek
  if ← eat s then return t.position
  else unexpected (.symbol s)

def expectKeyword (k : Keyword) : Parser Position := do
  let t ← peek
  if ← eatKeyword k then return t.position
  else unexpected (.keyword k)

def identifier : Parser String := do
  match ← peekKind with
  | .word name =>
    let _ ← advance
    return name
  | _ => unexpected .identifier

/-! ## Paths and types -/

def pathTail : Nat → Path → Parser Path
  | 0, p => return p
  | rounds + 1, p => do
    if ← eat .dot then
      pathTail rounds (p.push (← identifier))
    else
      return p

def path : Parser Path := do
  let position ← peekPosition
  let first ← identifier
  pathTail (← read).rounds ⟨first, [], position⟩

def typeName : Parser TypeName :=
  return (← path).toTypeName

/-! ## Expressions -/

def bounded (e : Expr) : Parser Expr := do
  if e.height ≤ (← read).maxDepth then return e
  else fail .expressionTooDeep e.position

/-- Extends `left` by the operators of one level of precedence, associating to the left. -/
def chainTail (operator? : Token.Kind → Option BinaryOp) (operand : Parser Expr) :
    Nat → Expr → Parser Expr
  | 0, left => return left
  | rounds + 1, left => do
    let t ← peek
    match operator? t.kind with
    | none => return left
    | some op =>
      let _ ← advance
      let right ← operand
      chainTail operator? operand rounds (← bounded (.binaryOf t.position op left right))

def chain (operator? : Token.Kind → Option BinaryOp) (operand : Parser Expr) : Parser Expr := do
  let left ← operand
  chainTail operator? operand (← read).rounds left

def orOperator? : Token.Kind → Option BinaryOp
  | .symbol .or => some .or
  | _ => none

def andOperator? : Token.Kind → Option BinaryOp
  | .symbol .and => some .and
  | _ => none

def equalityOperator? : Token.Kind → Option BinaryOp
  | .symbol .equal => some .eq
  | .symbol .notEqual => some .ne
  | _ => none

def comparisonOperator? : Token.Kind → Option BinaryOp
  | .symbol .less => some .lt
  | .symbol .lessEqual => some .le
  | .symbol .greater => some .gt
  | .symbol .greaterEqual => some .ge
  | _ => none

def additiveOperator? : Token.Kind → Option BinaryOp
  | .symbol .plus => some .add
  | .symbol .minus => some .sub
  | _ => none

def multiplicativeOperator? : Token.Kind → Option BinaryOp
  | .symbol .star => some .mul
  | .symbol .slash => some .div
  | .symbol .percent => some .rem
  | _ => none

/-- The levels of precedence over the unary operators, the loosest outside. -/
def binaryLevels (unary : Parser Expr) : Parser Expr :=
  chain orOperator? (chain andOperator? (chain equalityOperator? (chain comparisonOperator?
    (chain additiveOperator? (chain multiplicativeOperator? unary)))))

def argumentTail (argument : Parser Expr) : Nat → List Expr → Parser (List Expr)
  | 0, found => return found.reverse
  | rounds + 1, found => do
    let found := (← argument) :: found
    if ← eat .comma then argumentTail argument rounds found
    else
      let _ ← expect .closeParen
      return found.reverse

def arguments (argument : Parser Expr) : Parser (List Expr) := do
  let _ ← expect .openParen
  if ← eat .closeParen then return []
  else argumentTail argument ((← read).rounds + 1) []

def member (argument : Parser Expr) : Parser (String × Option (List Expr)) := do
  let name ← identifier
  if (← peekKind) = .symbol .openParen then
    return (name, some (← arguments argument))
  else
    return (name, none)

def postfixTail (argument : Parser Expr) : Nat → Expr → Parser Expr
  | 0, e => return e
  | rounds + 1, e => do
    let t ← peek
    match t.kind with
    | .symbol .dot =>
      let _ ← advance
      let e ← match ← member argument with
        | (name, some args) => bounded (.callOf t.position e name args)
        | (name, none) => bounded (.fieldOf t.position e name)
      postfixTail argument rounds e
    | .symbol .doubleColon =>
      let _ ← advance
      let some type := e.path? | fail .typeNameExpected t.position
      let e ← match ← member argument with
        | (name, some args) => bounded (.staticCallOf t.position type name args)
        | (name, none) => bounded (.staticField t.position type name)
      postfixTail argument rounds e
    | _ => return e

def primary (inner : Parser Expr) : Parser Expr := do
  let t ← advance
  match t.kind with
  | .int v => return .int t.position v
  | .float v => return .float t.position v
  | .string s => return .string t.position s
  | .keyword .true => return .bool t.position true
  | .keyword .false => return .bool t.position false
  | .keyword .null => return .null t.position
  | .word name => return .var t.position name
  | .symbol .openParen =>
    let e ← inner
    let _ ← expect .closeParen
    return e
  | kind => fail (.expected .expression kind) t.position

def postfixed (inner : Parser Expr) : Parser Expr := do
  let e ← primary inner
  postfixTail inner (← read).rounds e

/-- A unary operator applied, a minus in front of a numeric literal folded. -/
def applyUnary (op : UnaryOp) (position : Position) (operand : Expr) : Parser Expr :=
  match op, operand with
  | .neg, .int _ v => return .int position (-v)
  | .neg, .float _ v => return .float position (-v)
  | op, operand => bounded (.unaryOf position op operand)

/-- A unary operator with its operand, or else a postfix expression. -/
def unaryOr (operand : Position → Parser Expr) (inner : Parser Expr) : Parser Expr := do
  let t ← peek
  match t.kind with
  | .symbol .minus =>
    let _ ← advance
    applyUnary .neg t.position (← operand t.position)
  | .symbol .bang =>
    let _ ← advance
    applyUnary .not t.position (← operand t.position)
  | _ => postfixed inner

def tooDeepHere : Parser α := do
  fail .codeTooDeep (← peekPosition)

def unary : Nat → Parser Expr
  | 0 => unaryOr (fail .codeTooDeep) tooDeepHere
  | levels + 1 => unaryOr (fun _ => unary levels) (binaryLevels (unary levels))

def expr : Nat → Parser Expr
  | 0 => tooDeepHere
  | levels + 1 => binaryLevels (unary levels)

/-! ## Statements -/

/-- The statements up to the brace that closes the block opened at `start`. -/
def statements (statement : Parser Statement) (start : Position) :
    Nat → List Statement → Parser (List Statement)
  | 0, _ => fail .unclosedBlock start
  | rounds + 1, found => do
    match ← peekKind with
    | .symbol .closeBrace =>
      let _ ← advance
      return found.reverse
    | .finish => fail .unclosedBlock start
    | _ => statements statement start rounds ((← statement) :: found)

def blockOf (statement : Parser Statement) : Parser (List Statement) := do
  let start ← expect .openBrace
  statements statement start ((← read).rounds + 1) []

/-- A block that may not be entered. -/
def closedBlock : Parser (List Statement) := do
  fail .codeTooDeep (← expect .openBrace)

/-- A conditional. What follows `else if` is a level deeper, an `else` block is not. -/
def conditionalOf (expr : Parser Expr) (block : Parser (List Statement))
    (deeper : Parser Statement) : Parser Statement := do
  let position ← expectKeyword .if
  let cond ← expr
  let body ← block
  if ← eatKeyword .else then
    if (← peekKind) = .keyword .if then
      return .ifThenElse position cond body [← deeper]
    else
      return .ifThenElse position cond body (← block)
  else
    return .ifThen position cond body

def bindStatement (expr : Parser Expr) : Parser Statement := do
  let position ← expectKeyword .let
  let name ← identifier
  let type ← if ← eat .colon then some <$> typeName else pure none
  let _ ← expect .assign
  let init ← expr
  let _ ← expect .semicolon
  return .bind position name type init

def loopStatement (expr : Parser Expr) (block : Parser (List Statement)) : Parser Statement := do
  let position ← expectKeyword .for
  let name ← identifier
  let _ ← expectKeyword .in
  let first ← expr
  let _ ← expect .range
  let last ← expr
  return .loop position name first last (← block)

def giveStatement (expr : Parser Expr) : Parser Statement := do
  let position ← expectKeyword .return
  let value ← if (← peekKind) = .symbol .semicolon then pure none else some <$> expr
  let _ ← expect .semicolon
  return .give position value

def plainStatement (expr : Parser Expr) : Parser Statement := do
  let position ← peekPosition
  let target ← expr
  if ← eat .assign then
    let value ← expr
    let _ ← expect .semicolon
    return .assign position target value
  else
    let _ ← expect .semicolon
    return .eval position target

/-- A statement over parsers for its parts. -/
def statementOf (expr : Parser Expr) (block : Parser (List Statement))
    (conditional : Parser Statement) : Parser Statement := do
  match ← peekKind with
  | .keyword .let => bindStatement expr
  | .keyword .if => conditional
  | .keyword .for => loopStatement expr block
  | .keyword .return => giveStatement expr
  | _ => plainStatement expr

mutual

def block : Nat → Parser (List Statement)
  | 0 => closedBlock
  | levels + 1 => blockOf (statementOf (expr levels) (block levels) (conditional levels))

def conditional : Nat → Parser Statement
  | 0 => conditionalOf (expr 0) closedBlock tooDeepHere
  | levels + 1 =>
    conditionalOf (expr (levels + 1))
      (blockOf (statementOf (expr levels) (block levels) (conditional levels)))
      (conditional levels)

end

theorem conditional_zero : conditional 0 = conditionalOf (expr 0) (block 0) tooDeepHere := rfl

theorem conditional_succ (levels : Nat) :
    conditional (levels + 1) =
      conditionalOf (expr (levels + 1)) (block (levels + 1)) (conditional levels) := rfl

/-! ## Units -/

def function : Parser Function := do
  let position ← expectKeyword .fn
  let name ← identifier
  let _ ← expect .openParen
  let param ← identifier
  let _ ← expect .colon
  let paramType ← typeName
  let _ ← expect .closeParen
  let _ ← expect .arrow
  let resultType ← typeName
  let body ← block (← read).maxDepth
  return { name, param, paramType, resultType, body, position }

def imports : Nat → List Path → Parser (List Path)
  | 0, found => return found.reverse
  | rounds + 1, found => do
    if ← eatKeyword .use then
      let p ← path
      let _ ← expect .semicolon
      imports rounds (p :: found)
    else
      return found.reverse

def unit : Parser CompilationUnit := do
  let _ ← expectKeyword .module
  let moduleName ← path
  let _ ← expect .semicolon
  let imports ← imports (← read).rounds []
  let entry ← function
  if (← peekKind) = .finish then
    return { moduleName, imports, entry }
  else
    unexpected .finish

/-- Runs a parser on a text, all of which must split into tokens. -/
def onText (parser : Parser α) (maxDepth : Nat) (text : String) : Except Fault α := do
  match Token.Stream.ofText text with
  | .error fault => throw (.ofLexical fault)
  | .ok stream =>
    let (result, _) ← parser ⟨stream.finish, maxDepth, stream.tokens.length⟩ stream.tokens
    return result

end Parser

def Expr.parse (maxDepth : Nat) (text : String) : Except Fault Expr :=
  (Parser.expr maxDepth).onText maxDepth text

def CompilationUnit.parse (maxDepth : Nat) (text : String) : Except Fault CompilationUnit :=
  Parser.unit.onText maxDepth text

end SceneScript.Source
