import SceneScript.Proofs.Number.Floats
import SceneScript.Proofs.Source.Runs

/-!
# Printing

Trees as tokens. An operand gets parentheses only where it binds less tightly than its place demands,
a negative number is a minus with a magnitude, a conditional alone in an `else` block follows the
`else` directly.
-/

namespace SceneScript.Source

open Number (isNegative)
open Token (Kind)

/-! ## Trees without positions -/

def Path.unplaced (p : Path) : Path :=
  { p with position := .start }

def TypeName.unplaced : TypeName → TypeName
  | .int _ => .int .start
  | .float _ => .float .start
  | .bool _ => .bool .start
  | .named path => .named path.unplaced

namespace Expr

mutual

def unplaced : Expr → Expr
  | int _ v => .int .start v
  | float _ x => .float .start x
  | string _ s => .string .start s
  | bool _ b => .bool .start b
  | null _ => .null .start
  | var _ name => .var .start name
  | field _ h receiver name => .field .start h receiver.unplaced name
  | call _ h receiver name args => .call .start h receiver.unplaced name (unplacedAll args)
  | staticField _ type name => .staticField .start type.unplaced name
  | staticCall _ h type name args => .staticCall .start h type.unplaced name (unplacedAll args)
  | unary _ h op operand => .unary .start h op operand.unplaced
  | binary _ h op left right => .binary .start h op left.unplaced right.unplaced

def unplacedAll : List Expr → List Expr
  | [] => []
  | e :: rest => e.unplaced :: unplacedAll rest

end

mutual

/-- An expression without its positions, with all heights as they should be. -/
def bare : Expr → Expr
  | int _ v => .int .start v
  | float _ x => .float .start x
  | string _ s => .string .start s
  | bool _ b => .bool .start b
  | null _ => .null .start
  | var _ name => .var .start name
  | field _ _ receiver name => fieldOf .start receiver.bare name
  | call _ _ receiver name args => callOf .start receiver.bare name (bareAll args)
  | staticField _ type name => .staticField .start type.unplaced name
  | staticCall _ _ type name args => staticCallOf .start type.unplaced name (bareAll args)
  | unary _ _ op operand => unaryOf .start op operand.bare
  | binary _ _ op left right => binaryOf .start op left.bare right.bare

def bareAll : List Expr → List Expr
  | [] => []
  | e :: rest => e.bare :: bareAll rest

end

theorem height_unplaced (e : Expr) : e.unplaced.height = e.height := by
  cases e <;> rfl

theorem maxHeight_unplacedAll (es : List Expr) : maxHeight (unplacedAll es) = maxHeight es := by
  have folds (n : Nat) : (unplacedAll es).foldl (fun h e => max h e.height) n =
      es.foldl (fun h e => max h e.height) n := by
    induction es generalizing n with
    | nil => rfl
    | cons e rest ih => simp only [unplacedAll, List.foldl_cons, height_unplaced, ih]
  exact folds 0

theorem unplaced_fieldOf (p : Position) (receiver : Expr) (name : String) :
    (fieldOf p receiver name).unplaced = fieldOf .start receiver.unplaced name := by
  rw [fieldOf, fieldOf, unplaced, height_unplaced]

theorem unplaced_callOf (p : Position) (receiver : Expr) (name : String) (args : List Expr) :
    (callOf p receiver name args).unplaced =
      callOf .start receiver.unplaced name (unplacedAll args) := by
  rw [callOf, callOf, unplaced, height_unplaced, maxHeight_unplacedAll]

theorem unplaced_staticCallOf (p : Position) (type : Path) (name : String) (args : List Expr) :
    (staticCallOf p type name args).unplaced =
      staticCallOf .start type.unplaced name (unplacedAll args) := by
  rw [staticCallOf, staticCallOf, unplaced, maxHeight_unplacedAll]

theorem unplaced_unaryOf (p : Position) (op : UnaryOp) (operand : Expr) :
    (unaryOf p op operand).unplaced = unaryOf .start op operand.unplaced := by
  rw [unaryOf, unaryOf, unplaced, height_unplaced]

theorem unplaced_binaryOf (p : Position) (op : BinaryOp) (left right : Expr) :
    (binaryOf p op left right).unplaced = binaryOf .start op left.unplaced right.unplaced := by
  rw [binaryOf, binaryOf, unplaced, height_unplaced, height_unplaced]

end Expr

/-! ## Expressions -/

def BinaryOp.symbol : BinaryOp → Symbol
  | .add => .plus
  | .sub => .minus
  | .mul => .star
  | .div => .slash
  | .rem => .percent
  | .eq => .equal
  | .ne => .notEqual
  | .lt => .less
  | .le => .lessEqual
  | .gt => .greater
  | .ge => .greaterEqual
  | .and => .and
  | .or => .or

def UnaryOp.symbol : UnaryOp → Symbol
  | .neg => .minus
  | .not => .bang

def BinaryOp.level : BinaryOp → Nat
  | .or => 0
  | .and => 1
  | .eq | .ne => 2
  | .lt | .le | .gt | .ge => 3
  | .add | .sub => 4
  | .mul | .div | .rem => 5

def Path.tokens (p : Path) : List Kind :=
  .word p.first :: p.more.flatMap fun name => [.symbol .dot, .word name]

def inParens (needed : Bool) (ts : List Kind) : List Kind :=
  if needed then .symbol .openParen :: ts ++ [.symbol .closeParen] else ts

namespace Expr

/-- How tightly an expression binds: as its binary operator, tighter if it begins with a unary one,
and yet tighter otherwise. -/
def level : Expr → Nat
  | binary _ _ op _ _ => op.level
  | unary .. => 6
  | int _ v => if v < 0 then 6 else 7
  | float _ x => if isNegative x then 6 else 7
  | _ => 7

mutual

def tokens : Expr → List Kind
  | int _ v => if v < 0 then [.symbol .minus, .int v.natAbs] else [.int v.natAbs]
  | float _ x => if isNegative x then [.symbol .minus, .float (-x)] else [.float x]
  | string _ s => [.string s]
  | bool _ b => [.keyword (if b then .true else .false)]
  | null _ => [.keyword .null]
  | var _ name => [.word name]
  | field _ _ receiver name =>
    inParens (receiver.level < 7) receiver.tokens ++ [.symbol .dot, .word name]
  | call _ _ receiver name args =>
    inParens (receiver.level < 7) receiver.tokens ++
      [.symbol .dot, .word name, .symbol .openParen] ++ argTokens args ++ [.symbol .closeParen]
  | staticField _ type name => type.tokens ++ [.symbol .doubleColon, .word name]
  | staticCall _ _ type name args =>
    type.tokens ++ [.symbol .doubleColon, .word name, .symbol .openParen] ++ argTokens args ++
      [.symbol .closeParen]
  | unary _ _ op operand => .symbol op.symbol :: inParens (operand.level < 6) operand.tokens
  | binary _ _ op left right =>
    inParens (left.level < op.level) left.tokens ++
      .symbol op.symbol :: inParens (right.level < op.level + 1) right.tokens

def argTokens : List Expr → List Kind
  | [] => []
  | e :: rest => e.tokens ++ moreTokens rest

def moreTokens : List Expr → List Kind
  | [] => []
  | e :: rest => .symbol .comma :: e.tokens ++ moreTokens rest

end

/-- The tokens of an expression where one of the given level is wanted. -/
def tokensAt (level : Nat) (e : Expr) : List Kind :=
  inParens (e.level < level) e.tokens

def isNumber : Expr → Bool
  | int .. | float .. => true
  | _ => false

mutual

/-- No minus stands in front of a number, with which it would make another number. -/
def printable : Expr → Bool
  | field _ _ receiver _ => receiver.printable
  | call _ _ receiver _ args => receiver.printable && allPrintable args
  | staticCall _ _ _ _ args => allPrintable args
  | unary _ _ op operand => !(op == .neg && operand.isNumber) && operand.printable
  | binary _ _ _ left right => left.printable && right.printable
  | _ => true

def allPrintable : List Expr → Bool
  | [] => true
  | e :: rest => e.printable && allPrintable rest

end

end Expr

/-! ## Statements and units -/

def TypeName.tokens : TypeName → List Kind
  | .int _ => [.word "int"]
  | .float _ => [.word "float"]
  | .bool _ => [.word "bool"]
  | .named path => path.tokens

def TypeName.printable : TypeName → Bool
  | .named path => path.toTypeName = .named path
  | _ => true

def inBraces (ts : List Kind) : List Kind :=
  .symbol .openBrace :: ts ++ [.symbol .closeBrace]

def isElseIf : List Statement → Bool
  | [.ifThen ..] | [.ifThenElse ..] => true
  | _ => false

namespace Statement

mutual

def tokens : Statement → List Kind
  | bind _ name type init =>
    [.keyword .let, .word name] ++
      (match type with
        | some type => .symbol .colon :: type.tokens
        | none => []) ++
      .symbol .assign :: init.tokens ++ [.symbol .semicolon]
  | assign _ target value =>
    target.tokens ++ .symbol .assign :: value.tokens ++ [.symbol .semicolon]
  | ifThen _ cond body => .keyword .if :: cond.tokens ++ inBraces (tokensAll body)
  | ifThenElse _ cond body otherwise =>
    .keyword .if :: cond.tokens ++ inBraces (tokensAll body) ++ .keyword .else ::
      if isElseIf otherwise then tokensAll otherwise else inBraces (tokensAll otherwise)
  | loop _ name first last body =>
    [.keyword .for, .word name, .keyword .in] ++ first.tokens ++
      .symbol .range :: last.tokens ++ inBraces (tokensAll body)
  | give _ value =>
    .keyword .return ::
      (match value with
        | some value => value.tokens
        | none => []) ++ [.symbol .semicolon]
  | eval _ value => value.tokens ++ [.symbol .semicolon]

def tokensAll : List Statement → List Kind
  | [] => []
  | s :: rest => s.tokens ++ tokensAll rest

end

mutual

def strip (f : Expr → Expr) : Statement → Statement
  | bind _ name type init => .bind .start name (type.map TypeName.unplaced) (f init)
  | assign _ target value => .assign .start (f target) (f value)
  | ifThen _ cond body => .ifThen .start (f cond) (stripAll f body)
  | ifThenElse _ cond body otherwise =>
    .ifThenElse .start (f cond) (stripAll f body) (stripAll f otherwise)
  | loop _ name first last body => .loop .start name (f first) (f last) (stripAll f body)
  | give _ value => .give .start (value.map f)
  | eval _ value => .eval .start (f value)

def stripAll (f : Expr → Expr) : List Statement → List Statement
  | [] => []
  | s :: rest => s.strip f :: stripAll f rest

end

mutual

def printable : Statement → Bool
  | bind _ _ type init => type.all TypeName.printable && init.printable
  | assign _ target value => target.printable && value.printable
  | ifThen _ cond body => cond.printable && allPrintable body
  | ifThenElse _ cond body otherwise =>
    cond.printable && allPrintable body && allPrintable otherwise
  | loop _ _ first last body => first.printable && last.printable && allPrintable body
  | give _ value => value.all Expr.printable
  | eval _ value => value.printable

def allPrintable : List Statement → Bool
  | [] => true
  | s :: rest => s.printable && allPrintable rest

end

end Statement

namespace CompilationUnit

def tokens (u : CompilationUnit) : List Kind :=
  .keyword .module :: u.moduleName.tokens ++ [.symbol .semicolon] ++
    (u.imports.flatMap fun p => .keyword .use :: p.tokens ++ [.symbol .semicolon]) ++
    [.keyword .fn, .word u.entry.name, .symbol .openParen, .word u.entry.param, .symbol .colon] ++
    u.entry.paramType.tokens ++ [.symbol .closeParen, .symbol .arrow] ++
    u.entry.resultType.tokens ++ inBraces (Statement.tokensAll u.entry.body)

def strip (f : Expr → Expr) (u : CompilationUnit) : CompilationUnit where
  moduleName := u.moduleName.unplaced
  imports := u.imports.map Path.unplaced
  entry :=
    { name := u.entry.name
      param := u.entry.param
      paramType := u.entry.paramType.unplaced
      resultType := u.entry.resultType.unplaced
      body := Statement.stripAll f u.entry.body
      position := .start }

def printable (u : CompilationUnit) : Bool :=
  u.entry.paramType.printable && u.entry.resultType.printable &&
    Statement.allPrintable u.entry.body

end CompilationUnit

end SceneScript.Source

/-!
## Levels of precedence

The parser of each level is that of the next one and then a tail: a chain of operators, or of
members. What ends an expression of a level stops its tail.
-/

namespace SceneScript.Source

open Token (Kind)

namespace Parser

/-- The operators of the levels of binary operators, the loosest first. -/
def operators : List (Kind → Option BinaryOp) :=
  [orOperator?, andOperator?, equalityOperator?, comparisonOperator?, additiveOperator?,
    multiplicativeOperator?]

def chains (unary : Parser Expr) (level : Nat) : Parser Expr :=
  (operators.drop level).foldr chain unary

/-- An expression of the given level that may enter a number of levels of nesting. -/
def exprAt (nesting level : Nat) : Parser Expr :=
  if level ≤ 6 then chains (unary nesting) level else postfixed (expr nesting)

def tailAt (nesting level rounds : Nat) (e : Expr) : Parser Expr :=
  match operators[level]? with
  | some operator? => chainTail operator? (exprAt nesting (level + 1)) rounds e
  | none => if level = 6 then pure e else postfixTail (expr nesting) rounds e

theorem expr_succ (nesting : Nat) : expr (nesting + 1) = exprAt nesting 0 := rfl

theorem exprAt_six (nesting : Nat) : exprAt nesting 6 = unary nesting := rfl

theorem exprAt_seven (nesting : Nat) : exprAt nesting 7 = postfixed (expr nesting) := rfl

theorem tailAt_six (nesting rounds : Nat) (e : Expr) : tailAt nesting 6 rounds e = pure e := rfl

theorem tailAt_seven (nesting rounds : Nat) (e : Expr) :
    tailAt nesting 7 rounds e = postfixTail (expr nesting) rounds e := rfl

theorem operators_getElem {level : Nat} (binary : level < 6) :
    ∃ operator?, operators[level]? = some operator? ∧
      operators.drop level = operator? :: operators.drop (level + 1) := by
  have bound : level < operators.length := binary
  exact ⟨operators[level], List.getElem?_eq_getElem bound, List.drop_eq_getElem_cons bound⟩

theorem exprAt_binary (nesting : Nat) {level : Nat} {operator? : Kind → Option BinaryOp}
    (is : operators[level]? = some operator?) :
    exprAt nesting level = chain operator? (exprAt nesting (level + 1)) := by
  obtain ⟨bound, rfl⟩ := List.getElem?_eq_some_iff.mp is
  have binary : level < 6 := bound
  rw [exprAt, exprAt, if_pos (by omega), if_pos (by omega), chains, chains,
    List.drop_eq_getElem_cons bound, List.foldr_cons]

theorem tailAt_binary (nesting rounds : Nat) (e : Expr) {level : Nat}
    {operator? : Kind → Option BinaryOp} (is : operators[level]? = some operator?) :
    tailAt nesting level rounds e =
      chainTail operator? (exprAt nesting (level + 1)) rounds e := by
  rw [tailAt, is]

/-- An expression that may not enter any level of nesting has no operand and nothing inside. -/
def under : Nat → Position → Parser Expr
  | 0 => fail .codeTooDeep
  | nesting + 1 => fun _ => unary nesting

theorem unary_eq (nesting : Nat) : unary nesting = unaryOr (under nesting) (expr nesting) := by
  cases nesting <;> rfl

/-! ## Ends of expressions -/

/-- A token that does not continue an expression of the given level. -/
structure Stops (level : Nat) (kind : Kind) : Prop where
  openParen : kind ≠ .symbol .openParen
  dot : level ≤ 7 → kind ≠ .symbol .dot
  doubleColon : level ≤ 7 → kind ≠ .symbol .doubleColon
  others : ∀ operator? ∈ operators.drop level, operator? kind = none

theorem Stops.mono {level tighter : Nat} {kind : Kind} (stops : Stops level kind)
    (le : level ≤ tighter) : Stops tighter kind where
  openParen := stops.openParen
  dot within := stops.dot (Nat.le_trans le within)
  doubleColon within := stops.doubleColon (Nat.le_trans le within)
  others operator? mem := by
    have drop : operators.drop tighter = (operators.drop level).drop (tighter - level) := by
      rw [List.drop_drop, Nat.add_sub_cancel' le]
    rw [drop] at mem
    exact stops.others operator? (List.mem_of_mem_drop mem)

def stopsAt (s : Symbol) : Bool :=
  s ∉ [.openParen, .dot, .doubleColon] && operators.all fun operator? => operator? (.symbol s) = none

theorem stops_symbol {s : Symbol} (stops : stopsAt s = true) (level : Nat) :
    Stops level (.symbol s) := by
  have facts : s ∉ [Symbol.openParen, .dot, .doubleColon] ∧
      ∀ operator? ∈ operators, operator? (.symbol s) = none := by
    simpa [stopsAt] using stops
  obtain ⟨apart, noOperator⟩ := facts
  simp only [List.mem_cons, List.not_mem_nil, or_false, not_or] at apart
  exact {
    openParen := by simpa using apart.1
    dot := fun _ => by simpa using apart.2.1
    doubleColon := fun _ => by simpa using apart.2.2
    others := fun operator? mem => noOperator operator? (List.mem_of_mem_drop mem) }

theorem stops_operator (op : BinaryOp) : Stops (op.level + 1) (.symbol op.symbol) := by
  constructor
  · cases op <;> exact nofun
  · cases op <;> exact fun _ => nofun
  · cases op <;> exact fun _ => nofun
  · cases op <;> simp [operators, BinaryOp.level, BinaryOp.symbol] <;> decide

theorem operators_level (op : BinaryOp) :
    ∃ operator?, operators[op.level]? = some operator? ∧
      operator? (.symbol op.symbol) = some op := by
  cases op <;> exact ⟨_, rfl, rfl⟩

theorem tailAt_stops {nesting level rounds : Nat} {e : Expr} {P : Parsing} {ts : List Token}
    (stops : Stops level (ahead P ts).kind) (within : level ≤ 7) :
    tailAt nesting level rounds e P ts = .ok (e, ts) := by
  unfold tailAt
  cases is : operators[level]? with
  | some operator? =>
    obtain ⟨bound, rfl⟩ := List.getElem?_eq_some_iff.mp is
    refine chainTail_stops (stops.others _ ?_)
    rw [List.drop_eq_getElem_cons bound]
    exact List.mem_cons_self
  | none =>
    dsimp only
    split
    · rfl
    · exact postfixTail_stops (stops.dot within) (stops.doubleColon within)

end Parser

end SceneScript.Source
