import SceneScript.Catalog.SymbolTable
import SceneScript.Program.Code
import SceneScript.Typing.Error

/-!
# Checking names and types

The checker resolves every name of a unit in a symbol table, finds the type of every expression and
lowers the unit to a program. It goes on behind an error, so that several can be reported: a part
that fails gives no result, and a part that needs it fails in turn. Whatever fails has reported an
error or depends on a part that has.
-/

namespace SceneScript.Typing

open Source (Expr Statement Path TypeName UnaryOp BinaryOp)

/-- A variable in scope. Its type is missing if its declaration failed. -/
structure Variable where
  slot : Nat
  type : Option Ty
  assignable : Bool
deriving Repr, DecidableEq

/-- What is fixed while the body of a unit is checked. -/
structure Context where
  symbols : SymbolTable
  imports : List HostClass
  result : Option Ty

structure State where
  /-- The variables in scope, the innermost first. -/
  scope : List (String × Variable)
  slots : Nat
  references : List HostClass
  /-- The errors recorded so far, the last one first. -/
  faults : List Fault
  /-- The greatest number of errors to record, where one is always recorded; without it, all are. -/
  limit : Option Nat

namespace State

def isFull (s : State) : Bool :=
  s.limit.any fun limit => max 1 limit ≤ s.faults.length

def record (s : State) (f : Fault) : State :=
  if s.isFull then s else { s with faults := f :: s.faults }

/-- Nothing is known yet, but that there are errors. -/
def start (limit : Option Nat) (faults : List Fault) : State :=
  faults.foldl record ⟨[], 0, [], [], limit⟩

end State

/-- A check; it may fail to give a result, with its errors recorded in the state. -/
abbrev Check := OptionT (ReaderT Context (StateM State))

structure Typed where
  code : Code
  type : Ty

namespace Check

def report (error : Error) (position : Position) : Check Unit :=
  modify fun s => s.record ⟨error, position⟩

def fail (error : Error) (position : Position) : Check α := do
  report error position
  failure

/-- Runs a check whose failure is looked at later. -/
def attempt (check : Check α) : Check (Option α) :=
  OptionT.lift check.run

def need : Option α → Check α
  | some a => return a
  | none => failure

/-! ## Names -/

def refer (c : HostClass) : Check Unit :=
  modify fun s => { s with references := c :: s.references }

def imported? (name : String) : Check (Option HostClass) :=
  return (← read).imports.find? fun c => c.simpleName == name

/-- The class that a path names: a simple name through an import, a dotted one directly. -/
def resolvePath (p : Path) : Check HostClass := do
  let found ← if p.isSimple then imported? p.first
    else pure ((← read).symbols.resolve? p.qualified)
  match found with
  | some c => return c
  | none => fail (.unresolved p.qualified) p.position

def resolveType : TypeName → Check Ty
  | .int _ => return .int
  | .float _ => return .float
  | .bool _ => return .bool
  | .named p => return (← resolvePath p).instanceType

def ownerOf (type : Ty) (position : Position) : Check HostClass := do
  match type.owner? with
  | none => fail (.noMembers type) position
  | some owner =>
    match (← read).symbols.grant? owner with
    | some c => return c
    | none => fail (.unresolved owner.qualifiedName) position

def lookup? (name : String) : Check (Option Variable) :=
  return (← get).scope.lookup name

def declare (name : String) (type : Option Ty) (assignable : Bool) (position : Position) :
    Check Nat := do
  if (← lookup? name).isSome then
    report (.alreadyDefined name) position
  let slot := (← get).slots
  modify fun s =>
    { s with slots := slot + 1, scope := (name, ⟨slot, type, assignable⟩) :: s.scope }
  return slot

/-- Runs a check and takes the variables that it declared out of scope again. -/
def inScope (check : Check α) : Check α := do
  let outer := (← get).scope
  let result ← attempt check
  modify fun s => { s with scope := outer }
  need result

/-! ## Conversions -/

/-- An expression where a floating-point number is asked for. -/
def widen (e : Typed) : Typed :=
  if e.type = .int then ⟨.widen e.code.position e.code, .float⟩ else e

/-- Converts an expression to the type asked for. -/
def coerce (e : Typed) (target : Ty) (position : Position) : Check Code := do
  if e.type = .int ∧ target = .float then
    return (widen e).code
  else if e.type.assignableTo target then
    return e.code
  else
    fail (.mismatch target e.type) position

/-- Both operands of an arithmetic operation in their common type. -/
def unify (left right : Typed) : Typed × Typed :=
  if left.type = .int ∧ right.type = .int then (left, right) else (widen left, widen right)

/-! ## Operators -/

def unary (op : UnaryOp) (operand : Typed) (position : Position) : Check Typed := do
  let fits : Bool := match op with
    | .neg => operand.type.isNumeric
    | .not => operand.type = .bool
  if fits then
    return ⟨.unary position op operand.code, operand.type⟩
  else
    fail (.unaryOperand op operand.type) position

/-- Whether two types may be compared for equality without conversion. -/
def comparable (left right : Ty) : Bool :=
  (left = .bool && right = .bool) ||
    (left.isReference && right.isReference &&
      (left.assignableTo right || right.assignableTo left))

def binary (op : BinaryOp) (left right : Typed) (position : Position) : Check Typed := do
  let mismatch := fail (.operands op left.type right.type) position
  let numeric := left.type.isNumeric && right.type.isNumeric
  let (l, r) := unify left right
  match op with
  | .add =>
    if left.type = .string ∨ right.type = .string then
      if left.type = .void ∨ right.type = .void then mismatch
      else return ⟨.concat position left.code right.code, .string⟩
    else if numeric then return ⟨.binary position op l.code r.code, l.type⟩
    else mismatch
  | .sub | .mul | .div | .rem =>
    if numeric then return ⟨.binary position op l.code r.code, l.type⟩ else mismatch
  | .lt | .le | .gt | .ge =>
    if numeric then return ⟨.binary position op l.code r.code, .bool⟩ else mismatch
  | .eq | .ne =>
    if numeric then return ⟨.binary position op l.code r.code, .bool⟩
    else if comparable left.type right.type then
      return ⟨.binary position op left.code right.code, .bool⟩
    else mismatch
  | .and | .or =>
    if left.type = .bool ∧ right.type = .bool then
      return ⟨.binary position op left.code right.code, .bool⟩
    else mismatch

/-! ## Members -/

/-- Converts arguments to the types of the parameters. All are looked at, also behind one that
fails. -/
def coerceArgs : List (Position × Option Typed) → List Ty → Check (List Code)
  | (position, arg) :: args, param :: params => do
    let first ← attempt (do coerce (← need arg) param position)
    let rest ← attempt (coerceArgs args params)
    return (← need first) :: (← need rest)
  | _, _ => return []

def arguments (owner : HostClass) (m : Member) (args : List (Position × Option Typed))
    (position : Position) : Check (List Code) :=
  if args.length = m.params.length then
    coerceArgs args m.params
  else
    fail (.argumentCount owner m.name m.params.length args.length) position

def getField (target : Typed) (name : String) (position : Position) : Check Typed := do
  let owner ← ownerOf target.type position
  match owner.instanceMember? name with
  | some m =>
    if m.kind.isField then
      refer owner
      return ⟨.getField position target.code owner m.name, m.result⟩
    else
      fail (.methodAsValue name) position
  | none => fail (.unresolvedMember .field name owner) position

def call (target : Typed) (name : String) (args : List (Position × Option Typed))
    (position : Position) : Check Typed := do
  let owner ← ownerOf target.type position
  match (owner.instanceMember? name).filter fun m => m.kind = .method with
  | some m =>
    let args ← arguments owner m args position
    refer owner
    return ⟨.call position target.code owner m.name args, m.result⟩
  | none => fail (.unresolvedMember .method name owner) position

def getStatic (type : Path) (name : String) (position : Position) : Check Typed := do
  let owner ← resolvePath type
  match owner.staticMember? name with
  | some m =>
    if m.kind = .constant then
      refer owner
      return ⟨.getConstant position owner m.name, m.result⟩
    else
      fail (.methodAsValue name) position
  | none => fail (.unresolvedMember .staticMember name owner) position

def callStatic (type : Path) (name : String) (args : List (Position × Option Typed))
    (position : Position) : Check Typed := do
  let owner ← resolvePath type
  match (owner.staticMember? name).filter fun m => m.kind = .staticMethod with
  | some m =>
    let args ← arguments owner m args position
    refer owner
    return ⟨.callStatic position owner m.name args, m.result⟩
  | none => fail (.unresolvedMember .staticMethod name owner) position

/-! ## Expressions -/

def constant (position : Position) (value : Constant) (type : Ty) : Check Typed :=
  return ⟨.const position value, type⟩

def readVariable (name : String) (position : Position) : Check Typed := do
  match ← lookup? name with
  | some v => return ⟨.load position v.slot, ← need v.type⟩
  | none =>
    if (← imported? name).isSome then
      fail (.classAsValue name) position
    else
      fail (.unresolved name) position

mutual

def expr : Expr → Check Typed
  | .int p v => constant p (.int (Int64.ofInt v)) .int
  | .float p v => constant p (.float v) .float
  | .string p v => constant p (.string v) .string
  | .bool p v => constant p (.bool v) .bool
  | .null p => constant p .null .null
  | .var p name => readVariable name p
  | .field p _ receiver name => do
    getField (← expr receiver) name p
  | .call p _ receiver name args => do
    let target ← attempt (expr receiver)
    let args ← attempts args
    call (← need target) name args p
  | .staticField p type name => getStatic type name p
  | .staticCall p _ type name args => do
    callStatic type name (← attempts args) p
  | .unary p _ op operand => do
    unary op (← expr operand) p
  | .binary p _ op left right => do
    let left ← attempt (expr left)
    let right ← attempt (expr right)
    binary op (← need left) (← need right) p

/-- Checks every expression of a list, whether or not one fails. -/
def attempts : List Expr → Check (List (Position × Option Typed))
  | [] => return []
  | e :: es => do
    let first ← attempt (expr e)
    return (e.position, first) :: (← attempts es)

end

/-- An expression of a given type, which an error names otherwise. -/
def exprOf (type : Ty) (error : Ty → Error) (e : Expr) : Check Code := do
  let typed ← expr e
  if typed.type = type then return typed.code
  else fail (error typed.type) e.position

/-! ## Statements -/

def binding (name : String) (type : Option TypeName) (init : Expr) (position : Position) :
    Check (Option Ty × Option Code) := do
  let value ← attempt (expr init)
  match type with
  | some t =>
    let declared ← attempt (resolveType t)
    let code ← attempt (do coerce (← need value) (← need declared) init.position)
    return (declared, code)
  | none =>
    match value with
    | none => return (none, none)
    | some v =>
      match v.type with
      | .null =>
        report (.bindsNull name) position
        return (none, none)
      | .void =>
        report (.bindsNothing name) position
        return (none, none)
      | type => return (some type, some v.code)

def assignVariable (name : String) (target : Position) (value : Option Typed)
    (position : Position) : Check Instr := do
  match ← lookup? name with
  | none => fail (.unresolved name) target
  | some v =>
    if v.assignable then
      return .store position v.slot (← coerce (← need value) (← need v.type) target)
    else
      fail (.notAssignable name) target

def assignField (receiver : Option Typed) (name : String) (target : Position)
    (value : Option Typed) (position : Position) : Check Instr := do
  let receiver ← need receiver
  let owner ← ownerOf receiver.type target
  match (owner.instanceMember? name).filter fun m => m.kind.isField with
  | none => fail (.unresolvedMember .field name owner) target
  | some m =>
    if m.kind = .field then
      refer owner
      let code ← coerce (← need value) m.result target
      return .setField position receiver.code owner m.name code
    else
      fail (.readOnlyField name owner) target

def assignment (target value : Expr) (position : Position) : Check Instr := do
  match target with
  | .var p name => assignVariable name p (← attempt (expr value)) position
  | .field p _ receiver name =>
    let receiver ← attempt (expr receiver)
    assignField receiver name p (← attempt (expr value)) position
  | other => fail .invalidTarget other.position

def give (value : Option Expr) (position : Position) : Check Instr := do
  match value with
  | none => fail .missingReturnValue position
  | some e =>
    let typed ← expr e
    return .give position (← coerce typed (← need (← read).result) e.position)

mutual

def statement : Statement → Check Instr
  | .bind p name type init => do
    let (declared, code) ← binding name type init p
    let slot ← declare name declared true p
    return .store p slot (← need code)
  | .assign p target value => assignment target value p
  | .ifThen p cond body => do
    let cond ← attempt (exprOf .bool .conditionType cond)
    let body ← inScope (statements body)
    return .choose p (← need cond) body []
  | .ifThenElse p cond body otherwise => do
    let cond ← attempt (exprOf .bool .conditionType cond)
    let body ← inScope (statements body)
    let otherwise ← inScope (statements otherwise)
    return .choose p (← need cond) body otherwise
  | .loop p name first last body => do
    let first ← attempt (exprOf .int .boundType first)
    let last ← attempt (exprOf .int .boundType last)
    let (slot, body) ← inScope do
      let slot ← declare name (some .int) false p
      return (slot, ← inScope (statements body))
    return .loop p slot (← need first) (← need last) body
  | .give p value => give value p
  | .eval p value => do
    return .eval p (← expr value).code

/-- Checks every statement of a list; those that fail have reported why and are left out. -/
def statements : List Statement → Check (List Instr)
  | [] => return []
  | s :: rest => do
    match ← attempt (statement s) with
    | some i => return i :: (← statements rest)
    | none => statements rest

end

end Check

/-! ## Units -/

/-- The classes that the imports of a unit name, and the imports that name none. -/
def resolveImports (symbols : SymbolTable) : List Path → List HostClass × List Fault
  | [] => ([], [])
  | p :: rest =>
    let (classes, faults) := resolveImports symbols rest
    match symbols.resolve? p.qualified with
    | some c => (c :: classes, faults)
    | none => (classes, ⟨.unresolved p.qualified, p.position⟩ :: faults)

def Check.runIn (check : Check α) (c : Context) (s : State) : Option α × State :=
  (check.run c).run s

/-- The types of the parameter and the result of a function, with the parameter in scope. -/
def signature (f : Source.Function) : Check (Option Ty × Option Ty) := do
  let param ← Check.attempt (Check.resolveType f.paramType)
  let result ← Check.attempt (Check.resolveType f.resultType)
  let _ ← Check.declare f.param param false f.paramType.position
  return (param, result)

/-- Checks a unit against a symbol table. On failure the errors are given in the order in which they
were found, as many as the limit leaves room for. -/
def checkUnitUpTo (limit : Option Nat) (symbols : SymbolTable) (u : Source.CompilationUnit) :
    Except (List Fault) Program :=
  let (imports, faults) := resolveImports symbols u.imports
  let (types, declared) := (signature u.entry).runIn ⟨symbols, imports, none⟩ (.start limit faults)
  let (param, result) := types.getD (none, none)
  let (body, final) :=
    (Check.inScope (Check.statements u.entry.body)).runIn ⟨symbols, imports, result⟩ declared
  match final.faults, param, result, body with
  | [], some param, some result, some body =>
    .ok {
      entry := ⟨u.entry.name, param, result⟩
      body
      slots := final.slots
      references := HostClass.sorted final.references }
  | faults, _, _, _ => .error faults.reverse

def checkUnit (symbols : SymbolTable) (u : Source.CompilationUnit) :
    Except (List Fault) Program :=
  checkUnitUpTo none symbols u

end SceneScript.Typing
