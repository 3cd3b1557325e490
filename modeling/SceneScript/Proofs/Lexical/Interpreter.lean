import SceneScript.Machine.Eval
import SceneScript.Typing.Checker

/-!
# Running source trees

An interpreter of source trees, to compare programs with. It keeps a stack of scopes, one for each
block and one for each loop that is being carried out, and finds a variable by its name, in the
innermost scope first. Static types tell it which class a member belongs to and where a whole number
is made a floating-point one. It is stuck where a name stands for nothing.
-/

namespace SceneScript.Lexical

open Run
open Source (Expr Statement Path TypeName UnaryOp BinaryOp)
open Typing (Context)

/-! ## Scopes -/

/-- What a name stands for: a variable of a type that holds a value. -/
structure Binding where
  type : Ty
  value : Value

/-- The variables of a scope by name, the last one first. -/
abbrev Scope := List (String × Binding)

namespace Scope

def assign (name : String) (v : Value) : Scope → Scope
  | [] => []
  | (n, b) :: rest =>
    if n = name then (n, { b with value := v }) :: rest else (n, b) :: assign name v rest

end Scope

/-- The open scopes, the innermost first. -/
abbrev Scopes := List Scope

namespace Scopes

def lookup? (scopes : Scopes) (name : String) : Option Binding :=
  scopes.findSome? (List.lookup name)

def bind (name : String) (b : Binding) : Scopes → Scopes
  | [] => [[(name, b)]]
  | scope :: outer => ((name, b) :: scope) :: outer

def rebind (name : String) (b : Binding) (scopes : Scopes) : Scopes :=
  [(name, b)] :: scopes.tail

def assign (name : String) (v : Value) : Scopes → Scopes
  | [] => []
  | scope :: outer =>
    if (scope.lookup name).isSome then scope.assign name v :: outer
    else scope :: assign name v outer

end Scopes

/-! ## Names and types -/

/-- The class that a path names: a simple name through an import, a dotted one directly. -/
def class? (c : Context) (p : Path) : Option HostClass :=
  if p.isSimple then c.imports.find? fun k => k.simpleName == p.first
  else c.symbols.resolve? p.qualified

def type? (c : Context) : TypeName → Option Ty
  | .int _ => some .int
  | .float _ => some .float
  | .bool _ => some .bool
  | .named p => (class? c p).map HostClass.instanceType

def common (left right : Ty) : Ty :=
  if left = .int ∧ right = .int then .int else .float

def resultType (op : BinaryOp) (left right : Ty) : Ty :=
  match op with
  | .add => if left = .string ∨ right = .string then .string else common left right
  | .sub | .mul | .div | .rem => common left right
  | _ => .bool

def member? (type : Ty) (name : String) : Option (HostClass × Member) := do
  let owner ← type.owner?
  return (owner, ← owner.instanceMember? name)

def staticMember? (c : Context) (type : Path) (name : String) : Option (HostClass × Member) := do
  let owner ← class? c type
  return (owner, ← owner.staticMember? name)

def typeOf (c : Context) (scopes : Scopes) : Expr → Option Ty
  | .int .. => some .int
  | .float .. => some .float
  | .string .. => some .string
  | .bool .. => some .bool
  | .null _ => some .null
  | .var _ name => (scopes.lookup? name).map Binding.type
  | .field _ _ receiver name | .call _ _ receiver name _ => do
    return (← member? (← typeOf c scopes receiver) name).2.result
  | .staticField _ type name | .staticCall _ _ type name _ => do
    return (← staticMember? c type name).2.result
  | .unary _ _ _ operand => typeOf c scopes operand
  | .binary _ _ op left right => do
    return resultType op (← typeOf c scopes left) (← typeOf c scopes right)

/-! ## Expressions -/

def located (p : Position) (run : OptionT Run α) : OptionT Run α :=
  OptionT.mk (Run.located p run.run)

/-- What is stuck if it is missing. -/
def found (o : Option α) : OptionT Run α :=
  OptionT.mk (pure o)

/-- Makes a whole number a floating-point one where that is asked for, in a step of its own. -/
def convert (type target : Ty) (p : Position) (run : OptionT Run Value) : OptionT Run Value :=
  if type = .int ∧ target = .float then
    located p do
      tick
      return .float (← (← run).asFloat)
  else run

section

variable (c : Context) (classes : List HostClass) (scopes : Scopes)

mutual

def eval : Expr → OptionT Run Value
  | .int p v => located p do
    tick
    return .int (Int64.ofInt v)
  | .float p x => located p do
    tick
    return .float x
  | .string p s => located p do
    tick
    return .string s
  | .bool p b => located p do
    tick
    return .bool b
  | .null p => located p do
    tick
    return .null
  | .var p name => located p do
    tick
    return (← found (scopes.lookup? name)).value
  | .field p _ receiver name => located p do
    tick
    let (owner, _) ← found ((typeOf c scopes receiver).bind (member? · name))
    let v ← SceneScript.receiver receiver.position name (← eval receiver)
    requireClass classes owner
    owner.getField name v
  | .call p _ receiver name args => located p do
    tick
    let (owner, m) ← found ((typeOf c scopes receiver).bind (member? · name))
    let v ← SceneScript.receiver receiver.position name (← eval receiver)
    let args ← evalArgs args m.params
    requireClass classes owner
    owner.call name v args
  | .staticField p type name => located p do
    tick
    let (owner, _) ← found (staticMember? c type name)
    requireClass classes owner
    owner.getConstant name
  | .staticCall p _ type name args => located p do
    tick
    let (owner, m) ← found (staticMember? c type name)
    let args ← evalArgs args m.params
    requireClass classes owner
    owner.callStatic name args
  | .unary p _ op operand => located p do
    tick
    UnaryOp.apply op (← eval operand)
  | .binary p _ .and left right => located p do
    tick
    if ← (← eval left).asBool then
      return .bool (← (← eval right).asBool)
    else
      return .bool false
  | .binary p _ .or left right => located p do
    tick
    if ← (← eval left).asBool then
      return .bool true
    else
      return .bool (← (← eval right).asBool)
  | .binary p _ op left right => located p do
    tick
    let l ← found (typeOf c scopes left)
    let r ← found (typeOf c scopes right)
    if op = .add ∧ (l = .string ∨ r = .string) then
      let a ← eval left
      let b ← eval right
      let s ← display a
      let t ← display b
      string (s ++ t)
    else
      let a ← convert l (common l r) left.position (eval left)
      let b ← convert r (common l r) right.position (eval right)
      BinaryOp.apply op a b

def evalArgs : List Expr → List Ty → OptionT Run (List Value)
  | [], [] => return []
  | e :: es, param :: params => do
    let type ← found (typeOf c scopes e)
    let v ← convert type param e.position (eval e)
    return v :: (← evalArgs es params)
  | _, _ => failure

end

def evalAs (target : Ty) (e : Expr) : OptionT Run Value := do
  convert (← found (typeOf c scopes e)) target e.position (eval c classes scopes e)

end

/-! ## Statements -/

abbrev Exec := StateT Scopes (OptionT Run)

namespace Exec

def located (p : Position) (exec : Exec α) : Exec α := fun scopes =>
  Lexical.located p (exec scopes)

def inScope (exec : Exec α) : Exec α := fun scopes => do
  let (a, scopes) ← exec ([] :: scopes)
  return (a, scopes.tail)

def iterate (body : Int → Exec Flow) : Nat → Int → Exec Flow
  | 0, _ => return .next
  | rounds + 1, i => do
    match ← body i with
    | .next => iterate body rounds (i + 1)
    | .give v => return .give v

end Exec

def bindingType (c : Context) (scopes : Scopes) (type : Option TypeName) (init : Expr) :
    Option Ty :=
  match type with
  | some t => type? c t
  | none => typeOf c scopes init

section

variable (c : Context) (classes : List HostClass)

mutual

def exec : Statement → Exec Flow
  | .bind p name type init => Exec.located p do
    tick
    let scopes ← get
    let target ← found (bindingType c scopes type init)
    let v ← evalAs c classes scopes target init
    modify (Scopes.bind name ⟨target, v⟩)
    return .next
  | .assign p (.var _ name) value => Exec.located p do
    tick
    let scopes ← get
    let b ← found (scopes.lookup? name)
    let v ← evalAs c classes scopes b.type value
    modify (Scopes.assign name v)
    return .next
  | .assign p (.field _ _ receiver name) value => Exec.located p do
    tick
    let scopes ← get
    let (owner, m) ← found ((typeOf c scopes receiver).bind (member? · name))
    let v ← SceneScript.receiver receiver.position name (← eval c classes scopes receiver)
    let x ← evalAs c classes scopes m.result value
    requireClass classes owner
    owner.setField name v x
    return .next
  | .assign .. => failure
  | .ifThen p cond body => Exec.located p do
    tick
    let v ← eval c classes (← get) cond
    if ← Run.located cond.position v.asBool then Exec.inScope (execAll body)
    else return .next
  | .ifThenElse p cond body otherwise => Exec.located p do
    tick
    let v ← eval c classes (← get) cond
    if ← Run.located cond.position v.asBool then Exec.inScope (execAll body)
    else Exec.inScope (execAll otherwise)
  | .loop p name first last body => Exec.located p do
    tick
    let a ← eval c classes (← get) first
    let a ← Run.located first.position a.asInt
    let b ← eval c classes (← get) last
    let b ← Run.located last.position b.asInt
    Exec.inScope <| Exec.iterate
      (fun i => do
        tick
        modify (Scopes.rebind name ⟨.int, .int (Int64.ofInt i)⟩)
        Exec.inScope (execAll body))
      (b.toInt - a.toInt).toNat a.toInt
  | .give p (some value) => Exec.located p do
    tick
    let result ← found c.result
    return .give (← evalAs c classes (← get) result value)
  | .give _ none => failure
  | .eval p value => Exec.located p do
    tick
    let _ ← eval c classes (← get) value
    return .next

def execAll : List Statement → Exec Flow
  | [] => return .next
  | s :: rest => do
    match ← exec s with
    | .next => execAll rest
    | .give v => return .give v

end

end

/-- Runs the function of a unit with the given parameter. Without a return the result is null. -/
def run (symbols : SymbolTable) (u : Source.CompilationUnit) (classes : List HostClass)
    (param : Value) : OptionT Run Value := do
  let imports := u.imports.filterMap fun p => symbols.resolve? p.qualified
  let type ← found (type? ⟨symbols, imports, none⟩ u.entry.paramType)
  let result ← found (type? ⟨symbols, imports, none⟩ u.entry.resultType)
  let (flow, _) ← Exec.inScope (execAll ⟨symbols, imports, some result⟩ classes u.entry.body)
    [[(u.entry.param, ⟨type, param⟩)]]
  match flow with
  | .next => return .null
  | .give v => return v

end SceneScript.Lexical
