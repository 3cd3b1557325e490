import SceneScript.Proofs.Source.Heights
import SceneScript.Typing.Checker

/-!
# How deep the checker goes

The checker calls itself for the parts of expressions and for the blocks of statements. Here these
calls are nested no more often than a given number of times. As many as blocks are nested and
expressions are high are enough: what is beyond makes no difference (`checking_block`).
-/

namespace SceneScript.Typing.Check

open Source (Expr Statement TypeName nestingIn nestingIn_le Mentions)

structure Checking where
  expr : Expr → Check Typed
  block : List Statement → Check (List Instr)

namespace Checking

variable (inner : Checking)

/-! ## Expressions -/

def attempts : List Expr → Check (List (Position × Option Typed))
  | [] => return []
  | e :: es => do
    let first ← attempt (inner.expr e)
    return (e.position, first) :: (← attempts es)

def exprOver : Expr → Check Typed
  | .int p v => constant p (.int (Int64.ofInt v)) .int
  | .float p v => constant p (.float v) .float
  | .string p v => constant p (.string v) .string
  | .bool p v => constant p (.bool v) .bool
  | .null p => constant p .null .null
  | .var p name => readVariable name p
  | .field p _ receiver name => do
    getField (← inner.expr receiver) name p
  | .call p _ receiver name args => do
    let target ← attempt (inner.expr receiver)
    let args ← inner.attempts args
    call (← need target) name args p
  | .staticField p type name => getStatic type name p
  | .staticCall p _ type name args => do
    callStatic type name (← inner.attempts args) p
  | .unary p _ op operand => do
    unary op (← inner.expr operand) p
  | .binary p _ op left right => do
    let left ← attempt (inner.expr left)
    let right ← attempt (inner.expr right)
    binary op (← need left) (← need right) p

def exprOf (type : Ty) (error : Ty → Error) (e : Expr) : Check Code := do
  let typed ← inner.expr e
  if typed.type = type then return typed.code
  else Check.fail (error typed.type) e.position

/-! ## Statements -/

def binding (name : String) (type : Option TypeName) (init : Expr) (position : Position) :
    Check (Option Ty × Option Code) := do
  let value ← attempt (inner.expr init)
  match type with
  | some t =>
    let declared ← attempt (resolveType t)
    let code ← attempt (do coerce (← need value) (← need declared) init.position)
    return (declared, code)
  | none =>
    match value with
    | none => return (none, none)
    | some v =>
      match v.type with
      | .null =>
        report (.bindsNull name) position
        return (none, none)
      | .void =>
        report (.bindsNothing name) position
        return (none, none)
      | type => return (some type, some v.code)

def assignment (target value : Expr) (position : Position) : Check Instr := do
  match target with
  | .var p name => assignVariable name p (← attempt (inner.expr value)) position
  | .field p _ receiver name =>
    let receiver ← attempt (inner.expr receiver)
    assignField receiver name p (← attempt (inner.expr value)) position
  | other => Check.fail .invalidTarget other.position

def give (value : Option Expr) (position : Position) : Check Instr := do
  match value with
  | none => Check.fail .missingReturnValue position
  | some e =>
    let typed ← inner.expr e
    return .give position (← coerce typed (← need (← read).result) e.position)

def statement : Statement → Check Instr
  | .bind p name type init => do
    let (declared, code) ← inner.binding name type init p
    let slot ← declare name declared true p
    return .store p slot (← need code)
  | .assign p target value => inner.assignment target value p
  | .ifThen p cond body => do
    let cond ← attempt (inner.exprOf .bool .conditionType cond)
    let body ← inScope (inner.block body)
    return .choose p (← need cond) body []
  | .ifThenElse p cond body otherwise => do
    let cond ← attempt (inner.exprOf .bool .conditionType cond)
    let body ← inScope (inner.block body)
    let otherwise ← inScope (inner.block otherwise)
    return .choose p (← need cond) body otherwise
  | .loop p name first last body => do
    let first ← attempt (inner.exprOf .int .boundType first)
    let last ← attempt (inner.exprOf .int .boundType last)
    let (slot, body) ← inScope do
      let slot ← declare name (some .int) false p
      return (slot, ← inScope (inner.block body))
    return .loop p slot (← need first) (← need last) body
  | .give p value => inner.give value p
  | .eval p value => do
    return .eval p (← inner.expr value).code

def blockOver : List Statement → Check (List Instr)
  | [] => return []
  | s :: rest => do
    match ← attempt (inner.statement s) with
    | some i => return i :: (← blockOver rest)
    | none => blockOver rest

/-! ## Nested calls -/

def outer : Checking where
  expr := inner.exprOver
  block := inner.blockOver

end Checking

/-- The checks with the given number of calls nested in each other. Calls that are nested deeper go
to the checks that are given. -/
def checking (beyond : Checking) : Nat → Checking
  | 0 => beyond
  | calls + 1 => (checking beyond calls).outer

namespace Checking

variable {inner : Checking}

theorem attempts_eq {es : List Expr} (same : ∀ e ∈ es, inner.expr e = Check.expr e) :
    inner.attempts es = Check.attempts es := by
  induction es with
  | nil => rw [attempts, Check.attempts]
  | cons e es ih =>
    obtain ⟨here, there⟩ := List.forall_mem_cons.1 same
    rw [attempts, Check.attempts, here, ih there]

theorem exprOver_eq {e : Expr}
    (same : ∀ child ∈ e.children, inner.expr child = Check.expr child) :
    inner.exprOver e = Check.expr e := by
  cases e with
  | call p h receiver name args =>
    obtain ⟨ofReceiver, ofArgs⟩ := List.forall_mem_cons.1 same
    rw [exprOver, Check.expr, ofReceiver, attempts_eq ofArgs]
  | staticCall p h type name args =>
    have ofArgs : ∀ arg ∈ args, inner.expr arg = Check.expr arg := same
    rw [exprOver, Check.expr, attempts_eq ofArgs]
  | field p h receiver name => rw [exprOver, Check.expr, same receiver List.mem_cons_self]
  | unary p h op operand => rw [exprOver, Check.expr, same operand List.mem_cons_self]
  | binary p h op left right =>
    rw [exprOver, Check.expr, same left List.mem_cons_self,
      same right (List.mem_cons_of_mem _ List.mem_cons_self)]
  | _ => rw [exprOver, Check.expr]

section

variable {e : Expr} (same : inner.expr e = Check.expr e)

include same

theorem exprOf_eq (type : Ty) (error : Ty → Error) :
    inner.exprOf type error e = Check.exprOf type error e := by
  rw [exprOf, Check.exprOf, same]

theorem binding_eq (name : String) (type : Option TypeName) (position : Position) :
    inner.binding name type e position = Check.binding name type e position := by
  rw [binding, same]
  rfl

end

theorem assignment_eq {target value : Expr} (position : Position)
    (ofTarget : ∀ child ∈ target.children, inner.expr child = Check.expr child)
    (ofValue : inner.expr value = Check.expr value) :
    inner.assignment target value position = Check.assignment target value position := by
  unfold assignment Check.assignment
  cases target with
  | var p name => dsimp only; rw [ofValue]
  | field p h receiver name => dsimp only; rw [ofTarget receiver List.mem_cons_self, ofValue]
  | _ => rfl

theorem give_eq {value : Option Expr} (position : Position)
    (same : ∀ e ∈ value, inner.expr e = Check.expr e) :
    inner.give value position = Check.give value position := by
  unfold give Check.give
  cases value with
  | none => rfl
  | some e => dsimp only; rw [same e rfl]

theorem statement_eq {s : Statement}
    (exprs : ∀ e ∈ s.exprs, ∀ part, e.Contains part → inner.expr part = Check.expr part)
    (blocks : ∀ block ∈ s.blocks, inner.block block = Check.statements block) :
    inner.statement s = Check.statement s := by
  have here : ∀ e ∈ s.exprs, inner.expr e = Check.expr e := fun e mem => exprs e mem e .self
  cases s with
  | bind p name type init =>
    rw [statement, Check.statement, binding_eq (here init List.mem_cons_self)]
  | assign p target value =>
    rw [statement, Check.statement]
    exact assignment_eq p
      (fun child mem => exprs target List.mem_cons_self child (.child mem .self))
      (here value (List.mem_cons_of_mem _ List.mem_cons_self))
  | ifThen p cond body =>
    rw [statement, Check.statement, exprOf_eq (here cond List.mem_cons_self),
      blocks body List.mem_cons_self]
  | ifThenElse p cond body otherwise =>
    rw [statement, Check.statement, exprOf_eq (here cond List.mem_cons_self),
      blocks body List.mem_cons_self, blocks otherwise (List.mem_cons_of_mem _ List.mem_cons_self)]
  | loop p name first last body =>
    rw [statement, Check.statement, exprOf_eq (here first List.mem_cons_self),
      exprOf_eq (here last (List.mem_cons_of_mem _ List.mem_cons_self)),
      blocks body List.mem_cons_self]
  | give p value =>
    rw [statement, Check.statement]
    exact give_eq p fun e mem => here e (Option.mem_toList.2 mem)
  | eval p value => rw [statement, Check.statement, here value List.mem_cons_self]

theorem blockOver_eq {body : List Statement}
    (same : ∀ s ∈ body, inner.statement s = Check.statement s) :
    inner.blockOver body = Check.statements body := by
  induction body with
  | nil => rw [blockOver, Check.statements]
  | cons s rest ih =>
    obtain ⟨here, there⟩ := List.forall_mem_cons.1 same
    rw [blockOver, here, ih there]
    rfl

end Checking

/-! ## Enough calls -/

theorem checking_expr (beyond : Checking) {calls : Nat} {e : Expr} (enough : e.treeHeight ≤ calls) :
    (checking beyond calls).expr e = Check.expr e := by
  induction calls generalizing e with
  | zero =>
    rw [e.treeHeight_eq] at enough
    omega
  | succ calls ih =>
    refine Checking.exprOver_eq fun child mem => ih ?_
    have less := Expr.treeHeight_child mem
    omega

theorem checking_block (beyond : Checking) {nesting height calls : Nat} {body : List Statement}
    (nested : 1 + nestingIn body ≤ nesting)
    (heights : ∀ e, Mentions body e → e.treeHeight ≤ height)
    (enough : nesting + height ≤ calls) :
    (checking beyond calls).block body = Check.statements body := by
  induction calls generalizing nesting body with
  | zero => omega
  | succ calls ih =>
    -- The block itself takes one call. Its expressions need as many as they are high, and the blocks
    -- inside are nested one level less.
    refine Checking.blockOver_eq fun s inBody => Checking.statement_eq ?_ ?_
    · intro e inStatement part contains
      have low := heights part (.expr inBody inStatement contains)
      exact checking_expr beyond (by omega)
    · intro block inStatement
      have inner := nestingIn_le.1 (Nat.le_refl (nestingIn body)) s inBody
      have deeper := Statement.nesting_le.1 inner block inStatement
      exact ih deeper (fun e mentions => heights e (.block inBody inStatement mentions)) (by omega)

end SceneScript.Typing.Check
