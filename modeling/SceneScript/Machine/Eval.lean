import SceneScript.Machine.Native.Dispatch

/-!
# Running programs

Expressions are evaluated and statements carried out over an array of variables. Every expression,
every statement and every round of a loop takes a step. A fault is located at the innermost
expression or statement that was being carried out.
-/

namespace SceneScript

open Run
open Source (UnaryOp BinaryOp)

/-! ## Operators -/

def UnaryOp.apply (op : UnaryOp) (v : Value) : Except FaultCause Value :=
  match op, v with
  | .neg, .int n =>
    match Number.neg? n with
    | some m => .ok (.int m)
    | none => .error .overflow
  | .neg, .float x => .ok (.float (-x))
  | .not, .bool b => .ok (.bool !b)
  | _, v => .error (.wrongValue .operand v.kind)

def fitting : Option Int64 → Except FaultCause Value
  | some n => .ok (.int n)
  | none => .error .overflow

def BinaryOp.applyInt (op : BinaryOp) (a b : Int64) : Except FaultCause Value :=
  match op with
  | .add => fitting (Number.add? a b)
  | .sub => fitting (Number.sub? a b)
  | .mul => fitting (Number.mul? a b)
  | .div => if b = 0 then .error .divisionByZero else fitting (Number.div? a b)
  | .rem => if b = 0 then .error .divisionByZero else fitting (Number.rem? a b)
  | .lt => .ok (.bool (a < b))
  | .le => .ok (.bool (a ≤ b))
  | .gt => .ok (.bool (b < a))
  | .ge => .ok (.bool (b ≤ a))
  | .eq | .ne | .and | .or => .error (.notArithmetic op)

def BinaryOp.applyFloat (op : BinaryOp) (a b : Float) : Except FaultCause Value :=
  match op with
  | .add => .ok (.float (a + b))
  | .sub => .ok (.float (a - b))
  | .mul => .ok (.float (a * b))
  | .div => .ok (.float (a / b))
  | .rem => .ok (.float (Number.remainder a b))
  | .lt => .ok (.bool (a < b))
  | .le => .ok (.bool (a ≤ b))
  | .gt => .ok (.bool (b < a))
  | .ge => .ok (.bool (b ≤ a))
  | .eq | .ne | .and | .or => .error (.notArithmetic op)

def BinaryOp.apply (op : BinaryOp) (a b : Value) : Except FaultCause Value :=
  match op with
  | .eq => .ok (.bool (a.same b))
  | .ne => .ok (.bool !(a.same b))
  | op =>
    match a, b with
    | .int a, .int b => applyInt op a b
    | .float a, .float b => applyFloat op a b
    | a, b => .error (.wrongOperands op a.kind b.kind)

/-! ## Expressions -/

def Constant.value : Constant → Value
  | .int n => .int n
  | .float x => .float x
  | .bool b => .bool b
  | .string s => .string s
  | .null => .null

def readSlot (locals : Array Value) (slot : Nat) : Run Value :=
  match locals[slot]? with
  | some v => return v
  | none => fault (.invalidSlot slot)

def requireClass (classes : List HostClass) (c : HostClass) : Run Unit :=
  if c ∈ classes then return else fault (.notLoaded c)

/-- The receiver of a member, which must not be null. -/
def receiver (p : Position) (member : String) (v : Value) : Run Value :=
  match v with
  | .null => located p (fault (.nullAccess member))
  | v => return v

mutual

def Code.eval (classes : List HostClass) (locals : Array Value) : Code → Run Value
  | .const p c => located p do
    tick
    return c.value
  | .load p slot => located p do
    tick
    readSlot locals slot
  | .getField p target owner name => located p do
    tick
    let v ← receiver target.position name (← target.eval classes locals)
    requireClass classes owner
    owner.getField name v
  | .call p target owner name args => located p do
    tick
    let v ← receiver target.position name (← target.eval classes locals)
    let args ← evalAll classes locals args
    requireClass classes owner
    owner.call name v args
  | .getConstant p owner name => located p do
    tick
    requireClass classes owner
    owner.getConstant name
  | .callStatic p owner name args => located p do
    tick
    let args ← evalAll classes locals args
    requireClass classes owner
    owner.callStatic name args
  | .unary p op operand => located p do
    tick
    UnaryOp.apply op (← operand.eval classes locals)
  | .binary p .and left right => located p do
    tick
    if ← (← left.eval classes locals).asBool then
      return .bool (← (← right.eval classes locals).asBool)
    else
      return .bool false
  | .binary p .or left right => located p do
    tick
    if ← (← left.eval classes locals).asBool then
      return .bool true
    else
      return .bool (← (← right.eval classes locals).asBool)
  | .binary p op left right => located p do
    tick
    let a ← left.eval classes locals
    let b ← right.eval classes locals
    BinaryOp.apply op a b
  | .concat p left right => located p do
    tick
    let a ← left.eval classes locals
    let b ← right.eval classes locals
    let s ← display a
    let t ← display b
    string (s ++ t)
  | .widen p operand => located p do
    tick
    return .float (← (← operand.eval classes locals).asFloat)

def evalAll (classes : List HostClass) (locals : Array Value) : List Code → Run (List Value)
  | [] => return []
  | e :: rest => do
    let v ← e.eval classes locals
    return v :: (← evalAll classes locals rest)

end

/-! ## Statements -/

abbrev Exec := StateT (Array Value) Run

/-- How a statement ends: with the next one, or by returning a value. -/
inductive Flow where
  | next
  | give (value : Value)

namespace Exec

def located (p : Position) (exec : Exec α) : Exec α := fun locals =>
  Run.located p (exec locals)

def eval (classes : List HostClass) (e : Code) : Exec Value := do
  e.eval classes (← get)

def store (slot : Nat) (v : Value) : Exec Unit := do
  if slot < (← get).size then
    modify fun locals => locals.setIfInBounds slot v
  else
    fault (.invalidSlot slot)

def countUp (body : Int64 → Exec Flow) (last i : Int64) : Exec Flow :=
  if i < last then do
    match ← body i with
    | .next => countUp body last (i + 1)
    | .give v => return .give v
  else
    return .next
termination_by (last.toInt - i.toInt).toNat
decreasing_by
  rename_i below
  have lt := Int64.lt_iff_toInt_lt.1 below
  rw [Number.toInt_succ below]
  omega

end Exec

mutual

def Instr.exec (classes : List HostClass) : Instr → Exec Flow
  | .store p slot value => Exec.located p do
    tick
    Exec.store slot (← Exec.eval classes value)
    return .next
  | .setField p target owner name value => Exec.located p do
    tick
    let v ← receiver target.position name (← Exec.eval classes target)
    let x ← Exec.eval classes value
    requireClass classes owner
    owner.setField name v x
    return .next
  | .choose p cond body otherwise => Exec.located p do
    tick
    let c ← Exec.eval classes cond
    if ← Run.located cond.position c.asBool then
      execAll classes body
    else
      execAll classes otherwise
  | .loop p slot first last body => Exec.located p do
    tick
    let a ← Exec.eval classes first
    let a ← Run.located first.position a.asInt
    let b ← Exec.eval classes last
    let b ← Run.located last.position b.asInt
    Exec.countUp
      (fun i => do
        tick
        Exec.store slot (.int i)
        execAll classes body)
      b a
  | .give p value => Exec.located p do
    tick
    return .give (← Exec.eval classes value)
  | .eval p value => Exec.located p do
    tick
    let _ ← Exec.eval classes value
    return .next

def execAll (classes : List HostClass) : List Instr → Exec Flow
  | [] => return .next
  | i :: rest => do
    match ← i.exec classes with
    | .next => execAll classes rest
    | .give v => return .give v

end

/-- Runs the body of a program with the given parameter. Without a return the result is null. -/
def Program.run (classes : List HostClass) (program : Program) (param : Value) : Run Value := do
  let locals := (Array.replicate (max 1 program.slots) Value.null).setIfInBounds 0 param
  match ← (execAll classes program.body).run' locals with
  | .next => return .null
  | .give v => return v

end SceneScript
