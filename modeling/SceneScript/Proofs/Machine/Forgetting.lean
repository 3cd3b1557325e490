import Mathlib.Tactic.Common
import SceneScript.Machine.Eval

/-!
# Slots that are forgotten

Slots are never cleared while a program runs: what a block leaves in its slots is still there when
it is entered again. The runs below are the same but for that. Whenever a block or a round of a loop
is left, every slot that was not in use before it may be overwritten with anything.
-/

/-!
## Counting up

A loop counts with a 64-bit number. Proofs work with the number of rounds instead and with whole
numbers of any size: `Exec.countUp` is `Exec.iterate` (`Exec.countUp_eq_iterate`).
-/

namespace SceneScript

open Run

theorem Number.add?_one {i last : Int64} (below : i < last) : add? i 1 = some (i + 1) := by
  have lt := Int64.lt_iff_toInt_lt.1 below
  have low := i.le_toInt
  have high := last.toInt_lt
  have one : (1 : Int64).toInt = 1 := rfl
  have least : Int64.minValue.toInt = -2 ^ 63 := rfl
  have greatest : Int64.maxValue.toInt = 2 ^ 63 - 1 := rfl
  rw [add?, int64?, one, if_pos (by omega), ← toInt_succ below, Int64.ofInt_toInt]

namespace Exec

def iterate (body : Int → Exec Flow) : Nat → Int → Exec Flow
  | 0, _ => return .next
  | rounds + 1, i => do
    match ← body i with
    | .next => iterate body rounds (i + 1)
    | .give v => return .give v

theorem countUp_eq_iterate (body : Int64 → Exec Flow) (last i : Int64) :
    countUp body last i =
      iterate (fun n => body (Int64.ofInt n)) (last.toInt - i.toInt).toNat i.toInt := by
  generalize rounds : (last.toInt - i.toInt).toNat = n
  induction n generalizing i with
  | zero =>
    have above : ¬i < last := by
      rw [Int64.lt_iff_toInt_lt]
      omega
    rw [countUp, if_neg above, iterate]
  | succ n ih =>
    have below : i < last := by
      rw [Int64.lt_iff_toInt_lt]
      omega
    have next := Number.toInt_succ below
    have same : body (Int64.ofInt i.toInt) = body i := by rw [Int64.ofInt_toInt]
    rw [countUp, if_pos below, ih (i + 1) (by omega), next, ← same]
    rfl

end Exec

theorem Instr.exec_loop (classes : List HostClass) (p : Position) (slot : Nat) (first last : Code)
    (body : List Instr) : (Instr.loop p slot first last body).exec classes = Exec.located p (do
      tick
      let a ← Exec.eval classes first
      let a ← Run.located first.position a.asInt
      let b ← Exec.eval classes last
      let b ← Run.located last.position b.asInt
      Exec.iterate
        (fun i => do
          tick
          Exec.store slot (.int (Int64.ofInt i))
          execAll classes body)
        (b.toInt - a.toInt).toNat a.toInt) := by
  rw [Instr.exec]
  simp only [Exec.countUp_eq_iterate]

end SceneScript

namespace SceneScript

open Run

/-- A way to overwrite slots that keeps those in use. -/
structure Forgetting where
  overwrite : List Nat → Array Value → Array Value
  size_overwrite : ∀ used locals, (overwrite used locals).size = locals.size
  keeps : ∀ used locals slot, slot ∈ used → (overwrite used locals)[slot]? = locals[slot]?

namespace Forgetting

def nothing : Forgetting where
  overwrite _ locals := locals
  size_overwrite _ _ := rfl
  keeps _ _ _ _ := rfl

def everything (v : Value) : Forgetting where
  overwrite used locals := locals.mapIdx fun slot w => if slot ∈ used then w else v
  size_overwrite _ _ := Array.size_mapIdx
  keeps used locals slot inUse := by
    rw [Array.getElem?_mapIdx]
    simp [inUse]

/-- Carries out a block and forgets what it has left. -/
def leaving (forgetting : Forgetting) (used : List Nat) (exec : Exec Flow) : Exec Flow := do
  let flow ← exec
  modify (forgetting.overwrite used)
  return flow

theorem leaving_nothing (used : List Nat) (exec : Exec Flow) : nothing.leaving used exec = exec :=
  funext fun locals => bind_pure (exec locals)

end Forgetting

namespace Instr

def usedBehind (used : List Nat) : Instr → List Nat
  | store _ slot _ => slot :: used
  | _ => used

def hasBlocks : Instr → Bool
  | choose .. | loop .. => true
  | _ => false

end Instr

section

variable (forgetting : Forgetting) (classes : List HostClass)

mutual

def Instr.execForgetting (used : List Nat) : Instr → Exec Flow
  | .choose p cond body otherwise => Exec.located p do
    tick
    let c ← Exec.eval classes cond
    if ← Run.located cond.position c.asBool then
      forgetting.leaving used (execAllForgetting used body)
    else
      forgetting.leaving used (execAllForgetting used otherwise)
  | .loop p slot first last body => Exec.located p do
    tick
    let a ← Exec.eval classes first
    let a ← Run.located first.position a.asInt
    let b ← Exec.eval classes last
    let b ← Run.located last.position b.asInt
    Exec.iterate
      (fun i => do
        tick
        Exec.store slot (.int (Int64.ofInt i))
        forgetting.leaving used (execAllForgetting (slot :: used) body))
      (b.toInt - a.toInt).toNat a.toInt
  | i => i.exec classes

def execAllForgetting (used : List Nat) : List Instr → Exec Flow
  | [] => return .next
  | i :: rest => do
    match ← i.execForgetting used with
    | .next => execAllForgetting (i.usedBehind used) rest
    | .give v => return .give v

end

def Program.runForgetting (program : Program) (locals : Array Value) : Run Value := do
  match ← (execAllForgetting forgetting classes [0] program.body).run' locals with
  | .next => return .null
  | .give v => return v

end

theorem Instr.execForgetting_of_plain {forgetting : Forgetting} {classes : List HostClass}
    {used : List Nat} {i : Instr} (plain : i.hasBlocks = false) :
    i.execForgetting forgetting classes used = i.exec classes := by
  cases i with
  | choose | loop => cases plain
  | _ => rw [execForgetting] <;> simp

mutual

theorem Instr.execForgetting_nothing (classes : List HostClass) :
    ∀ (used : List Nat) (i : Instr), i.execForgetting .nothing classes used = i.exec classes
  | used, .choose p cond body otherwise => by
    rw [Instr.execForgetting, Instr.exec]
    simp only [Forgetting.leaving_nothing, execAllForgetting_nothing classes used body,
      execAllForgetting_nothing classes used otherwise]
  | used, .loop p slot first last body => by
    rw [Instr.execForgetting, Instr.exec_loop]
    simp only [Forgetting.leaving_nothing, execAllForgetting_nothing classes (slot :: used) body]
  | _, .store .. | _, .setField .. | _, .give .. | _, .eval .. =>
    Instr.execForgetting_of_plain rfl

theorem execAllForgetting_nothing (classes : List HostClass) :
    ∀ (used : List Nat) (body : List Instr),
      execAllForgetting .nothing classes used body = execAll classes body
  | _, [] => by rw [execAllForgetting, execAll]
  | used, i :: rest => by
    rw [execAllForgetting, execAll, i.execForgetting_nothing classes used]
    refine bind_congr fun flow => ?_
    cases flow with
    | next => exact execAllForgetting_nothing classes (i.usedBehind used) rest
    | give v => rfl

end

end SceneScript
