import SceneScript.Loading
import SceneScript.Machine.Eval

/-!
# Invocation

A loaded program is invoked once, with a model builder of its own. Whatever happens then is settled
to a model or a fault: a program that gives back no model has failed, and so has one that crashed.
-/

namespace SceneScript

inductive Outcome where
  | returned (model : Option Model)
  | faulted (fault : Fault)
  | crashed (detail : Option String)

/-- The model that was asked for, or what stood in its way. -/
def Outcome.settle : Outcome → Except Fault Model
  | .returned (some m) => .ok m
  | .returned none => .error ⟨.noModel, none⟩
  | .faulted f => .error f
  | .crashed detail => .error ⟨.crash detail, none⟩

structure Invocation where
  result : Except Fault Model
  steps : Nat
  nextModel : Nat

namespace Loaded

def createModel (loaded : Loaded) : Run (Option Model) := do
  let builder ← Run.newBuilder
  match ← loaded.program.run loaded.classes builder with
  | .null => return none
  | .object ref =>
    let (m, rest) ← (← Run.heap).takeModel ref
    Run.modifyHeap fun _ => rest
    return some m
  | v => Run.fault (.wrongValue .model v.kind)

def invoke (loaded : Loaded) (limits : Limits) (nextModel : Nat) : Invocation :=
  match loaded.createModel limits (.start nextModel) with
  | .ok model s => ⟨(Outcome.returned model).settle, s.steps, s.nextModel⟩
  | .error f s => ⟨(Outcome.faulted f).settle, s.steps, s.nextModel⟩

end Loaded

end SceneScript
