import SceneScript.Machine.Building
import SceneScript.Machine.Eval

/-!
# Faults for lack of steps

Running out of steps is reported where a step is taken and nowhere else. What only computes a result
or a cause never reports it: `Stepless` collects such computations, and the instances below say that
reading a value or an object and walking through a hierarchy are among them.
-/

namespace SceneScript

def FaultCause.isStepLimit : FaultCause → Bool
  | .stepLimit _ => true
  | _ => false

class Stepless {α : Type} (x : Except FaultCause α) : Prop where
  stepless : ∀ {cause : FaultCause}, x = .error cause → cause.isStepLimit = false

namespace Stepless

variable {α β : Type}

instance ok (a : α) : Stepless (.ok a : Except FaultCause α) :=
  ⟨nofun⟩

instance pure (a : α) : Stepless (Pure.pure a : Except FaultCause α) :=
  ⟨nofun⟩

theorem error {cause : FaultCause} (stepless : cause.isStepLimit = false) :
    Stepless (.error cause : Except FaultCause α) :=
  ⟨fun is => by cases is; exact stepless⟩

instance bind (x : Except FaultCause α) (next : α → Except FaultCause β) [first : Stepless x]
    [rest : ∀ a, Stepless (next a)] : Stepless (x >>= next) where
  stepless {cause} failed := by
    cases x with
    | ok a => exact (rest a).stepless failed
    | error cause' =>
      cases failed
      exact first.stepless rfl

instance map (f : α → β) (x : Except FaultCause α) [stepless : Stepless x] :
    Stepless (x.map f) where
  stepless failed := by
    cases x with
    | ok a => cases failed
    | error cause =>
      cases failed
      exact stepless.stepless rfl

instance mapM (f : α → Except FaultCause β) (as : List α) [each : ∀ a, Stepless (f a)] :
    Stepless (as.mapM f) := by
  induction as with
  | nil => exact .pure _
  | cons a as ih =>
    rw [List.mapM_cons]
    infer_instance

/-! ## Values and objects -/

instance asInt (v : Value) : Stepless v.asInt := by
  cases v <;> first | exact .ok _ | exact .error rfl

instance asFloat (v : Value) : Stepless v.asFloat := by
  cases v <;> first | exact .ok _ | exact .error rfl

instance asFloat32 (v : Value) : Stepless v.asFloat32 :=
  .map _ _

instance asBool (v : Value) : Stepless v.asBool := by
  cases v <;> first | exact .ok _ | exact .error rfl

instance asString (v : Value) : Stepless v.asString := by
  cases v <;> first | exact .ok _ | exact .error rfl

instance asObject (v : Value) : Stepless v.asObject := by
  cases v <;> first | exact .ok _ | exact .error rfl

section

variable (h : Heap) (ref : Nat)

instance object : Stepless (h.object ref) := by
  unfold Heap.object
  split
  · exact .ok _
  · exact .error rfl

instance content (needed : ObjectKind) (select : Object → Option α) :
    Stepless (h.content needed select ref) := by
  have selected (o : Object) : Stepless (match select o with
      | some a => .ok a
      | none => .error (.wrongObject needed o.kind) : Except FaultCause α) := by
    split
    · exact .ok _
    · exact .error rfl
  exact .bind _ _

instance node : Stepless (h.node ref) := .content h ref _ _

instance vector : Stepless (h.vector ref) := .content h ref _ _

instance color : Stepless (h.color ref) := .content h ref _ _

instance colorAttribute : Stepless (h.colorAttribute ref) := .content h ref _ _

instance material : Stepless (h.material ref) := .content h ref _ _

instance model : Stepless (h.model ref) := .content h ref _ _

instance array : Stepless (h.array ref) := .content h ref _ _

end

/-! ## Operators -/

instance unary (op : Source.UnaryOp) (v : Value) : Stepless (UnaryOp.apply op v) := by
  unfold UnaryOp.apply
  split
  · split
    · exact .ok _
    · exact .error rfl
  · exact .ok _
  · exact .ok _
  · exact .error rfl

theorem fitting (n : Option Int64) : Stepless (fitting n) := by
  cases n
  · exact .error rfl
  · exact .ok _

theorem applyInt (op : Source.BinaryOp) (a b : Int64) : Stepless (BinaryOp.applyInt op a b) := by
  have divided (n : Option Int64) :
      Stepless (if b = 0 then .error .divisionByZero else SceneScript.fitting n) := by
    split
    · exact .error rfl
    · exact fitting n
  unfold BinaryOp.applyInt
  split <;> first | exact fitting _ | exact divided _ | exact .ok _ | exact .error rfl

theorem applyFloat (op : Source.BinaryOp) (a b : Float) :
    Stepless (BinaryOp.applyFloat op a b) := by
  unfold BinaryOp.applyFloat
  split <;> first | exact .ok _ | exact .error rfl

instance binary (op : Source.BinaryOp) (a b : Value) : Stepless (BinaryOp.apply op a b) := by
  unfold BinaryOp.apply
  split
  · exact .ok _
  · exact .ok _
  · split
    · exact applyInt _ _ _
    · exact applyFloat _ _ _
    · exact .error rfl

/-! ## Hierarchies -/

open Building

variable (h : Heap) (meshes : Array Mesh)

instance levelsAbove (child levels ref : Nat) : Stepless (levelsAbove h child levels ref) := by
  induction levels generalizing ref with
  | zero => exact .error rfl
  | succ levels ih =>
    rw [Building.levelsAbove]
    split
    · exact .error rfl
    · refine @bind _ _ _ _ _ fun n => ?_
      split
      · exact .ok _
      · infer_instance

instance levelsBelow (levels ref : Nat) : Stepless (levelsBelow h levels ref) := by
  induction levels generalizing ref with
  | zero => exact .error rfl
  | succ levels ih =>
    rw [Building.levelsBelow]
    infer_instance

instance finishPart (part : Nat × Nat) : Stepless (finishPart h meshes part) := by
  unfold Building.finishPart
  refine @bind _ _ _ _ _ fun m => ?_
  dsimp only
  split
  · exact .error rfl
  · exact .pure _

instance finishTransform (n : NodeObject) : Stepless (finishTransform h n) := by
  unfold Building.finishTransform
  refine @bind _ _ _ _ _ fun t => @bind _ _ _ _ _ fun r => @bind _ _ _ _ _ fun v => ?_
  dsimp only
  split
  · exact .pure _
  · exact .error rfl

instance finishNode (levels ref : Nat) : Stepless (finishNode h meshes levels ref) := by
  induction levels generalizing ref with
  | zero => exact .error rfl
  | succ levels ih =>
    rw [Building.finishNode]
    infer_instance

instance finishRoots (refs : List Nat) : Stepless (finishRoots h meshes refs) := by
  induction refs with
  | nil => exact .ok _
  | cons ref rest ih =>
    rw [Building.finishRoots]
    refine @bind _ _ _ _ _ fun n => ?_
    split
    · infer_instance
    · exact ih

end Stepless

end SceneScript
