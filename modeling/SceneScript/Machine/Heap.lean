import SceneScript.Machine.Fault
import SceneScript.Model.Tree

/-!
# The heap of a run

Every object that a script can refer to. Objects are added at the end and never removed, so a
reference stays valid; only the slot of a model that has been handed out is left empty. An object
never changes its kind otherwise.
-/

namespace SceneScript

inductive Channel where
  | diffuse
  | specular
  | emissive
deriving Repr, DecidableEq

structure ColorAttribute where
  channel : Channel
  color : Rgba
deriving DecidableEq

structure MaterialObject where
  id : String := ""
  diffuse : Option Rgba := none
  specular : Option Rgba := none
  emissive : Option Rgba := none
deriving DecidableEq

namespace MaterialObject

def apply (m : MaterialObject) (a : ColorAttribute) : MaterialObject :=
  match a.channel with
  | .diffuse => { m with diffuse := some a.color }
  | .specular => { m with specular := some a.color }
  | .emissive => { m with emissive := some a.color }

/-- The finished material; without a diffuse colour it is white. -/
def finished (m : MaterialObject) : Material :=
  ⟨m.id, m.diffuse.getD .white, m.specular, m.emissive⟩

end MaterialObject

/-- A node that is being built. Its three vectors are objects of their own. -/
structure NodeObject where
  id : String
  translation : Nat
  rotation : Nat
  scale : Nat
  /-- Meshes with their materials. -/
  parts : Array (Nat × Nat)
  children : Array Nat
  parent : Option Nat
deriving DecidableEq

inductive Object where
  | builder
  | node (node : NodeObject)
  | vector (vector : Vec3)
  | color (color : Rgba)
  | colorAttribute (attr : ColorAttribute)
  | material (material : MaterialObject)
  | model (model : Model)
  | array (items : Array Value)
  | released

def Object.kind : Object → ObjectKind
  | .builder => .builder
  | .node _ => .node
  | .vector _ => .vector
  | .color _ => .color
  | .colorAttribute _ => .colorAttribute
  | .material _ => .material
  | .model _ => .model
  | .array _ => .array
  | .released => .released

structure Heap where
  objects : Array Object

namespace Heap

def empty : Heap := ⟨#[]⟩

def size (h : Heap) : Nat :=
  h.objects.size

def add (h : Heap) (o : Object) : Nat × Heap :=
  (h.objects.size, ⟨h.objects.push o⟩)

def object (h : Heap) (ref : Nat) : Except FaultCause Object :=
  match h.objects[ref]? with
  | some o => .ok o
  | none => .error .danglingReference

def content (needed : ObjectKind) (select : Object → Option α) (h : Heap) (ref : Nat) :
    Except FaultCause α := do
  let o ← h.object ref
  match select o with
  | some a => .ok a
  | none => .error (.wrongObject needed o.kind)

def node (h : Heap) (ref : Nat) : Except FaultCause NodeObject :=
  h.content .node (fun | .node n => some n | _ => none) ref

def vector (h : Heap) (ref : Nat) : Except FaultCause Vec3 :=
  h.content .vector (fun | .vector v => some v | _ => none) ref

def color (h : Heap) (ref : Nat) : Except FaultCause Rgba :=
  h.content .color (fun | .color c => some c | _ => none) ref

def colorAttribute (h : Heap) (ref : Nat) : Except FaultCause ColorAttribute :=
  h.content .colorAttribute (fun | .colorAttribute a => some a | _ => none) ref

def material (h : Heap) (ref : Nat) : Except FaultCause MaterialObject :=
  h.content .material (fun | .material m => some m | _ => none) ref

def model (h : Heap) (ref : Nat) : Except FaultCause Model :=
  h.content .model (fun | .model m => some m | _ => none) ref

def array (h : Heap) (ref : Nat) : Except FaultCause (Array Value) :=
  h.content .array (fun | .array items => some items | _ => none) ref

/-! ## Changing objects -/

def modify (h : Heap) (ref : Nat) (f : Object → Object) : Heap :=
  ⟨h.objects.modify ref f⟩

def modifyNode (h : Heap) (ref : Nat) (f : NodeObject → NodeObject) : Heap :=
  h.modify ref fun | .node n => .node (f n) | o => o

def setVector (h : Heap) (ref : Nat) (v : Vec3) : Heap :=
  h.modify ref fun | .vector _ => .vector v | o => o

def setColor (h : Heap) (ref : Nat) (c : Rgba) : Heap :=
  h.modify ref fun | .color _ => .color c | o => o

def modifyMaterial (h : Heap) (ref : Nat) (f : MaterialObject → MaterialObject) : Heap :=
  h.modify ref fun | .material m => .material (f m) | o => o

def push (h : Heap) (ref : Nat) (v : Value) : Heap :=
  h.modify ref fun | .array items => .array (items.push v) | o => o

/-- Hands out a model and leaves its slot empty. -/
def takeModel (h : Heap) (ref : Nat) : Except FaultCause (Model × Heap) := do
  let m ← h.model ref
  return (m, h.modify ref fun _ => .released)

end Heap

end SceneScript
