import SceneScript.Model.Tree

/-!
# Shared models

A model is shared by those that hold a reference to it, and is gone when the last of them has
released it. A weak reference does not keep it: it is upgraded to a reference that does, as long as
the model is there.
-/

namespace SceneScript

/-- A model with the number of references that keep it. -/
structure Shared where
  model : Model
  holders : Nat

/-- The models that have been shared so far. A reference is the place of its model. -/
structure Store where
  models : Array Shared

namespace Store

def empty : Store := ⟨#[]⟩

/-- Shares a model. The reference that is given is the only one. -/
def share (s : Store) (m : Model) : Nat × Store :=
  (s.models.size, ⟨s.models.push ⟨m, 1⟩⟩)

/-- Another reference to a model that one is held to. -/
def hold (s : Store) (ref : Nat) : Store :=
  ⟨s.models.modify ref fun c => { c with holders := c.holders + 1 }⟩

def release (s : Store) (ref : Nat) : Store :=
  ⟨s.models.modify ref fun c => { c with holders := c.holders - 1 }⟩

def holders (s : Store) (ref : Nat) : Nat :=
  match s.models[ref]? with
  | some c => c.holders
  | none => 0

/-- A reference from a weak one. -/
def upgrade? (s : Store) (ref : Nat) : Option (Model × Store) :=
  match s.models[ref]? with
  | some c => if 0 < c.holders then some (c.model, s.hold ref) else none
  | none => none

end Store

end SceneScript
