import SceneScript.Proofs.Machine.Effects

/-!
# What each member gives and changes

The effects of the members that build nothing, class by class. A member that changes something
changes its receiver, but for `setTranslation`, which changes a vector of the node.
-/

namespace SceneScript

theorem Value.asString_ok {v : Value} {t : String} (is : v.asString = .ok t) : v = .string t := by
  cases v <;> cases is
  rfl

namespace Native

open Run

variable {limits : Limits} {s : RunState} {given : List Value} {may : Nat → Prop} {name : String}
  {receiver value : Value} {args : List Value}

theorem concludes_unknown {α : Type} {value : α → Value} (access : Access) (name : String) :
    Concludes limits given may s value (unknown access name) :=
  .fault _

/-! ## Strings, numbers and truth values -/

theorem concludes_toStringCall :
    Concludes limits given may s id (toStringCall name receiver args) := by
  unfold toStringCall
  split
  · exact .textOf receiver
  · exact concludes_unknown _ _

theorem concludes_stringCall :
    Concludes limits (receiver :: args) may s id (stringCall name receiver args) := by
  refine .lift fun t _ => ?_
  split
  · exact .textless rfl
  · exact .textless rfl
  · exact .pure (.given List.mem_cons_self)
  · exact .lift fun u _ => .string _
  · exact concludes_unknown _ _

theorem concludes_stringStatic : Concludes limits given may s id (stringStatic name args) := by
  unfold stringStatic
  split
  · exact .textOf _
  · exact concludes_unknown _ _

theorem concludes_integerStatic : Concludes limits given may s id (integerStatic name args) := by
  unfold integerStatic
  split
  · refine .lift fun t _ => ?_
    split
    · exact .textless rfl
    · exact .fault _
  · exact .lift fun a _ => .lift fun b _ => .textless rfl
  · exact .lift fun a _ => .lift fun b _ => .textless rfl
  · exact concludes_unknown _ _

theorem concludes_integerConstant : Concludes limits given may s id (integerConstant name) := by
  unfold integerConstant
  split
  · exact .textless rfl
  · exact .textless rfl
  · exact concludes_unknown _ _

theorem looks_readNumber (t : String) (as : ReadAs) : Looks limits s (readNumber t as) := by
  unfold readNumber
  split
  · exact .pure _
  · exact .fault _

theorem concludes_isNaN (v : Value) : Concludes limits given may s id (isNaN v) :=
  .lift fun _ _ => .textless rfl

theorem concludes_floatStatic : Concludes limits given may s id (floatStatic name args) := by
  unfold floatStatic
  split
  · exact .lift fun t _ => .looks (looks_readNumber t _) fun _ => .textless rfl
  · exact concludes_isNaN _
  · exact .lift fun a _ => .lift fun b _ => .textless rfl
  · exact .lift fun a _ => .lift fun b _ => .textless rfl
  · exact concludes_unknown _ _

theorem concludes_floatConstant : Concludes limits given may s id (floatConstant name) := by
  unfold floatConstant
  split
  · exact .textless rfl
  · exact concludes_unknown _ _

theorem concludes_doubleStatic : Concludes limits given may s id (doubleStatic name args) := by
  unfold doubleStatic
  split
  · exact .lift fun t _ => .looks (looks_readNumber t _) fun _ => .textless rfl
  · exact concludes_isNaN _
  · exact concludes_unknown _ _

theorem concludes_doubleConstant : Concludes limits given may s id (doubleConstant name) := by
  unfold doubleConstant
  split
  · exact .textless rfl
  · exact concludes_unknown _ _

theorem concludes_booleanStatic : Concludes limits given may s id (booleanStatic name args) := by
  unfold booleanStatic
  split
  · exact .textless rfl
  · exact .lift fun t _ => .textless rfl
  · exact concludes_unknown _ _

/-! ## Vectors -/

theorem looks_vec3 (x y z : Value) : Looks limits s (vec3 x y z) :=
  .bind (.lift _) fun _ => .bind (.lift _) fun _ => .bind (.lift _) fun _ => .pure _

theorem looks_vectorArg (v : Value) : Looks limits s (vectorArg v) :=
  .heap_bind (.bind (.lift _) fun _ => .lift _)

theorem concludes_allocVector (v : Vec3) : Concludes limits given may s id (alloc (.vector v)) :=
  .alloc ⟨nofun, nofun⟩ rfl

theorem concludes_vectorStatic : Concludes limits given may s id (vectorStatic name args) := by
  unfold vectorStatic
  split
  · exact .looks (looks_vec3 _ _ _) fun v => concludes_allocVector v
  · exact concludes_allocVector _
  · exact concludes_unknown _ _

theorem concludes_vectorGet : Concludes limits given may s id (vectorGet name receiver) := by
  refine .heap (.lift fun ref _ => .lift fun v _ => ?_)
  split
  · exact .textless rfl
  · exact .textless rfl
  · exact .textless rfl
  · exact concludes_unknown _ _

theorem concludes_vectorSet : Concludes limits given (receiver = .object ·) s (fun _ => .void)
    (vectorSet name receiver value) := by
  refine .lift fun ref is => .heap (.lift fun v _ => .lift fun x _ => ?_)
  have named := Value.asObject_ok is
  split
  · exact .set named (.vector _)
  · exact .set named (.vector _)
  · exact .set named (.vector _)
  · exact concludes_unknown _ _

theorem concludes_vectorCall : Concludes limits (receiver :: args) (receiver = .object ·) s id
    (vectorCall name receiver args) := by
  refine .lift fun ref is => .heap (.lift fun v _ => ?_)
  have update (w : Vec3) : Concludes limits (receiver :: args) (receiver = .object ·) s id
      (do modifyHeap (·.setVector ref w); return receiver) :=
    .modify (Value.asObject_ok is) (.vector w) (.inl List.mem_cons_self)
  dsimp only
  split
  · exact .looks (looks_vec3 _ _ _) fun w => update w
  · exact .looks (looks_vectorArg _) fun w => update _
  · exact .looks (looks_vectorArg _) fun w => update _
  · exact .lift fun x _ => update _
  · exact update _
  · exact .looks (looks_vectorArg _) fun w => update _
  · exact .textless rfl
  · exact .looks (looks_vectorArg _) fun w => .textless rfl
  · exact concludes_allocVector v
  · exact concludes_unknown _ _

/-! ## Colours -/

theorem looks_channel (v : Value) : Looks limits s (channel v) := by
  refine .bind (.lift _) fun x => ?_
  split
  · exact .bind (.fault _) fun _ => .pure x
  · exact .pure x

theorem concludes_allocColor (c : Rgba) : Concludes limits given may s id (alloc (.color c)) :=
  .alloc ⟨nofun, nofun⟩ rfl

theorem concludes_colorStatic : Concludes limits given may s id (colorStatic name args) := by
  unfold colorStatic
  split
  · exact .looks (looks_channel _) fun r => .looks (looks_channel _) fun g =>
      .looks (looks_channel _) fun b => .looks (looks_channel _) fun a => concludes_allocColor _
  · exact .looks (looks_channel _) fun r => .looks (looks_channel _) fun g =>
      .looks (looks_channel _) fun b => concludes_allocColor _
  · exact concludes_unknown _ _

theorem concludes_colorConstant : Concludes limits given may s id (colorConstant name) := by
  unfold colorConstant
  split
  case h_8 => exact concludes_unknown _ _
  all_goals exact concludes_allocColor _

theorem concludes_colorGet : Concludes limits given may s id (colorGet name receiver) := by
  have read (select : Rgba → Float32) : Concludes limits given may s id (do
      return Value.float (Number.widen (select (← (← heap).color (← receiver.asObject))))) :=
    .heap (.lift fun _ _ => .lift fun _ _ => .textless rfl)
  unfold colorGet
  dsimp only
  split
  · exact read _
  · exact read _
  · exact read _
  · exact read _
  · exact concludes_unknown _ _

theorem concludes_colorSet : Concludes limits given (receiver = .object ·) s (fun _ => .void)
    (colorSet name receiver value) := by
  have write (update : Rgba → Float32 → Rgba) :
      Concludes limits given (receiver = .object ·) s (fun _ => .void) (do
        let x ← channel value
        let ref ← receiver.asObject
        let c ← (← heap).color ref
        modifyHeap (·.setColor ref (update c x))) :=
    .looks (looks_channel value) fun x => .lift fun ref is => .heap (.lift fun c _ =>
      .set (Value.asObject_ok is) (.color _))
  unfold colorSet
  dsimp only
  split
  · exact write _
  · exact write _
  · exact write _
  · exact write _
  · exact concludes_unknown _ _

theorem concludes_colorCall : Concludes limits (receiver :: args) (receiver = .object ·) s id
    (colorCall name receiver args) := by
  refine .lift fun ref is => ?_
  split
  · refine .heap (.lift fun _ _ => .lift fun target _ => ?_)
    refine .looks (looks_channel _) fun t => .heap (.lift fun c _ => ?_)
    exact .modify (Value.asObject_ok is) (.color _) (.inl List.mem_cons_self)
  · exact .heap (.lift fun c _ => concludes_allocColor c)
  · exact concludes_unknown _ _

/-! ## Arrays -/

theorem concludes_arrayStatic : Concludes limits given may s id (arrayStatic name args) := by
  unfold arrayStatic
  split
  · exact .alloc ⟨nofun, nofun⟩ rfl
  · exact concludes_unknown _ _

theorem concludes_arrayCall : Concludes limits (receiver :: args) (receiver = .object ·) s id
    (arrayCall name receiver args) := by
  refine .lift fun ref is => .heap (.lift fun items found => ?_)
  have named := Value.asObject_ok is
  dsimp only
  split
  · next v =>
    have mem : v ∈ [receiver, v] := List.mem_cons_of_mem _ List.mem_cons_self
    refine Ends.limits_bind (.guard (.refl s) fun room => ?_)
    refine Concludes.charge (.modify named ?_ (.inr rfl))
    exact .push mem found (Nat.not_le.1 room)
  · exact .textless rfl
  · refine .lift fun i _ => .heap (.lift fun items found => ?_)
    split
    · next v element =>
      split at element
      · exact .pure (.element found (Array.mem_of_getElem? element))
      · cases element
    · exact .fault _
  · exact concludes_unknown _ _

/-! ## Models, nodes and materials -/

theorem concludes_modelCall : Concludes limits given may s id (modelCall name receiver args) := by
  refine .heap (.lift fun ref _ => .lift fun m _ => ?_)
  split
  · exact .textless rfl
  · exact .textless rfl
  · exact .textless rfl
  · exact concludes_unknown _ _

def TranslationOf (h : Heap) (receiver : Value) (ref : Nat) : Prop :=
  ∃ node n, receiver = .object node ∧ h.node node = .ok n ∧ ref = n.translation

theorem concludes_setTranslation (x y z : Value) :
    Concludes limits (receiver :: args) (TranslationOf s.heap receiver) s id (do
      let ref ← receiver.asObject
      let n ← (← heap).node ref
      let v ← vec3 x y z
      let _ ← (← heap).vector n.translation
      modifyHeap (·.setVector n.translation v)
      return receiver) := by
  refine .lift fun ref is => .heap (.lift fun n found => .looks (looks_vec3 _ _ _) fun v => ?_)
  refine .heap (.lift fun _ _ => .modify ?_ (.vector v) (.inl List.mem_cons_self))
  exact ⟨ref, n, Value.asObject_ok is, found, rfl⟩

theorem concludes_childCount :
    Concludes limits given may s id (do
      let ref ← receiver.asObject
      return Value.int (Int64.ofNat (← (← heap).node ref).children.size)) :=
  .lift fun _ _ => .heap (.lift fun _ _ => .textless rfl)

theorem concludes_nodeGet : Concludes limits given may s id (nodeGet name receiver) := by
  refine .heap (.lift fun ref _ => .lift fun n found => ?_)
  split
  · exact .pure (.nodeId found)
  · exact .textless rfl
  · exact .textless rfl
  · exact .textless rfl
  · exact concludes_unknown _ _

theorem concludes_nodeSet : Concludes limits [receiver, value] (receiver = .object ·) s
    (fun _ => .void) (nodeSet name receiver value) := by
  unfold nodeSet
  split
  · rw [newId_bind]
    refine .lift fun id isId => .charge (.lift fun ref is => .heap (.lift fun _ _ => ?_))
    exact .set (Value.asObject_ok is) (.nodeId (by simp [Value.asString_ok isId]))
  · exact concludes_unknown _ _

theorem concludes_materialStatic : Concludes limits given may s id (materialStatic name args) := by
  unfold materialStatic
  split
  · exact .alloc ⟨nofun, nofun⟩ rfl
  · refine .heap (.lift fun _ _ => .lift fun a _ => .alloc ⟨nofun, nofun⟩ ?_)
    exact Nat.le_zero.1 (apply_id a {})
  · exact concludes_unknown _ _

theorem concludes_materialCall : Concludes limits (receiver :: args) (receiver = .object ·) s id
    (materialCall name receiver args) := by
  unfold materialCall
  split
  · refine .heap (.lift fun _ _ => .lift fun a _ => .lift fun ref is => .heap (.lift fun _ _ => ?_))
    exact .modify (Value.asObject_ok is) (.surface a) (.inl List.mem_cons_self)
  · exact concludes_unknown _ _

theorem concludes_materialGet : Concludes limits given may s id (materialGet name receiver) := by
  unfold materialGet
  split
  · exact .heap (.lift fun _ _ => .lift fun m found => .pure (.materialId found))
  · exact concludes_unknown _ _

theorem concludes_materialSet : Concludes limits [receiver, value] (receiver = .object ·) s
    (fun _ => .void) (materialSet name receiver value) := by
  unfold materialSet
  split
  · rw [newId_bind]
    refine .lift fun id isId => .charge (.lift fun ref is => .heap (.lift fun _ _ => ?_))
    exact .set (Value.asObject_ok is) (.materialId (by simp [Value.asString_ok isId]))
  · exact concludes_unknown _ _

theorem concludes_attributeStatic :
    Concludes limits given may s id (attributeStatic name args) := by
  unfold attributeStatic
  split
  · exact .heap (.lift fun _ _ => .lift fun c _ => .alloc ⟨nofun, nofun⟩ rfl)
  · exact concludes_unknown _ _

end Native

/-! ## All members -/

namespace Call

open Run Native

def given : Call → List Value
  | .method _ _ receiver args => receiver :: args
  | .static _ _ args => args
  | .get _ _ receiver => [receiver]
  | .set _ _ receiver value => [receiver, value]
  | .constant _ _ => []

def MayAmend (h : Heap) : Call → Nat → Prop
  | .method .node "setTranslation" receiver _, ref => TranslationOf h receiver ref
  | .method .node .., _ | .method .modelBuilder .., _ => False
  | .method _ _ receiver _, ref | .set _ _ receiver _, ref => receiver = .object ref
  | _, _ => False

/-- A call builds, or it has one of the effects of calls that do not. -/
def Settled (limits : Limits) (s : RunState) (c : Call) (run : Run Value) : Prop :=
  c.Builds run ∨ Concludes limits c.given (c.MayAmend s.heap) s id run

variable {limits : Limits} {s : RunState}

theorem settled_builderCall (name : String) (receiver : Value) (args : List Value) :
    Settled limits s (.method .modelBuilder name receiver args) (builderCall name args) := by
  unfold builderCall
  split
  · exact .inl .node
  · exact .inl .part
  · exact .inr (.building (.textless rfl))
  · exact .inl .finish
  · next notNode notPart _ notEnd =>
    split
    · exact .inl (.generate (isPlain_of_builder notNode notPart notEnd))
    · exact .inr (concludes_unknown _ _)

theorem settled_nodeCall (name : String) (receiver : Value) (args : List Value) :
    Settled limits s (.method .node name receiver args) (nodeCall name receiver args) := by
  unfold nodeCall
  split
  · exact .inl .addPart
  · exact .inl .addChild
  · exact .inr (concludes_setTranslation _ _ _)
  · exact .inr concludes_childCount
  · exact .inr (.lift fun ref _ => concludes_unknown _ _)

theorem settled (limits : Limits) (s : RunState) (c : Call) : c.Settled limits s c.run := by
  cases c with
  | method owner name receiver args =>
    cases owner with
    | modelBuilder => exact settled_builderCall name receiver args
    | node => exact settled_nodeCall name receiver args
    | model => exact .inr concludes_modelCall
    | material => exact .inr concludes_materialCall
    | color => exact .inr concludes_colorCall
    | vector3 => exact .inr concludes_vectorCall
    | array => exact .inr concludes_arrayCall
    | string => exact .inr concludes_stringCall
    | integer | float | double | boolean | object => exact .inr concludes_toStringCall
    | _ => exact .inr (concludes_unknown _ _)
  | static owner name args =>
    refine .inr ?_
    cases owner with
    | string => exact concludes_stringStatic
    | material => exact concludes_materialStatic
    | color => exact concludes_colorStatic
    | colorAttribute => exact concludes_attributeStatic
    | vector3 => exact concludes_vectorStatic
    | array => exact concludes_arrayStatic
    | integer => exact concludes_integerStatic
    | float => exact concludes_floatStatic
    | double => exact concludes_doubleStatic
    | boolean => exact concludes_booleanStatic
    | _ => exact concludes_unknown _ _
  | get owner name receiver =>
    refine .inr ?_
    cases owner with
    | node => exact concludes_nodeGet
    | material => exact concludes_materialGet
    | color => exact concludes_colorGet
    | vector3 => exact concludes_vectorGet
    | _ => exact concludes_unknown _ _
  | set owner name receiver value =>
    refine .inr (.void ?_)
    cases owner with
    | node => exact concludes_nodeSet
    | material => exact concludes_materialSet
    | color => exact concludes_colorSet
    | vector3 => exact concludes_vectorSet
    | _ => exact concludes_unknown _ _
  | constant owner name =>
    refine .inr ?_
    cases owner with
    | color => exact concludes_colorConstant
    | integer => exact concludes_integerConstant
    | float => exact concludes_floatConstant
    | double => exact concludes_doubleConstant
    | _ => exact concludes_unknown _ _

end Call

end SceneScript
