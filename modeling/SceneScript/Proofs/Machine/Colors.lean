import SceneScript.Proofs.Hierarchy.Finishing
import SceneScript.Proofs.Machine.Conclusions

/-!
# Where colours come from

The channels that objects hold: those of colours, of attributes and materials, and those of the
surfaces and vertices of models. A call leaves the channels that were there before, finite ones, and
those that it blends of two colours, which it does not look at (`Call.recolors`).
-/

namespace SceneScript

open Run

/-! ## Channels -/

def MaterialObject.colors (m : MaterialObject) : List Rgba :=
  m.diffuse.toList ++ m.specular.toList ++ m.emissive.toList

def Material.colors (m : Material) : List Rgba :=
  m.diffuse :: (m.specular.toList ++ m.emissive.toList)

def Part.channels (p : Part) : List Float32 :=
  p.mesh.colors.flatMap Vec3.toList ++ p.material.colors.flatMap Rgba.toList

def Model.channels (m : Model) : List Float32 :=
  m.worldParts.flatMap fun placed => placed.2.channels

def Object.channels : Object → List Float32
  | .color c => c.toList
  | .colorAttribute a => a.color.toList
  | .material m => m.colors.flatMap Rgba.toList
  | .model m => m.channels
  | _ => []

def Heap.Holds (h : Heap) (x : Float32) : Prop :=
  ∃ o ∈ h.objects, x ∈ o.channels

/-- The channels that a call blends of the colours it is given. -/
inductive Call.Blends (h : Heap) : Call → Float32 → Prop
  | lerp {ref other : Nat} {c target : Rgba} {t : Value} {factor x : Float32} :
      h.color ref = .ok c → h.color other = .ok target → t.asFloat32 = .ok factor →
      factor.isFinite = true → x ∈ (Native.lerp c target factor).toList →
      Blends h (.method .color "lerp" (.object ref) [.object other, t]) x

/-! ## Changes of heaps -/

variable {fresh : Float32 → Prop}

namespace Heap

variable {h h' h'' : Heap} {o : Object} {ref : Nat}

def Admits (fresh : Float32 → Prop) (h : Heap) (x : Float32) : Prop :=
  h.Holds x ∨ x.isFinite = true ∨ fresh x

def Recolors (fresh : Float32 → Prop) (h h' : Heap) : Prop :=
  ∀ x, h'.Holds x → h.Admits fresh x

theorem admits_of_mem (mem : o ∈ h.objects) (inObject : x ∈ o.channels) : h.Admits fresh x :=
  .inl ⟨o, mem, inObject⟩

theorem admits_of_finite (finite : x.isFinite = true) : h.Admits fresh x :=
  .inr (.inl finite)

theorem mem_of_content {α : Type} {needed : ObjectKind} {select : Object → Option α} {a : α}
    (found : h.content needed select ref = .ok a) : ∃ o ∈ h.objects, select o = some a := by
  obtain ⟨o, at', selected⟩ := Option.bind_eq_some_iff.1 (content_eq_ok.1 found)
  exact ⟨o, Array.mem_of_getElem? at', selected⟩

theorem admits_of_color {c : Rgba} (found : h.color ref = .ok c) (mem : x ∈ c.toList) :
    h.Admits fresh x := by
  obtain ⟨o, among, is⟩ := mem_of_content found
  cases o with
  | color d =>
    cases is
    exact admits_of_mem among mem
  | _ => cases is

theorem admits_of_colorAttribute {a : ColorAttribute} (found : h.colorAttribute ref = .ok a)
    (mem : x ∈ a.color.toList) : h.Admits fresh x := by
  obtain ⟨o, among, is⟩ := mem_of_content found
  cases o with
  | colorAttribute d =>
    cases is
    exact admits_of_mem among mem
  | _ => cases is

theorem admits_of_material {m : MaterialObject} (found : h.material ref = .ok m)
    (mem : x ∈ m.colors.flatMap Rgba.toList) : h.Admits fresh x := by
  obtain ⟨o, among, is⟩ := mem_of_content found
  cases o with
  | material d =>
    cases is
    exact admits_of_mem among mem
  | _ => cases is

namespace Recolors

theorem refl (h : Heap) : h.Recolors fresh h :=
  fun _ => .inl

theorem of_eq (same : h' = h) : h.Recolors fresh h' := by
  rw [same]
  exact refl h

theorem trans (first : h.Recolors fresh h') (second : h'.Recolors fresh h'') :
    h.Recolors fresh h'' := by
  intro x holds
  obtain held | finite | isFresh := second x holds
  · exact first x held
  · exact .inr (.inl finite)
  · exact .inr (.inr isFresh)

theorem push (admitted : ∀ x ∈ o.channels, h.Admits fresh x) :
    h.Recolors fresh ⟨h.objects.push o⟩ := by
  rintro x ⟨o', mem, inObject⟩
  obtain mem | rfl := Array.mem_push.1 mem
  · exact admits_of_mem mem inObject
  · exact admitted x inObject

theorem add (admitted : ∀ x ∈ o.channels, h.Admits fresh x) :
    h.Recolors fresh (h.add o).2 :=
  push admitted

theorem modify {f : Object → Object}
    (admitted : ∀ o ∈ h.objects, ∀ x ∈ (f o).channels, h.Admits fresh x) :
    h.Recolors fresh (h.modify ref f) := by
  rintro x ⟨o, mem, inObject⟩
  obtain ⟨i, at'⟩ := Array.mem_iff_getElem?.1 mem
  rw [Heap.modify, Array.getElem?_modify] at at'
  split at at'
  · obtain ⟨o', found, rfl⟩ := Option.map_eq_some_iff.1 at'
    exact admitted o' (Array.mem_of_getElem? found) x inObject
  · exact admits_of_mem (Array.mem_of_getElem? at') inObject

theorem modify_same {f : Object → Object} (same : ∀ o : Object, (f o).channels = o.channels) :
    h.Recolors fresh (h.modify ref f) :=
  modify fun o mem _ inObject => admits_of_mem mem (same o ▸ inObject)

theorem modifyNode (f : NodeObject → NodeObject) : h.Recolors fresh (h.modifyNode ref f) :=
  modify_same fun o => by cases o <;> rfl

theorem setVector (v : Vec3) : h.Recolors fresh (h.setVector ref v) :=
  modify_same fun o => by cases o <;> rfl

theorem pushItem (v : Value) : h.Recolors fresh (h.push ref v) :=
  modify_same fun o => by cases o <;> rfl

theorem setColor {c : Rgba} (admitted : ∀ x ∈ c.toList, h.Admits fresh x) :
    h.Recolors fresh (h.setColor ref c) := by
  refine modify fun o mem x inObject => ?_
  cases o with
  | color => exact admitted x inObject
  | _ => exact admits_of_mem mem inObject

theorem modifyMaterial {f : MaterialObject → MaterialObject} (admitted : ∀ m : MaterialObject,
      ∀ c ∈ (f m).colors, c ∈ m.colors ∨ ∀ x ∈ c.toList, h.Admits fresh x) :
    h.Recolors fresh (h.modifyMaterial ref f) := by
  refine modify fun o mem x inObject => ?_
  cases o with
  | material m =>
    obtain ⟨c, among, inColor⟩ := List.mem_flatMap.1 inObject
    obtain old | new := admitted m c among
    · exact admits_of_mem mem (List.mem_flatMap.2 ⟨c, old, inColor⟩)
    · exact new x inColor
  | _ => exact admits_of_mem mem inObject

end Recolors

end Heap

theorem MaterialObject.colors_apply {m : MaterialObject} {a : ColorAttribute} {c : Rgba}
    (mem : c ∈ (m.apply a).colors) : c ∈ m.colors ∨ c = a.color := by
  cases channel : a.channel <;>
    simp only [apply, colors, channel, List.mem_append, Option.mem_toList,
      Option.some.injEq, eq_comm (b := c)] at mem ⊢ <;> tauto

/-! ## Runs -/

def Run.Recolors (fresh : Float32 → Prop) (h : Heap) {α : Type} (run : Run α) : Prop :=
  ∀ limits s, s.heap = h →
    Ends limits s run (fun _ s' => h.Recolors fresh s'.heap) fun _ s' => h.Recolors fresh s'.heap

namespace Run.Recolors

variable {α β : Type} {h : Heap} {run : Run α} {next : α → Run β} {x : Except FaultCause α}

theorem pure (a : α) : Recolors fresh h (pure a) :=
  fun _ _ same => .pure (.of_eq same)

theorem fault (cause : FaultCause) : Recolors fresh h (Run.fault cause : Run α) :=
  fun _ _ same => .fault (.of_eq same)

theorem lift (rest : ∀ a, x = .ok a → Recolors fresh h (next a)) :
    Recolors fresh h (liftM x >>= next) :=
  fun limits s same => .lift_bind (fun _ _ => .of_eq same) fun a is => rest a is limits s same

theorem looks (first : ∀ limits s, Looks limits s run) (rest : ∀ a, Recolors fresh h (next a)) :
    Recolors fresh h (run >>= next) :=
  fun limits s same => (first limits s).ends_bind (fun _ => .of_eq same) fun a =>
    rest a limits s same

theorem heap {next : Heap → Run α} (rest : Recolors fresh h (next h)) :
    Recolors fresh h (Run.heap >>= next) :=
  fun limits s same => .heap_bind (same ▸ rest limits s same)

theorem building {next : Building → Run α} (rest : ∀ b, Recolors fresh h (next b)) :
    Recolors fresh h (Run.building >>= next) :=
  fun limits s same => .building_bind (rest s.building limits s same)

theorem charge {bytes : Nat} {next : Unit → Run α} (rest : Recolors fresh h (next ())) :
    Recolors fresh h (Run.charge bytes >>= next) :=
  fun limits s same => .charge_bind (.of_eq same) fun _ =>
    rest limits { s with heapBytes := s.heapBytes + bytes } same

theorem string (t : String) : Recolors fresh h (Run.string t) :=
  fun _ _ same => .limits_bind (.guard (.of_eq same) fun _ => .charge_bind (.of_eq same) fun _ =>
    .pure (.of_eq same))

theorem textOf (v : Value) : Recolors fresh h (Native.textOf v) := by
  intro limits s same
  have shown : Ends limits s (display v) (fun _ s' => s'.heap = h)
      fun _ s' => h.Recolors fresh s'.heap := by
    refine (ends_display_spends v).mono (fun t s' spends => ?_) fun cause s' spends => ?_ <;>
      obtain ⟨steps, heapBytes, rfl, -⟩ := spends
    · exact same
    · exact .of_eq same
  exact shown.bind fun t s' same' => string t limits s' same'

theorem alloc {o : Object} (admitted : ∀ x ∈ o.channels, h.Admits fresh x) :
    Recolors fresh h (Run.alloc o) := by
  intro limits s same
  refine .tick_bind (fun _ => .of_eq same) fun _ => .charge_bind (.of_eq same) fun _ => ?_
  exact .addObject_bind (.pure (same ▸ .add (same ▸ admitted)))

theorem modify {f : Heap → Heap} {a : α} (recolors : h.Recolors fresh (f h)) :
    Recolors fresh h (modifyHeap f >>= fun _ => Pure.pure a) :=
  fun _ _ same => .modifyHeap_bind (.pure (by rw [same]; exact recolors))

theorem set {f : Heap → Heap} (recolors : h.Recolors fresh (f h)) :
    Recolors fresh h (modifyHeap f) :=
  fun _ _ same => .modifyHeap (by rw [same]; exact recolors)

theorem void {run : Run Unit} (sets : Recolors fresh h run) :
    Recolors fresh h (run >>= fun _ => Pure.pure Value.void) :=
  fun limits s same => Ends.bind (sets limits s same) fun _ _ recolors => .pure recolors

end Run.Recolors

/-! ## Members -/

namespace Native

variable {h : Heap} {name : String} {receiver value : Value} {args : List Value}

theorem recolors_unknown {α : Type} (access : Access) (name : String) :
    Recolors fresh h (unknown access name : Run α) :=
  .fault _

theorem recolors_toStringCall : Recolors fresh h (toStringCall name receiver args) := by
  unfold toStringCall
  split
  · exact .textOf receiver
  · exact recolors_unknown _ _

theorem recolors_stringCall : Recolors fresh h (stringCall name receiver args) := by
  refine .lift fun t _ => ?_
  split
  · exact .pure _
  · exact .pure _
  · exact .pure _
  · exact .lift fun u _ => .string _
  · exact recolors_unknown _ _

theorem recolors_stringStatic : Recolors fresh h (stringStatic name args) := by
  unfold stringStatic
  split
  · exact .textOf _
  · exact recolors_unknown _ _

theorem recolors_integerStatic : Recolors fresh h (integerStatic name args) := by
  unfold integerStatic
  split
  · refine .lift fun t _ => ?_
    split
    · exact .pure _
    · exact .fault _
  · exact .lift fun a _ => .lift fun b _ => .pure _
  · exact .lift fun a _ => .lift fun b _ => .pure _
  · exact recolors_unknown _ _

theorem recolors_floatStatic : Recolors fresh h (floatStatic name args) := by
  unfold floatStatic
  split
  · exact .lift fun t _ => .looks (fun _ _ => looks_readNumber t _) fun _ => .pure _
  · exact .lift fun _ _ => .pure _
  · exact .lift fun a _ => .lift fun b _ => .pure _
  · exact .lift fun a _ => .lift fun b _ => .pure _
  · exact recolors_unknown _ _

theorem recolors_doubleStatic : Recolors fresh h (doubleStatic name args) := by
  unfold doubleStatic
  split
  · exact .lift fun t _ => .looks (fun _ _ => looks_readNumber t _) fun _ => .pure _
  · exact .lift fun _ _ => .pure _
  · exact recolors_unknown _ _

theorem recolors_booleanStatic : Recolors fresh h (booleanStatic name args) := by
  unfold booleanStatic
  split
  · exact .pure _
  · exact .lift fun t _ => .pure _
  · exact recolors_unknown _ _

theorem recolors_numberConstant : Recolors fresh h (integerConstant name) ∧
    Recolors fresh h (floatConstant name) ∧ Recolors fresh h (doubleConstant name) := by
  unfold integerConstant floatConstant doubleConstant
  refine ⟨?_, ?_, ?_⟩ <;> split <;> first | exact .pure _ | exact recolors_unknown _ _

/-! ### Vectors and arrays -/

theorem recolors_allocVector (v : Vec3) : Recolors fresh h (alloc (.vector v)) :=
  .alloc nofun

theorem recolors_vectorStatic : Recolors fresh h (vectorStatic name args) := by
  unfold vectorStatic
  split
  · exact .looks (fun _ _ => looks_vec3 _ _ _) fun v => recolors_allocVector v
  · exact recolors_allocVector _
  · exact recolors_unknown _ _

theorem recolors_vectorGet : Recolors fresh h (vectorGet name receiver) := by
  refine .heap (.lift fun ref _ => .lift fun v _ => ?_)
  split
  · exact .pure _
  · exact .pure _
  · exact .pure _
  · exact recolors_unknown _ _

theorem recolors_vectorSet : Recolors fresh h (vectorSet name receiver value) := by
  refine .lift fun ref _ => .heap (.lift fun v _ => .lift fun x _ => ?_)
  split
  · exact .set (.setVector _)
  · exact .set (.setVector _)
  · exact .set (.setVector _)
  · exact recolors_unknown _ _

theorem recolors_vectorCall : Recolors fresh h (vectorCall name receiver args) := by
  refine .lift fun ref _ => .heap (.lift fun v _ => ?_)
  have update (w : Vec3) : Recolors fresh h
      (do modifyHeap (·.setVector ref w); return receiver) :=
    .modify (.setVector w)
  dsimp only
  split
  · exact .looks (fun _ _ => looks_vec3 _ _ _) fun w => update w
  · exact .looks (fun _ _ => looks_vectorArg _) fun w => update _
  · exact .looks (fun _ _ => looks_vectorArg _) fun w => update _
  · exact .lift fun x _ => update _
  · exact update _
  · exact .looks (fun _ _ => looks_vectorArg _) fun w => update _
  · exact .pure _
  · exact .looks (fun _ _ => looks_vectorArg _) fun w => .pure _
  · exact recolors_allocVector v
  · exact recolors_unknown _ _

theorem recolors_arrayStatic : Recolors fresh h (arrayStatic name args) := by
  unfold arrayStatic
  split
  · exact .alloc nofun
  · exact recolors_unknown _ _

theorem recolors_arrayCall : Recolors fresh h (arrayCall name receiver args) := by
  refine .lift fun ref _ => .heap (.lift fun items _ => ?_)
  dsimp only
  split
  · intro limits s same
    refine Ends.limits_bind (.guard (.of_eq same) fun _ => ?_)
    exact (Recolors.charge (.modify (.pushItem _))) limits s same
  · exact .pure _
  · refine .lift fun i _ => .heap (.lift fun items _ => ?_)
    split
    · exact .pure _
    · exact .fault _
  · exact recolors_unknown _ _

/-! ### Colours -/

theorem recolors_channel {α : Type} {v : Value} {next : Float32 → Run α}
    (rest : ∀ x, v.asFloat32 = .ok x → x.isFinite = true → Recolors fresh h (next x)) :
    Recolors fresh h (channel v >>= next) := by
  intro limits s same
  have read : Ends limits s (channel v)
      (fun x s' => v.asFloat32 = .ok x ∧ x.isFinite = true ∧ s' = s)
      fun _ s' => h.Recolors fresh s'.heap :=
    .lift_bind (fun _ _ => .of_eq same) fun x is => .guard (.of_eq same) fun finite =>
      .pure ⟨is, by simpa using finite, rfl⟩
  refine read.bind ?_
  rintro x s' ⟨is, finite, rfl⟩
  exact rest x is finite limits s' same

theorem admits_toList {c : Rgba} (r : h.Admits fresh c.r) (g : h.Admits fresh c.g)
    (b : h.Admits fresh c.b) (a : h.Admits fresh c.a) : ∀ x ∈ c.toList, h.Admits fresh x := by
  simp [Rgba.toList, r, g, b, a]

theorem recolors_colorStatic : Recolors fresh h (colorStatic name args) := by
  have one : (1 : Float32).isFinite = true := by decide
  unfold colorStatic
  split
  · exact recolors_channel fun r _ fr => recolors_channel fun g _ fg => recolors_channel
      fun b _ fb => recolors_channel fun a _ fa => .alloc (admits_toList (.inr (.inl fr))
        (.inr (.inl fg)) (.inr (.inl fb)) (.inr (.inl fa)))
  · exact recolors_channel fun r _ fr => recolors_channel fun g _ fg => recolors_channel
      fun b _ fb => .alloc (admits_toList (.inr (.inl fr)) (.inr (.inl fg)) (.inr (.inl fb))
        (.inr (.inl one)))
  · exact recolors_unknown _ _

theorem recolors_colorConstant : Recolors fresh h (colorConstant name) := by
  have constant {c : Rgba} (finite : ∀ x ∈ c.toList, x.isFinite = true) :
      Recolors fresh h (alloc (.color c)) :=
    .alloc fun x mem => .inr (.inl (finite x mem))
  unfold colorConstant
  split
  case h_8 => exact recolors_unknown _ _
  all_goals exact constant (by decide)

theorem recolors_colorGet : Recolors fresh h (colorGet name receiver) := by
  have read (select : Rgba → Float32) : Recolors fresh h (do
      return Value.float (Number.widen (select (← (← heap).color (← receiver.asObject))))) :=
    .heap (.lift fun _ _ => .lift fun _ _ => .pure _)
  unfold colorGet
  dsimp only
  split
  · exact read _
  · exact read _
  · exact read _
  · exact read _
  · exact recolors_unknown _ _

theorem recolors_colorSet : Recolors fresh h (colorSet name receiver value) := by
  have write (update : Rgba → Float32 → Rgba)
      (one : ∀ c x, ∀ y ∈ (update c x).toList, y = x ∨ y ∈ c.toList) : Recolors fresh h (do
        let x ← channel value
        let ref ← receiver.asObject
        let c ← (← heap).color ref
        modifyHeap (·.setColor ref (update c x))) := by
    refine recolors_channel fun x _ finite => .lift fun ref _ => .heap (.lift fun c found => ?_)
    refine .set (.setColor fun y mem => ?_)
    obtain rfl | old := one c x y mem
    · exact .inr (.inl finite)
    · exact Heap.admits_of_color found old
  unfold colorSet
  dsimp only
  split
  case h_5 => exact recolors_unknown _ _
  all_goals exact write _ fun c x y mem => by simp [Rgba.toList] at mem ⊢; tauto

theorem recolors_colorCall
    (blends : ∀ x, (Call.method .color name receiver args).Blends h x → fresh x) :
    Recolors fresh h (colorCall name receiver args) := by
  refine .lift fun ref is => ?_
  cases Value.asObject_ok is
  split
  · refine .heap (.lift fun other is => .lift fun target found => ?_)
    cases Value.asObject_ok is
    refine recolors_channel fun factor isFactor finite => .heap (.lift fun c ofRef => ?_)
    refine .modify (.setColor fun x mem => .inr (.inr (blends x ?_)))
    exact .lerp ofRef found isFactor finite mem
  · exact .heap (.lift fun c found => .alloc fun x mem => Heap.admits_of_color found mem)
  · exact recolors_unknown _ _

/-! ### Models, nodes and materials -/

theorem recolors_modelCall : Recolors fresh h (modelCall name receiver args) := by
  refine .heap (.lift fun ref _ => .lift fun m _ => ?_)
  split
  · exact .pure _
  · exact .pure _
  · exact .pure _
  · exact recolors_unknown _ _

theorem recolors_setTranslation (x y z : Value) : Recolors fresh h (do
    let ref ← receiver.asObject
    let n ← (← heap).node ref
    let v ← vec3 x y z
    let _ ← (← heap).vector n.translation
    modifyHeap (·.setVector n.translation v)
    return receiver) :=
  .lift fun _ _ => .heap (.lift fun _ _ => .looks (fun _ _ => looks_vec3 _ _ _) fun v =>
    .heap (.lift fun _ _ => .modify (.setVector v)))

theorem recolors_childCount : Recolors fresh h (do
    let ref ← receiver.asObject
    return Value.int (Int64.ofNat (← (← heap).node ref).children.size)) :=
  .lift fun _ _ => .heap (.lift fun _ _ => .pure _)

theorem recolors_nodeGet : Recolors fresh h (nodeGet name receiver) := by
  refine .heap (.lift fun ref _ => .lift fun n _ => ?_)
  split
  case h_5 => exact recolors_unknown _ _
  all_goals exact .pure _

theorem recolors_nodeSet : Recolors fresh h (nodeSet name receiver value) := by
  unfold nodeSet
  split
  · rw [newId_bind]
    exact .lift fun id _ => .charge (.lift fun ref _ => .heap (.lift fun _ _ =>
      .set (.modifyNode _)))
  · exact recolors_unknown _ _

theorem recolors_materialStatic : Recolors fresh h (materialStatic name args) := by
  unfold materialStatic
  split
  · exact .alloc nofun
  · refine .heap (.lift fun ref _ => .lift fun a found => .alloc fun x mem => ?_)
    obtain ⟨c, among, inColor⟩ := List.mem_flatMap.1 mem
    obtain old | rfl := MaterialObject.colors_apply among
    · cases old
    · exact Heap.admits_of_colorAttribute found inColor
  · exact recolors_unknown _ _

theorem recolors_materialCall : Recolors fresh h (materialCall name receiver args) := by
  unfold materialCall
  split
  · refine .heap (.lift fun _ _ => .lift fun a found => ?_)
    refine .lift fun ref _ => .heap (.lift fun _ _ => ?_)
    refine .modify (.modifyMaterial fun m c mem => (MaterialObject.colors_apply mem).imp_right ?_)
    rintro rfl x inColor
    exact Heap.admits_of_colorAttribute found inColor
  · exact recolors_unknown _ _

theorem recolors_materialGet : Recolors fresh h (materialGet name receiver) := by
  unfold materialGet
  split
  · exact .heap (.lift fun _ _ => .lift fun m _ => .pure _)
  · exact recolors_unknown _ _

theorem recolors_materialSet : Recolors fresh h (materialSet name receiver value) := by
  unfold materialSet
  split
  · rw [newId_bind]
    exact .lift fun id _ => .charge (.lift fun ref _ => .heap (.lift fun _ _ =>
      .set (.modifyMaterial fun m c mem => .inl mem)))
  · exact recolors_unknown _ _

theorem recolors_attributeStatic : Recolors fresh h (attributeStatic name args) := by
  unfold attributeStatic
  split
  · exact .heap (.lift fun _ _ => .lift fun c found => .alloc fun x mem =>
      Heap.admits_of_color found mem)
  · exact recolors_unknown _ _

end Native

/-! ## Models -/

namespace Building

variable {h : Heap} {meshes : Array Mesh} {x : Float32}

theorem admits_finishPart {part : Nat × Nat} {p : Part}
    (finished : finishPart h meshes part = .ok p) (mem : x ∈ p.channels) :
    h.Admits fresh x := by
  obtain ⟨material, found, made⟩ := bind_eq_ok.1 finished
  split at made
  · cases made
  · next mesh _ =>
    cases made
    have colors : x ∈ material.finished.colors.flatMap Rgba.toList := by
      obtain baked | ofMaterial := List.mem_append.1 mem
      · -- Every vertex has the first three channels of the diffuse colour.
        obtain ⟨v, among, inVertex⟩ := List.mem_flatMap.1 baked
        rw [Mesh.colors_withColor] at among
        cases List.eq_of_mem_replicate among
        refine List.mem_flatMap.2 ⟨_, List.mem_cons_self, ?_⟩
        simp only [Vec3.toList, Rgba.rgb, Rgba.toList, List.mem_cons] at inVertex ⊢
        tauto
      · exact ofMaterial
    obtain ⟨c, among, inColor⟩ := List.mem_flatMap.1 colors
    by_cases old : c ∈ material.colors
    · exact Heap.admits_of_material found (List.mem_flatMap.2 ⟨c, old, inColor⟩)
    · -- A colour that the material does not have stands for the diffuse one that is missing.
      have white : c = .white := by
        cases diffuse : material.diffuse <;>
          simp_all [Material.colors, MaterialObject.colors, MaterialObject.finished]
      rw [white] at inColor
      have finite : ∀ y ∈ Rgba.white.toList, y.isFinite = true := by decide
      exact Heap.admits_of_finite (finite x inColor)

theorem mem_worldPartsAll {parent : Matrix} {placed : Matrix × Part} {ms : List ModelNode} :
    placed ∈ ModelNode.worldPartsAll parent ms ↔ ∃ m ∈ ms, placed ∈ m.worldParts parent := by
  induction ms with
  | nil => simp [ModelNode.worldPartsAll]
  | cons m ms ih => simp [ModelNode.worldPartsAll, ih]

theorem admits_finishNode {levels ref : Nat} {m : ModelNode}
    (finished : finishNode h meshes levels ref = .ok m) {parent : Matrix} {placed : Matrix × Part}
    (among : placed ∈ m.worldParts parent) (mem : x ∈ placed.2.channels) : h.Admits fresh x := by
  induction levels generalizing ref m parent with
  | zero => cases finished
  | succ levels ih =>
    obtain ⟨n, read, -⟩ := bind_eq_ok.1 finished
    rw [finishNode_succ read] at finished
    obtain ⟨-, parts, children, -⟩ := finishWith_eq_ok.1 finished
    obtain ⟨name, transform, ps, ms⟩ := m
    rw [ModelNode.worldParts] at among
    obtain own | below := List.mem_append.1 among
    · obtain ⟨p, inNode, rfl⟩ := List.mem_map.1 own
      obtain ⟨part, -, made⟩ := mem_of_mapM parts inNode
      exact admits_finishPart made mem
    · obtain ⟨m, inChildren, inTree⟩ := mem_worldPartsAll.1 below
      obtain ⟨child, -, made⟩ := mem_of_mapM children inChildren
      exact ih made inTree

theorem admits_finishRoots {refs : List Nat} {roots : List ModelNode}
    (finished : finishRoots h meshes refs = .ok roots) {id : Nat}
    (mem : x ∈ (Model.mk id roots).channels) : h.Admits fresh x := by
  obtain ⟨placed, among, inPart⟩ := List.mem_flatMap.1 mem
  obtain ⟨m, inRoots, inTree⟩ := mem_worldPartsAll.1 among
  have copied : ∃ ref, finishNode h meshes maxLevels ref = .ok m := by
    clear mem among
    induction refs generalizing roots with
    | nil =>
      cases finished
      cases inRoots
    | cons ref rest ih =>
      obtain ⟨n, -, finished⟩ := bind_eq_ok.1 finished
      split at finished
      · obtain ⟨root, made, finished⟩ := bind_eq_ok.1 finished
        obtain ⟨more, ofRest, is⟩ := bind_eq_ok.1 finished
        cases is
        obtain rfl | inRest := List.mem_cons.1 inRoots
        · exact ⟨ref, made⟩
        · exact ih ofRest inRest
      · exact ih finished inRoots
  obtain ⟨ref, made⟩ := copied
  exact admits_finishNode made inTree inPart

end Building

theorem Edit.recolors {limits : Limits} {onNode : Prop} {s s' : RunState} {deed : Option Deed}
    (edit : Edit limits onNode s deed s') : s.heap.Recolors fresh s'.heap := by
  cases edit with
  | refused | generated | misplaced | abandoned => exact .refl _
  | created =>
    have vector (h : Heap) (v : Vec3) : h.Recolors fresh ⟨h.objects.push (.vector v)⟩ :=
      .push nofun
    have node (h : Heap) (n : NodeObject) : h.Recolors fresh ⟨h.objects.push (.node n)⟩ :=
      .push nofun
    exact (((vector _ _).trans (vector _ _)).trans (vector _ _)).trans (node _ _)
  | placed => exact .modifyNode _
  | attached => exact (Heap.Recolors.modifyNode _).trans (.modifyNode _)
  | finished _ made => exact .add fun x mem => Building.admits_finishRoots made mem

/-! ## Calls -/

namespace Call

open Native

variable {h : Heap}

theorem recolors_builds {c : Call} {run : Run Value} (builds : c.Builds run) :
    Recolors fresh h run := by
  rintro limits s rfl
  exact builds.performs.mono (fun _ _ done => done.edit.recolors) fun _ _ failed =>
    failed.edit.recolors

theorem recolors_builderCall (name : String) (receiver : Value) (args : List Value) :
    Recolors fresh h (builderCall name args) := by
  unfold builderCall
  split
  · exact recolors_builds (c := .method _ _ receiver _) .node
  · exact recolors_builds (c := .method _ _ receiver _) .part
  · exact .building fun b => .pure _
  · exact recolors_builds (c := .method _ _ receiver _) .finish
  · next notNode notPart _ notEnd =>
    split
    · exact recolors_builds (c := .method _ _ receiver _)
        (.generate (isPlain_of_builder notNode notPart notEnd))
    · exact recolors_unknown _ _

theorem recolors_nodeCall {name : String} {receiver : Value} {args : List Value} :
    Recolors fresh h (nodeCall name receiver args) := by
  unfold nodeCall
  split
  · exact recolors_builds .addPart
  · exact recolors_builds .addChild
  · exact recolors_setTranslation _ _ _
  · exact recolors_childCount
  · exact .lift fun ref _ => recolors_unknown _ _

theorem recolors (c : Call) (h : Heap) : Recolors (c.Blends h) h c.run := by
  cases c with
  | method owner name receiver args =>
    cases owner with
    | modelBuilder => exact recolors_builderCall name receiver args
    | node => exact recolors_nodeCall
    | model => exact recolors_modelCall
    | material => exact recolors_materialCall
    | color => exact recolors_colorCall fun x => id
    | vector3 => exact recolors_vectorCall
    | array => exact recolors_arrayCall
    | string => exact recolors_stringCall
    | integer | float | double | boolean | object => exact recolors_toStringCall
    | _ => exact recolors_unknown _ _
  | static owner name args =>
    cases owner with
    | string => exact recolors_stringStatic
    | material => exact recolors_materialStatic
    | color => exact recolors_colorStatic
    | colorAttribute => exact recolors_attributeStatic
    | vector3 => exact recolors_vectorStatic
    | array => exact recolors_arrayStatic
    | integer => exact recolors_integerStatic
    | float => exact recolors_floatStatic
    | double => exact recolors_doubleStatic
    | boolean => exact recolors_booleanStatic
    | _ => exact recolors_unknown _ _
  | get owner name receiver =>
    cases owner with
    | node => exact recolors_nodeGet
    | material => exact recolors_materialGet
    | color => exact recolors_colorGet
    | vector3 => exact recolors_vectorGet
    | _ => exact recolors_unknown _ _
  | set owner name receiver value =>
    refine .void ?_
    cases owner with
    | node => exact recolors_nodeSet
    | material => exact recolors_materialSet
    | color => exact recolors_colorSet
    | vector3 => exact recolors_vectorSet
    | _ => exact recolors_unknown _ _
  | constant owner name =>
    cases owner with
    | color => exact recolors_colorConstant
    | integer => exact recolors_numberConstant.1
    | float => exact recolors_numberConstant.2.1
    | double => exact recolors_numberConstant.2.2
    | _ => exact recolors_unknown _ _

theorem channel_run {v : Value} {x : Float32} (is : v.asFloat32 = .ok x)
    (finite : x.isFinite = true) (limits : Limits) (s : RunState) : channel v limits s = .ok x s := by
  change ((liftM v.asFloat32 : Run Float32) >>= fun x =>
    if (!x.isFinite) = true then Run.fault (.invalidChannel x) >>= fun _ => pure x
    else pure x) limits s = _
  rw [is]
  change (if (!x.isFinite) = true then _ else pure x : Run Float32) limits s = _
  rw [if_neg (by simp [finite])]
  rfl

theorem lerp_run {s : RunState} (ref other : Nat) {c target : Rgba} {t : Value} {factor : Float32}
    (ofRef : s.heap.color ref = .ok c) (ofOther : s.heap.color other = .ok target)
    (isFactor : t.asFloat32 = .ok factor) (finite : factor.isFinite = true) (limits : Limits) :
    colorCall "lerp" (.object ref) [.object other, t] limits s =
      .ok (.object ref) { s with heap := s.heap.setColor ref (Native.lerp c target factor) } := by
  change ((liftM (s.heap.color other) : Run Rgba) >>= fun target => channel t >>= fun factor =>
    Run.heap >>= fun h => liftM (h.color ref) >>= fun c =>
      modifyHeap (·.setColor ref (Native.lerp c target factor)) >>= fun _ =>
        pure (Value.object ref)) limits s = _
  rw [ofOther]
  change (channel t >>= fun factor => Run.heap >>= fun h => liftM (h.color ref) >>= fun c =>
    modifyHeap (·.setColor ref (Native.lerp c target factor)) >>= fun _ =>
      pure (Value.object ref)) limits s = _
  rw [bind_apply, channel_run isFactor finite]
  change ((liftM (s.heap.color ref) : Run Rgba) >>= fun c =>
    modifyHeap (·.setColor ref (Native.lerp c target factor)) >>= fun _ =>
      pure (Value.object ref)) limits s = _
  rw [ofRef]
  rfl

theorem Blends.holds {c : Call} {limits : Limits} {s : RunState} {x : Float32}
    (blends : c.Blends s.heap x) : (c.run.last limits s).heap.Holds x := by
  cases blends with
  | @lerp ref other color target t factor x ofRef ofOther isFactor finite mem =>
    obtain ⟨o, at', selected⟩ := Option.bind_eq_some_iff.1 (Heap.content_eq_ok.1 ofRef)
    have isColor : o = .color color := by
      cases o <;> cases selected
      rfl
    have ran : (Call.method .color "lerp" (.object ref) [.object other, t]).run limits s = _ :=
      lerp_run ref other ofRef ofOther isFactor finite limits
    rw [Run.last_of_ok ran]
    refine ⟨.color (Native.lerp color target factor), ?_, mem⟩
    refine Array.mem_of_getElem? (i := ref) ?_
    rw [Heap.setColor, Heap.modify, Array.getElem?_modify, if_pos rfl, at', isColor]
    rfl

end Call

end SceneScript
