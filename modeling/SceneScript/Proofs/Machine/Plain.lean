import Mathlib.Algebra.Ring.Nat
import SceneScript.Machine.Native.Dispatch
import SceneScript.Proofs.Machine.Types
import SceneScript.Proofs.Machine.Stepless

/-!
# Plain members

Most members compute a value from what they read off the heap, allocate an object, or change one in
place. They neither build anything nor touch nodes and models, and they pay for what they add to an
object before they add it. `Run.Plain` collects the runs that are made up of such operations; what
holds of these and is kept by sequencing holds of every plain member.
-/

namespace SceneScript

/-- A change of an object that keeps its kind, and all of a node but the id, and all of a model. -/
def Object.Minor (o o' : Object) : Prop :=
  match o with
  | .node n => ∃ id, o' = .node { n with id := id }
  | .model m => o' = .model m
  | o => o'.kind = o.kind

def Object.IsPlain (o : Object) : Prop :=
  o.kind ≠ .node ∧ o.kind ≠ .model

def Value.textBytes : Value → Nat
  | .string s => s.utf8ByteSize
  | _ => 0

/-- The bytes that the content of an object takes, the object itself apart. -/
def Object.contentBytes : Object → Nat
  | .material m => m.id.utf8ByteSize
  | .array items => Run.elementBytes * items.size + (items.toList.map Value.textBytes).sum
  | _ => 0

structure Object.Adds (bytes : Nat) (f : Object → Object) : Prop where
  minor : ∀ o : Object, o.Minor (f o)
  node : ∀ n, f (.node n) = .node n
  content : ∀ o : Object, (f o).contentBytes ≤ o.contentBytes + bytes

theorem Native.elementCost_eq (v : Value) :
    Native.elementCost v = Run.elementBytes + v.textBytes := by
  cases v <;> rfl

theorem Object.Minor.alike {f : Object → Object} (minor : ∀ o : Object, o.Minor (f o))
    {o o' : Object} (alike : o.Alike o') : (f o).Alike (f o') := by
  cases alike with
  | refl => exact .refl _
  | @model m m' roots =>
    have same : f (.model m) = .model m := minor (.model m)
    have same' : f (.model m') = .model m' := minor (.model m')
    rw [same, same']
    exact .model roots

theorem Heap.Alike.model_bind {α : Type} {h h' : Heap} (alike : h.Alike h') (ref : Nat)
    {next : Model → Run α} (same : ∀ m m', m.roots = m'.roots → next m = next m') :
    (liftM (h.model ref) >>= next : Run α) = liftM (h'.model ref) >>= next := by
  have roots := alike.roots ref
  cases found : h.model ref with
  | error cause =>
    cases found' : h'.model ref with
    | error cause' =>
      rw [found, found'] at roots
      cases roots
      rfl
    | ok m' =>
      rw [found, found'] at roots
      cases roots
  | ok m =>
    cases found' : h'.model ref with
    | error cause' =>
      rw [found, found'] at roots
      cases roots
    | ok m' =>
      rw [found, found'] at roots
      exact same m m' (Except.ok.inj roots)

namespace Run

variable {α β : Type}

/-- The runs of plain members, with the bytes that are already paid for what they add. -/
inductive Plain : Nat → {α : Type} → Run α → Prop
  | pure {paid : Nat} {α : Type} (a : α) : Plain paid (pure a)
  | fault {paid : Nat} {α : Type} (cause : FaultCause)
      (stepless : cause.isStepLimit = false) : Plain paid (fault cause : Run α)
  | seq {paid rest : Nat} {α β : Type} {run : Run α} {next : α → Run β} : Plain paid run →
      (∀ a, Plain rest (next a)) → Plain (paid + rest) (run >>= next)
  | heap {paid : Nat} {α : Type} {next : Heap → Run α} :
      (∀ h h', h.Alike h' → next h = next h') → (∀ h, Plain paid (next h)) →
      Plain paid (heap >>= next)
  | building {paid : Nat} {α : Type} {next : Building → Run α} : (∀ b, Plain paid (next b)) →
      Plain paid (building >>= next)
  | roomy {paid : Nat} {α : Type} {size : Nat} {next : Unit → Run α} : Plain paid (next ()) →
      Plain paid (limits >>= fun l =>
        if size ≥ l.maxArrayLen then Run.fault (.arrayLimit l.maxArrayLen) >>= next else next ())
  | charge {paid : Nat} {α : Type} {bytes : Nat} {next : Unit → Run α} :
      Plain (paid + bytes) (next ()) → Plain paid (charge bytes >>= next)
  | string {paid : Nat} (s : String) : Plain paid (string s)
  | alloc {paid : Nat} {o : Object} (plain : o.IsPlain) (empty : o.contentBytes = 0) :
      Plain paid (alloc o)
  | modify {paid : Nat} {f : Object → Object} (ref : Nat) : Object.Adds paid f →
      Plain paid (modifyHeap (·.modify ref f))

namespace Plain

variable {paid : Nat} {run : Run α} {next : α → Run β}

theorem bind (first : Plain 0 run) (rest : ∀ a, Plain paid (next a)) :
    Plain paid (run >>= next) := by
  have whole := first.seq rest
  rwa [Nat.zero_add] at whole

theorem spend (first : Plain paid run) (rest : ∀ a, Plain 0 (next a)) : Plain paid (run >>= next) :=
  first.seq rest

theorem lift (x : Except FaultCause α) [stepless : Stepless x] : Plain paid (liftM x : Run α) := by
  cases x with
  | ok a => exact .pure a
  | error cause => exact .fault cause (stepless.stepless rfl)

theorem setVector (ref : Nat) (v : Vec3) : Plain paid (modifyHeap (·.setVector ref v)) :=
  .modify ref ⟨fun o => by cases o <;> first | rfl | exact ⟨_, rfl⟩, fun n => rfl,
    fun o => by cases o <;> exact Nat.le_add_right _ _⟩

theorem setColor (ref : Nat) (c : Rgba) : Plain paid (modifyHeap (·.setColor ref c)) :=
  .modify ref ⟨fun o => by cases o <;> first | rfl | exact ⟨_, rfl⟩, fun n => rfl,
    fun o => by cases o <;> exact Nat.le_add_right _ _⟩

theorem modifyMaterial (ref : Nat) {f : MaterialObject → MaterialObject}
    (id : ∀ m, (f m).id.utf8ByteSize ≤ m.id.utf8ByteSize + paid) :
    Plain paid (modifyHeap (·.modifyMaterial ref f)) :=
  .modify ref ⟨fun o => by cases o <;> first | rfl | exact ⟨_, rfl⟩, fun n => rfl, fun o => by
    cases o with
    | material m => exact id m
    | _ => exact Nat.le_add_right _ _⟩

theorem push (ref : Nat) {v : Value} (cost : Native.elementCost v ≤ paid) :
    Plain paid (modifyHeap (·.push ref v)) :=
  .modify ref ⟨fun o => by cases o <;> first | rfl | exact ⟨_, rfl⟩, fun n => rfl, fun o => by
    cases o with
    | array items =>
      rw [Native.elementCost_eq] at cost
      simp only [Object.contentBytes, Array.size_push, Array.toList_push, List.map_append,
        List.map_cons, List.map_nil, List.sum_append, List.sum_singleton, Nat.mul_succ]
      omega
    | _ => exact Nat.le_add_right _ _⟩

/-! ## Reading -/

section

variable {select : Heap → Nat → Except FaultCause β} [∀ h ref, Stepless (select h ref)]
  {next : β → Run α}

theorem readAt (same : ∀ h h' : Heap, h.Alike h' → select h = select h') {ref : Nat}
    (rest : ∀ b, Plain paid (next b)) :
    Plain paid (Run.heap >>= fun h => liftM (select h ref) >>= next) :=
  .heap (fun h h' alike => by rw [same h h' alike]) fun h => (lift (select h ref)).bind rest

theorem read (same : ∀ h h' : Heap, h.Alike h' → select h = select h') {x : Except FaultCause Nat}
    [Stepless x] (rest : ∀ b, Plain paid (next b)) :
    Plain paid (Run.heap >>= fun h => liftM x >>= fun ref => liftM (select h ref) >>= next) :=
  .heap (fun h h' alike => by rw [same h h' alike]) fun h =>
    (lift x).bind fun ref => (lift (select h ref)).bind rest

end

end Plain

end Run

namespace Native

open Run

variable {name : String} {receiver value : Value} {args : List Value}

theorem plain_unknown {α : Type} (access : Access) (name : String) :
    Plain 0 (unknown access name : Run α) :=
  .fault _ rfl

/-! ## Strings, numbers and truth values -/

theorem plain_stringCall : Plain 0 (stringCall name receiver args) := by
  refine .bind (.lift _) fun s => ?_
  split
  · exact .pure _
  · exact .pure _
  · exact .pure _
  · exact .bind (.lift _) fun _ => .string _
  · exact plain_unknown _ _

theorem plain_integerStatic : Plain 0 (integerStatic name args) := by
  unfold integerStatic
  split
  · refine .bind (.lift _) fun s => ?_
    split
    · exact .pure _
    · exact .fault _ rfl
  · exact .bind (.lift _) fun a => .bind (.lift _) fun b => .pure _
  · exact .bind (.lift _) fun a => .bind (.lift _) fun b => .pure _
  · exact plain_unknown _ _

theorem plain_integerConstant : Plain 0 (integerConstant name) := by
  unfold integerConstant
  split
  · exact .pure _
  · exact .pure _
  · exact plain_unknown _ _

theorem plain_readNumber (s : String) (as : ReadAs) : Plain 0 (readNumber s as) := by
  unfold readNumber
  split
  · exact .pure _
  · exact .fault _ rfl

theorem plain_isNaN (v : Value) : Plain 0 (isNaN v) :=
  .bind (.lift _) fun _ => .pure _

theorem plain_floatStatic : Plain 0 (floatStatic name args) := by
  unfold floatStatic
  split
  · exact .bind (.lift _) fun s => .bind (plain_readNumber s _) fun _ => .pure _
  · exact plain_isNaN _
  · exact .bind (.lift _) fun _ => .bind (.lift _) fun _ => .pure _
  · exact .bind (.lift _) fun _ => .bind (.lift _) fun _ => .pure _
  · exact plain_unknown _ _

theorem plain_floatConstant : Plain 0 (floatConstant name) := by
  unfold floatConstant
  split
  · exact .pure _
  · exact plain_unknown _ _

theorem plain_doubleStatic : Plain 0 (doubleStatic name args) := by
  unfold doubleStatic
  split
  · exact .bind (.lift _) fun s => .bind (plain_readNumber s _) fun _ => .pure _
  · exact plain_isNaN _
  · exact plain_unknown _ _

theorem plain_doubleConstant : Plain 0 (doubleConstant name) := by
  unfold doubleConstant
  split
  · exact .pure _
  · exact plain_unknown _ _

theorem plain_booleanStatic : Plain 0 (booleanStatic name args) := by
  unfold booleanStatic
  split
  · exact .pure _
  · exact .bind (.lift _) fun _ => .pure _
  · exact plain_unknown _ _

/-! ## Vectors, colours and arrays -/

theorem plain_vec3 (x y z : Value) : Plain 0 (vec3 x y z) :=
  .bind (.lift _) fun _ => .bind (.lift _) fun _ => .bind (.lift _) fun _ => .pure _

theorem plain_allocVector (v : Vec3) : Plain 0 (alloc (.vector v)) :=
  .alloc ⟨nofun, nofun⟩ rfl

theorem plain_vectorStatic : Plain 0 (vectorStatic name args) := by
  unfold vectorStatic
  split
  · exact .bind (plain_vec3 _ _ _) fun v => plain_allocVector v
  · exact plain_allocVector _
  · exact plain_unknown _ _

theorem plain_vectorGet : Plain 0 (vectorGet name receiver) := by
  refine .read (fun _ _ alike => alike.vector) fun v => ?_
  split
  · exact .pure _
  · exact .pure _
  · exact .pure _
  · exact plain_unknown _ _

theorem plain_vectorSet : Plain 0 (vectorSet name receiver value) := by
  refine .bind (.lift _) fun ref => .readAt (fun _ _ alike => alike.vector) fun v => ?_
  refine .bind (.lift _) fun x => ?_
  split
  · exact .setVector ref _
  · exact .setVector ref _
  · exact .setVector ref _
  · exact plain_unknown _ _

theorem plain_vectorArg (v : Value) : Plain 0 (vectorArg v) :=
  .heap (fun _ _ alike => by rw [alike.vector]) fun _ => .bind (.lift _) fun _ => .lift _

theorem plain_vectorCall : Plain 0 (vectorCall name receiver args) := by
  refine .bind (.lift _) fun ref => .readAt (fun _ _ alike => alike.vector) fun v => ?_
  have update (w : Vec3) :
      Plain 0 (do modifyHeap (·.setVector ref w); return receiver : Run Value) :=
    .bind (.setVector ref w) fun _ => .pure receiver
  dsimp only
  split
  · exact .bind (plain_vec3 _ _ _) fun w => update w
  · exact .bind (plain_vectorArg _) fun w => update _
  · exact .bind (plain_vectorArg _) fun w => update _
  · exact .bind (.lift _) fun x => update _
  · exact update _
  · exact .bind (plain_vectorArg _) fun w => update _
  · exact .pure _
  · exact .bind (plain_vectorArg _) fun w => .pure _
  · exact plain_allocVector v
  · exact plain_unknown _ _

theorem plain_channel (v : Value) : Plain 0 (channel v) := by
  refine .bind (.lift _) fun x => ?_
  split
  · exact .bind (.fault _ rfl) fun _ => .pure x
  · exact .pure x

theorem plain_allocColor (c : Rgba) : Plain 0 (alloc (.color c)) :=
  .alloc ⟨nofun, nofun⟩ rfl

theorem plain_colorStatic : Plain 0 (colorStatic name args) := by
  unfold colorStatic
  split
  · exact .bind (plain_channel _) fun r => .bind (plain_channel _) fun g =>
      .bind (plain_channel _) fun b => .bind (plain_channel _) fun a => plain_allocColor _
  · exact .bind (plain_channel _) fun r => .bind (plain_channel _) fun g =>
      .bind (plain_channel _) fun b => plain_allocColor _
  · exact plain_unknown _ _

theorem plain_colorConstant : Plain 0 (colorConstant name) := by
  unfold colorConstant
  split
  case h_8 => exact plain_unknown _ _
  all_goals exact plain_allocColor _

theorem plain_colorGet : Plain 0 (colorGet name receiver) := by
  have read (select : Rgba → Float32) : Plain 0 (do
      return Value.float (Number.widen (select (← (← heap).color (← receiver.asObject)))) :
      Run Value) :=
    .read (fun _ _ alike => alike.color) fun c => .pure _
  unfold colorGet
  dsimp only
  split
  · exact read _
  · exact read _
  · exact read _
  · exact read _
  · exact plain_unknown _ _

theorem plain_colorSet : Plain 0 (colorSet name receiver value) := by
  have write (update : Rgba → Float32 → Rgba) : Plain 0 (do
      let x ← channel value
      let ref ← receiver.asObject
      let c ← (← heap).color ref
      modifyHeap (·.setColor ref (update c x))) :=
    .bind (plain_channel value) fun x => .bind (.lift _) fun ref =>
      .readAt (fun _ _ alike => alike.color) fun c => .setColor ref _
  unfold colorSet
  dsimp only
  split
  · exact write _
  · exact write _
  · exact write _
  · exact write _
  · exact plain_unknown _ _

theorem plain_colorCall : Plain 0 (colorCall name receiver args) := by
  refine .bind (.lift _) fun ref => ?_
  split
  · refine .read (fun _ _ alike => alike.color) fun target => ?_
    refine .bind (plain_channel _) fun t => .readAt (fun _ _ alike => alike.color) fun c => ?_
    exact .bind (.setColor ref _) fun _ => .pure receiver
  · exact .readAt (fun _ _ alike => alike.color) fun c => plain_allocColor c
  · exact plain_unknown _ _

theorem plain_arrayStatic : Plain 0 (arrayStatic name args) := by
  unfold arrayStatic
  split
  · exact .alloc ⟨nofun, nofun⟩ rfl
  · exact plain_unknown _ _

theorem plain_arrayCall : Plain 0 (arrayCall name receiver args) := by
  refine .bind (.lift _) fun ref => .readAt (fun _ _ alike => alike.array) fun items => ?_
  dsimp only
  split
  · exact .roomy (.charge (.spend (.push ref (Nat.le_add_left _ _)) fun _ => .pure _))
  · exact .pure _
  · refine .bind (.lift _) fun i => .readAt (fun _ _ alike => alike.array) fun items => ?_
    split
    · exact .pure _
    · exact .fault _ rfl
  · exact plain_unknown _ _

/-! ## Models, nodes and materials -/

theorem plain_modelCall : Plain 0 (modelCall name receiver args) := by
  refine .heap (fun h h' alike => bind_congr fun ref => ?_) fun h => .bind (.lift _) fun ref =>
    .bind (.lift _) fun m => ?_
  · refine alike.model_bind ref fun m m' roots => ?_
    rw [Model.nodeCount, Model.partCount, Model.vertexCount, Model.worldParts, roots]
    rfl
  · split
    · exact .pure _
    · exact .pure _
    · exact .pure _
    · exact plain_unknown _ _

theorem plain_nodeGet : Plain 0 (nodeGet name receiver) := by
  refine .read (fun _ _ alike => alike.node) fun n => ?_
  split
  · exact .pure _
  · exact .pure _
  · exact .pure _
  · exact .pure _
  · exact plain_unknown _ _

theorem plain_setTranslation (ref : Nat) (receiver x y z : Value) : Plain 0 (do
    let n ← (← heap).node ref
    let v ← vec3 x y z
    let _ ← (← heap).vector n.translation
    modifyHeap (·.setVector n.translation v)
    return receiver) := by
  refine .readAt (fun _ _ alike => alike.node) fun n => .bind (plain_vec3 x y z) fun v => ?_
  refine .readAt (fun _ _ alike => alike.vector) fun _ => ?_
  exact .bind (.setVector _ v) fun _ => .pure receiver

theorem plain_childCount (ref : Nat) : Plain 0 (do
    return Value.int (Int64.ofNat (← (← heap).node ref).children.size)) :=
  .readAt (fun _ _ alike => alike.node) fun _ => .pure _

theorem newId_bind {α : Type} {next : String → Run α} : (newId value >>= next) =
    liftM value.asString >>= fun id => charge id.utf8ByteSize >>= fun _ => next id := by
  simp only [newId, bind_assoc, pure_bind]

theorem nodeSet_id : nodeSet "id" receiver value = (do
    let id ← value.asString
    charge id.utf8ByteSize
    let ref ← receiver.asObject
    let _ ← (← heap).node ref
    modifyHeap (·.modifyNode ref fun n => { n with id := id })) :=
  newId_bind

theorem apply_id (a : ColorAttribute) (m : MaterialObject) :
    (m.apply a).id.utf8ByteSize ≤ m.id.utf8ByteSize + 0 := by
  unfold MaterialObject.apply
  split <;> exact Nat.le_refl _

theorem plain_allocMaterial {m : MaterialObject} (unnamed : m.id.utf8ByteSize = 0) :
    Plain 0 (alloc (.material m)) :=
  .alloc ⟨nofun, nofun⟩ unnamed

theorem plain_materialStatic : Plain 0 (materialStatic name args) := by
  unfold materialStatic
  split
  · exact plain_allocMaterial rfl
  · exact .read (fun _ _ alike => alike.colorAttribute) fun a =>
      plain_allocMaterial (Nat.le_zero.1 (apply_id a {}))
  · exact plain_unknown _ _

theorem plain_materialCall : Plain 0 (materialCall name receiver args) := by
  unfold materialCall
  split
  · refine .read (fun _ _ alike => alike.colorAttribute) fun a => .bind (.lift _) fun ref => ?_
    refine .readAt (fun _ _ alike => alike.material) fun _ => ?_
    exact .bind (.modifyMaterial ref (apply_id a)) fun _ => .pure receiver
  · exact plain_unknown _ _

theorem plain_materialGet : Plain 0 (materialGet name receiver) := by
  unfold materialGet
  split
  · exact .read (fun _ _ alike => alike.material) fun m => .pure _
  · exact plain_unknown _ _

theorem plain_materialSet : Plain 0 (materialSet name receiver value) := by
  unfold materialSet
  split
  · rw [newId_bind]
    refine .bind (.lift _) fun id => .charge (.bind (.lift _) fun ref => ?_)
    refine .readAt (fun _ _ alike => alike.material) fun _ => .modifyMaterial ref fun m => ?_
    dsimp only
    omega
  · exact plain_unknown _ _

theorem plain_attributeStatic : Plain 0 (attributeStatic name args) := by
  unfold attributeStatic
  split
  · exact .read (fun _ _ alike => alike.color) fun c => .alloc ⟨nofun, nofun⟩ rfl
  · exact plain_unknown _ _

end Native

end SceneScript
