import Mathlib.Tactic.Common
import SceneScript.Catalog.Member
import SceneScript.Machine.Run

/-!
# Values and heaps of their types

What it means for a value to have a static type, and for a heap to hold only objects whose parts
have theirs. A class type asks for an object of one kind. Objects never change their kind while a
program runs, so a typed value stays typed on every heap that extends the first
(`Value.HasType.mono`), and every change a program can make keeps the heap well typed.
-/

namespace SceneScript

/-- The causes that only a program with wrong types or missing classes runs into. -/
def FaultCause.isIllTyped : FaultCause → Bool
  | .wrongValue .. | .wrongObject .. | .wrongOperands .. | .notArithmetic _ | .danglingReference
  | .invalidSlot _ | .notLoaded _ | .unknownMember .. | .unknownPrimitive _ => true
  | _ => false

def HostClass.objectKind? : HostClass → Option ObjectKind
  | .modelBuilder => some .builder
  | .model => some .model
  | .node => some .node
  | .material => some .material
  | .color => some .color
  | .colorAttribute => some .colorAttribute
  | .vector3 => some .vector
  | .array => some .array
  | _ => none

/-! ## Heaps that extend each other -/

namespace Heap

def kind? (h : Heap) (ref : Nat) : Option ObjectKind :=
  h.objects[ref]?.map Object.kind

def Extends (h h' : Heap) : Prop :=
  ∀ ref k, h.kind? ref = some k → h'.kind? ref = some k

theorem Extends.refl (h : Heap) : h.Extends h := fun _ _ found => found

theorem Extends.trans {h₁ h₂ h₃ : Heap} (first : h₁.Extends h₂) (second : h₂.Extends h₃) :
    h₁.Extends h₃ :=
  fun ref k found => second ref k (first ref k found)

theorem kind?_add {h : Heap} (o : Object) (ref : Nat) :
    (h.add o).2.kind? ref = if ref = h.objects.size then some o.kind else h.kind? ref := by
  simp only [kind?, add, Array.getElem?_push]
  split <;> rfl

theorem extends_add (h : Heap) (o : Object) : h.Extends (h.add o).2 := by
  intro ref k found
  have bound : ref ≠ h.objects.size := by
    rintro rfl
    simp [kind?] at found
  rw [kind?_add, if_neg bound, found]

theorem kind?_modify {h : Heap} {f : Object → Object} (keeps : ∀ o, (f o).kind = o.kind)
    (place ref : Nat) : (h.modify place f).kind? ref = h.kind? ref := by
  simp only [kind?, modify, Array.getElem?_modify]
  split
  · cases h.objects[ref]? <;> simp [keeps]
  · rfl

theorem extends_modify {h : Heap} {f : Object → Object} (keeps : ∀ o, (f o).kind = o.kind)
    (place : Nat) : h.Extends (h.modify place f) := by
  intro ref k found
  rw [kind?_modify keeps, found]

end Heap

/-! ## Values -/

namespace Value

/-- A value of a static type. Null belongs to every type that admits it, and every value there is
to `Object`. -/
inductive HasType (h : Heap) : Value → Ty → Prop
  | void : HasType h .void .void
  | null {t : Ty} : t.isReference = true → HasType h .null t
  | int (n : Int64) : HasType h (.int n) .int
  | float (x : Float) : HasType h (.float x) .float
  | bool (b : Bool) : HasType h (.bool b) .bool
  | string (s : String) : HasType h (.string s) .string
  | object {ref : Nat} {c : HostClass} {k : ObjectKind} : c.objectKind? = some k →
      h.kind? ref = some k → HasType h (.object ref) (.object c)
  | any {v : Value} {t : Ty} : HasType h v t → t ≠ .void → HasType h v .any

namespace HasType

variable {h h' : Heap} {v : Value} {t : Ty}

theorem mono (typed : HasType h v t) (grown : h.Extends h') : HasType h' v t := by
  induction typed with
  | void => exact .void
  | null reference => exact .null reference
  | int n => exact .int n
  | float x => exact .float x
  | bool b => exact .bool b
  | string s => exact .string s
  | object kind found => exact .object kind (grown _ _ found)
  | any _ nonVoid ih => exact .any ih nonVoid

theorem int_inv (typed : HasType h v .int) : ∃ n, v = .int n := by
  cases typed with
  | null reference => simp [Ty.isReference] at reference
  | int n => exact ⟨n, rfl⟩

theorem float_inv (typed : HasType h v .float) : ∃ x, v = .float x := by
  cases typed with
  | null reference => simp [Ty.isReference] at reference
  | float x => exact ⟨x, rfl⟩

theorem bool_inv (typed : HasType h v .bool) : ∃ b, v = .bool b := by
  cases typed with
  | null reference => simp [Ty.isReference] at reference
  | bool b => exact ⟨b, rfl⟩

theorem string_inv (typed : HasType h v .string) : v = .null ∨ ∃ s, v = .string s := by
  cases typed with
  | null => exact .inl rfl
  | string s => exact .inr ⟨s, rfl⟩

theorem object_inv {c : HostClass} (typed : HasType h v (.object c)) :
    v = .null ∨ ∃ ref k, v = .object ref ∧ c.objectKind? = some k ∧ h.kind? ref = some k := by
  cases typed with
  | null => exact .inl rfl
  | object kind found => exact .inr ⟨_, _, rfl, kind, found⟩

theorem assign {target : Ty} (typed : HasType h v t) (fits : t.assignableTo target = true)
    (kept : ¬(t = .int ∧ target = .float)) : HasType h v target := by
  unfold Ty.assignableTo at fits
  split at fits
  · next same => exact same ▸ typed
  · split at fits
    · exact absurd ⟨rfl, rfl⟩ kept
    · cases typed with
      | null => exact .null rfl
    · cases typed with
      | null => exact .null rfl
    · cases fits
    · exact .any typed (by assumption)
    · cases fits

theorem of_owner {c : HostClass} (typed : HasType h v t) (owner : t.owner? = some c)
    (nonNull : v ≠ .null) : HasType h v c.instanceType := by
  cases t with
  | void | null => cases owner
  | int | float | bool | string | any => cases owner; exact typed
  | object d =>
    cases owner
    rcases typed.object_inv with rfl | ⟨ref, k, rfl, kind, -⟩
    · exact absurd rfl nonNull
    · cases c <;> first | exact typed | cases kind

end HasType

end Value

/-! ## Heaps -/

structure NodeObject.WellTyped (h : Heap) (n : NodeObject) : Prop where
  translation : h.kind? n.translation = some .vector
  rotation : h.kind? n.rotation = some .vector
  scale : h.kind? n.scale = some .vector
  parts : ∀ part ∈ n.parts, h.kind? part.2 = some .material
  children : ∀ child ∈ n.children, h.kind? child = some .node
  parent : ∀ parent, n.parent = some parent → h.kind? parent = some .node

namespace Object

def WellTyped (h : Heap) : Object → Prop
  | .node n => n.WellTyped h
  | .array items => ∀ v ∈ items, v.HasType h .any
  | _ => True

theorem WellTyped.mono {h h' : Heap} {o : Object} (typed : o.WellTyped h) (grown : h.Extends h') :
    o.WellTyped h' := by
  cases o with
  | node n =>
    have n : n.WellTyped h := typed
    exact ⟨grown _ _ n.translation, grown _ _ n.rotation, grown _ _ n.scale,
      fun part mem => grown _ _ (n.parts part mem),
      fun child mem => grown _ _ (n.children child mem),
      fun parent found => grown _ _ (n.parent parent found)⟩
  | array items => exact fun v mem => (typed v mem).mono grown
  | _ => trivial

end Object

namespace Heap

def WellTyped (h : Heap) : Prop :=
  ∀ (ref : Nat) (o : Object), h.objects[ref]? = some o → o.WellTyped h

theorem wellTyped_empty : empty.WellTyped := by
  intro ref o found
  simp [empty] at found

theorem WellTyped.add {h : Heap} {o : Object} (typed : h.WellTyped)
    (new : o.WellTyped (h.add o).2) : (h.add o).2.WellTyped := by
  intro ref o' found
  simp only [Heap.add, Array.getElem?_push] at found
  split at found
  · cases found
    exact new
  · exact (typed ref o' found).mono (extends_add h o)

theorem WellTyped.modify {h : Heap} {f : Object → Object} (typed : h.WellTyped) (place : Nat)
    (keeps : ∀ o, (f o).kind = o.kind) (maps : ∀ o, o.WellTyped h → (f o).WellTyped h) :
    (h.modify place f).WellTyped := by
  intro ref o found
  simp only [Heap.modify, Array.getElem?_modify] at found
  refine Object.WellTyped.mono ?_ (extends_modify keeps place)
  split at found
  · obtain ⟨before, was, rfl⟩ := Option.map_eq_some_iff.1 found
    exact maps _ (typed _ _ was)
  · exact typed _ _ found

variable {h : Heap} {ref : Nat}

theorem content_ok {α : Type} {needed : ObjectKind} {select : Object → Option α} {o : Object}
    {a : α} (found : h.objects[ref]? = some o) (selected : select o = some a) :
    h.content needed select ref = .ok a := by
  simp [content, object, found, selected, bind, Except.bind]

theorem kind?_eq_some {k : ObjectKind} (kind : h.kind? ref = some k) :
    ∃ o, h.objects[ref]? = some o ∧ o.kind = k :=
  Option.map_eq_some_iff.1 kind

theorem vector_ok (kind : h.kind? ref = some .vector) : ∃ v, h.vector ref = .ok v := by
  obtain ⟨o, found, is⟩ := kind?_eq_some kind
  cases o <;> cases is
  exact ⟨_, content_ok found rfl⟩

theorem color_ok (kind : h.kind? ref = some .color) : ∃ c, h.color ref = .ok c := by
  obtain ⟨o, found, is⟩ := kind?_eq_some kind
  cases o <;> cases is
  exact ⟨_, content_ok found rfl⟩

theorem colorAttribute_ok (kind : h.kind? ref = some .colorAttribute) :
    ∃ a, h.colorAttribute ref = .ok a := by
  obtain ⟨o, found, is⟩ := kind?_eq_some kind
  cases o <;> cases is
  exact ⟨_, content_ok found rfl⟩

theorem material_ok (kind : h.kind? ref = some .material) : ∃ m, h.material ref = .ok m := by
  obtain ⟨o, found, is⟩ := kind?_eq_some kind
  cases o <;> cases is
  exact ⟨_, content_ok found rfl⟩

theorem model_ok (kind : h.kind? ref = some .model) : ∃ m, h.model ref = .ok m := by
  obtain ⟨o, found, is⟩ := kind?_eq_some kind
  cases o <;> cases is
  exact ⟨_, content_ok found rfl⟩

theorem node_ok (kind : h.kind? ref = some .node) (typed : h.WellTyped) :
    ∃ n, h.node ref = .ok n ∧ n.WellTyped h := by
  obtain ⟨o, found, is⟩ := kind?_eq_some kind
  cases o <;> cases is
  exact ⟨_, content_ok found rfl, typed ref _ found⟩

theorem array_ok (kind : h.kind? ref = some .array) (typed : h.WellTyped) :
    ∃ items, h.array ref = .ok items ∧ ∀ v ∈ items, v.HasType h .any := by
  obtain ⟨o, found, is⟩ := kind?_eq_some kind
  cases o <;> cases is
  exact ⟨_, content_ok found rfl, typed ref _ found⟩

end Heap

/-! ## Runs -/

structure RunState.WellTyped (s : RunState) : Prop where
  heap : s.heap.WellTyped
  nodes : ∀ ref ∈ s.building.nodes, s.heap.kind? ref = some .node

theorem RunState.wellTyped_start (nextModel : Nat) : (start nextModel).WellTyped where
  heap := Heap.wellTyped_empty
  nodes ref mem := by simp [start] at mem

end SceneScript

/-!
## States that differ in the ids of models only

The id of a finished model depends on what was built before a run. Nothing that a script can read
shows it: heaps that are alike give the same vectors, colours, nodes, materials and arrays, and
models with the same trees.
-/

namespace SceneScript

/-- The same object, or two models with the same trees. -/
inductive Object.Alike : Object → Object → Prop
  | refl (o : Object) : Alike o o
  | model {m m' : Model} (roots : m.roots = m'.roots) : Alike (.model m) (.model m')

theorem Object.Alike.kind {o o' : Object} (alike : o.Alike o') : o.kind = o'.kind := by
  cases alike <;> rfl

structure Heap.Alike (h h' : Heap) : Prop where
  size : h.objects.size = h'.objects.size
  object : ∀ {ref : Nat} {o : Object}, h.objects[ref]? = some o →
    ∃ o', h'.objects[ref]? = some o' ∧ o.Alike o'

namespace Heap.Alike

variable {h h' : Heap}

theorem refl (h : Heap) : h.Alike h :=
  ⟨rfl, fun found => ⟨_, found, .refl _⟩⟩

theorem none (alike : h.Alike h') {ref : Nat} (missing : h.objects[ref]? = none) :
    h'.objects[ref]? = none := by
  rw [Array.getElem?_eq_none_iff] at missing ⊢
  exact alike.size ▸ missing

theorem add (alike : h.Alike h') {o o' : Object} (new : o.Alike o') :
    (h.add o).2.Alike (h'.add o').2 where
  size := by simp [Heap.add, alike.size]
  object := by
    intro ref o₁ found
    simp only [Heap.add, Array.getElem?_push] at found ⊢
    rw [← alike.size]
    split at found
    · next is =>
      cases found
      exact ⟨o', if_pos is, new⟩
    · next other =>
      obtain ⟨o₂, found', same⟩ := alike.object found
      exact ⟨o₂, by rw [if_neg other, found'], same⟩

theorem modify (alike : h.Alike h') (ref : Nat) {f : Object → Object}
    (maps : ∀ o o', o.Alike o' → (f o).Alike (f o')) :
    (h.modify ref f).Alike (h'.modify ref f) where
  size := by simp [Heap.modify, alike.size]
  object := by
    intro place o found
    simp only [Heap.modify, Array.getElem?_modify] at found ⊢
    split at found
    · next is =>
      obtain ⟨before, was, rfl⟩ := Option.map_eq_some_iff.1 found
      obtain ⟨before', was', same⟩ := alike.object was
      exact ⟨f before', by rw [if_pos is, was', Option.map_some], maps _ _ same⟩
    · next other =>
      obtain ⟨o', found', same⟩ := alike.object found
      exact ⟨o', by rw [if_neg other, found'], same⟩

/-! ## Reading -/

theorem content {α : Type} {needed : ObjectKind} {select : Object → Option α}
    (alike : h.Alike h') (same : ∀ o o', o.Alike o' → select o = select o') :
    h.content needed select = h'.content needed select := by
  funext ref
  unfold Heap.content Heap.object
  cases found : h.objects[ref]? with
  | none => rw [alike.none found]
  | some o =>
    obtain ⟨o', found', isAlike⟩ := alike.object found
    rw [found']
    simp only [bind, Except.bind, same o o' isAlike, isAlike.kind]

theorem node (alike : h.Alike h') : h.node = h'.node :=
  alike.content fun _ _ same => by cases same <;> rfl

theorem vector (alike : h.Alike h') : h.vector = h'.vector :=
  alike.content fun _ _ same => by cases same <;> rfl

theorem color (alike : h.Alike h') : h.color = h'.color :=
  alike.content fun _ _ same => by cases same <;> rfl

theorem colorAttribute (alike : h.Alike h') : h.colorAttribute = h'.colorAttribute :=
  alike.content fun _ _ same => by cases same <;> rfl

theorem material (alike : h.Alike h') : h.material = h'.material :=
  alike.content fun _ _ same => by cases same <;> rfl

theorem array (alike : h.Alike h') : h.array = h'.array :=
  alike.content fun _ _ same => by cases same <;> rfl

theorem roots (alike : h.Alike h') (ref : Nat) :
    (h.model ref).map Model.roots = (h'.model ref).map Model.roots := by
  unfold Heap.model Heap.content Heap.object
  cases found : h.objects[ref]? with
  | none => rw [alike.none found]
  | some o =>
    obtain ⟨o', found', same⟩ := alike.object found
    rw [found']
    cases same with
    | refl => rfl
    | model roots => exact congrArg Except.ok roots

end Heap.Alike

structure RunState.Alike (s s' : RunState) : Prop where
  heap : s.heap.Alike s'.heap
  building : s.building = s'.building
  steps : s.steps = s'.steps
  heapBytes : s.heapBytes = s'.heapBytes

theorem RunState.alike_start (n n' : Nat) : (start n).Alike (start n') :=
  ⟨.refl _, rfl, rfl, rfl⟩

end SceneScript
