import SceneScript.Proofs.Machine.Changes
import SceneScript.Proofs.Machine.Conclusions

/-!
# What calls leave alone

A call that fails leaves the objects and the model as they were (`Call.Undone`): everything that can
fail comes before the first change, also where arguments are the receiver itself. A call that
succeeds leaves every object alone but for the few that `Call.touched` names, and adds what is new
behind them (`Heap.Frames`). This is so for all members on arguments of the types that they are
described with (`Call.framed`).
-/

namespace SceneScript

open Run

/-! ## Heaps -/

namespace Heap

/-- Objects outside the list are as they were, all are of their old kind, and new ones come behind
them. -/
structure Frames (touched : List Nat) (h h' : Heap) : Prop where
  size : h.size ≤ h'.size
  kinds : h.Extends h'
  others : ∀ ref < h.size, ref ∉ touched → h'.objects[ref]? = h.objects[ref]?

namespace Frames

variable {touched : List Nat} {h h₁ h' : Heap}

theorem refl (h : Heap) : h.Frames touched h :=
  ⟨Nat.le_refl _, .refl h, fun _ _ _ => rfl⟩

theorem trans (first : h.Frames touched h₁) (second : h₁.Frames touched h') :
    h.Frames touched h' where
  size := Nat.le_trans first.size second.size
  kinds := first.kinds.trans second.kinds
  others ref old other := by
    rw [second.others ref (Nat.lt_of_lt_of_le old first.size) other, first.others ref old other]

theorem add (o : Object) : h.Frames touched (h.add o).2 where
  size := by simp [Heap.add, Heap.size]
  kinds := extends_add h o
  others ref old _ := by
    have earlier : ref ≠ h.objects.size := Nat.ne_of_lt old
    rw [Heap.add, Array.getElem?_push, if_neg earlier]

theorem modify {f : Object → Object} {ref : Nat} (keeps : ∀ o, (f o).kind = o.kind)
    (named : ref ∈ touched) : h.Frames touched (h.modify ref f) where
  size := Nat.le_of_eq Array.size_modify.symm
  kinds := extends_modify keeps ref
  others other _ unnamed := by
    have apart : ref ≠ other := fun is => unnamed (is ▸ named)
    rw [Heap.modify, Array.getElem?_modify, if_neg apart]

theorem modifyNode {f : NodeObject → NodeObject} {ref : Nat} (named : ref ∈ touched) :
    h.Frames touched (h.modifyNode ref f) :=
  modify (fun o => by cases o <;> rfl) named

theorem amended {limits : Limits} {given : List Value} {ref : Nat} (named : ref ∈ touched)
    (amends : h.Amends limits given ref h') : h.Frames touched h' := by
  cases amends with
  | vector | color | surface | materialId | nodeId | push =>
    exact modify (fun o => by cases o <;> rfl) named

end Frames

theorem node_of_hasType {h : Heap} {ref : Nat}
    (ofNode : (Value.object ref).HasType h (.object .node)) : ∃ n, h.node ref = .ok n := by
  cases ofNode with
  | object kind found =>
    cases kind
    obtain ⟨o, there, is⟩ := kind?_eq_some found
    cases o <;> cases is
    exact ⟨_, content_ok there rfl⟩

end Heap

/-! ## Calls -/

/-- The objects that belong to a deed, but for the one that it creates. -/
def Deed.touched : Deed → List Nat
  | .created _ => []
  | .placed node _ _ => [node]
  | .attached parent child => [parent, child]

theorem Edit.frames {limits : Limits} {onNode : Prop} {s s' : RunState} {deed : Option Deed}
    (edit : Edit limits onNode s deed s') :
    s.heap.Frames (deed.elim [] Deed.touched) s'.heap := by
  cases edit with
  | refused | generated | misplaced | abandoned => exact .refl _
  | created => exact (Heap.Frames.add _).trans ((Heap.Frames.add _).trans
      ((Heap.Frames.add _).trans (.add (h := ⟨_⟩) _)))
  | placed => exact .modifyNode List.mem_cons_self
  | @attached parent child =>
    have ofChild : s.heap.Frames [parent, child]
        (s.heap.modifyNode child fun n => { n with parent := some parent }) :=
      .modifyNode (List.mem_cons_of_mem _ List.mem_cons_self)
    exact ofChild.trans (.modifyNode List.mem_cons_self)
  | finished => exact .add _

namespace Call

/-- The objects that a call may change: the receiver, but the translation of a node for
`setTranslation`, the node for `part`, and both nodes for `addChild`. -/
def touched (h : Heap) : Call → List Nat
  | .method .modelBuilder "part" _ (.object node :: _) => [node]
  | .method .node "addChild" (.object parent) [.object child] => [parent, child]
  | .method .node "setTranslation" (.object node) _ =>
    match h.node node with
    | .ok n => [n.translation]
    | .error _ => []
  | .method _ _ (.object receiver) _ | .set _ _ (.object receiver) _ => [receiver]
  | _ => []

def use : Call → Use
  | .method owner name .. => ⟨owner, .method, name⟩
  | .static owner name .. => ⟨owner, .staticMethod, name⟩
  | .get owner name .. => ⟨owner, .field, name⟩
  | .set owner name .. => ⟨owner, .assignment, name⟩
  | .constant owner name => ⟨owner, .constant, name⟩

def Fits (h : Heap) (c : Call) : Prop :=
  ∀ m, c.use.member? = some m → match c with
    | .method owner _ receiver args =>
      receiver.HasType h owner.instanceType ∧ List.Forall₂ (Value.HasType h) args m.params
    | .static _ _ args => List.Forall₂ (Value.HasType h) args m.params
    | .get owner _ receiver => receiver.HasType h owner.instanceType
    | .set owner _ receiver value =>
      receiver.HasType h owner.instanceType ∧ value.HasType h m.result
    | .constant .. => True

/-- What is left of a call that failed: counters, and that the builder has been closed. -/
structure Undone (c : Call) (s s' : RunState) : Prop where
  heap : s'.heap = s.heap
  building : s'.building = s.building ∨
    s'.building = { s.building with ended := true } ∧
      ∃ receiver, c = .method .modelBuilder "end" receiver []
  nextModel : s'.nextModel = s.nextModel
  steps : s.steps ≤ s'.steps
  heapBytes : s.heapBytes ≤ s'.heapBytes

variable {limits : Limits} {s s' : RunState} {c : Call}

theorem Undone.refl (c : Call) (s : RunState) : c.Undone s s :=
  ⟨rfl, .inl rfl, rfl, Nat.le_refl _, Nat.le_refl _⟩

theorem Undone.of_spends (spends : s.Spends s') : c.Undone s s' := by
  obtain ⟨steps, heapBytes, rfl, moreSteps, moreBytes⟩ := spends
  exact ⟨rfl, .inl rfl, rfl, moreSteps, moreBytes⟩

/-! ## Failing -/

theorem Fits.part {receiver part material : Value} {node : Nat}
    (fits : Fits s.heap (.method .modelBuilder "part" receiver [.object node, part, material])) :
    ∃ n, s.heap.node node = .ok n := by
  obtain ⟨-, args⟩ := fits ⟨"part", .method, [.object .node, .int, .object .material], .void⟩ rfl
  cases args with
  | cons ofNode _ => exact Heap.node_of_hasType ofNode

theorem Fits.addPart {part material : Value} {node : Nat}
    (fits : Fits s.heap (.method .node "addPart" (.object node) [part, material])) :
    ∃ n, s.heap.node node = .ok n := by
  obtain ⟨ofNode, -⟩ := fits ⟨"addPart", .method, [.int, .object .material], .void⟩ rfl
  exact Heap.node_of_hasType ofNode

theorem undone_placePart {node : Nat} {part material : Value}
    (onNode : ∃ n, s.heap.node node = .ok n) :
    Ends limits s (do
      Building.placePart node part material
      return Value.void) (fun _ _ => True) fun _ => c.Undone s := by
  obtain ⟨n, ofNode⟩ := onNode
  refine Ends.bind (Building.ends_placePart (fun _ => .refl c s) fun noNode _ => ?_)
    fun _ _ _ => .pure trivial
  cases noNode.symm.trans ofNode

theorem Builds.undone {run : Run Value} (builds : c.Builds run) (fits : c.Fits s.heap) :
    Ends limits s run (fun _ _ => True) fun _ => c.Undone s := by
  have refused {cause : FaultCause} (_ : cause.isStepLimit = false) : c.Undone s s := .refl c s
  cases builds with
  | generate =>
    exact (Building.ends_primitive _ _ refused).mono (fun _ _ _ => trivial) fun _ _ => id
  | node => exact (Building.ends_newNode refused).mono (fun _ _ _ => trivial) fun _ _ => id
  | finish =>
    refine (Building.ends_finish refused fun _ _ _ => ?_).mono (fun _ _ _ => trivial) fun _ _ => id
    exact ⟨rfl, .inr ⟨rfl, _, rfl⟩, rfl, Nat.le_refl _, Nat.le_refl _⟩
  | part =>
    refine Building.ends_lift_bind refused fun ref is => ?_
    cases Value.asObject_ok is
    exact undone_placePart fits.part
  | addPart =>
    refine Building.ends_lift_bind refused fun ref is => ?_
    cases Value.asObject_ok is
    exact undone_placePart fits.addPart
  | addChild =>
    refine Building.ends_lift_bind refused fun ref _ => ?_
    exact Ends.bind (Building.ends_attach refused) fun _ _ _ => .pure trivial

/-! ## Succeeding -/

theorem deed_touched {v : Value} {deed : Deed} (is : c.deed? v = some deed) (h : Heap) :
    ∀ ref ∈ deed.touched, ref ∈ c.touched h := by
  unfold deed? at is
  split at is <;> cases is
  · nofun
  all_goals exact fun _ => id

theorem touched_of_mayAmend {ref : Nat} {h : Heap} (may : c.MayAmend h ref) :
    ref ∈ c.touched h := by
  unfold MayAmend at may
  split at may
  · obtain ⟨node, n, rfl, ofNode, rfl⟩ := may
    simp [touched, ofNode]
  · exact may.elim
  · exact may.elim
  · subst may
    unfold touched
    split
    case h_6 other _ => exact (other _ _ _ _ rfl).elim
    all_goals simp_all
  · subst may
    exact List.mem_cons_self
  · exact may.elim

theorem frames (limits : Limits) (s : RunState) (c : Call) :
    Ends limits s c.run (fun _ s' => s.heap.Frames (c.touched s.heap) s'.heap)
      fun _ _ => True := by
  have widen {touched : List Nat} {h : Heap} (frames : s.heap.Frames touched h)
      (named : ∀ ref ∈ touched, ref ∈ c.touched s.heap) :
      s.heap.Frames (c.touched s.heap) h :=
    { frames with others := fun ref old other => frames.others ref old (mt (named ref) other) }
  rcases c.settled limits s with builds | concludes
  · refine builds.performs.mono (fun v s' done => ?_) fun _ _ _ => trivial
    refine widen done.edit.frames ?_
    cases is : c.deed? v with
    | none => nofun
    | some deed => exact deed_touched is s.heap
  · refine Ends.mono concludes (fun v s' effect => ?_) fun _ _ _ => trivial
    cases effect with
    | found spends =>
      obtain ⟨_, _, rfl, -⟩ := spends
      exact .refl _
    | added spends =>
      obtain ⟨_, _, rfl, -⟩ := spends
      exact .add _
    | amended _ may amends => exact .amended (touched_of_mayAmend may) amends

theorem undone (limits : Limits) (fits : c.Fits s.heap) :
    Ends limits s c.run (fun _ _ => True) fun _ => c.Undone s := by
  rcases c.settled limits s with builds | concludes
  · exact builds.undone fits
  · exact Ends.mono concludes (fun _ _ _ => trivial) fun _ _ => .of_spends

/-! ## Both -/

/-- A call on values of the described types either fails, and then nothing has happened but that
counters moved or `end` closed the builder, or it leaves alone all objects but those it is about. -/
theorem framed (limits : Limits) (s : RunState) (c : Call) (fits : c.Fits s.heap) :
    (∀ f s', c.run limits s = .error f s' → c.Undone s s') ∧
      ∀ v s', c.run limits s = .ok v s' → s.heap.Frames (c.touched s.heap) s'.heap := by
  constructor
  · intro f s' failed
    exact (undone limits fits).of_error failed
  · intro v s' ran
    exact (c.frames limits s).of_ok ran

/-- An array that is full, added to itself. -/
theorem framed_fullArray :
    let limits : Limits := { maxArrayLen := 1 }
    let s : RunState := { RunState.start 0 with heap := ⟨#[.array #[.null]]⟩ }
    let c : Call := .method .array "add" (.object 0) [.object 0]
    c.Fits s.heap ∧ c.touched s.heap = [0] ∧
      ∃ f s', c.run limits s = .error f s' ∧ c.Undone s s' := by
  intro limits s c
  have array : Value.HasType s.heap (.object 0) (.object .array) := .object rfl rfl
  have fits : c.Fits s.heap := by
    rintro m ⟨⟩
    exact ⟨array, .cons (.any array nofun) .nil⟩
  have failed : c.run limits s = .error ⟨.arrayLimit 1, none⟩ s := rfl
  exact ⟨fits, rfl, _, _, failed, (framed limits s c fits).1 _ _ failed⟩

end Call

end SceneScript
