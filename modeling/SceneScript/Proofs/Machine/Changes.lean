import SceneScript.Proofs.Machine.Calls
import SceneScript.Proofs.Machine.Edits

/-!
# What calls change

`Change` lists everything that a call can do to the state of a run: what plain members do, and the
edits of builders and nodes. `Leads` relates the states of a run by the calls in between, failing
ones included, and records the deeds of those that succeed. What every change preserves holds all
along (`Leads.induct`). Programs run in such steps (`Program.ends_run`). `Heap.find` selects
something of the object at some place, and what it finds only changes with that object.
-/

namespace SceneScript

open Run

inductive Change (limits : Limits) (onNode : Prop) : RunState → Option Deed → RunState → Prop
  | minor {s s' : RunState} : s.Minor s' → Change limits onNode s none s'
  | edit {s s' : RunState} {deed : Option Deed} :
      Edit limits onNode s deed s' → Change limits onNode s deed s'

theorem Change.of_counts {limits : Limits} {s s' : RunState} (counts : s.Counts s') :
    Change limits True s none s' :=
  .minor (.of_counts counts)

theorem Change.of_newBuilder {limits : Limits} {s s' : RunState} {v : Value}
    (made : newBuilder limits s = .ok v s') : Change limits True s none s' := by
  cases made
  exact .minor ⟨.add ⟨nofun, nofun⟩, rfl, rfl⟩

theorem Call.performs (limits : Limits) (s : RunState) (c : Call) :
    Ends limits s c.run (fun v => Change limits True s (c.deed? v)) fun cause =>
      Change limits (c.OnNode s.heap ∨ cause.isIllTyped = false) s none := by
  have counted (heapBytes : Nat) : s.Minor { s with heapBytes } := ⟨.refl _, rfl, rfl⟩
  have does := c.does
  generalize c.run = run at does ⊢
  cases does with
  | plain is plain =>
    exact plain.ends.mono (fun v _ minor => is.deed v ▸ .minor minor) fun _ _ => .minor
  | text deed =>
    exact (ends_textOf _).mono (fun v _ counts => deed v ▸ .minor (.of_counts counts))
      fun _ _ counts => .minor (.of_counts counts)
  | rename =>
    refine (ends_rename _ _).mono ?_ ?_
    · rintro v s' ⟨ref, n, id, rfl, -, -, rfl⟩
      refine .minor ⟨.modify (fun o => ?_) ref, rfl, rfl⟩
      cases o <;> first | rfl | exact ⟨_, rfl⟩
    · rintro cause s' ⟨-, bytes, rfl⟩
      exact .minor (counted _)
  | builds builds =>
    exact builds.performs.mono (fun _ _ done => .edit done.edit) fun _ _ failed =>
      .edit failed.edit

/-! ## Sequences of calls -/

/-- The second state is reached from the first one by calls and by what else a program does, with
the deeds of the calls that succeed. -/
inductive Leads (limits : Limits) (s : RunState) : List Deed → RunState → Prop
  | start : Leads limits s [] s
  | builder {deeds : List Deed} {s₁ s₂ : RunState} {v : Value} : Leads limits s deeds s₁ →
      newBuilder limits s₁ = .ok v s₂ → Leads limits s deeds s₂
  | call {deeds : List Deed} {s₁ s₂ : RunState} {v : Value} (c : Call) : Leads limits s deeds s₁ →
      c.run limits s₁ = .ok v s₂ → Leads limits s (deeds ++ (c.deed? v).toList) s₂
  | fault {deeds : List Deed} {s₁ s₂ : RunState} {f : Fault} (c : Call) :
      Leads limits s deeds s₁ → c.run limits s₁ = .error f s₂ → Leads limits s deeds s₂
  | counters {deeds : List Deed} {s₁ : RunState} (steps heapBytes : Nat) :
      Leads limits s deeds s₁ → Leads limits s deeds { s₁ with steps, heapBytes }

namespace Leads

variable {limits : Limits} {s s₁ s₂ : RunState} {deeds more : List Deed}

theorem trans (first : Leads limits s deeds s₁) (second : Leads limits s₁ more s₂) :
    Leads limits s (deeds ++ more) s₂ := by
  induction second with
  | start => rwa [List.append_nil]
  | builder _ made ih => exact ih.builder made
  | call c _ ran ih =>
    rw [← List.append_assoc]
    exact ih.call c ran
  | fault c _ failed ih => exact ih.fault c failed
  | counters steps heapBytes _ ih => exact ih.counters steps heapBytes

theorem induct {P : List Deed → RunState → Prop} (start : P [] s)
    (step : ∀ deeds s₁ onNode deed s₂, P deeds s₁ → Change limits onNode s₁ deed s₂ →
      P (deeds ++ deed.toList) s₂)
    (leads : Leads limits s deeds s₁) : P deeds s₁ := by
  have quiet {onNode deeds s₁ s₂} (holds : P deeds s₁) (change : Change limits onNode s₁ none s₂) :
      P deeds s₂ := by
    have holds' := step deeds s₁ onNode none s₂ holds change
    rwa [Option.toList_none, List.append_nil] at holds'
  induction leads with
  | start => exact start
  | builder _ made ih => exact quiet ih (.of_newBuilder made)
  | @call deeds s₁ s₂ v c _ ran ih =>
    exact step deeds s₁ True _ s₂ ih ((c.performs limits s₁).of_ok ran)
  | @fault deeds s₁ s₂ f c _ failed ih => exact quiet ih ((c.performs limits s₁).of_error failed)
  | counters steps heapBytes _ ih => exact quiet ih (.of_counts ⟨steps, heapBytes, rfl⟩)

end Leads

/-! ## Programs -/

def Reaches (limits : Limits) (s s' : RunState) : Prop :=
  ∃ deeds, Leads limits s deeds s'

theorem Leads.reaches {limits : Limits} {s s₁ s₂ : RunState} {deeds : List Deed}
    (leads : Leads limits s deeds s₁) (rest : Reaches limits s₁ s₂) : Reaches limits s s₂ := by
  obtain ⟨more, leads'⟩ := rest
  exact ⟨deeds ++ more, leads.trans leads'⟩

theorem Reaches.of_counts {limits : Limits} {s s' : RunState} (counts : s.Counts s') :
    Reaches limits s s' := by
  obtain ⟨steps, heapBytes, rfl⟩ := counts
  exact ⟨[], .counters steps heapBytes .start⟩

theorem Run.Composed.ends {α : Type} {P : Position → Prop} {limits : Limits} {run : Run α}
    (composed : Composed P run) (s : RunState) :
    Ends limits s run (fun _ => Reaches limits s) fun _ => Reaches limits s := by
  induction composed generalizing s with
  | pure => exact ⟨[], .start⟩
  | fault => exact ⟨[], .start⟩
  | bind _ _ first rest =>
    refine (first s).bind fun a s₁ reaches => ?_
    obtain ⟨deeds, leads⟩ := reaches
    exact (rest a s₁).mono (fun _ _ => leads.reaches) fun _ _ => leads.reaches
  | located _ _ ih => exact (ih s).located
  | tick => exact ends_tick.mono (fun _ _ => .of_counts) fun _ _ => .of_counts
  | display v => exact (ends_display v).mono (fun _ _ => .of_counts) fun _ _ => .of_counts
  | string t => exact (ends_string t).mono (fun _ _ => .of_counts) fun _ _ => .of_counts
  | call c =>
    exact .intro (fun v s' ran => ⟨_, .call c .start ran⟩) fun f s' failed =>
      ⟨_, .fault c .start failed⟩

theorem Program.ends_run {limits : Limits} (classes : List HostClass) (program : Program)
    (param : Value) (s : RunState) :
    Ends limits s (program.run classes param) (fun _ => Reaches limits s)
      fun _ => Reaches limits s :=
  (program.composed_run classes (P := fun _ => True) (fun _ _ => trivial) param).ends s

/-! ## Reading changed heaps -/

namespace Object

def node? : Object → Option NodeObject
  | .node n => some n
  | _ => none

def material? : Object → Option MaterialObject
  | .material m => some m
  | _ => none

def model? : Object → Option Model
  | .model m => some m
  | _ => none

end Object

namespace Heap

variable {α : Type} {h h' : Heap} {select : Object → Option α} {ref place : Nat}

def find (h : Heap) (select : Object → Option α) (ref : Nat) : Option α :=
  h.objects[ref]?.bind select

theorem content_eq_ok {needed : ObjectKind} {a : α} :
    h.content needed select ref = .ok a ↔ h.find select ref = some a := by
  unfold content object find
  cases h.objects[ref]? with
  | none => simp [bind, Except.bind]
  | some o =>
    simp only [bind, Except.bind, Option.bind_some]
    cases select o <;> simp

theorem node_eq_ok {n : NodeObject} : h.node ref = .ok n ↔ h.find Object.node? ref = some n :=
  content_eq_ok

theorem material_eq_ok {m : MaterialObject} :
    h.material ref = .ok m ↔ h.find Object.material? ref = some m :=
  content_eq_ok

theorem model_eq_ok {m : Model} : h.model ref = .ok m ↔ h.find Object.model? ref = some m :=
  content_eq_ok

theorem find_size_le (beyond : h.objects.size ≤ ref) : h.find select ref = none := by
  rw [find, Array.getElem?_eq_none beyond, Option.bind_none]

theorem find_add (o : Object) : (h.add o).2.find select ref =
    if ref = h.objects.size then select o else h.find select ref := by
  rw [find, find, add, Array.getElem?_push]
  split <;> rfl

theorem find_modify {f : Object → Object} {g : α → α}
    (acts : ∀ o, select (f o) = (select o).map g) : (h.modify place f).find select ref =
      if place = ref then (h.find select ref).map g else h.find select ref := by
  rw [find, find, modify, Array.getElem?_modify]
  split
  · cases h.objects[ref]? with
    | none => rfl
    | some o => exact acts o
  · rfl

theorem find_modifyNode (f : NodeObject → NodeObject) :
    (h.modifyNode place f).find Object.node? ref =
      if place = ref then (h.find Object.node? ref).map f else h.find Object.node? ref :=
  find_modify fun o => by cases o <;> rfl

theorem find_modifyNode_same {f : NodeObject → NodeObject}
    (same : ∀ n, select (.node (f n)) = select (.node n)) :
    (h.modifyNode place f).find select ref = h.find select ref := by
  have acts : ∀ o, select (match o with | .node n => .node (f n) | o => o) = (select o).map id := by
    intro o
    cases o <;> simp [same]
  have found : (h.modifyNode place f).find select ref = _ := find_modify acts
  rw [found, Option.map_id, id, ite_self]

theorem find_attach {parent child : Nat} (same : ∀ n parent children,
    select (.node { n with parent, children }) = select (.node n)) :
    (h.attach parent child).find select ref = h.find select ref :=
  (find_modifyNode_same fun n => same n n.parent (n.children.push child)).trans
    (find_modifyNode_same fun n => same n (some parent) n.children)

theorem find_addModel {m : Model} (hidden : select (.model m) = none) :
    (h.add (.model m)).2.find select ref = h.find select ref := by
  rw [find_add]
  split
  · next beyond => rw [beyond, find_size_le (Nat.le_refl _), hidden]
  · rfl

theorem find_addNode (count : Nat) : (h.addNode count).find select ref =
    if ref = h.objects.size + 3 then select (.node (.fresh count h.objects.size))
    else if ref = h.objects.size + 2 then select (.vector .one)
    else if ref = h.objects.size + 1 then select (.vector .zero)
    else if ref = h.objects.size then select (.vector .zero)
    else h.find select ref := by
  have added : h.addNode count = ((((h.add (.vector .zero)).2.add (.vector .zero)).2.add
      (.vector .one)).2.add (.node (.fresh count h.objects.size))).2 := rfl
  rw [added, find_add, find_add, find_add, find_add]
  simp only [add, Array.size_push]

theorem find_addNode_of_vector {count : Nat} (noVector : ∀ v, select (.vector v) = none) :
    (h.addNode count).find select ref =
      if ref = h.objects.size + 3 then select (.node (.fresh count h.objects.size))
      else h.find select ref := by
  rw [find_addNode, noVector, noVector]
  repeat' split
  all_goals first | rfl | exact (find_size_le (by omega)).symm

theorem Minor.find (minor : h.Minor h') (hidden : ∀ o : Object, o.IsPlain → select o = none)
    (unnamed : ∀ n id, select (.node { n with id }) = select (.node n)) :
    h'.find select ref = h.find select ref := by
  have same (o o' : Object) (isMinor : o.Minor o') : select o' = select o := by
    by_cases plain : o.IsPlain
    · have plain' : o'.IsPlain := by rwa [Object.IsPlain, isMinor.kind]
      rw [hidden o plain, hidden o' plain']
    · cases o with
      | node n =>
        obtain ⟨id, rfl⟩ := isMinor
        exact unnamed n id
      | model m =>
        cases isMinor
        rfl
      | _ => simp [Object.IsPlain, Object.kind] at plain
  unfold Heap.find
  cases found : h.objects[ref]? with
  | some o =>
    obtain ⟨o', found', isMinor⟩ := minor.kept found
    rw [found']
    exact same o o' isMinor
  | none =>
    cases found' : h'.objects[ref]? with
    | none => rfl
    | some o' => exact hidden o' (minor.new found' found)

end Heap

end SceneScript
