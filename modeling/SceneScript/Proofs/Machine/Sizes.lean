import SceneScript.Proofs.Machine.Conclusions
import SceneScript.Proofs.Machine.Changes

/-!
# Sizes of texts and arrays

A string that a call gives was made under the limit, was given to the call or read off the heap, or
is the id that a new node has by default. So on a heap whose ids and elements are no longer than the
limit, the literals of the program and the default ids so far (`RunState.textBound`), calls that are
given such values leave such heaps and give such values (`Call.sized`).
-/

namespace SceneScript

open Run

/-! ## The bound -/

def longest : List String → Nat
  | [] => 0
  | t :: rest => max t.utf8ByteSize (longest rest)

theorem longest_le {texts : List String} {n : Nat} :
    longest texts ≤ n ↔ ∀ t ∈ texts, t.utf8ByteSize ≤ n := by
  induction texts with
  | nil => simp [longest]
  | cons t rest ih => simp [longest, ih]

theorem le_longest {texts : List String} {t : String} (mem : t ∈ texts) :
    t.utf8ByteSize ≤ longest texts :=
  longest_le.1 (Nat.le_refl _) t mem

namespace RunState

/-- The ids that the nodes so far had when they were created. -/
def defaultIds (s : RunState) : List String :=
  (List.range s.building.nodes.size).map fun count => s!"node{count}"

/-- The bytes that a text of a program with the given literals may have. -/
def textBound (limits : Limits) (literals : List String) (s : RunState) : Nat :=
  max limits.maxStringLen (max (longest literals) (longest s.defaultIds))

variable {limits : Limits} {literals : List String} {s s' : RunState}

theorem maxStringLen_le : limits.maxStringLen ≤ s.textBound limits literals :=
  Nat.le_max_left _ _

theorem literal_le {t : String} (mem : t ∈ literals) :
    t.utf8ByteSize ≤ s.textBound limits literals :=
  Nat.le_trans (le_longest mem) (Nat.le_trans (Nat.le_max_left _ _) (Nat.le_max_right _ _))

theorem defaultId_le {count : Nat} (created : count < s.building.nodes.size) :
    s!"node{count}".utf8ByteSize ≤ s.textBound limits literals := by
  have mem : s!"node{count}" ∈ s.defaultIds :=
    List.mem_map.2 ⟨count, List.mem_range.2 created, rfl⟩
  exact Nat.le_trans (le_longest mem) (Nat.le_trans (Nat.le_max_right _ _) (Nat.le_max_right _ _))

theorem textBound_mono (nodes : s.building.nodes.size ≤ s'.building.nodes.size) :
    s.textBound limits literals ≤ s'.textBound limits literals := by
  have ids : longest s.defaultIds ≤ longest s'.defaultIds := by
    rw [longest_le]
    intro t mem
    obtain ⟨count, created, rfl⟩ := List.mem_map.1 mem
    have created' : count < s'.building.nodes.size :=
      Nat.lt_of_lt_of_le (List.mem_range.1 created) nodes
    exact le_longest (List.mem_map.2 ⟨count, List.mem_range.2 created', rfl⟩)
  unfold textBound
  omega

end RunState

/-! ## Heaps -/

def Object.Sized (limits : Limits) (n : Nat) : Object → Prop
  | .node o => o.id.utf8ByteSize ≤ n
  | .material o => o.id.utf8ByteSize ≤ n
  | .array items => items.size ≤ limits.maxArrayLen ∧ ∀ v ∈ items, v.textBytes ≤ n
  | _ => True

def Heap.Sized (limits : Limits) (n : Nat) (h : Heap) : Prop :=
  ∀ (ref : Nat) (o : Object), h.objects[ref]? = some o → o.Sized limits n

section

variable {limits : Limits} {n m : Nat} {o : Object} {h h' : Heap}

theorem Object.Sized.mono (sized : o.Sized limits n) (more : n ≤ m) : o.Sized limits m := by
  cases o with
  | node | material => exact Nat.le_trans sized more
  | array items => exact ⟨sized.1, fun v mem => Nat.le_trans (sized.2 v mem) more⟩
  | _ => trivial

theorem Object.sized_of_empty (plain : o.IsPlain) (empty : o.contentBytes = 0) :
    o.Sized limits n := by
  cases o with
  | node => exact absurd rfl plain.1
  | material m => exact Nat.le_trans (Nat.le_of_eq empty) (Nat.zero_le n)
  | array items =>
    have none : items = #[] := by
      simp only [Object.contentBytes, elementBytes, Nat.add_eq_zero_iff, Nat.mul_eq_zero] at empty
      exact Array.eq_empty_of_size_eq_zero (by omega)
    subst none
    exact ⟨Nat.zero_le _, fun v mem => absurd mem (Array.not_mem_empty v)⟩
  | _ => trivial

namespace Heap

theorem sized_empty : empty.Sized limits n :=
  nofun

theorem content_inv {α : Type} {needed : ObjectKind} {select : Object → Option α}
    {wrap : α → Object} {ref : Nat} {a : α} (wraps : ∀ o, select o = some a → o = wrap a)
    (found : h.content needed select ref = .ok a) : h.objects[ref]? = some (wrap a) := by
  obtain ⟨o, there, is⟩ := Option.bind_eq_some_iff.1 (content_eq_ok.1 found)
  rw [there, wraps o is]

theorem node_inv {ref : Nat} {node : NodeObject} (found : h.node ref = .ok node) :
    h.objects[ref]? = some (.node node) :=
  content_inv (fun o is => by cases o <;> cases is; rfl) found

theorem material_inv {ref : Nat} {material : MaterialObject}
    (found : h.material ref = .ok material) : h.objects[ref]? = some (.material material) :=
  content_inv (fun o is => by cases o <;> cases is; rfl) found

theorem array_inv {ref : Nat} {items : Array Value} (found : h.array ref = .ok items) :
    h.objects[ref]? = some (.array items) :=
  content_inv (fun o is => by cases o <;> cases is; rfl) found

theorem id_fits {id id' : String} (short : id' = id ∨ id'.utf8ByteSize ≤ n)
    (was : id.utf8ByteSize ≤ n) : id'.utf8ByteSize ≤ n := by
  rcases short with rfl | fits
  · exact was
  · exact fits

namespace Sized

theorem mono (sized : h.Sized limits n) (more : n ≤ m) : h.Sized limits m :=
  fun ref o found => (sized ref o found).mono more

theorem add (sized : h.Sized limits n) (new : o.Sized limits n) : (h.add o).2.Sized limits n := by
  intro ref o' found
  rw [Heap.add, Array.getElem?_push] at found
  split at found
  · cases found
    exact new
  · exact sized ref o' found

theorem modify {f : Object → Object} {place : Nat} (sized : h.Sized limits n)
    (maps : ∀ o, h.objects[place]? = some o → o.Sized limits n → (f o).Sized limits n) :
    (h.modify place f).Sized limits n := by
  intro ref o found
  rw [Heap.modify, Array.getElem?_modify] at found
  split at found
  · next same =>
    subst same
    obtain ⟨before, was, rfl⟩ := Option.map_eq_some_iff.1 found
    exact maps before was (sized place before was)
  · exact sized ref o found

theorem modifyNode {f : NodeObject → NodeObject} {place : Nat} (sized : h.Sized limits n)
    (short : ∀ o, (f o).id = o.id ∨ (f o).id.utf8ByteSize ≤ n) :
    (h.modifyNode place f).Sized limits n := by
  refine sized.modify fun o _ ofObject => ?_
  cases o with
  | node o => exact id_fits (short o) ofObject
  | _ => exact ofObject

theorem modifyMaterial {f : MaterialObject → MaterialObject} {place : Nat}
    (sized : h.Sized limits n) (short : ∀ o, (f o).id = o.id ∨ (f o).id.utf8ByteSize ≤ n) :
    (h.modifyMaterial place f).Sized limits n := by
  refine sized.modify fun o _ ofObject => ?_
  cases o with
  | material o => exact id_fits (short o) ofObject
  | _ => exact ofObject

theorem amended {given : List Value} {ref : Nat} (sized : h.Sized limits n)
    (short : ∀ v ∈ given, v.textBytes ≤ n) (amends : h.Amends limits given ref h') :
    h'.Sized limits n := by
  cases amends with
  | vector | color => exact sized.modify fun o _ ofObject => by cases o <;> exact ofObject
  | surface a =>
    refine sized.modifyMaterial fun o => .inl ?_
    unfold MaterialObject.apply
    split <;> rfl
  | materialId isGiven => exact sized.modifyMaterial fun _ => .inr (short _ isGiven)
  | nodeId isGiven => exact sized.modifyNode fun _ => .inr (short _ isGiven)
  | @push v items isGiven found room =>
    refine sized.modify fun o there ofObject => ?_
    rw [Heap.array_inv found] at there
    cases there
    refine ⟨Nat.le_trans (Nat.le_of_eq (Array.size_push v)) room, fun u mem => ?_⟩
    rcases Array.mem_push.1 mem with old | rfl
    · exact ofObject.2 u old
    · exact short u isGiven

end Sized

end Heap

theorem Value.Comes.sized {given : List Value} {v : Value} (comes : v.Comes limits given h)
    (sized : h.Sized limits n) (within : limits.maxStringLen ≤ n)
    (short : ∀ v ∈ given, v.textBytes ≤ n) : v.textBytes ≤ n := by
  cases comes with
  | textless none => exact Nat.le_trans (Nat.le_of_eq none) (Nat.zero_le n)
  | given isGiven => exact short v isGiven
  | made fits => exact Nat.le_trans fits within
  | element found mem => exact (sized _ _ (Heap.array_inv found)).2 v mem
  | nodeId found => exact sized _ _ (Heap.node_inv found)
  | materialId found => exact sized _ _ (Heap.material_inv found)

end

/-! ## States -/

namespace RunState

variable {limits : Limits} {literals : List String} {s s₁ s' : RunState}

def Sized (limits : Limits) (literals : List String) (s : RunState) : Prop :=
  s.heap.Sized limits (s.textBound limits literals)

structure Later (limits : Limits) (literals : List String) (s s' : RunState) : Prop where
  sized : s'.Sized limits literals
  bound : s.textBound limits literals ≤ s'.textBound limits literals

theorem sized_start (n : Nat) : (start n).Sized limits literals :=
  Heap.sized_empty

namespace Later

theorem refl (sized : s.Sized limits literals) : s.Later limits literals s :=
  ⟨sized, Nat.le_refl _⟩

theorem trans (first : s.Later limits literals s₁) (second : s₁.Later limits literals s') :
    s.Later limits literals s' :=
  ⟨second.sized, Nat.le_trans first.bound second.bound⟩

theorem of_heap (nodes : s.building.nodes.size ≤ s'.building.nodes.size)
    (sized : s'.heap.Sized limits (s.textBound limits literals)) : s.Later limits literals s' :=
  ⟨sized.mono (textBound_mono nodes), textBound_mono nodes⟩

theorem of_spends (sized : s.Sized limits literals) (spends : s.Spends s') :
    s.Later limits literals s' := by
  obtain ⟨_, _, rfl, -⟩ := spends
  exact of_heap (Nat.le_refl _) sized

end Later

end RunState

theorem Heap.Sized.addVector {limits : Limits} {n : Nat} {h : Heap} (sized : h.Sized limits n)
    (v : Vec3) : (h.add (.vector v)).2.Sized limits n :=
  sized.add trivial

theorem Heap.Sized.addNode {limits : Limits} {n count : Nat} {h : Heap} (sized : h.Sized limits n)
    (short : s!"node{count}".utf8ByteSize ≤ n) : (h.addNode count).Sized limits n := by
  have vectors := ((sized.addVector .zero).addVector .zero).addVector .one
  have node : (Object.node (.fresh count h.objects.size)).Sized limits n := short
  exact vectors.add node

section

variable {limits : Limits} {literals : List String} {s s' : RunState}

theorem RunState.Later.created (sized : s.Sized limits literals) (ref : Nat) :
    s.Later limits literals { s with
      heap := s.heap.addNode s.building.nodes.size
      building := { s.building with nodes := s.building.nodes.push ref } } := by
  let s' : RunState := { s with
    heap := s.heap.addNode s.building.nodes.size
    building := { s.building with nodes := s.building.nodes.push ref } }
  have more : s.building.nodes.size < s'.building.nodes.size := by simp [s']
  have bound : s.textBound limits literals ≤ s'.textBound limits literals :=
    RunState.textBound_mono (Nat.le_of_lt more)
  exact ⟨(Heap.Sized.mono sized bound).addNode (RunState.defaultId_le more), bound⟩

theorem Edit.later {onNode : Prop} {deed : Option Deed} (sized : s.Sized limits literals)
    (edit : Edit limits onNode s deed s') : s.Later limits literals s' := by
  have heap : s.heap.Sized limits (s.textBound limits literals) := sized
  cases edit with
  | refused => exact .refl sized
  | generated | misplaced | abandoned => exact .of_heap (Nat.le_refl _) heap
  | created => exact .created sized _
  | placed => exact .of_heap (Nat.le_refl _) (heap.modifyNode fun _ => .inl rfl)
  | attached =>
    refine .of_heap (Nat.le_refl _) (Heap.Sized.modifyNode ?_ fun _ => .inl rfl)
    exact heap.modifyNode fun _ => .inl rfl
  | finished => exact .of_heap (Nat.le_refl _) (heap.add trivial)

/-! ## Calls -/

theorem Call.Builds.textless {c : Call} {run : Run Value} (builds : c.Builds run) :
    Ends limits s run (fun v _ => v.textBytes = 0) fun _ _ => True := by
  have skip {α : Type} {first : Run α} {next : α → Run Value} {s : RunState}
      (rest : ∀ a s', Ends limits s' (next a) (fun v _ => v.textBytes = 0) fun _ _ => True) :
      Ends limits s (first >>= next) (fun v _ => v.textBytes = 0) fun _ _ => True := by
    have any : Ends limits s first (fun _ _ => True) fun _ _ => True :=
      .intro (fun _ _ _ => trivial) fun _ _ _ => trivial
    exact any.bind fun a s' _ => rest a s'
  cases builds with
  | generate =>
    refine skip fun _ _ => skip fun _ _ => skip fun _ _ => .guard trivial fun _ => ?_
    exact skip fun _ _ => skip fun _ _ => skip fun _ _ => .pure rfl
  | node =>
    refine skip fun _ _ => skip fun _ _ => skip fun _ _ => .guard trivial fun _ => ?_
    exact skip fun _ _ => skip fun _ _ => skip fun _ _ => skip fun _ _ => skip fun _ _ => .pure rfl
  | finish =>
    refine skip fun _ _ => skip fun _ _ => skip fun _ _ => skip fun _ _ => skip fun _ _ => ?_
    exact skip fun _ _ => skip fun _ _ => .pure rfl
  | part | addPart | addChild => exact skip fun _ _ => skip fun _ _ => .pure rfl

theorem Effect.later {given : List Value} {may : Nat → Prop} {v : Value}
    (effect : Effect limits given may s v s') (sized : s.Sized limits literals)
    (short : ∀ u ∈ given, u.textBytes ≤ s.textBound limits literals) :
    s.Later limits literals s' ∧ v.textBytes ≤ s.textBound limits literals := by
  cases effect with
  | found spends comes =>
    exact ⟨.of_spends sized spends, comes.sized sized RunState.maxStringLen_le short⟩
  | added spends plain empty =>
    obtain ⟨_, _, rfl, -⟩ := spends
    refine ⟨.of_heap (Nat.le_refl _) ?_, Nat.zero_le _⟩
    exact Heap.Sized.add sized (Object.sized_of_empty plain empty)
  | amended spends _ amends gives =>
    obtain ⟨_, _, rfl, -⟩ := spends
    refine ⟨.of_heap (Nat.le_refl _) (Heap.Sized.amended sized short amends), ?_⟩
    rcases gives with isGiven | rfl
    · exact short v isGiven
    · exact Nat.zero_le _

theorem Call.sized {c : Call} (sized : s.Sized limits literals)
    (short : ∀ v ∈ c.given, v.textBytes ≤ s.textBound limits literals) :
    Ends limits s c.run
      (fun v s' => s.Later limits literals s' ∧ v.textBytes ≤ s'.textBound limits literals)
      fun _ => s.Later limits literals := by
  rcases c.settled limits s with builds | concludes
  · have performs : Building.Performs limits c.isFree _ s c.run c.deed? := builds.performs
    refine .intro (fun v s' ran => ?_) fun f s' failed => ?_
    · have none : v.textBytes = 0 := builds.textless.of_ok ran
      exact ⟨(performs.of_ok ran).edit.later sized, none ▸ Nat.zero_le _⟩
    · exact (performs.of_error failed).edit.later sized
  · refine Ends.mono concludes (fun v s' effect => ?_) fun _ _ => .of_spends sized
    obtain ⟨later, fits⟩ := effect.later sized short
    exact ⟨later, Nat.le_trans fits later.bound⟩

end

end SceneScript
