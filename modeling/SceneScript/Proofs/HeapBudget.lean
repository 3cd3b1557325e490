import Mathlib.Algebra.Order.BigOperators.Group.Finset
import SceneScript.Proofs.Machine.Charges
import SceneScript.Proofs.Machine.Traces

/-!
# The heap budget

All along a run, the bytes charged stay within the limit and cover every object that the script has
allocated, the content of the arrays and materials on the heap, and the ids that were given to
nodes (`Loaded.heap_budget`). Nothing is ever given back, so once the limit is passed, nothing can
be charged any more.
-/

namespace SceneScript

open Run

namespace Heap

/-- What must have been charged for a heap on which the given nodes have got ids. -/
def owed (h : Heap) (renamed : List Nat) : Nat :=
  h.cost + ∑ ref ∈ renamed.toFinset, h.idBytes ref

variable {h h' : Heap} {renamed : List Nat} {ref : Nat}

theorem owed_grows {bytes : Nat} (grows : h.Grows bytes h')
    (known : ∀ ref ∈ renamed, ref < h.objects.size) :
    h'.owed renamed ≤ h.owed renamed + bytes := by
  have ids : ∑ ref ∈ renamed.toFinset, h'.idBytes ref = ∑ ref ∈ renamed.toFinset, h.idBytes ref :=
    Finset.sum_congr rfl fun ref mem => grows.ids ref (known ref (List.mem_toFinset.1 mem))
  have cost := grows.cost
  rw [owed, owed, ids]
  omega

theorem idBytes_rename (id : String) (x : Nat) :
    (h.modifyNode ref fun n => { n with id }).idBytes x ≤
      if x = ref then id.utf8ByteSize else h.idBytes x := by
  rw [idBytes, find_modifyNode, idBytes]
  by_cases same : x = ref
  · rw [if_pos same.symm, if_pos same]
    cases h.find Object.node? x with
    | none => exact Nat.zero_le _
    | some n => exact Nat.le_refl _
  · rw [if_neg (Ne.symm same), if_neg same]

theorem owed_rename (id : String) :
    (h.modifyNode ref fun n => { n with id }).owed (renamed ++ [ref]) ≤
      h.owed renamed + id.utf8ByteSize := by
  have cost : (h.modifyNode ref fun n => { n with id }).cost ≤ h.cost :=
    cost_modifyNode fun n => rfl
  have nodes : (renamed ++ [ref]).toFinset = insert ref renamed.toFinset := by ext; simp
  have own : (h.modifyNode ref fun n => { n with id }).idBytes ref ≤ _ := idBytes_rename id ref
  have others : ∑ x ∈ renamed.toFinset.erase ref,
      (h.modifyNode ref fun n => { n with id }).idBytes x ≤
        ∑ x ∈ renamed.toFinset, h.idBytes x := by
    refine (Finset.sum_le_sum fun x mem => ?_).trans
      (Finset.sum_le_sum_of_subset (Finset.erase_subset ref renamed.toFinset))
    have ofOther : (h.modifyNode ref fun n => { n with id }).idBytes x ≤ _ := idBytes_rename id x
    rwa [if_neg (Finset.ne_of_mem_erase mem)] at ofOther
  rw [if_pos rfl] at own
  rw [owed, owed, nodes, ← Finset.add_sum_erase _ _ (Finset.mem_insert_self ref _),
    Finset.erase_insert_eq_erase]
  omega

theorem lt_size_of_node {n : NodeObject} (read : h.node ref = .ok n) : ref < h.objects.size := by
  by_contra beyond
  rw [node_eq_ok, find_size_le (Nat.not_lt.1 beyond)] at read
  cases read

end Heap

/-! ## What is covered -/

/-- The bytes charged are within the limit and cover what is owed. -/
structure RunState.Covered (limits : Limits) (renamed : List Nat) (s : RunState) : Prop where
  within : s.heapBytes ≤ limits.maxHeapBytes
  covers : s.heap.owed renamed ≤ s.heapBytes
  known : ∀ ref ∈ renamed, ref < s.heap.objects.size

namespace RunState.Covered

variable {limits : Limits} {renamed : List Nat} {s s' : RunState}

theorem start (limits : Limits) (n : Nat) : (RunState.start n).Covered limits [] where
  within := Nat.zero_le _
  covers := Nat.le_refl _
  known := nofun

theorem act {renames : Option Nat} (covered : s.Covered limits renamed)
    (pays : Act.Pays limits s renames s') : s'.Covered limits (renamed ++ renames.toList) := by
  cases pays with
  | thrifty pays within =>
    rw [Option.toList_none, List.append_nil]
    refine ⟨within covered.within, ?_, fun ref mem =>
      Nat.lt_of_lt_of_le (covered.known ref mem) pays.heap.size⟩
    have owed := Heap.owed_grows pays.heap covered.known
    have covers := covered.covers
    have charged := pays.charged
    omega
  | @rename ref n id read fits =>
    refine ⟨fits, Nat.le_trans (Heap.owed_rename id) (Nat.add_le_add_right covered.covers _), ?_⟩
    intro x mem
    have bound : x < s.heap.objects.size := by
      rcases List.mem_append.1 mem with mem | isRef
      · exact covered.known x mem
      · cases List.mem_singleton.1 isRef
        exact Heap.lt_size_of_node read
    simpa [Heap.modifyNode, Heap.modify] using bound

theorem runAll {acts : List Act} (covered : s.Covered limits renamed)
    (ran : Act.runAll acts limits s = .ok () s') :
    s'.Covered limits (renamed ++ acts.filterMap Act.renamed?) := by
  induction acts generalizing s renamed with
  | nil =>
    cases ran
    rwa [List.filterMap_nil, List.append_nil]
  | cons a rest ih =>
    obtain ⟨s₁, first, ran⟩ := Act.runAll_cons ran
    have ofRest := ih (covered.act (a.pays.of_ok first)) ran
    rw [List.append_assoc] at ofRest
    cases renames : a.renamed? <;> simpa [renames] using ofRest

end RunState.Covered

/-! ## Nothing is given back -/

section

variable {limits : Limits} {s s' : RunState}

theorem Act.Pays.charged {renames : Option Nat} (pays : Act.Pays limits s renames s') :
    s.heapBytes ≤ s'.heapBytes := by
  cases pays with
  | thrifty pays => exact pays.charged
  | rename => exact Nat.le_add_right _ _

theorem Act.heapBytes_leave (limits : Limits) (s : RunState) (acts : List Act) :
    s.heapBytes ≤ (leave limits s acts).heapBytes := by
  induction acts generalizing s with
  | nil => exact Nat.le_refl _
  | cons a rest ih =>
    have ends : Ends limits s a.run (fun _ s' => s.heapBytes ≤ s'.heapBytes) fun _ s' =>
        s.heapBytes ≤ s'.heapBytes :=
      a.pays.mono (fun _ _ => Pays.charged) fun _ _ => RunState.Pays.charged
    exact Nat.le_trans ends.last (ih _)

theorem spent_of_charge {bytes : Nat} {f : Fault} (failed : charge bytes limits s = .error f s') :
    limits.maxHeapBytes < s'.heapBytes := by
  rw [charge_run] at failed
  split at failed
  · next beyond =>
    cases failed
    exact beyond
  · cases failed

end

/-! ## Runs -/

theorem Loaded.heap_budget (loaded : Loaded) (limits : Limits) (n : Nat) :
    (∀ acts s, loaded.Passes limits n acts s → s.heapBytes ≤ limits.maxHeapBytes ∧
      s.heap.owed (acts.filterMap Act.renamed?) ≤ s.heapBytes) ∧
    (∀ s acts, s.heapBytes ≤ (Act.leave limits s acts).heapBytes) ∧
    (∀ s bytes f s', charge bytes limits s = .error f s' → ∀ acts bytes', ∃ s'',
      charge bytes' limits (Act.leave limits s' acts) =
        .error ⟨.heapLimit limits.maxHeapBytes, none⟩ s'') ∧
    (∀ v s, loaded.body limits (.start n) = .ok v s →
      loaded.Passes limits n (loaded.trace limits (.start n)) s) ∧
    (Act.runAll (loaded.trace limits (.start n))).last limits (.start n) =
      loaded.body.last limits (.start n) := by
  have follows := loaded.follows_body
  refine ⟨fun acts s ⟨_, ran⟩ => ?_, Act.heapBytes_leave limits, ?_, fun v s ran => ?_,
    follows.last limits (.start n)⟩
  · have covered := (RunState.Covered.start limits n).runAll ran
    exact ⟨covered.within, covered.covers⟩
  · intro s bytes f s' failed acts bytes'
    have spent := Nat.lt_of_lt_of_le (spent_of_charge failed) (Act.heapBytes_leave limits s' acts)
    exact ⟨_, (charge_run bytes' limits _).trans (if_pos (by omega))⟩
  · have ends := follows limits (.start n)
    rw [ran] at ends
    exact ⟨List.prefix_rfl, ends⟩

end SceneScript
