import SceneScript.Proofs.BuilderLimits
import SceneScript.Proofs.Hierarchy.Reached

/-!
# At most one model

A builder that is closed stays as it is, and it is closed before a model is made. So there is never
more than one model on the heap, and it stays there as it was made.
-/

namespace SceneScript

open Run

/-! ## Models on the heap -/

namespace Heap

def models (h : Heap) : List Model :=
  h.objects.toList.filterMap Object.model?

theorem models_eq (h : Heap) (extra : Nat) :
    h.models = (List.range (h.size + extra)).filterMap (h.find Object.model?) := by
  have beyond : (List.range extra).filterMap (fun i => h.find Object.model? (h.size + i)) = [] :=
    List.filterMap_eq_nil_iff.mpr fun i _ => find_size_le (Nat.le_add_right _ _)
  have within : h.objects.toList.map some = (List.range h.size).map fun i => h.objects[i]? := by
    refine List.ext_getElem (by simp [size]) fun i bound _ => ?_
    simp at bound
    simp [bound]
  have objects : h.models = (h.objects.toList.map some).filterMap (·.bind Object.model?) := by
    rw [List.filterMap_map]
    rfl
  rw [List.range_add, List.filterMap_append, List.filterMap_map]
  simp only [Function.comp_def, beyond, List.append_nil]
  rw [objects, within, List.filterMap_map]
  rfl

theorem models_congr {h h' : Heap}
    (same : ∀ ref, h'.find Object.model? ref = h.find Object.model? ref) :
    h'.models = h.models := by
  rw [models_eq h' h.size, models_eq h h'.size, funext same, Nat.add_comm]

theorem models_add (h : Heap) (m : Model) : (h.add (.model m)).2.models = h.models ++ [m] := by
  simp [models, add, Object.model?]

theorem mem_models {h : Heap} {ref : Nat} {m : Model} (found : h.model ref = .ok m) :
    m ∈ h.models := by
  rw [models_eq h (ref + 1), List.mem_filterMap]
  exact ⟨ref, List.mem_range.mpr (by omega), model_eq_ok.1 found⟩

end Heap

/-! ## Stages -/

section

variable {limits : Limits} {onNode : Prop} {s s' : RunState} {deed : Option Deed}

theorem Change.minor_of_ended (change : Change limits onNode s deed s')
    (ended : s.building.ended = true) : s.Minor s' := by
  cases change with
  | minor minor => exact minor
  | edit edit =>
    cases edit with
    | refused => exact .refl s
    | generated _ isOpen | created isOpen | placed isOpen | misplaced _ isOpen | attached isOpen
    | abandoned isOpen | finished isOpen => simp [ended] at isOpen

/-- What was done to the models: nothing, or the builder was closed and the first one is made. -/
theorem Change.stage (change : Change limits onNode s deed s') :
    (s'.nextModel = s.nextModel ∧ s'.heap.models = s.heap.models ∧
      (s.building.ended = true → s'.building.ended = true)) ∨
    s.building.ended = false ∧ s'.building.ended = true ∧ s'.nextModel = s.nextModel + 1 ∧
      ∃ roots, s'.heap.models = s.heap.models ++ [⟨s.nextModel, roots⟩] := by
  by_cases ended : s.building.ended = true
  · have minor := change.minor_of_ended ended
    refine .inl ⟨minor.nextModel, Heap.models_congr (Heap.find_model_minor minor.heap), ?_⟩
    rw [minor.building]
    exact id
  · rcases change.models with ⟨counter, same⟩ | ⟨roots, -, counter, heap⟩
    · exact .inl ⟨counter, Heap.models_congr same, fun isEnded => absurd isEnded ended⟩
    · refine .inr ⟨Bool.eq_false_iff.2 ended, ?_, counter, roots, heap ▸ Heap.models_add _ _⟩
      cases change with
      | minor minor => exact absurd minor.nextModel (by omega)
      | edit edit =>
        cases edit with
        | finished => rfl
        | _ => exact absurd counter (Nat.lt_succ_self _).ne

end

/-- The ids from the given one on are those of the models on the heap, of which there is at most
one, and none as long as the builder is open. -/
structure RunState.Single (n : Nat) (s : RunState) : Prop where
  counted : s.nextModel = n + s.heap.models.length
  atMostOne : s.heap.models.length ≤ 1
  numbered : ∀ m ∈ s.heap.models, m.id = n
  opened : s.building.ended = false → s.heap.models = []

namespace RunState.Single

variable {n : Nat} {limits : Limits} {onNode : Prop} {s s' : RunState} {deed : Option Deed}

theorem start (n : Nat) : (RunState.start n).Single n where
  counted := rfl
  atMostOne := Nat.zero_le 1
  numbered := nofun
  opened _ := rfl

theorem change (single : s.Single n) (change : Change limits onNode s deed s') : s'.Single n := by
  rcases change.stage with ⟨counter, models, ended⟩ | ⟨isOpen, closed, counter, roots, models⟩
  · refine ⟨by rw [counter, models, single.counted], models ▸ single.atMostOne,
      models ▸ single.numbered, fun isOpen => models ▸ single.opened ?_⟩
    exact Bool.eq_false_iff.2 fun wasEnded => by simp [ended wasEnded] at isOpen
  · have counted := single.counted
    rw [single.opened isOpen, List.nil_append] at models
    rw [single.opened isOpen, List.length_nil, Nat.add_zero] at counted
    refine ⟨by rw [counter, models, counted, List.length_singleton], by simp [models], ?_, ?_⟩
    · rw [models, List.forall_mem_singleton]
      exact counted
    · rw [closed]
      exact nofun

end RunState.Single

/-! ## Sequences of acts -/

namespace Act

variable {limits : Limits} {s : RunState} {P : RunState → Prop}

/-- What every change keeps is kept by all acts, failing ones included. -/
theorem keeps (each : ∀ {onNode : Prop} {s s' : RunState} {deed : Option Deed}, P s →
      Change limits onNode s deed s' → P s') (holds : P s) (a : Act) :
    Ends limits s a.run (fun _ => P) fun _ => P :=
  (a.changes limits s).mono (fun _ _ ⟨_, change⟩ => each holds change)
    fun _ _ change => each holds change

theorem keeps_leave (each : ∀ {onNode : Prop} {s s' : RunState} {deed : Option Deed}, P s →
      Change limits onNode s deed s' → P s') (holds : P s) (acts : List Act) :
    P (leave limits s acts) := by
  induction acts generalizing s with
  | nil => exact holds
  | cons a rest ih => exact ih (keeps each holds a).last

theorem keeps_runAll (each : ∀ {onNode : Prop} {s s' : RunState} {deed : Option Deed}, P s →
      Change limits onNode s deed s' → P s') (holds : P s) (acts : List Act) :
    Ends limits s (runAll acts) (fun _ => P) fun _ => P := by
  induction acts generalizing s with
  | nil => exact holds
  | cons a rest ih => exact Ends.bind (keeps each holds a) fun _ _ holds' => ih holds'

end Act

def RunState.ClosedAs (b : Building) (s : RunState) : Prop :=
  s.building = b ∧ b.ended = true

theorem RunState.ClosedAs.change {b : Building} {limits : Limits} {onNode : Prop}
    {s s' : RunState} {deed : Option Deed} (closed : s.ClosedAs b)
    (change : Change limits onNode s deed s') : s'.ClosedAs b := by
  obtain ⟨rfl, ended⟩ := closed
  exact ⟨(change.minor_of_ended ended).building, ended⟩

theorem Change.model {limits : Limits} {onNode : Prop} {s s' : RunState} {deed : Option Deed}
    {ref : Nat} {m : Model} (found : s.heap.model ref = .ok m)
    (change : Change limits onNode s deed s') : s'.heap.model ref = .ok m := by
  rw [Heap.model_eq_ok] at found ⊢
  rcases change.models with ⟨-, same⟩ | ⟨roots, -, -, heap⟩
  · rw [same, found]
  · rw [heap, Heap.find_add, if_neg, found]
    rintro rfl
    rw [Heap.find_size_le (Nat.le_refl _)] at found
    cases found

/-! ## Closed builders -/

def Call.IsBuilding : Call → Prop
  | .method .modelBuilder name _ _ =>
    name ∈ ["box", "sphere", "cylinder", "cone", "plane", "node", "part", "end"]
  | .method .node name _ _ => name ∈ ["addPart", "addChild"]
  | _ => False

/-- A run faults and leaves the state as it is: since the builder is closed, or since a value is
null or of the wrong type. -/
def Refuses (limits : Limits) (s : RunState) (run : Run α) : Prop :=
  Ends limits s run (fun _ _ => False) fun cause s' =>
    s' = s ∧ (cause = .builderEnded ∨ cause = .nullReference ∨ cause.isIllTyped = true)

namespace Refuses

variable {limits : Limits} {s : RunState} {run : Run α}

theorem bind {next : α → Run β} (refuses : Refuses limits s run) : Refuses limits s (run >>= next) :=
  Ends.bind refuses fun _ _ => False.elim

theorem asObject_bind {v : Value} {next : Nat → Run α} (rest : ∀ ref, Refuses limits s (next ref)) :
    Refuses limits s ((liftM v.asObject : Run Nat) >>= next) := by
  refine Ends.lift_bind (fun cause failed => ⟨rfl, ?_⟩) fun ref _ => rest ref
  cases v <;> cases failed <;> simp [FaultCause.isIllTyped]

theorem unknown (access : Access) (name : String) :
    Refuses limits s (Native.unknown access name : Run α) :=
  .fault ⟨rfl, .inr (.inr rfl)⟩

variable (ended : s.building.ended = true)

include ended

theorem ensureOpen_bind {next : Unit → Run α} :
    Refuses limits s (Building.ensureOpen >>= next) :=
  Building.ends_ensureOpen_bind ⟨rfl, .inl rfl⟩ fun isOpen => by simp [ended] at isOpen

theorem builderCall {name : String} {args : List Value} (builds : name ≠ "partCount") :
    Refuses limits s (Native.builderCall name args) := by
  unfold Native.builderCall
  split
  · exact ensureOpen_bind ended
  · exact asObject_bind fun ref => bind (ensureOpen_bind ended)
  · exact absurd rfl builds
  · exact ensureOpen_bind ended
  · split
    · exact ensureOpen_bind ended
    · exact unknown _ _

theorem nodeCall {name : String} {receiver : Value} {args : List Value}
    (builds : name ∈ ["addPart", "addChild"]) :
    Refuses limits s (Native.nodeCall name receiver args) := by
  unfold Native.nodeCall
  refine asObject_bind fun ref => ?_
  split
  · exact bind (ensureOpen_bind ended)
  · exact bind (ensureOpen_bind ended)
  · simp at builds
  · simp at builds
  · exact unknown _ _

theorem call {c : Call} (builds : c.IsBuilding) : Refuses limits s c.run := by
  unfold Call.IsBuilding at builds
  split at builds
  · refine builderCall ended ?_
    rintro rfl
    simp at builds
  · exact nodeCall ended builds
  · exact builds.elim

end Refuses

end SceneScript
