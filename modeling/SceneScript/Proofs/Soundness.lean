import SceneScript.Invocation
import SceneScript.Proofs.Compilation
import SceneScript.Proofs.Machine.Reach

/-!
# Soundness of compiling and running

A snippet that compiles to a program that can be loaded runs without meeting a fault of an ill-typed
program (`compile_sound`). What a run carries out and evaluates is well typed all along, and it ends
with null or a model.
-/

namespace SceneScript

open Run

variable {program : Program} {loaded : Loaded} {limits : Limits} {s : RunState}

/-! ## Loaded programs -/

theorem Typing.Accepted.supports {symbols : SymbolTable} {u : Source.CompilationUnit}
    (accepted : Typing.Accepted symbols u program) (loads : load program = .ok loaded) :
    Supports loaded.classes (usesIn program.body) := by
  obtain ⟨rfl, -, implemented⟩ := load_ok loads
  intro use mem
  have referred := (accepted.references use.owner).2 ⟨use, mem, rfl⟩
  refine ⟨HostClass.mem_sorted.2 ?_, implemented use.owner referred⟩
  exact List.mem_cons_of_mem _ (List.mem_cons_of_mem _ referred)

/-! ## Running a program -/

def Program.locals (program : Program) (param : Value) : Array Value :=
  (Array.replicate (max 1 program.slots) Value.null).setIfInBounds 0 param

theorem Program.slots_le_locals (program : Program) (param : Value) :
    program.slots ≤ (program.locals param).size := by
  rw [locals, Array.size_setIfInBounds, Array.size_replicate]
  exact Nat.le_max_right 1 program.slots

theorem Program.locals_param (program : Program) (param : Value) :
    (program.locals param)[0]? = some param := by
  have bound : 0 < max 1 program.slots := Nat.lt_of_lt_of_le Nat.one_pos (Nat.le_max_left _ _)
  simp [locals, bound]

theorem Program.locals_typed {types : List Ty} {param : Value} {t : Ty} {h : Heap}
    (slots : types.length = program.slots) (declared : types[0]? = some t)
    (typed : param.HasType h t) : LocalsTyped types [0] (program.locals param) h where
  size := slots ▸ program.slots_le_locals param
  value slot isLive := by
    obtain rfl := List.mem_singleton.1 isLive
    exact ⟨param, t, program.locals_param param, declared, typed⟩

theorem Program.safe_run {classes : List HostClass} {types : List Ty} {live : List Nat}
    {param : Value} (typed : AllWellTyped types program.entry.result [0] program.body live)
    (supports : Supports classes (usesIn program.body))
    (vars : LocalsTyped types [0] (program.locals param) s.heap) :
    Safe limits s (program.run classes param) fun v s' =>
      v = .null ∨ v.HasType s'.heap program.entry.result := by
  have ends : Safe limits s ((execAll classes program.body).run' (program.locals param))
      fun flow s' => ∀ v, flow = .give v → v.HasType s'.heap program.entry.result := by
    refine .map (Run.Safe.mono (typed.safe_execAll supports vars) fun r s' _ _ fits v gives => ?_)
    unfold Exec.Fits at fits
    rwa [gives] at fits
  refine .bind ends fun flow s' _ _ gives => ?_
  cases flow with
  | next => exact .pure (.inl rfl)
  | give v => exact .pure (.inr (gives v rfl))

theorem safe_newBuilder : Safe limits s newBuilder fun v s' =>
    v.HasType s'.heap (.object .modelBuilder) := by
  have builder : (Object.builder).WellTyped s.heap := trivial
  exact .bind (safe_addObject builder) fun ref _ _ _ kind => .pure (.object rfl kind)

theorem safe_takeModel {h : Heap} {ref : Nat} (kind : h.kind? ref = some .model) :
    Safe limits s (liftM (h.takeModel ref) : Run (Model × Heap)) fun _ _ => True := by
  obtain ⟨m, found⟩ := Heap.model_ok kind
  refine safe_total ⟨(m, h.modify ref fun _ => .released), ?_⟩
  rw [Heap.takeModel, found]
  rfl

theorem Run.Safe.of_bind_error {α β : Type} {run : Run α} {next : α → Run β}
    {post : α → RunState → Prop} {f : Fault} {s' : RunState} (safe : Safe limits s run post)
    (typed : s.WellTyped) (ends : (run >>= next) limits s = .error f s')
    (rest : ∀ a s₁, s₁.WellTyped → post a s₁ → next a limits s₁ = .error f s' →
      f.cause.isIllTyped = false) : f.cause.isIllTyped = false := by
  rw [bind_apply] at ends
  cases ran : run limits s with
  | ok a s₁ =>
    rw [ran] at ends
    obtain ⟨typed₁, -, holds⟩ := safe.of_ok typed ran
    exact rest a s₁ typed₁ holds ends
  | error g s₁ =>
    rw [ran] at ends
    cases ends
    exact safe.of_error typed ran

namespace Loaded

/-- What makes a loaded program run safely: it has the expected signature, it is well typed, and it
only uses classes that it has been given. -/
structure Sound (loaded : Loaded) (types : List Ty) : Prop where
  result : loaded.program.entry.result = .object .model
  slots : types.length = loaded.program.slots
  param : types[0]? = some (.object .modelBuilder)
  typed : ∃ live, AllWellTyped types (.object .model) [0] loaded.program.body live
  supports : Supports loaded.classes (usesIn loaded.program.body)

theorem sound_of_accepted {symbols : SymbolTable} {u : Source.CompilationUnit}
    (accepted : Typing.Accepted symbols u program) (loads : load program = .ok loaded) :
    ∃ types, loaded.Sound types := by
  have supports := accepted.supports loads
  obtain ⟨rfl, entry, -⟩ := load_ok loads
  obtain ⟨types, live, slots, param, typed⟩ := accepted.typed
  rw [entry] at param typed
  exact ⟨types, by rw [entry], slots, param, ⟨live, typed⟩, supports⟩

def Executes (loaded : Loaded) (limits : Limits) (nextModel : Nat) (i : Instr)
    (locals : Array Value) (s : RunState) : Prop :=
  ∃ builder s₀, newBuilder limits (.start nextModel) = .ok builder s₀ ∧
    ReachesIn limits loaded.classes loaded.program.body (loaded.program.locals builder) s₀ i locals s

def Evaluates (loaded : Loaded) (limits : Limits) (nextModel : Nat) (e : Code)
    (locals : Array Value) (s : RunState) : Prop :=
  ∃ i s₁ part s₂, loaded.Executes limits nextModel i locals s₁ ∧
    ComesTo limits loaded.classes locals i.parts i.GoesOn s₁ part s₂ ∧
    Code.Reaches limits loaded.classes locals part s₂ e s

def Gives (loaded : Loaded) (limits : Limits) (nextModel : Nat) (v : Value) (s : RunState) : Prop :=
  ∃ builder s₀, newBuilder limits (.start nextModel) = .ok builder s₀ ∧
    loaded.program.run loaded.classes builder limits s₀ = .ok v s

namespace Sound

variable {types : List Ty} {builder : Value} {nextModel : Nat} {locals : Array Value}

theorem safe_run (sound : loaded.Sound types)
    (ofBuilder : builder.HasType s.heap (.object .modelBuilder)) :
    Safe limits s (loaded.program.run loaded.classes builder) fun v s' =>
      v.HasType s'.heap (.object .model) := by
  obtain ⟨live, typed⟩ := sound.typed
  have vars := Program.locals_typed sound.slots sound.param ofBuilder
  have safe : Safe limits s (loaded.program.run loaded.classes builder) _ :=
    Program.safe_run (sound.result ▸ typed) sound.supports vars
  refine safe.mono fun v s' _ _ ends => ?_
  rw [sound.result] at ends
  exact ends.elim (fun isNull => isNull ▸ .null rfl) id

theorem createModel_mild (sound : loaded.Sound types) {f : Fault} {s' : RunState}
    (typed : s.WellTyped) (ends : loaded.createModel limits s = .error f s') :
    f.cause.isIllTyped = false := by
  refine safe_newBuilder.of_bind_error typed ends fun builder s₁ typed₁ ofBuilder ends => ?_
  refine (sound.safe_run ofBuilder).of_bind_error typed₁ ends fun v s₂ typed₂ ofModel ends => ?_
  rcases ofModel.object_inv with rfl | ⟨ref, k, rfl, is, kind⟩
  · cases ends
  · cases is
    -- Once the model is taken off the heap, nothing can fail.
    exact (safe_takeModel kind).of_bind_error typed₂ ends fun taken s₃ _ _ ends => nomatch ends

theorem invoke_mild (sound : loaded.Sound types) {f : Fault}
    (fails : (loaded.invoke limits nextModel).result = .error f) : f.cause.isIllTyped = false := by
  unfold invoke at fails
  cases ran : loaded.createModel limits (.start nextModel) with
  | ok model s' =>
    rw [ran] at fails
    cases model with
    | some m => cases fails
    | none =>
      cases fails
      rfl
  | error g s' =>
    rw [ran] at fails
    cases fails
    exact sound.createModel_mild (RunState.wellTyped_start nextModel) ran

theorem gives_model (sound : loaded.Sound types) {v : Value}
    (gives : loaded.Gives limits nextModel v s) :
    v = .null ∨ ∃ ref m, v = .object ref ∧ s.heap.model ref = .ok m := by
  obtain ⟨builder, s₀, made, ran⟩ := gives
  obtain ⟨typed₀, -, ofBuilder⟩ := safe_newBuilder.of_ok (RunState.wellTyped_start nextModel) made
  obtain ⟨-, -, ofModel⟩ := (sound.safe_run ofBuilder).of_ok typed₀ ran
  rcases ofModel.object_inv with rfl | ⟨ref, k, rfl, is, kind⟩
  · exact .inl rfl
  · cases is
    obtain ⟨m, found⟩ := Heap.model_ok kind
    exact .inr ⟨ref, m, rfl, found⟩

theorem executes (sound : loaded.Sound types) {i : Instr}
    (executes : loaded.Executes limits nextModel i locals s) :
    ExecutionTyped types (.object .model) (usesIn loaded.program.body) i locals s := by
  obtain ⟨builder, s₀, made, reaches⟩ := executes
  obtain ⟨typed₀, -, ofBuilder⟩ := safe_newBuilder.of_ok (RunState.wellTyped_start nextModel) made
  obtain ⟨live, typed⟩ := sound.typed
  have vars := Program.locals_typed sound.slots sound.param ofBuilder
  exact reaches.typed typed sound.supports vars typed₀

theorem evaluates (sound : loaded.Sound types) {e : Code}
    (evaluates : loaded.Evaluates limits nextModel e locals s) :
    ∃ live, EvaluationTyped types live locals (usesIn loaded.program.body) e s := by
  obtain ⟨i, s₁, part, s₂, executes, comes, reaches⟩ := evaluates
  obtain ⟨⟨live, live', typed, vars⟩, uses, state⟩ := sound.executes executes
  obtain ⟨ts, ofParts⟩ := typed.parts
  have within := List.Subset.trans i.usesAll_parts uses
  have ofPart := comes.typed ofParts (sound.supports.subset within) vars state
  exact ⟨live, reaches.typed sound.supports (ofPart.widen within)⟩

end Sound

end Loaded

end SceneScript
