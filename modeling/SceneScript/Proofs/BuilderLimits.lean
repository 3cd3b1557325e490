import SceneScript.Proofs.Hierarchy.Accounts
import SceneScript.Proofs.Machine.Traces

/-!
# The limits of builders

After any acts, failing ones included, the counters of the builder are within the limits and agree
with what was made, as long as parts are placed on nodes. Programs that were compiled place them on
nothing else, so it holds all along their runs, and of the models that they give
(`builder_limits`).
-/

namespace SceneScript

open Run

namespace Act

def OnNode (h : Heap) : Act → Prop
  | call c => c.OnNode h
  | _ => True

/-- Each of the acts that places a part places it on a node, in the state that the acts before it
leave. -/
def Aimed (limits : Limits) : RunState → List Act → Prop
  | _, [] => True
  | s, a :: rest => a.OnNode s.heap ∧ Aimed limits (a.run.last limits s) rest

theorem changes (limits : Limits) (s : RunState) (a : Act) :
    Ends limits s a.run (fun _ s' => ∃ deed, Change limits True s deed s') fun cause s' =>
      Change limits (a.OnNode s.heap ∨ cause.isIllTyped = false) s none s' := by
  have counts {α : Type} {run : Run α}
      (ends : Ends limits s run (fun _ => s.Counts) fun _ => s.Counts) :
      Ends limits s (run >>= fun _ => pure ()) (fun _ s' => ∃ deed, Change limits True s deed s')
        fun cause s' => Change limits (True ∨ cause.isIllTyped = false) s none s' :=
    Ends.bind (ends.mono (fun _ _ => id) fun _ _ counts => .minor (.of_counts counts))
      fun _ _ counts => .pure ⟨none, .of_counts counts⟩
  cases a with
  | statement | round | expression =>
    exact (ends_tick (s := s)).mono (fun _ _ counts => ⟨none, .of_counts counts⟩)
      fun _ _ counts => .minor (.of_counts counts)
  | builder => exact ⟨none, .of_newBuilder (v := .object s.heap.objects.size) rfl⟩
  | call c =>
    exact Ends.bind (c.performs limits s) fun v s' change => .pure ⟨c.deed? v, change⟩
  | display v => exact counts (ends_display v)
  | string t => exact counts (ends_string t)

end Act

/-! ## States -/

def RunState.Kept (limits : Limits) (s : RunState) : Prop :=
  ∃ deeds, s.Built deeds ∧ s.Tallied limits deeds

namespace RunState.Kept

variable {limits : Limits} {onNode : Prop} {s s' : RunState} {deed : Option Deed}

theorem start (limits : Limits) (n : Nat) : (RunState.start n).Kept limits :=
  ⟨[], .start n, .start limits n⟩

theorem accounts (kept : s.Kept limits) : s.Accounts limits := by
  obtain ⟨deeds, built, tallied⟩ := kept
  exact tallied.accounts built

variable (fit : Primitive.CountsFit limits.maxDivisions)

include fit

theorem change (kept : s.Kept limits) (aimed : onNode) (change : Change limits onNode s deed s') :
    s'.Kept limits := by
  obtain ⟨deeds, built, tallied⟩ := kept
  exact ⟨deeds ++ deed.toList, built.change change, tallied.change fit built aimed change⟩

theorem act (kept : s.Kept limits) (a : Act) :
    Ends limits s a.run (fun _ => Kept limits) fun cause s' =>
      a.OnNode s.heap ∨ cause.isIllTyped = false → s'.Kept limits :=
  (a.changes limits s).mono (fun _ _ ⟨_, change⟩ => kept.change fit trivial change)
    fun _ _ change aimed => kept.change fit aimed change

theorem runAll (kept : s.Kept limits) (acts : List Act) :
    Ends limits s (Act.runAll acts) (fun _ => Kept limits) fun cause s' =>
      cause.isIllTyped = false → s'.Kept limits := by
  induction acts generalizing s with
  | nil => exact kept
  | cons a rest ih =>
    exact Ends.bind ((kept.act fit a).mono (fun _ _ => id) fun _ _ kept' mild => kept' (.inr mild))
      fun _ _ kept' => ih kept'

theorem leave {acts : List Act} (kept : s.Kept limits) (aimed : Act.Aimed limits s acts) :
    (Act.leave limits s acts).Kept limits := by
  induction acts generalizing s with
  | nil => exact kept
  | cons a rest ih =>
    obtain ⟨onNode, ofRest⟩ := aimed
    have first : Ends limits s a.run (fun _ => Kept limits) fun _ => Kept limits :=
      (kept.act fit a).mono (fun _ _ => id) fun _ _ kept' => kept' (.inl onNode)
    exact ih first.last ofRest

end RunState.Kept

/-! ## Programs -/

theorem Loaded.Sound.body_mild {loaded : Loaded} {types : List Ty} (sound : loaded.Sound types)
    {limits : Limits} {n : Nat} {f : Fault} {s : RunState}
    (failed : loaded.body limits (.start n) = .error f s) : f.cause.isIllTyped = false :=
  sound.createModel_mild (RunState.wellTyped_start n) (Loaded.createModel_of_error failed)

theorem Loaded.Sound.kept {loaded : Loaded} {types : List Ty} (sound : loaded.Sound types)
    {limits : Limits} (fit : Primitive.CountsFit limits.maxDivisions) (n : Nat) :
    (loaded.body.last limits (.start n)).Kept limits := by
  have ends := (RunState.Kept.start limits n).runAll fit (loaded.trace limits (.start n))
  have follows := loaded.follows_body limits (.start n)
  unfold Run.last
  cases ran : loaded.body limits (.start n) with
  | ok v s =>
    rw [ran] at follows
    exact ends.of_ok follows
  | error f s =>
    rw [ran] at follows
    obtain ⟨f', failed, same⟩ | ⟨acted, -⟩ := follows
    · exact ends.of_error failed (same ▸ sound.body_mild ran)
    · exact ends.of_ok acted

theorem builder_limits (limits : Limits) (fit : Primitive.CountsFit limits.maxDivisions) (n : Nat) :
    (∀ acts, Act.Aimed limits (.start n) acts →
      (Act.leave limits (.start n) acts).Accounts limits) ∧
    ∀ limits' snippet program loaded, compile .standard limits' snippet = .ok program →
      load program = .ok loaded →
        (∀ acts s, loaded.Passes limits n acts s → s.Accounts limits) ∧
        (loaded.body.last limits (.start n)).Accounts limits ∧
        ∀ m, (loaded.invoke limits n).result = .ok m → m.Within limits := by
  have start := RunState.Kept.start limits n
  refine ⟨fun acts aimed => (start.leave fit aimed).accounts, ?_⟩
  intro limits' snippet program loaded compiled loads
  obtain ⟨u, -, accepted⟩ := compile_ok compiled
  obtain ⟨types, sound⟩ := Loaded.sound_of_accepted (Typing.checkUnit_accepts accepted) loads
  have atEnd := (sound.kept fit n).accounts
  refine ⟨fun acts s ⟨_, ran⟩ => ((start.runAll fit acts).of_ok ran).accounts, atEnd,
    fun m given => ?_⟩
  obtain ⟨ref, s, ran, found, -⟩ := Loaded.invoke_ok given
  rw [Run.last, ran] at atEnd
  exact atEnd.models ref m found

/-- A part is placed that was not generated; the node is there all the same. -/
theorem builder_limits_unknown :
    let acts : List Act := [.builder, .call (.method .modelBuilder "node" (.object 0) []),
      .call (.method .node "addPart" (.object 4) [.int 0, .object 0])]
    Act.Aimed {} (.start 0) acts ∧ (Act.leave {} (.start 0) acts).Accounts {} ∧
    ∃ program loaded, compile .standard {} "" = .ok program ∧ load program = .ok loaded ∧
      (loaded.body.last {} (.start 0)).Accounts {} := by
  have fit : Primitive.CountsFit ({} : Limits).maxDivisions := .of_small (by decide)
  obtain ⟨anyActs, programs⟩ := builder_limits {} fit 0
  have aimed : Act.Aimed {} (.start 0) [.builder,
      .call (.method .modelBuilder "node" (.object 0) []),
      .call (.method .node "addPart" (.object 4) [.int 0, .object 0])] :=
    ⟨trivial, trivial, ⟨_, rfl⟩, trivial⟩
  obtain ⟨program, compiled, loaded, loads⟩ := compile_empty
  obtain ⟨-, atEnd, -⟩ := programs {} "" program loaded compiled loads
  exact ⟨aimed, anyActs _ aimed, program, loaded, compiled, loads, atEnd⟩

end SceneScript
