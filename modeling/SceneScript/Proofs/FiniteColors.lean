import SceneScript.Proofs.Machine.Colors
import SceneScript.Proofs.Machine.Traces

/-!
# Channels of colours are finite

Colours are checked where they are made and where a channel is set, but not where two are blended.
So all channels on the heap are finite as long as no blend overflows, and not a step longer
(`colors_stay_finite`). The channels of a blend can be infinite although all that it was made from
was finite (`blend_overflows`).
-/

namespace SceneScript

open Run

/-- The channels of all colours are finite: those of colours, of attributes and materials, and those
of the surfaces and vertices of models. -/
def Heap.ColorsFinite (h : Heap) : Prop :=
  ∀ x, h.Holds x → x.isFinite = true

def Model.ColorsFinite (m : Model) : Prop :=
  ∀ x ∈ m.channels, x.isFinite = true

namespace Act

def Blends (h : Heap) : Act → Float32 → Prop
  | call c => c.Blends h
  | _ => fun _ => False

def BlendsFinite (h : Heap) (a : Act) : Prop :=
  ∀ x, a.Blends h x → x.isFinite = true

/-- What any of the acts blends is finite, in the state that the acts before it leave. -/
def Calm (limits : Limits) : RunState → List Act → Prop
  | _, [] => True
  | s, a :: rest => a.BlendsFinite s.heap ∧ Calm limits (a.run.last limits s) rest

/-! ## One act -/

variable {limits : Limits} {s : RunState}

theorem recolors (limits : Limits) (s : RunState) (a : Act) :
    s.heap.Recolors (a.Blends s.heap) (a.run.last limits s).heap := by
  have counts {α : Type} {run : Run α}
      (ends : Ends limits s run (fun _ => s.Counts) fun _ => s.Counts) :
      s.heap.Recolors (a.Blends s.heap) ((run >>= fun _ => pure ()).last limits s).heap := by
    have same {s' : RunState} (counts : s.Counts s') :
        s.heap.Recolors (a.Blends s.heap) s'.heap := by
      obtain ⟨steps, heapBytes, rfl⟩ := counts
      exact .refl _
    exact Ends.last (P := fun s' => s.heap.Recolors (a.Blends s.heap) s'.heap)
      ((ends.mono (fun _ _ => same) fun _ _ => same).bind fun _ _ recolors => .pure recolors)
  cases a with
  | statement | round | expression =>
    have ends := counts (ends_tick (s := s))
    rwa [bind_pure_comp, id_map'] at ends
  | builder => exact .add nofun
  | call c =>
    exact Ends.last (P := fun s' => s.heap.Recolors (c.Blends s.heap) s'.heap)
      ((c.recolors s.heap limits s rfl).bind fun _ _ recolors => .pure recolors)
  | display v => exact counts (ends_display v)
  | string t => exact counts (ends_string t)

theorem run_call_last (c : Call) : (call c).run.last limits s = c.run.last limits s := by
  unfold Run.last
  rw [run, bind_apply]
  cases c.run limits s <;> rfl

theorem holds_of_blends {a : Act} {x : Float32} (blends : a.Blends s.heap x) :
    (a.run.last limits s).heap.Holds x := by
  cases a with
  | call c =>
    rw [run_call_last]
    exact Call.Blends.holds blends
  | _ => cases blends

theorem finite_after_iff (finite : s.heap.ColorsFinite) (a : Act) :
    (a.run.last limits s).heap.ColorsFinite ↔ a.BlendsFinite s.heap := by
  refine ⟨fun after x blends => after x (holds_of_blends blends), fun calm x holds => ?_⟩
  obtain held | isFinite | blends := a.recolors limits s x holds
  · exact finite x held
  · exact isFinite
  · exact calm x blends

/-! ## Many acts -/

theorem finite_leave {acts : List Act} (finite : s.heap.ColorsFinite)
    (calm : Calm limits s acts) : (leave limits s acts).heap.ColorsFinite := by
  induction acts generalizing s with
  | nil => exact finite
  | cons a rest ih => exact ih ((finite_after_iff finite a).2 calm.1) calm.2

theorem finite_runAll {acts : List Act} (finite : s.heap.ColorsFinite)
    (calm : Calm limits s acts) : ((runAll acts).last limits s).heap.ColorsFinite := by
  induction acts generalizing s with
  | nil => exact finite
  | cons a rest ih =>
    have first : (a.run.last limits s).heap.ColorsFinite := (finite_after_iff finite a).2 calm.1
    have others := calm.2
    cases ran : a.run limits s with
    | ok _ s₁ =>
      rw [Run.last_of_ok ran] at first others
      have same : (runAll (a :: rest)).last limits s = (runAll rest).last limits s₁ := by
        rw [Run.last, runAll, bind_apply, ran]
        rfl
      exact same ▸ ih first others
    | error f s₁ =>
      have stops : (runAll (a :: rest)).last limits s = s₁ := by
        rw [Run.last, runAll, bind_apply, ran]
      rw [Run.last, ran] at first
      exact stops ▸ first

end Act

theorem Heap.colorsFinite_empty : Heap.empty.ColorsFinite := by
  rintro x ⟨o, mem, -⟩
  simp [Heap.empty] at mem

/-! ## Programs -/

theorem Model.colorsFinite_of_heap {h : Heap} (finite : h.ColorsFinite) {ref : Nat} {m : Model}
    (found : h.model ref = .ok m) : m.ColorsFinite := by
  obtain ⟨o, mem, is⟩ := Heap.mem_of_content found
  cases o with
  | model m' =>
    cases is
    exact fun x inModel => finite x ⟨_, mem, inModel⟩
  | _ => cases is

/-- All channels are finite after any acts, failing ones included, none of which blends others; the
act that does so is where they cease to be finite. The same holds all along the run of a program,
and of the model that it gives. -/
theorem colors_stay_finite (limits : Limits) (n : Nat) :
    (∀ s (a : Act), s.heap.ColorsFinite →
      ((a.run.last limits s).heap.ColorsFinite ↔ a.BlendsFinite s.heap)) ∧
    (∀ acts, Act.Calm limits (.start n) acts →
      (Act.leave limits (.start n) acts).heap.ColorsFinite) ∧
    ∀ loaded : Loaded,
      (∀ acts s, loaded.Passes limits n acts s → Act.Calm limits (.start n) acts →
        s.heap.ColorsFinite) ∧
      (Act.Calm limits (.start n) (loaded.trace limits (.start n)) →
        (loaded.body.last limits (.start n)).heap.ColorsFinite ∧
        ∀ m, (loaded.invoke limits n).result = .ok m → m.ColorsFinite) := by
  have start : (RunState.start n).heap.ColorsFinite := Heap.colorsFinite_empty
  refine ⟨fun s a finite => Act.finite_after_iff finite a,
    fun acts calm => Act.finite_leave start calm, fun loaded => ⟨?_, fun calm => ?_⟩⟩
  · rintro acts s ⟨-, ran⟩ calm
    have atEnd := Act.finite_runAll start calm
    rwa [Run.last_of_ok ran] at atEnd
  · have atEnd := Act.finite_runAll start calm
    rw [(loaded.follows_body).last] at atEnd
    refine ⟨atEnd, fun m given => ?_⟩
    obtain ⟨ref, s, ran, found, -⟩ := Loaded.invoke_ok given
    rw [Run.last_of_ok ran] at atEnd
    exact Model.colorsFinite_of_heap atEnd found

/-! ## Two colours -/

def red (x : Float) : List Value :=
  [.float x, .float 0, .float 0, .float 1]

def Rgba.red (x : Float) : Rgba :=
  ⟨Number.narrow x, Number.narrow 0, Number.narrow 0, Number.narrow 1⟩

def blending (x y factor : Float) : List Act :=
  [.call (.static .color "new" (red x)), .call (.static .color "new" (red y)),
    .call (.method .color "lerp" (.object 0) [.object 1, .float factor])]

theorem red_run {x : Float} (finite : (Number.narrow x).isFinite = true) (limits : Limits)
    (s : RunState) : HostClass.color.callStatic "new" (red x) limits s =
      alloc (.color (.red x)) limits s := by
  have channel {y : Float} (finite : (Number.narrow y).isFinite = true) :
      Native.channel (.float y) limits s = .ok (Number.narrow y) s :=
    Call.channel_run rfl finite limits s
  have zero := channel (y := 0) (by decide +kernel)
  have one := channel (y := 1) (by decide +kernel)
  change (Native.channel (.float x) >>= fun r => Native.channel (.float 0) >>= fun g =>
    Native.channel (.float 0) >>= fun b => Native.channel (.float 1) >>= fun a =>
      alloc (.color ⟨r, g, b, a⟩)) limits s = _
  simp only [bind_apply, zero, one, channel finite]
  rfl

def RunState.colored (c d : Rgba) : RunState :=
  ⟨⟨#[.color c, .color d]⟩, ⟨#[], #[], 0, 0, false⟩, 2, 192, 0⟩

theorem blending_made {x y : Float} (first : (Number.narrow x).isFinite = true)
    (second : (Number.narrow y).isFinite = true) :
    ∃ s, (Act.call (.static .color "new" (red x))).run {} (.start 0) = .ok () s ∧
      (Act.call (.static .color "new" (red y))).run {} s = .ok () (.colored (.red x) (.red y)) := by
  refine ⟨⟨⟨#[.color (.red x)]⟩, ⟨#[], #[], 0, 0, false⟩, 1, 96, 0⟩, ?_, ?_⟩
  · rw [Act.run, Call.run, bind_apply, red_run first]
    rfl
  · rw [Act.run, Call.run, bind_apply, red_run second]
    rfl

theorem blending_lerp (factor : Float) (finite : (Number.narrow factor).isFinite = true)
    (c d : Rgba) : (Act.call (.method .color "lerp" (.object 0) [.object 1, .float factor])).run {}
      (.colored c d) = .ok () (.colored (Native.lerp c d (Number.narrow factor)) d) := by
  have ran := Call.lerp_run (s := .colored c d) (t := .float factor) 0 1 rfl rfl rfl finite {}
  rw [Act.run, Call.run, bind_apply, HostClass.call, ran]
  rfl

theorem colors_stay_finite_red :
    Act.Calm {} (.start 0) (blending 1 0 0.25) ∧
      (Act.leave {} (.start 0) (blending 1 0 0.25)).heap.ColorsFinite := by
  have calm : Act.Calm {} (.start 0) (blending 1 0 0.25) := by
    obtain ⟨s, first, second⟩ :=
      blending_made (x := 1) (y := 0) (by decide +kernel) (by decide +kernel)
    refine ⟨nofun, ?_⟩
    rw [Run.last_of_ok first]
    refine ⟨nofun, ?_⟩
    rw [Run.last_of_ok second]
    refine ⟨?_, trivial⟩
    rintro x (⟨ofRef, ofOther, isFactor, -, mem⟩ : Call.Blends _ _ _)
    cases ofRef
    cases ofOther
    cases isFactor
    have finite : ∀ x ∈ (Native.lerp (.red 1) (.red 0) (Number.narrow 0.25)).toList,
        x.isFinite = true := by
      decide +kernel
    exact finite x mem
  exact ⟨calm, (colors_stay_finite {} 0).2.1 _ calm⟩

/-- The difference of two opposite colours is larger than any number, and the blend half way between
them is infinite. -/
theorem blend_overflows :
    ∃ s, Act.runAll (blending 3e38 (-3e38) 0.5) {} (.start 0) = .ok () s ∧
      (∃ c, s.heap.color 0 = .ok c ∧ c.r.isInf = true) ∧ ¬s.heap.ColorsFinite := by
  obtain ⟨s, first, second⟩ :=
    blending_made (x := 3e38) (y := -3e38) (by decide +kernel) (by decide +kernel)
  have last := blending_lerp 0.5 (by decide +kernel) (.red 3e38) (.red (-3e38))
  generalize isBlend : Native.lerp (.red 3e38) (.red (-3e38)) (Number.narrow 0.5) = c at last
  have infinite : c.r.isInf = true ∧ c.r.isFinite = false := by
    rw [← isBlend]
    decide +kernel
  refine ⟨.colored c (.red (-3e38)), ?_, ⟨c, rfl, infinite.1⟩, fun finite => ?_⟩
  · simp only [blending, Act.runAll, bind_apply, first, second, last]
    rfl
  · have held := finite c.r ⟨.color c, by simp [RunState.colored], List.mem_cons_self⟩
    rw [infinite.2] at held
    cases held

end SceneScript
