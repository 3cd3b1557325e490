import Mathlib.Tactic.Common
import SceneScript.Proofs.Machine.Types

/-!
# Safe runs

A run is safe from a state if, that state being well typed, it ends in a well-typed state on an
extended heap with a result as promised, or with a fault that well-typed programs may meet. The
rules below cover sequencing, the operations on the state of a run, and the ways to read a value or
an object. Any value can be written, on any heap: the text of a value only fails when it grows too
long or the steps run out (`Run.safe_display`).
-/

namespace SceneScript

namespace Run

variable {α β : Type} {limits : Limits} {s : RunState} {run : Run α}
  {post : α → RunState → Prop}

theorem bind_apply (run : Run α) (next : α → Run β) (limits : Limits) (s : RunState) :
    (run >>= next) limits s =
      match run limits s with
      | .ok a s' => next a limits s'
      | .error f s' => .error f s' := by
  change EStateM.bind (run limits) (fun a => next a limits) s = _
  unfold EStateM.bind
  cases run limits s <;> rfl

def Safe (limits : Limits) (s : RunState) (run : Run α) (post : α → RunState → Prop) : Prop :=
  s.WellTyped →
    match run limits s with
    | .ok a s' => s'.WellTyped ∧ s.heap.Extends s'.heap ∧ post a s'
    | .error f _ => f.cause.isIllTyped = false

/-! ## Sequencing -/

namespace Safe

theorem intro (safe : s.WellTyped → Safe limits s run post) : Safe limits s run post :=
  fun typed => safe typed typed

theorem pure {a : α} (holds : post a s) : Safe limits s (pure a) post :=
  fun typed => ⟨typed, .refl _, holds⟩

theorem fault {cause : FaultCause} (mild : cause.isIllTyped = false) :
    Safe limits s (Run.fault cause) post :=
  fun _ => mild

theorem mono {weaker : α → RunState → Prop} (safe : Safe limits s run post)
    (weaken : ∀ a s', s'.WellTyped → s.heap.Extends s'.heap → post a s' → weaker a s') :
    Safe limits s run weaker := by
  intro typed
  have ends := safe typed
  cases h : run limits s with
  | ok a s' =>
    rw [h] at ends
    exact ⟨ends.1, ends.2.1, weaken a s' ends.1 ends.2.1 ends.2.2⟩
  | error f s' =>
    rw [h] at ends
    exact ends

theorem bind {next : α → Run β} {post' : β → RunState → Prop} (first : Safe limits s run post)
    (rest : ∀ a s', s'.WellTyped → s.heap.Extends s'.heap → post a s' →
      Safe limits s' (next a) post') :
    Safe limits s (run >>= next) post' := by
  intro typed
  rw [bind_apply]
  have ends := first typed
  cases h : run limits s with
  | error f s' =>
    rw [h] at ends
    exact ends
  | ok a s' =>
    rw [h] at ends
    obtain ⟨typed', grown, holds⟩ := ends
    have ends' := rest a s' typed' grown holds typed'
    dsimp only
    cases h' : next a limits s' with
    | error f s'' =>
      rw [h'] at ends'
      exact ends'
    | ok b s'' =>
      rw [h'] at ends'
      exact ⟨ends'.1, grown.trans ends'.2.1, ends'.2.2⟩

theorem map {f : α → β} {post' : β → RunState → Prop}
    (safe : Safe limits s run fun a s' => post' (f a) s') : Safe limits s (f <$> run) post' := by
  rw [map_eq_pure_bind]
  exact safe.bind fun _ _ _ _ holds => .pure holds

theorem guard {cond : Prop} [Decidable cond] {cause : FaultCause} {next : Unit → Run α}
    (mild : cause.isIllTyped = false) (rest : Safe limits s (next ()) post) :
    Safe limits s (if cond then Run.fault cause >>= next else next ()) post := by
  split
  · exact fun _ => mild
  · exact rest

theorem located {p : Position} (safe : Safe limits s run post) :
    Safe limits s (located p run) post := by
  intro typed
  have ends := safe typed
  unfold Run.located
  cases h : run limits s with
  | ok a s' =>
    rw [h] at ends
    exact ends
  | error f s' =>
    rw [h] at ends
    exact ends

theorem of_ok (safe : Safe limits s run post) (typed : s.WellTyped) {a : α} {s' : RunState}
    (ends : run limits s = .ok a s') : s'.WellTyped ∧ s.heap.Extends s'.heap ∧ post a s' := by
  have ends' := safe typed
  rwa [ends] at ends'

theorem of_error (safe : Safe limits s run post) (typed : s.WellTyped) {f : Fault} {s' : RunState}
    (ends : run limits s = .error f s') : f.cause.isIllTyped = false := by
  have ends' := safe typed
  rwa [ends] at ends'

end Safe

/-! ## The state of a run -/

theorem safe_heap_bind {next : Heap → Run α} :
    Safe limits s (heap >>= next) post ↔ Safe limits s (next s.heap) post :=
  Iff.rfl

theorem safe_building_bind {next : Building → Run α} :
    Safe limits s (building >>= next) post ↔ Safe limits s (next s.building) post :=
  Iff.rfl

theorem safe_limits_bind {next : Limits → Run α} :
    Safe limits s (Run.limits >>= next) post ↔ Safe limits s (next limits) post :=
  Iff.rfl

theorem safe_get_bind {next : RunState → Run α} :
    Safe limits s (get >>= next) post ↔ Safe limits s (next s) post :=
  Iff.rfl

theorem safe_modify {f : RunState → RunState} {post : Unit → RunState → Prop}
    (sameHeap : (f s).heap = s.heap) (sameNodes : (f s).building.nodes = s.building.nodes)
    (holds : post () (f s)) : Safe limits s (modify f) post := by
  intro typed
  have typed' : (f s).WellTyped :=
    ⟨sameHeap ▸ typed.heap, by rw [sameHeap, sameNodes]; exact typed.nodes⟩
  have grown : s.heap.Extends (f s).heap := by
    rw [sameHeap]
    exact .refl _
  exact ⟨typed', grown, holds⟩

theorem safe_ensure {cond : Prop} [Decidable cond] {cause : FaultCause}
    (mild : cause.isIllTyped = false) :
    Safe limits s (if cond then fault cause else Pure.pure ()) fun _ _ => True := by
  split
  · exact .fault mild
  · exact .pure trivial

theorem safe_tick : Safe limits s tick fun _ _ => True := by
  refine .bind (safe_modify rfl rfl trivial) fun _ s' _ _ (_ : True) => ?_
  rw [safe_limits_bind, safe_get_bind]
  exact safe_ensure rfl

theorem Safe.step {run : Run α} {p : Position} {post : α → RunState → Prop}
    (safe : ∀ s', s.heap.Extends s'.heap → Safe limits s' run post) :
    Safe limits s (Run.located p (tick >>= fun _ => run)) post :=
  .located (.bind safe_tick fun _ s' _ grown _ => safe s' grown)

theorem safe_charge (bytes : Nat) : Safe limits s (charge bytes) fun _ _ => True := by
  refine .bind (safe_modify rfl rfl trivial) fun _ s' _ _ (_ : True) => ?_
  rw [safe_limits_bind, safe_get_bind]
  exact safe_ensure rfl

theorem safe_string (text : String) :
    Safe limits s (string text) fun v s' => v.HasType s'.heap .string := by
  unfold string
  rw [safe_limits_bind]
  refine .guard rfl (.bind (safe_charge _) fun _ _ _ _ _ => ?_)
  exact .pure (.string _)

/-! ## Objects -/

theorem safe_addObject {o : Object} (new : o.WellTyped s.heap) :
    Safe limits s (addObject o) fun ref s' => s'.heap.kind? ref = some o.kind := by
  intro typed
  have grown := s.heap.extends_add o
  have nodes : ∀ ref ∈ s.building.nodes, (s.heap.add o).2.kind? ref = some .node :=
    fun ref mem => grown _ _ (typed.nodes ref mem)
  refine ⟨⟨typed.heap.add (new.mono grown), nodes⟩, grown, ?_⟩
  exact (Heap.kind?_add o s.heap.objects.size).trans (if_pos rfl)

theorem safe_alloc {o : Object} {c : HostClass} (new : o.WellTyped s.heap)
    (kind : c.objectKind? = some o.kind) :
    Safe limits s (alloc o) fun v s' => v.HasType s'.heap (.object c) := by
  refine .bind safe_tick fun _ _ _ grown₁ _ => ?_
  refine .bind (safe_charge _) fun _ _ _ grown₂ _ => ?_
  refine .bind (safe_addObject (new.mono (grown₁.trans grown₂))) fun ref _ _ _ found => ?_
  exact .pure (.object kind found)

theorem safe_modifyHeap {f : Heap → Heap} (grown : s.heap.Extends (f s.heap))
    (keeps : s.heap.WellTyped → (f s.heap).WellTyped) :
    Safe limits s (modifyHeap f) fun _ _ => True :=
  fun typed => ⟨⟨keeps typed.heap, fun ref mem => grown _ _ (typed.nodes ref mem)⟩, grown, trivial⟩

theorem safe_modifyObject {f : Object → Object} (ref : Nat) (kinds : ∀ o, (f o).kind = o.kind)
    (maps : ∀ o, o.WellTyped s.heap → (f o).WellTyped s.heap) :
    Safe limits s (modifyHeap (·.modify ref f)) fun _ _ => True :=
  safe_modifyHeap (Heap.extends_modify kinds ref) fun typed => typed.modify ref kinds maps

theorem safe_setVector (ref : Nat) (v : Vec3) :
    Safe limits s (modifyHeap (·.setVector ref v)) fun _ _ => True :=
  safe_modifyObject ref (fun o => by cases o <;> rfl) fun o typed => by
    cases o <;> exact typed

theorem safe_setColor (ref : Nat) (c : Rgba) :
    Safe limits s (modifyHeap (·.setColor ref c)) fun _ _ => True :=
  safe_modifyObject ref (fun o => by cases o <;> rfl) fun o typed => by
    cases o <;> exact typed

theorem safe_modifyMaterial (ref : Nat) (f : MaterialObject → MaterialObject) :
    Safe limits s (modifyHeap (·.modifyMaterial ref f)) fun _ _ => True :=
  safe_modifyObject ref (fun o => by cases o <;> rfl) fun o typed => by
    cases o <;> exact typed

theorem safe_modifyNode {f : NodeObject → NodeObject} (ref : Nat)
    (maps : ∀ n, n.WellTyped s.heap → (f n).WellTyped s.heap) :
    Safe limits s (modifyHeap (·.modifyNode ref f)) fun _ _ => True :=
  safe_modifyObject ref (fun o => by cases o <;> rfl) fun o typed => by
    cases o with
    | node n => exact maps n typed
    | _ => exact typed

theorem safe_push (ref : Nat) {v : Value} (typed : v.HasType s.heap .any) :
    Safe limits s (modifyHeap (·.push ref v)) fun _ _ => True :=
  safe_modifyObject ref (fun o => by cases o <;> rfl) fun o items => by
    cases o with
    | array items' =>
      intro w mem
      rcases Array.mem_push.1 mem with old | rfl
      · exact items w old
      · exact typed
    | _ => exact items

theorem safe_modifyBuilding {f : Building → Building}
    (sameNodes : (f s.building).nodes = s.building.nodes) :
    Safe limits s (modifyBuilding f) fun _ _ => True :=
  safe_modify rfl sameNodes trivial

/-! ## Reading values and objects -/

theorem safe_lift {x : Except FaultCause α} (ok : ∀ a, x = .ok a → post a s)
    (mild : ∀ cause, x = .error cause → cause.isIllTyped = false) :
    Safe limits s (liftM x : Run α) post := by
  intro _
  cases x with
  | ok a => exact ⟨‹_›, .refl _, ok a rfl⟩
  | error cause => exact mild cause rfl

variable {h : Heap} {v : Value}

theorem safe_asInt (typed : v.HasType h .int) :
    Safe limits s (liftM v.asInt : Run Int64) fun n _ => v = .int n := by
  obtain ⟨n, rfl⟩ := typed.int_inv
  exact .pure rfl

theorem safe_asFloat (typed : v.HasType h .float) :
    Safe limits s (liftM v.asFloat : Run Float) fun x _ => v = .float x := by
  obtain ⟨x, rfl⟩ := typed.float_inv
  exact .pure rfl

theorem safe_asFloat32 (typed : v.HasType h .float) :
    Safe limits s (liftM v.asFloat32 : Run Float32) fun _ _ => True := by
  obtain ⟨x, rfl⟩ := typed.float_inv
  exact .pure trivial

theorem safe_asBool (typed : v.HasType h .bool) :
    Safe limits s (liftM v.asBool : Run Bool) fun b _ => v = .bool b := by
  obtain ⟨b, rfl⟩ := typed.bool_inv
  exact .pure rfl

theorem safe_asString (typed : v.HasType h .string) :
    Safe limits s (liftM v.asString : Run String) fun t _ => v = .string t := by
  rcases typed.string_inv with rfl | ⟨t, rfl⟩
  · exact .fault rfl
  · exact .pure rfl

theorem safe_asObject {c : HostClass} {k : ObjectKind} (typed : v.HasType h (.object c))
    (kind : c.objectKind? = some k) :
    Safe limits s (liftM v.asObject : Run Nat) fun ref _ => h.kind? ref = some k := by
  rcases typed.object_inv with rfl | ⟨ref, k', rfl, kind', found⟩
  · exact .fault rfl
  · rw [kind] at kind'
    cases kind'
    exact .pure found

theorem safe_total {x : Except FaultCause α} (ok : ∃ a, x = .ok a) :
    Safe limits s (liftM x : Run α) fun _ _ => True := by
  obtain ⟨_, rfl⟩ := ok
  exact .pure trivial

theorem safe_read {x : Except FaultCause α} {P : α → Prop} (ok : ∃ a, x = .ok a ∧ P a) :
    Safe limits s (liftM x : Run α) fun a _ => P a := by
  obtain ⟨_, rfl, holds⟩ := ok
  exact .pure holds

end Run

/-! ## Writing values -/

namespace Text

variable {α β : Type} {b : Bounds}

def Mild (b : Bounds) (writer : Writer α) : Prop :=
  ∀ sink cause sink', writer b sink = .error cause sink' → cause.isIllTyped = false

theorem Mild.pure (a : α) : Mild b (pure a) := by
  intro sink cause sink' failed
  cases failed

theorem Mild.bind {writer : Writer α} {next : α → Writer β} (first : Mild b writer)
    (rest : ∀ a, Mild b (next a)) : Mild b (writer >>= next) := by
  intro sink cause sink' failed
  change EStateM.bind (writer b) (fun a => next a b) sink = _ at failed
  unfold EStateM.bind at failed
  cases h : writer b sink with
  | ok a between =>
    rw [h] at failed
    exact rest a between cause sink' failed
  | error cause' between =>
    rw [h] at failed
    cases failed
    exact first sink _ _ h

theorem Mild.throw {cause : FaultCause} (mild : cause.isIllTyped = false) :
    Mild b (throw cause : Writer α) := by
  intro sink cause' sink' failed
  cases failed
  exact mild

theorem mild_get : Mild b (get : Writer Sink) := by
  intro sink cause sink' failed
  cases failed

theorem mild_modify (f : Sink → Sink) : Mild b (modify f : Writer Unit) := by
  intro sink cause sink' failed
  cases failed

theorem mild_read_bind {next : Bounds → Writer α} :
    Mild b (read >>= next) ↔ Mild b (next b) :=
  Iff.rfl

theorem mild_step (mild : b.outOfSteps.isIllTyped = false) : Mild b step := by
  refine (mild_modify _).bind fun _ => ?_
  rw [mild_read_bind]
  refine mild_get.bind fun _ => ?_
  split
  · exact .throw mild
  · exact .pure ()

theorem mild_add (t : String) : Mild b (add t) := by
  refine mild_get.bind fun _ => ?_
  rw [mild_read_bind]
  dsimp only
  split
  · exact (Mild.throw rfl).bind fun _ => mild_modify _
  · exact mild_modify _

variable {item : Value → Writer Unit}

theorem mild_writeTail (mild : ∀ v, Mild b (item v)) (vs : List Value) :
    Mild b (writeTail item vs) := by
  induction vs with
  | nil => exact .pure ()
  | cons v rest ih => exact (mild_add _).bind fun _ => (mild v).bind fun _ => ih

theorem mild_writeItems (mild : ∀ v, Mild b (item v)) (vs : List Value) :
    Mild b (writeItems item vs) := by
  cases vs with
  | nil => exact .pure ()
  | cons v rest => exact (mild v).bind fun _ => mild_writeTail mild rest

theorem mild_writeOne (h : Heap) {item : Option (Value → Writer Unit)} (v : Value)
    (steps : b.outOfSteps.isIllTyped = false)
    (mild : ∀ write, item = some write → ∀ v, Mild b (write v)) : Mild b (writeOne h item v) := by
  refine (mild_step steps).bind fun _ => ?_
  split
  · split
    · exact mild_add _
    · exact mild_add _
    · exact mild_add _
    · exact mild_add _
    · split
      · exact mild_add _
      · next write =>
        exact (mild_add _).bind fun _ =>
          (mild_writeItems (mild write rfl) _).bind fun _ => mild_add _
    · exact mild_add _
    · exact mild_add _
  · exact mild_add _

theorem mild_writeNested (h : Heap) (steps : b.outOfSteps.isIllTyped = false) (depth : Nat) :
    ∀ v, Mild b (writeNested h depth v) := by
  induction depth with
  | zero => exact fun v => mild_writeOne h v steps fun _ none => by cases none
  | succ depth ih =>
    intro v
    refine mild_writeOne h v steps fun write some => ?_
    cases some
    exact ih

end Text

namespace Run

variable {limits : Limits} {s : RunState}

theorem safe_display (v : Value) : Safe limits s (display v) fun _ _ => True := by
  unfold display
  rw [safe_limits_bind, safe_get_bind]
  split
  · refine .bind (safe_modify rfl rfl trivial) fun _ _ _ _ (_ : True) => ?_
    exact .pure trivial
  · next cause sink failed =>
    refine .bind (safe_modify rfl rfl trivial) fun _ _ _ _ (_ : True) => ?_
    exact .fault (Text.mild_writeNested s.heap rfl Text.maxDepth v _ _ _ failed)

end Run

end SceneScript
