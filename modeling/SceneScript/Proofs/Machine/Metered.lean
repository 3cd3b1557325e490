import SceneScript.Proofs.Machine.Types

/-!
# Running under other limits

A run looks at its limits only to fail. So what succeeds under some limits gives the same under
limits that allow for more space, provided that the steps suffice; otherwise the run ends because
the steps are spent, wherever that happens. `Meter.Scales` says this of two runs, and the rules
below are those for sequencing and for the operations on the state of a run.
-/

namespace SceneScript

/-- How the second of two runs is compared with the first: the steps taken, the states that count as
alike, the limit on steps of the second run and the faults that say that it is passed. -/
structure Meter (ε σ : Type) where
  steps : σ → Nat
  Alike : σ → σ → Prop
  limit : Nat
  Spent : ε → Prop

namespace Meter

variable {ε σ α β : Type} {m : Meter ε σ}

/-- Whatever the first run gives, the second one gives if its limit allows for the steps, and
otherwise its steps are spent. -/
structure Scales (m : Meter ε σ) (run run' : EStateM ε σ α) : Prop where
  forward : ∀ {s a t}, run s = .ok a t → m.steps s ≤ m.steps t
  agrees : ∀ {s s' a t}, m.Alike s s' → run s = .ok a t → m.steps t ≤ m.limit →
    ∃ t', run' s' = .ok a t' ∧ m.Alike t t'
  spends : ∀ {s s' a t}, m.Alike s s' → run s = .ok a t → m.steps s ≤ m.limit →
    m.limit < m.steps t → ∃ f t', run' s' = .error f t' ∧ m.Spent f

namespace Scales

variable {run run' : EStateM ε σ α} {next next' : α → EStateM ε σ β}

theorem bind_ok {b : β} {s t : σ} (ran : (run >>= next) s = .ok b t) :
    ∃ a u, run s = .ok a u ∧ next a u = .ok b t := by
  change EStateM.bind run next s = _ at ran
  unfold EStateM.bind at ran
  cases first : run s with
  | ok a u =>
    rw [first] at ran
    exact ⟨a, u, rfl, ran⟩
  | error f u =>
    rw [first] at ran
    cases ran

theorem bind_of_ok {a : α} {s t : σ} (first : run s = .ok a t) :
    (run >>= next) s = next a t := by
  change EStateM.bind run next s = _
  unfold EStateM.bind
  rw [first]

theorem bind_of_error {f : ε} {s t : σ} (first : run s = .error f t) :
    (run >>= next) s = .error f t := by
  change EStateM.bind run next s = _
  unfold EStateM.bind
  rw [first]

theorem pure (a : α) : m.Scales (pure a) (pure a) where
  forward ran := by
    cases ran
    exact Nat.le_refl _
  agrees alike ran _ := by
    cases ran
    exact ⟨_, rfl, alike⟩
  spends _ ran within beyond := by
    cases ran
    exact absurd within (Nat.not_le.2 beyond)

theorem fails (never : ∀ s a t, run s ≠ .ok a t) : m.Scales run run' where
  forward ran := absurd ran (never _ _ _)
  agrees _ ran := absurd ran (never _ _ _)
  spends _ ran := absurd ran (never _ _ _)

theorem bind (first : m.Scales run run') (rest : ∀ a, m.Scales (next a) (next' a)) :
    m.Scales (run >>= next) (run' >>= next') where
  forward ran := by
    obtain ⟨a, u, ran₁, ran₂⟩ := bind_ok ran
    exact Nat.le_trans (first.forward ran₁) ((rest a).forward ran₂)
  agrees alike ran within := by
    obtain ⟨a, u, ran₁, ran₂⟩ := bind_ok ran
    have within₁ := Nat.le_trans ((rest a).forward ran₂) within
    obtain ⟨u', ran₁', alike₁⟩ := first.agrees alike ran₁ within₁
    obtain ⟨t', ran₂', alike₂⟩ := (rest a).agrees alike₁ ran₂ within
    exact ⟨t', by rw [bind_of_ok ran₁', ran₂'], alike₂⟩
  spends alike ran within beyond := by
    obtain ⟨a, u, ran₁, ran₂⟩ := bind_ok ran
    -- The limit is passed in the first part or in the rest.
    rcases Nat.lt_or_ge m.limit (m.steps u) with beyond₁ | within₁
    · obtain ⟨f, u', failed, spent⟩ := first.spends alike ran₁ within beyond₁
      exact ⟨f, u', bind_of_error failed, spent⟩
    · obtain ⟨u', ran₁', alike₁⟩ := first.agrees alike ran₁ within₁
      obtain ⟨f, t', failed, spent⟩ := (rest a).spends alike₁ ran₂ within₁ beyond
      exact ⟨f, t', by rw [bind_of_ok ran₁', failed], spent⟩

theorem of_states
    (each : ∀ s s', m.Alike s s' → ∃ inner inner' : EStateM ε σ α, m.Scales inner inner' ∧
      run s = inner s ∧ run' s' = inner' s')
    (alike : ∀ s, m.Alike s s) : m.Scales run run' where
  forward {s _ _} ran := by
    obtain ⟨inner, inner', scales, is, -⟩ := each s s (alike s)
    exact scales.forward (is ▸ ran)
  agrees {s s' _ _} same ran := by
    obtain ⟨inner, inner', scales, is, is'⟩ := each s s' same
    rw [is']
    exact scales.agrees same (is ▸ ran)
  spends {s s' _ _} same ran := by
    obtain ⟨inner, inner', scales, is, is'⟩ := each s s' same
    rw [is']
    exact scales.spends same (is ▸ ran)

theorem ensure {ρ : Type} {r r' : ρ} {cond cond' : Prop} [Decidable cond] [Decidable cond']
    {e e' : ε} {a : α} (passes : ¬cond → ¬cond') :
    m.Scales ((if cond then throw e else Pure.pure a : ReaderT ρ (EStateM ε σ) α) r)
      ((if cond' then throw e' else Pure.pure a : ReaderT ρ (EStateM ε σ) α) r') := by
  split
  · exact .fails fun _ _ _ ran => nomatch ran
  · next holds =>
    rw [if_neg (passes holds)]
    exact .pure a

theorem guard {ρ : Type} {r r' : ρ} {cond cond' : Prop} [Decidable cond] [Decidable cond']
    {e e' : ε} {rest rest' : Unit → ReaderT ρ (EStateM ε σ) α} (passes : ¬cond → ¬cond')
    (scales : m.Scales (rest () r) (rest' () r')) :
    m.Scales ((if cond then throw e >>= rest else rest ()) r)
      ((if cond' then throw e' >>= rest' else rest' ()) r') := by
  split
  · exact .fails fun _ _ _ ran => nomatch ran
  · next holds =>
    rw [if_neg (passes holds)]
    exact scales

theorem modify {f : σ → σ} {a : α} (steps : ∀ s, m.steps (f s) = m.steps s)
    (maps : ∀ s s', m.Alike s s' → m.Alike (f s) (f s')) :
    m.Scales (fun s => .ok a (f s)) (fun s => .ok a (f s)) where
  forward ran := by
    cases ran
    exact Nat.le_of_eq (steps _).symm
  agrees alike ran _ := by
    cases ran
    exact ⟨_, rfl, maps _ _ alike⟩
  spends _ ran within beyond := by
    cases ran
    rw [steps] at beyond
    exact absurd within (Nat.not_le.2 beyond)

theorem step {f : σ → σ} {bound : Nat} {e e' : ε} {a : α}
    (same : ∀ s s', m.Alike s s' → m.steps s = m.steps s') (steps : ∀ s, m.steps s ≤ m.steps (f s))
    (maps : ∀ s s', m.Alike s s' → m.Alike (f s) (f s')) (spent : m.Spent e') :
    m.Scales (fun s => if m.steps (f s) > bound then .error e (f s) else .ok a (f s))
      (fun s => if m.steps (f s) > m.limit then .error e' (f s) else .ok a (f s)) where
  forward {s _ _} ran := by
    split at ran
    · cases ran
    · cases ran
      exact steps s
  agrees alike ran within := by
    split at ran
    · cases ran
    · cases ran
      rw [same _ _ (maps _ _ alike)] at within
      exact ⟨_, if_neg (Nat.not_lt.2 within), maps _ _ alike⟩
  spends alike ran _ beyond := by
    split at ran
    · cases ran
    · cases ran
      rw [same _ _ (maps _ _ alike)] at beyond
      exact ⟨_, _, if_pos beyond, spent⟩

end Scales

end Meter

/-! ## Text -/

namespace Text

def meter (b : Bounds) : Meter FaultCause Sink where
  steps := Sink.steps
  Alike := Eq
  limit := b.maxSteps
  Spent cause := cause = b.outOfSteps

def Scales {α : Type} (low high : Bounds) (writer writer' : Writer α) : Prop :=
  (meter high).Scales (writer low) (writer' high)

variable {low high : Bounds}

theorem step_run (b : Bounds) : step b = fun s =>
    if s.steps + 1 > b.maxSteps then .error b.outOfSteps { s with steps := s.steps + 1 }
    else .ok () { s with steps := s.steps + 1 } := by
  funext s
  change (if s.steps + 1 > b.maxSteps then throw b.outOfSteps else pure () : Writer Unit) b
    { s with steps := s.steps + 1 } = _
  split <;> rfl

theorem scales_step : Scales low high step step := by
  rw [Scales, step_run, step_run]
  exact Meter.Scales.step (m := meter high) (f := fun s => { s with steps := s.steps + 1 })
    (a := ()) (fun _ _ same => congrArg Sink.steps same) (fun s => Nat.le_succ s.steps)
    (fun s s' same => by cases same; rfl) rfl

theorem scales_add (longer : low.maxLen ≤ high.maxLen) (t : String) :
    Scales low high (add t) (add t) := by
  refine .of_states (fun s s' same => ?_) fun _ => rfl
  cases same
  let append (_ : Unit) : Writer Unit := modify fun s => { s with text := s.text ++ t }
  have appends : Scales low high (append ()) (append ()) :=
    Meter.Scales.modify (m := meter high) (fun _ => rfl) fun _ _ same => by cases same; rfl
  let size := s.text.utf8ByteSize + t.utf8ByteSize
  have fits : ¬size > low.maxLen → ¬size > high.maxLen := fun fits =>
    Nat.not_lt.2 (Nat.le_trans (Nat.not_lt.1 fits) longer)
  exact ⟨_, _, Meter.Scales.guard fits appends, rfl, rfl⟩

section

variable {item item' : Value → Writer Unit} {h h' : Heap}

theorem scales_writeTail (longer : low.maxLen ≤ high.maxLen)
    (items : ∀ v, Scales low high (item v) (item' v)) (vs : List Value) :
    Scales low high (writeTail item vs) (writeTail item' vs) := by
  induction vs with
  | nil => exact .pure ()
  | cons v rest ih => exact (scales_add longer _).bind fun _ => (items v).bind fun _ => ih

theorem scales_writeItems (longer : low.maxLen ≤ high.maxLen)
    (items : ∀ v, Scales low high (item v) (item' v)) (vs : List Value) :
    Scales low high (writeItems item vs) (writeItems item' vs) := by
  cases vs with
  | nil => exact .pure ()
  | cons v rest => exact (items v).bind fun _ => scales_writeTail longer items rest

theorem scales_writeOne (longer : low.maxLen ≤ high.maxLen) (alike : h.Alike h')
    {item item' : Option (Value → Writer Unit)}
    (items : Option.Rel (fun w w' => ∀ v, Scales low high (w v) (w' v)) item item') (v : Value) :
    Scales low high (writeOne h item v) (writeOne h' item' v) := by
  have shown (t : String) := scales_add longer t
  refine scales_step.bind fun _ => ?_
  cases v with
  | object ref =>
    cases found : h.objects[ref]? with
    | none =>
      simp only [found, alike.none found]
      exact shown _
    | some o =>
      obtain ⟨o', found', same⟩ := alike.object found
      simp only [found, found']
      cases same with
      | model roots => exact shown _
      | refl =>
        cases o with
        | array vs =>
          cases items with
          | none => exact shown _
          | some items =>
            exact (shown _).bind fun _ => (scales_writeItems longer items _).bind fun _ => shown _
        | _ => exact shown _
  | _ => exact shown _

theorem scales_writeNested (longer : low.maxLen ≤ high.maxLen) (alike : h.Alike h')
    (depth : Nat) (v : Value) :
    Scales low high (writeNested h depth v) (writeNested h' depth v) := by
  induction depth generalizing v with
  | zero => exact scales_writeOne longer alike .none v
  | succ depth ih => exact scales_writeOne longer alike (.some ih) v

end

end Text

/-! ## Runs -/

/-- The second limits leave as much space for a run as the first, whatever the steps. -/
structure Limits.Roomier (low high : Limits) : Prop where
  vertices : low.maxVertices ≤ high.maxVertices
  parts : low.maxParts ≤ high.maxParts
  nodes : low.maxNodes ≤ high.maxNodes
  divisions : low.maxDivisions ≤ high.maxDivisions
  stringLen : low.maxStringLen ≤ high.maxStringLen
  heapBytes : low.maxHeapBytes ≤ high.maxHeapBytes
  arrayLen : low.maxArrayLen ≤ high.maxArrayLen

theorem RunState.Alike.refl (s : RunState) : s.Alike s :=
  ⟨.refl _, rfl, rfl, rfl⟩

namespace Run

def meter (limits : Limits) : Meter Fault RunState where
  steps := RunState.steps
  Alike := RunState.Alike
  limit := limits.maxSteps
  Spent f := f.cause = .stepLimit limits.maxSteps

def textBounds (limits : Limits) : Text.Bounds :=
  ⟨limits.maxStringLen, limits.maxSteps, .stepLimit limits.maxSteps⟩

def Scales {α : Type} (low high : Limits) (run run' : Run α) : Prop :=
  (meter high).Scales (run low) (run' high)

theorem tick_run (limits : Limits) : tick limits = fun s =>
    if s.steps + 1 > limits.maxSteps then
      .error ⟨.stepLimit limits.maxSteps, none⟩ { s with steps := s.steps + 1 }
    else .ok () { s with steps := s.steps + 1 } := by
  funext s
  change (if s.steps + 1 > limits.maxSteps then Run.fault (.stepLimit limits.maxSteps)
    else Pure.pure () : Run Unit) limits { s with steps := s.steps + 1 } = _
  split <;> rfl

theorem display_run (v : Value) (limits : Limits) (s : RunState) :
    display v limits s =
      match Text.write s.heap v (textBounds limits) ⟨"", s.steps⟩ with
      | .ok _ sink => .ok sink.text { s with steps := sink.steps }
      | .error cause sink => .error ⟨cause, none⟩ { s with steps := sink.steps } := by
  change (match Text.write s.heap v (textBounds limits) ⟨"", s.steps⟩ with
    | .ok _ sink => _
    | .error cause sink => _ : Run String) limits s = _
  cases Text.write s.heap v (textBounds limits) ⟨"", s.steps⟩ <;> rfl

theorem display_ok {v : Value} {limits : Limits} {s s' : RunState} {t : String}
    (ran : display v limits s = .ok t s') :
    ∃ sink, Text.write s.heap v (textBounds limits) ⟨"", s.steps⟩ = .ok () sink ∧
      t = sink.text ∧ s' = { s with steps := sink.steps } := by
  rw [display_run] at ran
  cases wrote : Text.write s.heap v (textBounds limits) ⟨"", s.steps⟩ with
  | error cause sink =>
    rw [wrote] at ran
    cases ran
  | ok _ sink =>
    rw [wrote] at ran
    cases ran
    exact ⟨sink, rfl, rfl, rfl⟩

variable {α β : Type} {low high : Limits}

theorem located_ok {limits : Limits} {p : Position} {run : Run α} {s t : RunState} {a : α} :
    located p run limits s = .ok a t ↔ run limits s = .ok a t := by
  unfold Run.located
  cases run limits s with
  | ok => exact .rfl
  | error => exact ⟨nofun, nofun⟩

theorem located_error {limits : Limits} {p : Position} {run : Run α} {s t : RunState}
    {f : Fault} :
    located p run limits s = .error f t ↔ ∃ g, f = g.locate p ∧ run limits s = .error g t := by
  unfold Run.located
  cases run limits s with
  | ok => simp
  | error g u =>
    simp only [EStateM.Result.error.injEq]
    constructor
    · rintro ⟨rfl, rfl⟩
      exact ⟨g, rfl, rfl, rfl⟩
    · rintro ⟨_, rfl, rfl, rfl⟩
      exact ⟨rfl, rfl⟩

theorem located_of_error {limits : Limits} {p : Position} {run : Run α} {s t : RunState}
    {f : Fault} (failed : run limits s = .error f t) :
    located p run limits s = .error (f.locate p) t := by
  unfold Run.located
  rw [failed]

namespace Scales

variable {run run' : Run α} {next next' : α → Run β}

theorem pure (a : α) : Scales low high (pure a) (pure a) :=
  Meter.Scales.pure a

theorem fault {cause : FaultCause} : Scales low high (fault cause : Run α) run' :=
  Meter.Scales.fails fun _ _ _ ran => nomatch ran

theorem bind (first : Scales low high run run') (rest : ∀ a, Scales low high (next a) (next' a)) :
    Scales low high (run >>= next) (run' >>= next') :=
  Meter.Scales.bind first rest

theorem lift (x : Except FaultCause α) : Scales low high (liftM x : Run α) (liftM x) := by
  cases x with
  | ok a => exact .pure a
  | error cause => exact .fault

theorem located {p : Position} (scales : Scales low high run run') :
    Scales low high (located p run) (located p run') where
  forward ran := Meter.Scales.forward scales (located_ok.1 ran)
  agrees alike ran within := by
    obtain ⟨t', ran', alike'⟩ := Meter.Scales.agrees scales alike (located_ok.1 ran) within
    exact ⟨t', located_ok.2 ran', alike'⟩
  spends alike ran within beyond := by
    obtain ⟨f, t', failed, spent⟩ :=
      Meter.Scales.spends scales alike (located_ok.1 ran) within beyond
    exact ⟨f.locate p, t', located_of_error failed, spent⟩

theorem limits {next next' : Limits → Run α} (rest : Scales low high (next low) (next' high)) :
    Scales low high (limits >>= next) (limits >>= next') :=
  rest

theorem guard {cond cond' : Prop} [Decidable cond] [Decidable cond'] {cause cause' : FaultCause}
    {next next' : Unit → Run α} (passes : ¬cond → ¬cond')
    (rest : Scales low high (next ()) (next' ())) :
    Scales low high (if cond then Run.fault cause >>= next else next ())
      (if cond' then Run.fault cause' >>= next' else next' ()) :=
  Meter.Scales.guard passes rest

theorem heap {next next' : Heap → Run α}
    (rest : ∀ h h', h.Alike h' → Scales low high (next h) (next' h')) :
    Scales low high (heap >>= next) (heap >>= next') :=
  Meter.Scales.of_states
    (fun s s' alike => ⟨_, _, rest s.heap s'.heap alike.heap, rfl, rfl⟩) .refl

theorem building {next next' : Building → Run α} (rest : ∀ b, Scales low high (next b) (next' b)) :
    Scales low high (building >>= next) (building >>= next') := by
  refine Meter.Scales.of_states (fun s s' alike => ?_) .refl
  refine ⟨next s.building low, next' s.building high, rest s.building, rfl, ?_⟩
  rw [alike.building]
  rfl

theorem modifyHeap {f : Heap → Heap} (maps : ∀ h h', h.Alike h' → (f h).Alike (f h')) :
    Scales low high (modifyHeap f) (modifyHeap f) :=
  Meter.Scales.modify (m := meter high) (fun _ => rfl) fun _ _ alike =>
    ⟨maps _ _ alike.heap, alike.building, alike.steps, alike.heapBytes⟩

theorem modifyBuilding (f : Building → Building) :
    Scales low high (modifyBuilding f) (modifyBuilding f) :=
  Meter.Scales.modify (m := meter high) (fun _ => rfl) fun _ _ alike =>
    ⟨alike.heap, congrArg f alike.building, alike.steps, alike.heapBytes⟩

theorem addObject {o o' : Object} (new : o.Alike o') :
    Scales low high (addObject o) (addObject o') where
  forward ran := by
    cases ran
    exact Nat.le_refl _
  agrees {s s' _ _} alike ran _ := by
    cases ran
    refine ⟨{ s' with heap := (s'.heap.add o').2 }, ?_, alike.heap.add new, alike.building,
      alike.steps, alike.heapBytes⟩
    rw [alike.heap.size]
    rfl
  spends _ ran within beyond := by
    cases ran
    exact absurd within (Nat.not_le.2 beyond)

theorem tick : Scales low high tick tick := by
  rw [Scales, tick_run, tick_run]
  exact Meter.Scales.step (m := meter high) (f := fun s => { s with steps := s.steps + 1 })
    (a := ()) (fun _ _ alike => alike.steps)
    (fun s => Nat.le_succ s.steps)
    (fun s s' alike => ⟨alike.heap, alike.building, congrArg Nat.succ alike.steps,
      alike.heapBytes⟩) rfl

theorem charge (roomier : low.Roomier high) (bytes : Nat) :
    Scales low high (charge bytes) (charge bytes) := by
  let spend (s : RunState) : RunState := { s with heapBytes := s.heapBytes + bytes }
  have spends : Scales low high (modify spend) (modify spend) :=
    Meter.Scales.modify (m := meter high) (fun _ => rfl) fun s s' alike =>
      ⟨alike.heap, alike.building, alike.steps, congrArg (· + bytes) alike.heapBytes⟩
  refine spends.bind fun _ => .of_states (fun s s' alike => ?_) .refl
  have fits : ¬s.heapBytes > low.maxHeapBytes → ¬s'.heapBytes > high.maxHeapBytes := fun fits =>
    alike.heapBytes ▸ Nat.not_lt.2 (Nat.le_trans (Nat.not_lt.1 fits) roomier.heapBytes)
  exact ⟨_, _, .ensure fits, rfl, rfl⟩

theorem string (roomier : low.Roomier high) (t : String) :
    Scales low high (string t) (string t) := by
  refine .limits (.guard (fun fits => ?_) ((charge roomier _).bind fun _ => .pure _))
  exact Nat.not_lt.2 (Nat.le_trans (Nat.not_lt.1 fits) roomier.stringLen)

theorem alloc (roomier : low.Roomier high) (o : Object) :
    Scales low high (alloc o) (alloc o) :=
  tick.bind fun _ => (charge roomier _).bind fun _ => (addObject (.refl o)).bind fun _ => .pure _

theorem display (roomier : low.Roomier high) (v : Value) :
    Scales low high (display v) (display v) := by
  have shown {h h' : Heap} (alike : h.Alike h') :
      Text.Scales (textBounds low) (textBounds high) (Text.write h v) (Text.write h' v) :=
    Text.scales_writeNested roomier.stringLen alike Text.maxDepth v
  refine ⟨fun {s t u} ran => ?_, fun {s s' t u} alike ran within => ?_,
    fun {s s' t u} alike ran within beyond => ?_⟩
  all_goals obtain ⟨sink, wrote, rfl, rfl⟩ := display_ok ran
  · exact (shown (.refl s.heap)).forward wrote
  · obtain ⟨sink', wrote', rfl⟩ := (shown alike.heap).agrees rfl wrote within
    rw [alike.steps] at wrote'
    refine ⟨{ s' with steps := sink.steps }, ?_, alike.heap, alike.building, rfl, alike.heapBytes⟩
    rw [display_run, wrote']
  · obtain ⟨cause, sink', failed, spent⟩ := (shown alike.heap).spends rfl wrote within beyond
    rw [alike.steps] at failed
    refine ⟨⟨cause, none⟩, { s' with steps := sink'.steps }, ?_, spent⟩
    rw [display_run, failed]

end Scales

end Run

end SceneScript
