import SceneScript.Proofs.Machine.Parallel
import SceneScript.Proofs.Machine.Rounds
import SceneScript.Proofs.Moments

/-!
# Where the faults of expressions arise

An expression fails itself if its evaluation fails although all of its parts give values; then it is
the innermost expression that is being evaluated when the fault arises. Every fault arises so
(`Code.origin`), and what is around the expression hands it on unchanged (`Code.error_of_reached`).
The fault is located at the expression, or at a receiver that is null (`Code.FailsItself.place_self`, `Code.Refuses.place`).
-/

namespace SceneScript

open Run

variable {limits : Limits} {classes : List HostClass} {locals : Array Value} {s s' s₁ : RunState}
  {f : Fault} {p q : Position}

/-! ## Faults and their places -/

theorem Fault.locate_of_located (placed : f.position = some q) : f.locate p = f := by
  obtain ⟨cause, position⟩ := f
  cases placed
  rfl

theorem Fault.locate_of_none (unlocated : f.position = none) :
    (f.locate p).position = some p := by
  obtain ⟨cause, position⟩ := f
  cases unlocated
  rfl

namespace Run

variable {α β : Type} {run : Run α} {next : α → Run β}

theorem located_placed (failed : located p run limits s = .error f s') :
    ∃ q, f.position = some q := by
  obtain ⟨g, rfl, -⟩ := located_error.1 failed
  cases is : g.position with
  | none => exact ⟨p, Fault.locate_of_none is⟩
  | some q => exact ⟨q, by rw [Fault.locate_of_located is, is]⟩

theorem located_of_located (failed : run limits s = .error f s') (placed : f.position = some q) :
    located p run limits s = .error f s' := by
  rw [located_of_error failed, Fault.locate_of_located placed]

def Unlocated (limits : Limits) (s : RunState) (run : Run α) : Prop :=
  ∀ f s', run limits s = .error f s' → f.position = none

namespace Unlocated

theorem of_ok {a : α} (ran : run limits s = .ok a s') : Unlocated limits s run := by
  intro f t failed
  rw [ran] at failed
  cases failed

theorem composed (composed : Composed (fun _ => False) run) : Unlocated limits s run := by
  intro f s' failed
  have ends : EndAlike (fun _ => False) (run limits s) (run limits s) :=
    composed.parallel s s (.refl s)
  rw [failed] at ends
  cases ends with
  | error place _ =>
    cases is : f.position with
    | none => rfl
    | some q => exact (place q is).elim

theorem bind (first : Unlocated limits s run)
    (rest : ∀ a s', run limits s = .ok a s' → Unlocated limits s' (next a)) :
    Unlocated limits s (run >>= next) := by
  intro f s' failed
  rw [bind_apply] at failed
  cases ran : run limits s with
  | ok a s₁ =>
    rw [ran] at failed
    exact rest a s₁ ran f s' failed
  | error g s₁ =>
    rw [ran] at failed
    cases failed
    exact first _ _ ran

theorem after {a : α} (ran : run limits s = .ok a s₁) (rest : Unlocated limits s₁ (next a)) :
    Unlocated limits s (run >>= next) :=
  bind (.of_ok ran) fun b s₂ ran' => by
    cases ran.symm.trans ran'
    exact rest

theorem place (unlocated : Unlocated limits s run)
    (failed : located p run limits s = .error f s') : f.position = some p := by
  obtain ⟨g, rfl, failed'⟩ := located_error.1 failed
  exact Fault.locate_of_none (unlocated g s' failed')

theorem step_place (failed : located p (tick >>= fun _ => run) limits s = .error f s')
    (rest : ∀ s₁, tick limits s = .ok () s₁ → Unlocated limits s₁ run) :
    f.position = some p :=
  place (bind (.composed .tick) fun _ s₁ ticked => rest s₁ ticked) failed

end Unlocated

end Run

/-! ## Parts of expressions -/

theorem evalAll_error {before after : List Code} {part : Code} {vs : List Value}
    (ran : evalAll classes locals before limits s = .ok vs s₁)
    (failed : part.eval classes locals limits s₁ = .error f s') :
    evalAll classes locals (before ++ part :: after) limits s = .error f s' := by
  induction before generalizing s vs with
  | nil =>
    cases ran
    rw [List.nil_append, evalAll]
    exact Meter.Scales.bind_of_error failed
  | cons e before ih =>
    obtain ⟨v, vs', s₂, ofFirst, ofRest, -⟩ := evalAll_cons_ok ran
    rw [List.cons_append, evalAll]
    exact .trans (Meter.Scales.bind_of_ok ofFirst) (Meter.Scales.bind_of_error (ih ofRest))

theorem evalAll_ok {es : List Code}
    (each : ∀ before part after vs s₁, es = before ++ part :: after →
      evalAll classes locals before limits s = .ok vs s₁ →
      ∃ v s₂, part.eval classes locals limits s₁ = .ok v s₂) :
    ∃ vs s₁, evalAll classes locals es limits s = .ok vs s₁ := by
  induction es generalizing s with
  | nil => exact ⟨[], s, rfl⟩
  | cons e rest ih =>
    obtain ⟨v, s₁, ofFirst⟩ := each [] e rest [] s rfl rfl
    have others : ∀ before part after vs s₂, rest = before ++ part :: after →
        evalAll classes locals before limits s₁ = .ok vs s₂ →
        ∃ v s₃, part.eval classes locals limits s₂ = .ok v s₃ := by
      intro before part after vs s₂ split ran
      refine each (e :: before) part after (v :: vs) s₂ (by rw [split]; rfl) ?_
      rw [evalAll]
      exact .trans (Meter.Scales.bind_of_ok ofFirst) (Meter.Scales.bind_of_ok ran)
    obtain ⟨vs, s₂, ofRest⟩ := ih others
    refine ⟨v :: vs, s₂, ?_⟩
    rw [evalAll]
    exact .trans (Meter.Scales.bind_of_ok ofFirst) (Meter.Scales.bind_of_ok ofRest)

theorem ComesTo.head {part : Code} {rest : List Code} {goesOn : List Value → Prop}
    (ticked : tick limits s = .ok () s₁) (goes : goesOn []) :
    ComesTo limits classes locals (part :: rest) goesOn s part s₁ :=
  ⟨[], rest, [], s₁, rfl, ticked, rfl, goes⟩

theorem ComesTo.second {x y : Code} {rest : List Code} {goesOn : List Value → Prop} {v : Value}
    {s₂ : RunState} (ticked : tick limits s = .ok () s₁)
    (ofFirst : x.eval classes locals limits s₁ = .ok v s₂) (goes : goesOn [v]) :
    ComesTo limits classes locals (x :: y :: rest) goesOn s y s₂ := by
  refine ⟨[x], rest, [v], s₁, rfl, ticked, ?_, goes⟩
  rw [evalAll]
  exact Meter.Scales.bind_of_ok ofFirst

/-! ## Faults that are handed on -/

theorem Run.step_error {α : Type} {run : Run α} (ticked : tick limits s = .ok () s₁)
    (failed : run limits s₁ = .error f s') (placed : f.position = some q) :
    located p (tick >>= fun _ => run) limits s = .error f s' :=
  located_of_located (.trans (Meter.Scales.bind_of_ok ticked) failed) placed

theorem Code.error_of_part {e part : Code}
    (comes : ComesTo limits classes locals e.parts e.GoesOn s part s₁)
    (failed : part.eval classes locals limits s₁ = .error f s') (placed : f.position = some q) :
    e.eval classes locals limits s = .error f s' := by
  cases e with
  | const | load | getConstant => exact comes.none.elim
  | getField | unary | widen =>
    obtain ⟨rfl, ticked⟩ := comes.one
    rw [Code.eval]
    exact step_error ticked (Meter.Scales.bind_of_error failed) placed
  | callStatic p owner name args =>
    obtain ⟨before, after, vs, s₂, rfl, ticked, ran, -⟩ := comes
    rw [Code.eval]
    exact step_error ticked (Meter.Scales.bind_of_error (evalAll_error ran failed)) placed
  | call p target owner name args =>
    obtain ⟨before, after, vs, s₂, split, ticked, ran, goes⟩ := comes
    rw [Code.eval]
    cases before with
    | nil =>
      cases split
      cases ran
      exact step_error ticked (Meter.Scales.bind_of_error failed) placed
    | cons _ before =>
      cases split
      obtain ⟨v, vs', s₃, ofTarget, ofArgs, rfl⟩ := evalAll_cons_ok ran
      refine step_error ticked (.trans (Meter.Scales.bind_of_ok ofTarget) ?_) placed
      refine .trans (Meter.Scales.bind_of_ok (receiver_ok goes)) ?_
      exact Meter.Scales.bind_of_error (evalAll_error ofArgs failed)
  | binary p op left right =>
    obtain ⟨s₂, ticked, ⟨rfl, rfl⟩ | ⟨rfl, v, ofLeft, goes⟩⟩ := comes.two
    · by_cases logical : op ∈ [.and, .or]
      · rw [Code.eval_logic logical]
        exact step_error ticked (Meter.Scales.bind_of_error failed) placed
      · rw [Code.eval_binary logical]
        exact step_error ticked (Meter.Scales.bind_of_error failed) placed
    · by_cases logical : op ∈ [.and, .or]
      · obtain rfl := (goesOn_logic logical).1 goes
        rw [Code.eval_logic logical]
        have undecided : (liftM (Value.bool (!BinaryOp.decisive op)).asBool : Run Bool) limits s₁ =
            .ok (!BinaryOp.decisive op) s₁ := rfl
        refine step_error ticked (.trans (Meter.Scales.bind_of_ok ofLeft) ?_) placed
        dsimp only
        rw [bind_apply, undecided]
        dsimp only
        rw [if_neg (Bool.not_ne_self _)]
        exact Meter.Scales.bind_of_error failed
      · rw [Code.eval_binary logical]
        exact step_error ticked (.trans (Meter.Scales.bind_of_ok ofLeft)
          (Meter.Scales.bind_of_error failed)) placed
  | concat p left right =>
    rw [Code.eval]
    obtain ⟨s₂, ticked, ⟨rfl, rfl⟩ | ⟨rfl, v, ofLeft, -⟩⟩ := comes.two
    · exact step_error ticked (Meter.Scales.bind_of_error failed) placed
    · exact step_error ticked (.trans (Meter.Scales.bind_of_ok ofLeft)
        (Meter.Scales.bind_of_error failed)) placed

theorem Code.error_of_reached {e e' : Code} (reaches : Reaches limits classes locals e s e' s₁)
    (failed : e'.eval classes locals limits s₁ = .error f s') (placed : f.position = some q) :
    e.eval classes locals limits s = .error f s' := by
  induction reaches with
  | self => exact failed
  | part comes _ ih => exact Code.error_of_part comes (ih failed) placed

/-! ## Expressions that fail themselves -/

/-- The evaluation fails, and every part that it comes to gives a value. -/
structure Code.FailsItself (limits : Limits) (classes : List HostClass) (locals : Array Value)
    (e : Code) (s : RunState) (f : Fault) (s' : RunState) : Prop where
  fails : e.eval classes locals limits s = .error f s'
  parts : ∀ part s₁, ComesTo limits classes locals e.parts e.GoesOn s part s₁ →
    ∃ v s₂, part.eval classes locals limits s₁ = .ok v s₂

inductive Code.Refuses (limits : Limits) (classes : List HostClass) (locals : Array Value) :
    Code → RunState → Code → Prop
  | getField {p target owner name s s₁ s₂} : tick limits s = .ok () s₁ →
      target.eval classes locals limits s₁ = .ok .null s₂ →
      Refuses limits classes locals (.getField p target owner name) s target
  | call {p target owner name args s s₁ s₂} : tick limits s = .ok () s₁ →
      target.eval classes locals limits s₁ = .ok .null s₂ →
      Refuses limits classes locals (.call p target owner name args) s target

theorem Run.receiver_null (limits : Limits) (s : RunState) (p : Position) (member : String) :
    receiver p member .null limits s = .error ⟨.nullAccess member, some p⟩ s :=
  rfl

theorem Code.Refuses.place {e part : Code} (refuses : Refuses limits classes locals e s part)
    (failed : e.eval classes locals limits s = .error f s') :
    f.position = some part.position := by
  cases refuses with
  | getField ticked ofTarget | call ticked ofTarget =>
    rw [Code.eval] at failed
    obtain ⟨g, rfl, inner⟩ := located_error.1 failed
    rw [bind_apply, ticked] at inner
    dsimp only at inner
    rw [bind_apply, ofTarget] at inner
    cases inner
    rfl

theorem Run.unlocated_asBool {run : Run Value} (given : ∃ v s', run limits s = .ok v s') :
    Unlocated limits s (do return Value.bool (← (← run).asBool)) := by
  obtain ⟨v, s', ran⟩ := given
  exact .after ran (.composed ((Composed.lift _).bind fun b => .pure _))

theorem Run.unlocated_decided {run last : Run Value} {v : Value} {decisive : Bool}
    (ran : run limits s = .ok v s₁) (goesOn : v = .bool (!decisive) → Unlocated limits s₁ last) :
    Unlocated limits s (do if (← (← run).asBool) = decisive then return .bool decisive else last) := by
  refine .after ran (.bind (.composed (.lift _)) fun b s₂ decided => ?_)
  cases v with
  | bool b' =>
    cases decided
    split
    · exact .composed (.pure _)
    · next undecided => exact goesOn (Value.bool_eq_not_iff.2 undecided)
  | _ => cases decided

theorem Code.FailsItself.place_self {e : Code}
    (itself : FailsItself limits classes locals e s f s')
    (given : ∀ part, ¬Refuses limits classes locals e s part) : f.position = some e.position := by
  obtain ⟨failed, parts⟩ := itself
  cases e with
  | const p c =>
    rw [Code.eval] at failed
    exact Unlocated.step_place failed fun s₁ _ => .composed (.pure _)
  | load p slot =>
    rw [Code.eval] at failed
    exact Unlocated.step_place failed fun s₁ _ => .composed (.readSlot locals slot)
  | getConstant p owner name =>
    rw [Code.eval] at failed
    exact Unlocated.step_place failed fun s₁ _ => .composed
      ((Composed.requireClass classes owner).bind fun _ => .call (.constant owner name))
  | getField p target owner name =>
    rw [Code.eval] at failed
    refine Unlocated.step_place failed fun s₁ ticked => ?_
    obtain ⟨v, s₂, ofTarget⟩ := parts target s₁ (.head ticked trivial)
    have nonNull : v ≠ .null := fun null => given target (.getField ticked (null ▸ ofTarget))
    refine .after ofTarget (.after (receiver_ok nonNull) ?_)
    exact .composed ((Composed.requireClass classes owner).bind fun _ => .call (.get owner name v))
  | call p target owner name args =>
    rw [Code.eval] at failed
    refine Unlocated.step_place failed fun s₁ ticked => ?_
    obtain ⟨v, s₂, ofTarget⟩ := parts target s₁ (.head ticked trivial)
    have nonNull : v ≠ .null := fun null => given target (.call ticked (null ▸ ofTarget))
    obtain ⟨vs, s₃, ofArgs⟩ : ∃ vs s₃, evalAll classes locals args limits s₂ = .ok vs s₃ := by
      refine evalAll_ok fun before part after vs s₃ split ran => ?_
      -- An argument is a part of the call behind the receiver and the arguments before it.
      have behind : target :: args = target :: before ++ part :: after := congrArg _ split
      refine parts part s₃ ⟨target :: before, after, v :: vs, s₁, behind, ticked, ?_, nonNull⟩
      rw [evalAll]
      exact .trans (Meter.Scales.bind_of_ok ofTarget) (Meter.Scales.bind_of_ok ran)
    refine .after ofTarget (.after (receiver_ok nonNull) (.after ofArgs ?_))
    exact .composed ((Composed.requireClass classes owner).bind fun _ =>
      .call (.method owner name v vs))
  | callStatic p owner name args =>
    rw [Code.eval] at failed
    refine Unlocated.step_place failed fun s₁ ticked => ?_
    obtain ⟨vs, s₂, ofArgs⟩ : ∃ vs s₂, evalAll classes locals args limits s₁ = .ok vs s₂ :=
      evalAll_ok fun before part after vs s₂ split ran =>
        parts part s₂ ⟨before, after, vs, s₁, split, ticked, ran, trivial⟩
    refine .after ofArgs ?_
    exact .composed ((Composed.requireClass classes owner).bind fun _ =>
      .call (.static owner name vs))
  | unary p op operand =>
    rw [Code.eval] at failed
    refine Unlocated.step_place failed fun s₁ ticked => ?_
    obtain ⟨v, s₂, ofOperand⟩ := parts operand s₁ (.head ticked trivial)
    exact .after ofOperand (.composed (.lift _))
  | widen p operand =>
    rw [Code.eval] at failed
    refine Unlocated.step_place failed fun s₁ ticked => ?_
    obtain ⟨v, s₂, ofOperand⟩ := parts operand s₁ (.head ticked trivial)
    exact .after ofOperand (.composed ((Composed.lift _).bind fun x => .pure _))
  | concat p left right =>
    rw [Code.eval] at failed
    refine Unlocated.step_place failed fun s₁ ticked => ?_
    obtain ⟨v, s₂, ofLeft⟩ := parts left s₁ (.head ticked trivial)
    obtain ⟨w, s₃, ofRight⟩ := parts right s₂ (.second ticked ofLeft trivial)
    refine .after ofLeft (.after ofRight ?_)
    exact .composed ((Composed.display v).bind fun _ => (Composed.display w).bind fun _ =>
      .string _)
  | binary p op left right =>
    by_cases logical : op ∈ [.and, .or]
    · rw [Code.eval_logic logical] at failed
      refine Unlocated.step_place failed fun s₁ ticked => ?_
      obtain ⟨v, s₂, ofLeft⟩ := parts left s₁ (.head ticked (goesOn_nil _))
      refine unlocated_decided ofLeft fun undecided => ?_
      refine unlocated_asBool (parts right s₂ (.second ticked ofLeft ?_))
      exact (goesOn_logic logical).2 undecided
    · rw [Code.eval_binary logical] at failed
      refine Unlocated.step_place failed fun s₁ ticked => ?_
      obtain ⟨v, s₂, ofLeft⟩ := parts left s₁ (.head ticked (goesOn_nil _))
      obtain ⟨w, s₃, ofRight⟩ := parts right s₂ (.second ticked ofLeft (goesOn_strict logical _))
      exact .after ofLeft (.after ofRight (.composed (.lift _)))

/-! ## Origins -/

theorem Code.sizeOf_part {e part : Code} (mem : part ∈ e.parts) : sizeOf part < sizeOf e := by
  cases e with
  | const | load | getConstant => cases mem
  | getField | unary | widen =>
    obtain rfl := List.mem_singleton.1 mem
    simp +arith
  | callStatic p owner name args =>
    have smaller : sizeOf part < sizeOf args := List.sizeOf_lt_of_mem mem
    rw [Code.callStatic.sizeOf_spec]
    omega
  | call p target owner name args =>
    rw [Code.call.sizeOf_spec]
    obtain rfl | mem := List.mem_cons.1 mem
    · omega
    · have smaller : sizeOf part < sizeOf args := List.sizeOf_lt_of_mem mem
      omega
  | binary p op left right | concat p left right =>
    obtain rfl | mem := List.mem_cons.1 mem
    · simp +arith
    · obtain rfl := List.mem_singleton.1 mem
      simp +arith

theorem Code.eval_placed {e : Code} (failed : e.eval classes locals limits s = .error f s') :
    ∃ q, f.position = some q := by
  cases e with
  | binary p op left right =>
    by_cases logical : op ∈ [.and, .or]
    · fin_cases logical <;> exact located_placed failed
    · rw [Code.eval_binary logical] at failed
      exact located_placed failed
  | _ =>
    rw [Code.eval] at failed
    exact located_placed failed

theorem ComesTo.mem {parts : List Code} {goesOn : List Value → Prop} {part : Code}
    (comes : ComesTo limits classes locals parts goesOn s part s') : part ∈ parts := by
  obtain ⟨before, after, _, _, rfl, -⟩ := comes
  exact List.mem_append_right _ List.mem_cons_self

/-- If the evaluation of an expression fails, then because it comes to one that fails itself. -/
theorem Code.origin (e : Code) {s : RunState}
    (failed : e.eval classes locals limits s = .error f s') :
    ∃ e' s₁, Reaches limits classes locals e s e' s₁ ∧
      FailsItself limits classes locals e' s₁ f s' := by
  -- If a part fails, its fault is located already and the expression only hands it on.
  by_cases inner : ∃ part s₁ g s₂, ComesTo limits classes locals e.parts e.GoesOn s part s₁ ∧
      part.eval classes locals limits s₁ = .error g s₂
  · obtain ⟨part, s₁, g, s₂, comes, failedPart⟩ := inner
    obtain ⟨q, placed⟩ := Code.eval_placed failedPart
    cases failed.symm.trans (Code.error_of_part comes failedPart placed)
    have smaller := Code.sizeOf_part comes.mem
    obtain ⟨e', s₃, reaches, itself⟩ := part.origin failedPart
    exact ⟨e', s₃, .part comes reaches, itself⟩
  · refine ⟨e, s, .self, failed, fun part s₁ comes => ?_⟩
    cases ran : part.eval classes locals limits s₁ with
    | ok v s₂ => exact ⟨v, s₂, rfl⟩
    | error g s₂ => exact absurd ⟨part, s₁, g, s₂, comes, ran⟩ inner
termination_by sizeOf e

end SceneScript
