import SceneScript.Proofs.Machine.Soundness

/-!
# What a run comes to

A run evaluates a program as a whole; the relations here say which statements it carries out and
which expressions it evaluates on the way, and in which states. Every statement and every expression
that a run of a well-typed program comes to finds variables of their types (`ReachesIn.typed`,
`Code.Reaches.typed`), so an expression always gives a value of its type.
-/

namespace SceneScript

open Run

variable {limits : Limits} {classes : List HostClass} {types : List Ty} {live : List Nat}
  {locals : Array Value} {s s' : RunState}

/-! ## Expressions -/

def Code.parts : Code → List Code
  | .const .. | .load .. | .getConstant .. => []
  | .getField _ target _ _ => [target]
  | .call _ target _ _ args => target :: args
  | .callStatic _ _ _ args => args
  | .unary _ _ operand | .widen _ operand => [operand]
  | .binary _ _ left right | .concat _ left right => [left, right]

/-- Whether more parts are evaluated behind those of the given values: a receiver must not be null,
and a logical operator may be decided. -/
def Code.GoesOn : Code → List Value → Prop
  | .call .., v :: _ => v ≠ .null
  | .binary _ .and .., [v] => v = .bool true
  | .binary _ .or .., [v] => v = .bool false
  | _, _ => True

theorem Code.goesOn_nil (e : Code) : e.GoesOn [] := by
  cases e with
  | binary _ op => cases op <;> trivial
  | _ => trivial

theorem Code.goesOn_logic {op : Source.BinaryOp} {left right : Code} {v : Value}
    (logical : op ∈ [.and, .or]) :
    (Code.binary p op left right).GoesOn [v] ↔ v = .bool (!BinaryOp.decisive op) := by
  fin_cases logical <;> rfl

theorem Code.goesOn_strict {op : Source.BinaryOp} {left right : Code} (strict : op ∉ [.and, .or])
    (vs : List Value) : (Code.binary p op left right).GoesOn vs := by
  cases op with
  | and | or => simp at strict
  | _ => trivial

/-- Taking a step in the first state and evaluating parts one after another comes to one of them in
the second state. -/
def ComesTo (limits : Limits) (classes : List HostClass) (locals : Array Value)
    (parts : List Code) (goesOn : List Value → Prop) (s : RunState) (part : Code)
    (s' : RunState) : Prop :=
  ∃ before after vs s₁, parts = before ++ part :: after ∧ tick limits s = .ok () s₁ ∧
    evalAll classes locals before limits s₁ = .ok vs s' ∧ goesOn vs

inductive Code.Reaches (limits : Limits) (classes : List HostClass) (locals : Array Value) :
    Code → RunState → Code → RunState → Prop
  | self {e s} : Reaches limits classes locals e s e s
  | part {e s part s₁ e' s'} : ComesTo limits classes locals e.parts e.GoesOn s part s₁ →
      Reaches limits classes locals part s₁ e' s' → Reaches limits classes locals e s e' s'

theorem usesAll_append (before after : List Code) :
    usesAll (before ++ after) = usesAll before ++ usesAll after := by
  induction before with
  | nil => rfl
  | cons e rest ih => rw [List.cons_append, usesAll, ih, usesAll, List.append_assoc]

theorem Code.usesAll_parts (e : Code) : usesAll e.parts ⊆ e.uses := by
  cases e <;> simp [parts, Code.uses, usesAll]

theorem Code.HasType.parts {e : Code} {t : Ty} (typed : e.HasType types live t) :
    ∃ ts, HaveTypes types live e.parts ts := by
  cases typed with
  | const | load | getConstant => exact ⟨[], .nil⟩
  | getField target => exact ⟨_, .cons target .nil⟩
  | call target _ _ args => exact ⟨_, .cons target args⟩
  | callStatic _ args => exact ⟨_, args⟩
  | neg operand | not operand | widen operand => exact ⟨_, .cons operand .nil⟩
  | arithmetic _ _ left right | order _ _ left right | equality _ _ left right
  | logic _ left right | concat left right => exact ⟨_, .cons left (.cons right .nil)⟩

theorem Supports.subset {uses fewer : List Use} (supports : Supports classes uses)
    (sub : fewer ⊆ uses) : Supports classes fewer :=
  fun u mem => supports u (sub mem)

structure EvaluationTyped (types : List Ty) (live : List Nat) (locals : Array Value)
    (uses : List Use) (e : Code) (s : RunState) : Prop where
  typed : ∃ t, e.HasType types live t
  uses : e.uses ⊆ uses
  locals : LocalsTyped types live locals s.heap
  state : s.WellTyped

theorem HaveTypes.split {before after : List Code} {e : Code} {ts : List Ty}
    (typed : HaveTypes types live (before ++ e :: after) ts) :
    ∃ us t, HaveTypes types live before us ∧ e.HasType types live t := by
  induction before generalizing ts with
  | nil =>
    cases typed with
    | cons first _ => exact ⟨[], _, .nil, first⟩
  | cons d before ih =>
    cases typed with
    | cons first rest =>
      obtain ⟨us, t, typedBefore, typed⟩ := ih rest
      exact ⟨_, t, .cons first typedBefore, typed⟩

theorem ComesTo.typed {parts : List Code} {goesOn : List Value → Prop} {part : Code} {ts : List Ty}
    (comes : ComesTo limits classes locals parts goesOn s part s')
    (typed : HaveTypes types live parts ts) (supports : Supports classes (usesAll parts))
    (vars : LocalsTyped types live locals s.heap) (state : s.WellTyped) :
    EvaluationTyped types live locals (usesAll parts) part s' := by
  obtain ⟨before, after, vs, s₁, rfl, ticked, ran, -⟩ := comes
  obtain ⟨us, t, typedBefore, typedPart⟩ := typed.split
  rw [usesAll_append, usesAll] at supports ⊢
  obtain ⟨state₁, grown₁, -⟩ := safe_tick.of_ok state ticked
  obtain ⟨state₂, grown₂, -⟩ :=
    (typedBefore.safe_evalAll supports.left (vars.mono grown₁)).of_ok state₁ ran
  refine ⟨⟨t, typedPart⟩, fun u mem => ?_, vars.mono (grown₁.trans grown₂), state₂⟩
  exact List.mem_append_right _ (List.mem_append_left _ mem)

theorem EvaluationTyped.widen {uses more : List Use} {e : Code}
    (typed : EvaluationTyped types live locals uses e s) (sub : uses ⊆ more) :
    EvaluationTyped types live locals more e s :=
  ⟨typed.typed, fun _ mem => sub (typed.uses mem), typed.locals, typed.state⟩

theorem Code.Reaches.typed {e e' : Code} {uses : List Use}
    (reaches : Reaches limits classes locals e s e' s') (supports : Supports classes uses)
    (typed : EvaluationTyped types live locals uses e s) :
    EvaluationTyped types live locals uses e' s' := by
  induction reaches with
  | self => exact typed
  | part comes _ ih =>
    obtain ⟨⟨t, ofType⟩, sub, vars, state⟩ := typed
    obtain ⟨ts, ofTypes⟩ := ofType.parts
    have within := List.Subset.trans (Code.usesAll_parts _) sub
    exact ih ((comes.typed ofTypes (supports.subset within) vars state).widen within)

theorem EvaluationTyped.value {uses : List Use} {e : Code} {v : Value} {t : Ty}
    (typed : EvaluationTyped types live locals uses e s) (supports : Supports classes uses)
    (ofType : e.HasType types live t) (gives : e.eval classes locals limits s = .ok v s') :
    v.HasType s'.heap t :=
  ((ofType.safe_eval (supports.subset typed.uses) typed.locals).of_ok typed.state gives).2.2

/-! ## Statements -/

def Instr.parts : Instr → List Code
  | .store _ _ value | .give _ value | .eval _ value => [value]
  | .setField _ target _ _ value => [target, value]
  | .choose _ cond _ _ => [cond]
  | .loop _ _ first last _ => [first, last]

def Instr.GoesOn : Instr → List Value → Prop
  | .setField .., v :: _ => v ≠ .null
  | _, _ => True

theorem Instr.usesAll_parts (i : Instr) : usesAll i.parts ⊆ i.uses := by
  cases i <;> simp [parts, Instr.uses, usesAll]

theorem Instr.WellTyped.parts {i : Instr} {result : Ty} {live' : List Nat}
    (typed : i.WellTyped types result live live') : ∃ ts, HaveTypes types live i.parts ts := by
  cases typed with
  | store value | give value | eval value => exact ⟨_, .cons value .nil⟩
  | setField target _ _ value => exact ⟨_, .cons target (.cons value .nil)⟩
  | choose cond => exact ⟨_, .cons cond .nil⟩
  | loop first last => exact ⟨_, .cons first (.cons last .nil)⟩

inductive ReachesIn (limits : Limits) (classes : List HostClass) :
    List Instr → Array Value → RunState → Instr → Array Value → RunState → Prop
  | first {i rest locals s} : ReachesIn limits classes (i :: rest) locals s i locals s
  | later {i rest locals s locals₁ s₁ i' locals' s'} :
      i.exec classes locals limits s = .ok (.next, locals₁) s₁ →
      ReachesIn limits classes rest locals₁ s₁ i' locals' s' →
      ReachesIn limits classes (i :: rest) locals s i' locals' s'
  | branch {p cond body otherwise rest locals s s₁ b s₂ i' locals' s'} :
      tick limits s = .ok () s₁ → cond.eval classes locals limits s₁ = .ok (.bool b) s₂ →
      ReachesIn limits classes (if b then body else otherwise) locals s₂ i' locals' s' →
      ReachesIn limits classes (.choose p cond body otherwise :: rest) locals s i' locals' s'
  | round {p slot first last body rest locals s s₁ a s₂ b s₃ k locals₁ s₄ s₅ locals₂ s₆ i' locals'
        s'} :
      tick limits s = .ok () s₁ → first.eval classes locals limits s₁ = .ok (.int a) s₂ →
      last.eval classes locals limits s₂ = .ok (.int b) s₃ → k < (b.toInt - a.toInt).toNat →
      Exec.iterate (Exec.round classes slot body) k a.toInt locals limits s₃ =
        .ok (.next, locals₁) s₄ →
      tick limits s₄ = .ok () s₅ →
      Exec.store slot (.int (Int64.ofInt (a.toInt + k))) locals₁ limits s₅ = .ok ((), locals₂) s₆ →
      ReachesIn limits classes body locals₂ s₆ i' locals' s' →
      ReachesIn limits classes (.loop p slot first last body :: rest) locals s i' locals' s'

structure ExecutionTyped (types : List Ty) (result : Ty) (uses : List Use) (i : Instr)
    (locals : Array Value) (s : RunState) : Prop where
  typed : ∃ live live', i.WellTyped types result live live' ∧ LocalsTyped types live locals s.heap
  uses : i.uses ⊆ uses
  state : s.WellTyped

theorem ExecutionTyped.widen {result : Ty} {uses more : List Use} {i : Instr}
    (typed : ExecutionTyped types result uses i locals s) (sub : uses ⊆ more) :
    ExecutionTyped types result more i locals s :=
  ⟨typed.typed, fun _ mem => sub (typed.uses mem), typed.state⟩

theorem usesIn_subset_cons {i : Instr} {rest : List Instr} : usesIn rest ⊆ usesIn (i :: rest) := by
  rw [usesIn]
  exact List.subset_append_right _ _

theorem ReachesIn.typed {result : Ty} {body : List Instr} {i : Instr} {locals' : Array Value}
    (reaches : ReachesIn limits classes body locals s i locals' s')
    {live live' : List Nat} (typed : AllWellTyped types result live body live')
    (supports : Supports classes (usesIn body)) (vars : LocalsTyped types live locals s.heap)
    (state : s.WellTyped) : ExecutionTyped types result (usesIn body) i locals' s' := by
  induction reaches generalizing live live' with
  | first =>
    cases typed with
    | cons first _ => exact ⟨⟨_, _, first, vars⟩, List.subset_append_left _ _, state⟩
  | later ran _ ih =>
    cases typed with
    | cons first others =>
      obtain ⟨state₁, grown₁, fits⟩ := Run.Safe.of_ok (first.safe_exec supports.left vars) state ran
      exact (ih others supports.right fits state₁).widen usesIn_subset_cons
  | @branch p cond body otherwise rest locals s s₁ b s₂ i' locals' s' ticked chosen _ ih =>
    cases typed with
    | cons first _ =>
      cases first with
      | choose ofCond ofBody ofOtherwise =>
        have supports : Supports classes (cond.uses ++ (usesIn body ++ usesIn otherwise)) :=
          supports.left
        obtain ⟨state₁, grown₁, -⟩ := safe_tick.of_ok state ticked
        have vars₁ := vars.mono grown₁
        obtain ⟨state₂, grown₂, -⟩ := (ofCond.safe_eval supports.left vars₁).of_ok state₁ chosen
        have vars₂ := vars₁.mono grown₂
        have sub : usesIn (if b then body else otherwise) ⊆
            usesIn (.choose p cond body otherwise :: rest) := by
          rw [usesIn, Instr.uses]
          intro u mem
          cases b <;> simp_all
        cases b with
        | true => exact (ih ofBody supports.right.left vars₂ state₂).widen sub
        | false => exact (ih ofOtherwise supports.right.right vars₂ state₂).widen sub
  | @round p slot first last body rest locals s s₁ a s₂ b s₃ k locals₁ s₄ s₅ locals₂ s₆ i' locals' s'
      ticked from_ to_ _ before ticked' stored _ ih =>
    cases typed with
    | cons head _ =>
      cases head with
      | loop ofFirst ofLast declared ofBody =>
        have supports : Supports classes (first.uses ++ (last.uses ++ usesIn body)) :=
          supports.left
        obtain ⟨state₁, grown₁, -⟩ := safe_tick.of_ok state ticked
        have vars₁ := vars.mono grown₁
        obtain ⟨state₂, grown₂, -⟩ := (ofFirst.safe_eval supports.left vars₁).of_ok state₁ from_
        have vars₂ := vars₁.mono grown₂
        obtain ⟨state₃, grown₃, -⟩ := (ofLast.safe_eval supports.right.left vars₂).of_ok state₂ to_
        have round : ∀ i s locals, LocalsTyped types live locals s.heap →
            Exec.Safe limits s locals (Exec.round classes slot body i)
              (Exec.Fits types live result) :=
          Exec.safe_round declared fun s locals vars =>
            (ofBody.safe_execAll supports.right.right vars).subset fun _ mem =>
              ofBody.live_subset (List.mem_cons_of_mem slot mem)
        -- The rounds before this one keep the variables typed.
        obtain ⟨state₄, -, vars₄⟩ := Run.Safe.of_ok
          (Exec.safe_iterate round k a.toInt s₃ _ (vars₂.mono grown₃)) state₃ before
        obtain ⟨state₅, grown₅, -⟩ := safe_tick.of_ok state₄ ticked'
        obtain ⟨state₆, -, vars₆⟩ := Run.Safe.of_ok
          (Exec.safe_store declared (.int _) (LocalsTyped.mono vars₄ grown₅)) state₅ stored
        refine (ih ofBody supports.right.right vars₆ state₆).widen fun u mem => ?_
        rw [usesIn, Instr.uses]
        simp [mem]

end SceneScript
