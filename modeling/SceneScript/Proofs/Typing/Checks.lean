import SceneScript.Proofs.Typing.Closure
import Mathlib.Data.List.Infix
import Mathlib.Tactic.Common

/-!
# Reasoning about checks

The checker goes on behind an error, so what a check finds out counts only if no fault is recorded
at its end. A check yields a result with some property if that holds of every run that ends without
faults (`Check.Yields`). Faults are never taken back (`Check.Grows`), so a sequence of checks that
ends without faults has had none on the way; this carries the rule for sequences, `Yields.bind`, and
the rules that put together what is known of the parts of an expression or a statement.
-/

namespace SceneScript.Typing

/-! ## Recorded faults -/

namespace State

theorem suffix_record (s : State) (f : Fault) : s.faults <:+ (s.record f).faults := by
  unfold record
  split
  · exact List.suffix_rfl
  · exact List.suffix_cons _ _

theorem mem_record {s : State} {f g : Fault} (mem : g ∈ (s.record f).faults) :
    g = f ∨ g ∈ s.faults := by
  unfold record at mem
  split at mem
  · exact .inr mem
  · exact List.mem_cons.1 mem

theorem record_ne_nil (s : State) (f : Fault) : (s.record f).faults ≠ [] := by
  unfold record
  split
  · next full =>
    intro none
    unfold isFull at full
    cases is : s.limit with
    | none => simp [is] at full
    | some n =>
      rw [is, Option.any_some, none, decide_eq_true_eq, List.length_nil] at full
      omega
  · exact List.cons_ne_nil _ _

end State

namespace Check

open Source (Expr Statement Path TypeName UnaryOp BinaryOp)

variable {α β : Type} {c : Context} {s : State}

/-! ## Runs of checks -/

theorem runIn_bind (check : Check α) (next : α → Check β) (c : Context) (s : State) :
    (check >>= next).runIn c s =
      match check.runIn c s with
      | (some a, s') => (next a).runIn c s'
      | (none, s') => (none, s') := by
  change (ReaderT.run (check >>= next).run c).run s = _
  have first : check.runIn c s = (ReaderT.run check.run c).run s := rfl
  rw [OptionT.run_bind, Option.elimM, ReaderT.run_bind, StateT.run_bind, first]
  rcases (ReaderT.run check.run c).run s with ⟨_ | a, s'⟩ <;> rfl

theorem runIn_attempt (check : Check α) (c : Context) (s : State) :
    (Check.attempt check).runIn c s =
      (some (check.runIn c s).1, (check.runIn c s).2) :=
  rfl

theorem runIn_inScope (check : Check α) (c : Context) (s : State) :
    (inScope check).runIn c s =
      ((check.runIn c s).1, { (check.runIn c s).2 with scope := s.scope }) := by
  unfold inScope
  rw [runIn_bind]
  change (Check.attempt check >>= _).runIn c s = _
  rw [runIn_bind, runIn_attempt]
  dsimp only
  rcases check.runIn c s with ⟨_ | a, s'⟩ <;> rfl

/-! ## Faults are kept -/

def Grows (check : Check α) : Prop :=
  ∀ c s, s.faults <:+ (check.runIn c s).2.faults

namespace Grows

theorem pure (a : α) : Grows (pure a) :=
  fun _ _ => List.suffix_rfl

theorem failure : Grows (failure : Check α) :=
  fun _ _ => List.suffix_rfl

theorem read : Grows read :=
  fun _ _ => List.suffix_rfl

theorem get : Grows get :=
  fun _ _ => List.suffix_rfl

theorem modify {f : State → State} (keeps : ∀ s, (f s).faults = s.faults) : Grows (modify f) :=
  fun _ s => (keeps s).symm ▸ List.suffix_rfl

theorem report (error : Error) (position : Position) : Grows (report error position) :=
  fun _ s => s.suffix_record _

theorem bind {check : Check α} {next : α → Check β} (first : Grows check)
    (rest : ∀ a, Grows (next a)) : Grows (check >>= next) := by
  intro c s
  have before := first c s
  rw [runIn_bind]
  split
  · next a s' ended =>
    rw [ended] at before
    exact before.trans (rest a c s')
  · next s' ended =>
    rw [ended] at before
    exact before

theorem attempt {check : Check α} (grows : Grows check) : Grows (Check.attempt check) :=
  fun c s => grows c s

theorem fail (error : Error) (position : Position) : Grows (fail error position : Check α) :=
  .bind (report error position) fun _ => failure

theorem need (o : Option α) : Grows (need o) := by
  cases o with
  | none => exact failure
  | some a => exact pure a

theorem inScope {check : Check α} (grows : Grows check) : Grows (inScope check) :=
  .bind get fun _ => .bind (.attempt grows) fun result =>
    .bind (.modify fun _ => rfl) fun _ => need result

end Grows

theorem Grows.clean {check : Check α} {o : Option α} {s' : State} (grows : Grows check)
    (ran : check.runIn c s = (o, s')) (clean : s'.faults = []) : s.faults = [] := by
  have kept := grows c s
  rw [ran, clean] at kept
  exact List.suffix_nil.1 kept

theorem grows_declare (name : String) (type : Option Ty) (assignable : Bool)
    (position : Position) : Grows (declare name type assignable position) := by
  have add : Grows (do
      let slot := (← MonadState.get).slots
      MonadState.modifyGet fun s => ((), { s with
        slots := slot + 1, scope := (name, ⟨slot, type, assignable⟩) :: s.scope })
      return slot : Check Nat) :=
    .bind .get fun _ => .bind (.modify fun _ => rfl) fun _ => .pure _
  refine .bind (.bind .get fun _ => .pure _) fun found => ?_
  dsimp only
  split
  · exact .bind (.report _ _) fun _ => add
  · exact add

theorem grows : Closed @Grows :=
  Composed.closed
    { pure := .pure
      failure := .failure
      bind := .bind
      attempt := .attempt
      inScope := .inScope
      report := .report
      refer _ := .modify fun _ => rfl
      lookup? _ := .bind .get fun _ => .pure _
      declare := grows_declare }
    .read

/-! ## Results of checks without faults -/

/-- Unless it ends with faults, the check yields a result as promised. -/
def Yields (c : Context) (s : State) (check : Check α) (post : α → State → Prop) : Prop :=
  (check.runIn c s).2.faults = [] →
    ∃ a, (check.runIn c s).1 = some a ∧ post a (check.runIn c s).2

namespace Yields

variable {check : Check α} {post : α → State → Prop}

theorem result {o : Option α} {s' : State} (yields : Yields c s check post)
    (ran : check.runIn c s = (o, s')) (clean : s'.faults = []) : ∃ a, o = some a ∧ post a s' := by
  unfold Yields at yields
  rw [ran] at yields
  exact yields clean

theorem pure {a : α} (holds : post a s) : Yields c s (pure a) post :=
  fun _ => ⟨a, rfl, holds⟩

theorem mono {weaker : α → State → Prop} (yields : Yields c s check post)
    (weaken : ∀ a s', post a s' → weaker a s') : Yields c s check weaker := by
  intro clean
  obtain ⟨a, found, holds⟩ := yields clean
  exact ⟨a, found, weaken a _ holds⟩

theorem bind {next : α → Check β} {post' : β → State → Prop} (first : Yields c s check post)
    (grows : ∀ a, Grows (next a)) (rest : ∀ a s', post a s' → Yields c s' (next a) post') :
    Yields c s (check >>= next) post' := by
  intro clean
  rw [runIn_bind] at clean ⊢
  rcases ended : check.runIn c s with ⟨_ | a, s'⟩
  · rw [ended] at clean
    obtain ⟨a, found, -⟩ := first.result ended clean
    cases found
  · rw [ended] at clean
    obtain ⟨b, found, holds⟩ := first.result ended ((grows a).clean rfl clean)
    cases found
    exact rest a s' holds clean

theorem report {error : Error} {position : Position} {post : Unit → State → Prop} :
    Yields c s (report error position) post :=
  fun clean => absurd clean (s.record_ne_nil _)

theorem report_bind {error : Error} {position : Position} {next : Unit → Check α}
    (grows : ∀ a, Grows (next a)) : Yields c s (Check.report error position >>= next) post :=
  .bind (report : Yields c s _ fun _ _ => False) grows fun _ _ never => never.elim

theorem fail {error : Error} {position : Position} :
    Yields c s (fail error position : Check α) post :=
  fun clean => absurd clean (s.record_ne_nil _)

theorem attempt (yields : Yields c s check post) :
    Yields c s (Check.attempt check) fun o s' => ∃ a, o = some a ∧ post a s' := by
  intro clean
  obtain ⟨a, found, holds⟩ := yields clean
  exact ⟨some a, congrArg some found, a, rfl, holds⟩

theorem read_bind {next : Context → Check α} (yields : Yields c s (next c) post) :
    Yields c s (read >>= next) post :=
  yields

theorem get_bind {next : State → Check α} (yields : Yields c s (next s) post) :
    Yields c s (get >>= next) post :=
  yields

theorem modify_bind {f : State → State} {next : Unit → Check α}
    (yields : Yields c (f s) (next ()) post) : Yields c s (modify f >>= next) post :=
  yields

theorem inScope (yields : Yields c s check post) :
    Yields c s (inScope check) fun a s' =>
      ∃ inner, post a inner ∧ s' = { inner with scope := s.scope } := by
  unfold Yields
  rw [runIn_inScope]
  intro clean
  obtain ⟨a, found, holds⟩ := yields clean
  exact ⟨a, found, _, holds, rfl⟩

end Yields

/-! ## Checks that change nothing -/

/-- The check yields a result as promised and changes nothing, or it fails with a fault. -/
def Settles (c : Context) (s : State) (check : Check α) (post : α → Prop) : Prop :=
  match check.runIn c s with
  | (some a, s') => s' = s ∧ post a
  | (none, s') => s'.faults ≠ []

namespace Settles

variable {check : Check α} {post : α → Prop}

theorem pure {a : α} (holds : post a) : Settles c s (pure a) post :=
  ⟨rfl, holds⟩

theorem fail {error : Error} {position : Position} :
    Settles c s (fail error position : Check α) post :=
  s.record_ne_nil _

theorem need {o : Option α} {a : α} (found : o = some a) : Settles c s (need o) (· = a) := by
  subst found
  exact pure rfl

theorem read_bind {next : Context → Check α} (settles : Settles c s (next c) post) :
    Settles c s (read >>= next) post :=
  settles

theorem get_bind {next : State → Check α} (settles : Settles c s (next s) post) :
    Settles c s (get >>= next) post :=
  settles

theorem bind {next : α → Check β} {post' : β → Prop} (first : Settles c s check post)
    (rest : ∀ a, post a → Settles c s (next a) post') :
    Settles c s (check >>= next) post' := by
  unfold Settles at first ⊢
  rw [runIn_bind]
  rcases ended : check.runIn c s with ⟨_ | a, s'⟩
  · rw [ended] at first
    exact first
  · rw [ended] at first
    obtain ⟨rfl, holds⟩ := first
    exact rest a holds

theorem mono {weaker : α → Prop} (settles : Settles c s check post)
    (weaken : ∀ a, post a → weaker a) : Settles c s check weaker := by
  unfold Settles at settles ⊢
  rcases ended : check.runIn c s with ⟨_ | a, s'⟩
  · rw [ended] at settles
    exact settles
  · rw [ended] at settles
    exact ⟨settles.1, weaken a settles.2⟩

theorem yields (settles : Settles c s check post) :
    Yields c s check fun a s' => s' = s ∧ post a := by
  intro clean
  unfold Settles at settles
  rcases ended : check.runIn c s with ⟨_ | a, s'⟩
  · rw [ended] at settles clean
    exact absurd clean settles
  · rw [ended] at settles
    exact ⟨a, rfl, settles⟩

end Settles

theorem Yields.bind_settled {check : Check α} {next : α → Check β} {post : α → Prop}
    {post' : β → State → Prop} (first : Settles c s check post)
    (rest : ∀ a, post a → Yields c s (next a) post') : Yields c s (check >>= next) post' := by
  intro clean
  rw [runIn_bind] at clean ⊢
  unfold Settles at first
  rcases ended : check.runIn c s with ⟨_ | a, s'⟩
  · rw [ended] at clean first
    exact absurd clean first
  · rw [ended] at clean first
    obtain ⟨rfl, holds⟩ := first
    exact rest a holds clean

/-! ## Rules

What the parts of a check yield it puts together, although it goes on behind a part that fails. Each
rule takes the parts in the order in which they are checked. -/

namespace Yields

variable {check : Check α} {post : α → State → Prop}

theorem bind_attempt {next : Option α → Check β} {post' : β → State → Prop}
    (first : Yields c s check post) (grows : ∀ o, Grows (next o))
    (rest : ∀ a s', post a s' → Yields c s' (next (some a)) post') :
    Yields c s (Check.attempt check >>= next) post' := by
  refine .bind first.attempt grows fun o s' after => ?_
  obtain ⟨a, rfl, holds⟩ := after
  exact rest a s' holds

theorem need_bind {o : Option α} {a : α} {next : α → Check β} {post' : β → State → Prop}
    (found : o = some a) (rest : Yields c s (next a) post') : Yields c s (need o >>= next) post' :=
  found ▸ rest

theorem coerceArgs_cons {arg : Position × Option Typed} {args : List (Position × Option Typed)}
    {e : Typed} {param : Ty} {params : List Ty} {first : Code → Prop}
    {others post : List Code → State → Prop} (found : arg.2 = some e)
    (ofFirst : Settles c s (coerce e param arg.1) first)
    (ofOthers : Yields c s (coerceArgs args params) others)
    (both : ∀ code codes s', first code → others codes s' → post (code :: codes) s') :
    Yields c s (coerceArgs (arg :: args) (param :: params)) post := by
  have converts : Yields c s (do coerce (← need arg.2) param arg.1) fun code s' =>
      s' = s ∧ first code := .need_bind found ofFirst.yields
  refine .bind_attempt converts (fun _ => .bind (.attempt (grows.coerceArgs _ _)) fun _ =>
    .bind (.need _) fun _ => .bind (.need _) fun _ => .pure _) fun code s₁ after => ?_
  obtain ⟨rfl, holds⟩ := after
  refine .bind_attempt ofOthers (fun _ => .bind (.need _) fun _ => .bind (.need _) fun _ =>
    .pure _) fun codes s₂ after => ?_
  exact .pure (both code codes s₂ holds after)

section Expressions

variable {first : Typed → State → Prop} {post : Typed → State → Prop} {p : Position} {h : Nat}
  {receiver left right : Expr} {name : String} {args : List Expr}

theorem call (ofReceiver : Yields c s (expr receiver) first)
    (rest : ∀ target s₁, first target s₁ → ∃ second, Yields c s₁ (attempts args) second ∧
      ∀ found s₂, second found s₂ → Yields c s₂ (Check.call target name found p) post) :
    Yields c s (expr (.call p h receiver name args)) post := by
  rw [expr]
  refine .bind_attempt ofReceiver (fun _ => .bind (grows.attempts args) fun _ =>
    .bind (.need _) fun _ => grows.call _ _ _ _) fun target s₁ after => ?_
  obtain ⟨second, ofArgs, rest⟩ := rest target s₁ after
  exact .bind ofArgs (fun _ => grows.call _ _ _ _) rest

theorem binary {op : BinaryOp} (ofLeft : Yields c s (expr left) first)
    (rest : ∀ l s₁, first l s₁ → ∃ second, Yields c s₁ (expr right) second ∧
      ∀ r s₂, second r s₂ → Yields c s₂ (Check.binary op l r p) post) :
    Yields c s (expr (.binary p h op left right)) post := by
  rw [expr]
  refine .bind_attempt ofLeft (fun _ => .bind (.attempt (grows.expr right)) fun _ =>
    .bind (.need _) fun _ => .bind (.need _) fun _ => grows.binary _ _ _ _) fun l s₁ after => ?_
  obtain ⟨second, ofRight, rest⟩ := rest l s₁ after
  exact .bind_attempt ofRight (fun _ => .bind (.need _) fun _ => .bind (.need _) fun _ =>
    grows.binary _ _ _ _) rest

theorem attempts_cons {e : Expr} {es : List Expr} {post : List (Position × Option Typed) → State → Prop}
    (ofFirst : Yields c s (expr e) first)
    (rest : ∀ typed s₁, first typed s₁ → Yields c s₁ (attempts es) fun others =>
      post ((e.position, some typed) :: others)) :
    Yields c s (attempts (e :: es)) post := by
  rw [attempts]
  refine .bind_attempt ofFirst (fun _ => .bind (grows.attempts es) fun _ => .pure _)
    fun typed s₁ after => ?_
  exact .bind (rest typed s₁ after) (fun _ => .pure _) fun others s₂ holds => .pure holds

theorem exprOf {type : Ty} {error : Ty → Error} {e : Expr} {post : Code → State → Prop}
    (ofExpr : Yields c s (expr e) first)
    (rest : ∀ typed s', first typed s' → typed.type = type → post typed.code s') :
    Yields c s (Check.exprOf type error e) post := by
  refine .bind ofExpr (fun _ => ?_) fun typed s' holds => ?_
  · split
    · exact .pure _
    · exact .fail _ _
  · split
    · next is => exact .pure (rest typed s' holds is)
    · exact .fail

end Expressions

section Statements

variable {p : Position} {name : String} {init value cond : Expr} {body otherwise : List Statement}
  {first : Typed → State → Prop} {post : Instr → State → Prop}

theorem binding_typed {t : TypeName} {type : Ty → Prop} {post : Option Ty × Option Code → State → Prop}
    (ofInit : Yields c s (expr init) first)
    (ofType : ∀ e s₁, first e s₁ → Settles c s₁ (resolveType t) type)
    (rest : ∀ e s₁ u, first e s₁ → type u → ∃ second, Settles c s₁ (coerce e u init.position) second ∧
      ∀ code, second code → post (some u, some code) s₁) :
    Yields c s (binding name (some t) init p) post := by
  unfold binding
  refine .bind_attempt ofInit (fun _ => .bind (.attempt (grows.resolveType _)) fun _ =>
    .bind (.attempt (.bind (.need _) fun _ => .bind (.need _) fun _ => grows.coerce _ _ _))
      fun _ => .pure _) fun e s₁ holds => ?_
  refine .bind_attempt (ofType e s₁ holds).yields (fun _ => .bind (.attempt
    (.bind (.need _) fun _ => .bind (.need _) fun _ => grows.coerce _ _ _)) fun _ => .pure _)
    fun u s₂ after => ?_
  obtain ⟨rfl, is⟩ := after
  obtain ⟨second, converts, rest⟩ := rest e s₂ u holds is
  refine .bind_attempt converts.yields (fun _ => .pure _) fun code s₃ after => .pure ?_
  obtain ⟨rfl, become⟩ := after
  exact rest code become

theorem binding_inferred {post : Option Ty × Option Code → State → Prop}
    (ofInit : Yields c s (expr init) first)
    (rest : ∀ e s₁, first e s₁ → e.type ≠ .null → e.type ≠ .void →
      post (some e.type, some e.code) s₁) :
    Yields c s (binding name none init p) post := by
  refine .bind_attempt ofInit (fun value => ?_) fun e s₁ holds => ?_
  · cases value with
    | none => exact .pure _
    | some e =>
      dsimp only
      split
      · exact .bind (.report _ _) fun _ => .pure _
      · exact .bind (.report _ _) fun _ => .pure _
      · exact .pure _
  · dsimp only
    split
    · exact .report_bind fun _ => .pure _
    · exact .report_bind fun _ => .pure _
    · next nonNull nonVoid => exact .pure (rest e s₁ holds nonNull nonVoid)

theorem declaration {type : Option TypeName} {first : Option Ty × Option Code → State → Prop}
    (ofBinding : Yields c s (binding name type init p) first)
    (rest : ∀ r s₁, first r s₁ → ∃ code, r.2 = some code ∧
      Yields c s₁ (declare name r.1 true p) fun slot => post (.store p slot code)) :
    Yields c s (statement (.bind p name type init)) post := by
  rw [statement]
  refine .bind ofBinding (fun _ => .bind (grows.declare _ _ _ _) fun _ => .bind (.need _) fun _ =>
    .pure _) fun r s₁ after => ?_
  obtain ⟨code, is, declares⟩ := rest r s₁ after
  refine .bind declares (fun _ => .bind (.need _) fun _ => .pure _) fun slot s₂ holds => ?_
  exact .need_bind is (.pure holds)

theorem assignVariable {q : Position} (ofValue : Yields c s (expr value) first)
    (rest : ∀ e s₁, first e s₁ → Yields c s₁ (Check.assignVariable name q (some e) p) post) :
    Yields c s (assignment (.var q name) value p) post :=
  .bind_attempt ofValue (fun _ => grows.assignVariable _ _ _ _) rest

theorem assignField {q : Position} {h : Nat} {receiver : Expr}
    (ofReceiver : Yields c s (expr receiver) first)
    (rest : ∀ r s₁, first r s₁ → ∃ second, Yields c s₁ (expr value) second ∧
      ∀ e s₂, second e s₂ → Yields c s₂ (Check.assignField (some r) name q (some e) p) post) :
    Yields c s (assignment (.field q h receiver name) value p) post := by
  refine .bind_attempt ofReceiver (fun _ => .bind (.attempt (grows.expr _)) fun _ =>
    grows.assignField _ _ _ _ _) fun r s₁ after => ?_
  obtain ⟨second, ofValue, rest⟩ := rest r s₁ after
  exact .bind_attempt ofValue (fun _ => grows.assignField _ _ _ _ _) rest

theorem give {result : Ty} (isResult : c.result = some result)
    (ofValue : Yields c s (expr value) first)
    (rest : ∀ e s₁, first e s₁ → Settles c s₁ (coerce e result value.position) fun code =>
      post (.give p code) s₁) :
    Yields c s (Check.give (some value) p) post := by
  refine .bind ofValue (fun _ => .bind .read fun _ => .bind (.need _) fun _ =>
    .bind (grows.coerce _ _ _) fun _ => .pure _) fun e s₁ holds => ?_
  exact .read_bind (.need_bind isResult (.bind_settled (rest e s₁ holds) fun code given =>
    .pure given))

theorem ifThen {first : Code → State → Prop}
    (ofCond : Yields c s (Check.exprOf .bool .conditionType cond) first)
    (rest : ∀ code s₁, first code s₁ → Yields c s₁ (Check.inScope (statements body)) fun block =>
      post (.choose p code block [])) :
    Yields c s (statement (.ifThen p cond body)) post := by
  rw [statement]
  refine .bind_attempt ofCond (fun _ => .bind (.inScope (grows.statements body)) fun _ =>
    .bind (.need _) fun _ => .pure _) fun code s₁ after => ?_
  exact .bind (rest code s₁ after) (fun _ => .bind (.need _) fun _ => .pure _)
    fun block s₂ holds => .pure holds

theorem ifThenElse {first : Code → State → Prop}
    (ofCond : Yields c s (Check.exprOf .bool .conditionType cond) first)
    (rest : ∀ code s₁, first code s₁ → ∃ second, Yields c s₁ (Check.inScope (statements body)) second ∧
      ∀ block s₂, second block s₂ → Yields c s₂ (Check.inScope (statements otherwise)) fun block' =>
        post (.choose p code block block')) :
    Yields c s (statement (.ifThenElse p cond body otherwise)) post := by
  rw [statement]
  refine .bind_attempt ofCond (fun _ => .bind (.inScope (grows.statements body)) fun _ =>
    .bind (.inScope (grows.statements otherwise)) fun _ => .bind (.need _) fun _ => .pure _)
    fun code s₁ after => ?_
  obtain ⟨second, ofBody, rest⟩ := rest code s₁ after
  refine .bind ofBody (fun _ => .bind (.inScope (grows.statements otherwise)) fun _ =>
    .bind (.need _) fun _ => .pure _) fun block s₂ after => ?_
  exact .bind (rest block s₂ after) (fun _ => .bind (.need _) fun _ => .pure _)
    fun block' s₃ holds => .pure holds

theorem grows_round (name : String) (p : Position) (body : List Statement) : Grows (Check.inScope do
    let slot ← declare name (some .int) false p
    return (slot, ← Check.inScope (statements body)) : Check (Nat × List Instr)) :=
  .inScope (.bind (grows.declare _ _ _ _) fun _ =>
    .bind (.inScope (grows.statements body)) fun _ => .pure _)

theorem loop {a b : Expr} {first : Code → State → Prop}
    (ofFirst : Yields c s (Check.exprOf .int .boundType a) first)
    (rest : ∀ code s₁, first code s₁ → ∃ second,
      Yields c s₁ (Check.exprOf .int .boundType b) second ∧
      ∀ code' s₂, second code' s₂ → Yields c s₂ (Check.inScope do
        let slot ← declare name (some .int) false p
        return (slot, ← Check.inScope (statements body)) : Check (Nat × List Instr)) fun r =>
          post (.loop p r.1 code code' r.2)) :
    Yields c s (statement (.loop p name a b body)) post := by
  rw [statement]
  refine .bind_attempt ofFirst (fun _ => .bind (.attempt (grows.exprOf _ _ _)) fun _ =>
    .bind (grows_round name p body) fun _ => .bind (.need _) fun _ => .bind (.need _) fun _ =>
      .pure _) fun code s₁ after => ?_
  obtain ⟨second, ofLast, rest⟩ := rest code s₁ after
  refine .bind_attempt ofLast (fun _ => .bind (grows_round name p body) fun _ =>
    .bind (.need _) fun _ => .bind (.need _) fun _ => .pure _) fun code' s₂ after => ?_
  exact .bind (rest code' s₂ after) (fun _ => .bind (.need _) fun _ => .bind (.need _) fun _ =>
    .pure _) fun r s₃ holds => .pure holds

theorem statements_cons {st : Statement} {rest : List Statement} {first : Instr → State → Prop}
    {post : List Instr → State → Prop} (ofFirst : Yields c s (statement st) first)
    (ofRest : ∀ i s₁, first i s₁ → Yields c s₁ (statements rest) fun code => post (i :: code)) :
    Yields c s (statements (st :: rest)) post := by
  rw [statements]
  refine .bind_attempt ofFirst (fun o => ?_) fun i s₁ after => ?_
  · cases o with
    | some i => exact .bind (grows.statements rest) fun _ => .pure _
    | none => exact grows.statements rest
  · exact .bind (ofRest i s₁ after) (fun _ => .pure _) fun code s₂ holds => .pure holds

end Statements

end Yields

end Check

end SceneScript.Typing
