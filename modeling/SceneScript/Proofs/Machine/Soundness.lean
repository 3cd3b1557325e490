import SceneScript.Proofs.Machine.Forgetting
import SceneScript.Proofs.Machine.Native
import SceneScript.Proofs.Typing.Judgement

/-!
# Well-typed programs run safely

On variables of their types, a well-typed expression evaluates to a value of its type, and a
well-typed statement leaves the variables with values of theirs. Neither meets a fault that shows
the program to be ill typed, as long as the classes it uses are at hand and implemented.
-/

namespace SceneScript

open Source (UnaryOp BinaryOp)
open Run

variable {limits : Limits} {s : RunState} {classes : List HostClass} {types : List Ty}
  {live : List Nat} {locals : Array Value} {h h' : Heap}

/-- The classes that members are used of can be reached, and their members are implemented. -/
def Supports (classes : List HostClass) (uses : List Use) : Prop :=
  ∀ u ∈ uses, u.owner ∈ classes ∧ u.owner.isImplemented = true

theorem Supports.left {us vs : List Use} (supports : Supports classes (us ++ vs)) :
    Supports classes us :=
  fun u mem => supports u (List.mem_append_left vs mem)

theorem Supports.right {us vs : List Use} (supports : Supports classes (us ++ vs)) :
    Supports classes vs :=
  fun u mem => supports u (List.mem_append_right us mem)

theorem Supports.tail {u : Use} {us : List Use} (supports : Supports classes (u :: us)) :
    Supports classes us :=
  fun v mem => supports v (List.mem_cons_of_mem u mem)

structure LocalsTyped (types : List Ty) (live : List Nat) (locals : Array Value) (h : Heap) :
    Prop where
  size : types.length ≤ locals.size
  value : ∀ slot ∈ live, ∃ v t, locals[slot]? = some v ∧ types[slot]? = some t ∧ v.HasType h t

theorem LocalsTyped.mono (typed : LocalsTyped types live locals h) (grown : h.Extends h') :
    LocalsTyped types live locals h' where
  size := typed.size
  value slot isLive := by
    obtain ⟨v, t, found, declared, ofType⟩ := typed.value slot isLive
    exact ⟨v, t, found, declared, ofType.mono grown⟩

theorem LocalsTyped.subset {fewer : List Nat} (typed : LocalsTyped types live locals h)
    (sub : fewer ⊆ live) : LocalsTyped types fewer locals h where
  size := typed.size
  value slot isLive := typed.value slot (sub isLive)

theorem LocalsTyped.store {slot : Nat} {v : Value} {t : Ty}
    (typed : LocalsTyped types live locals h) (declared : types[slot]? = some t)
    (ofType : v.HasType h t) :
    LocalsTyped types (slot :: live) (locals.setIfInBounds slot v) h where
  size := by simpa using typed.size
  value other isLive := by
    have bound : slot < locals.size :=
      (List.getElem?_eq_some_iff.1 declared).1.trans_le typed.size
    by_cases same : other = slot
    · subst same
      exact ⟨v, t, by simp [bound], declared, ofType⟩
    · rcases List.mem_cons.1 isLive with eq | isLive
      · exact absurd eq same
      · obtain ⟨w, u, found, known, typed'⟩ := typed.value other isLive
        refine ⟨w, u, ?_, known, typed'⟩
        rwa [Array.getElem?_setIfInBounds_ne (Ne.symm same)]

/-! ## Operators -/

theorem Constant.value_hasType (c : Constant) : c.value.HasType h c.type := by
  cases c with
  | int n => exact .int n
  | float x => exact .float x
  | bool b => exact .bool b
  | string t => exact .string t
  | null => exact .null rfl

theorem Ty.FitsIn.value {v : Value} {t target : Ty} (fits : t.FitsIn target)
    (typed : v.HasType h t) : v.HasType h target :=
  typed.assign fits.1 fits.2

theorem Ty.numeric_cases {t : Ty} (numeric : t.isNumeric = true) : t = .int ∨ t = .float := by
  cases t <;> simp_all [Ty.isNumeric]

theorem safe_fitting (n : Option Int64) :
    Safe limits s (liftM (fitting n) : Run Value) fun v s' => v.HasType s'.heap .int := by
  cases n with
  | some n => exact .pure (.int n)
  | none => exact .fault rfl

theorem safe_neg {v : Value} {t : Ty} (numeric : t.isNumeric = true) (typed : v.HasType h t) :
    Safe limits s (liftM (UnaryOp.apply .neg v) : Run Value) fun v s' => v.HasType s'.heap t := by
  rcases t.numeric_cases numeric with rfl | rfl
  · obtain ⟨n, rfl⟩ := typed.int_inv
    unfold UnaryOp.apply
    dsimp only
    split
    · exact .pure (.int _)
    · exact .fault rfl
  · obtain ⟨x, rfl⟩ := typed.float_inv
    exact .pure (.float _)

theorem safe_not {v : Value} (typed : v.HasType h .bool) :
    Safe limits s (liftM (UnaryOp.apply .not v) : Run Value) fun v s' =>
      v.HasType s'.heap .bool := by
  obtain ⟨b, rfl⟩ := typed.bool_inv
  exact .pure (.bool _)

theorem safe_divided {b : Int64} (n : Option Int64) :
    Safe limits s (liftM (if b = 0 then .error .divisionByZero else fitting n) : Run Value)
      fun v s' => v.HasType s'.heap .int := by
  split
  · exact .fault rfl
  · exact safe_fitting n

theorem safe_arithmetic {op : BinaryOp} {v w : Value} {t : Ty}
    (isOp : op ∈ [.add, .sub, .mul, .div, .rem]) (numeric : t.isNumeric = true)
    (left : v.HasType h t) (right : w.HasType h' t) :
    Safe limits s (liftM (BinaryOp.apply op v w) : Run Value) fun v s' => v.HasType s'.heap t := by
  rcases t.numeric_cases numeric with rfl | rfl
  · obtain ⟨a, rfl⟩ := left.int_inv
    obtain ⟨b, rfl⟩ := right.int_inv
    fin_cases isOp
    · exact safe_fitting _
    · exact safe_fitting _
    · exact safe_fitting _
    · exact safe_divided _
    · exact safe_divided _
  · obtain ⟨x, rfl⟩ := left.float_inv
    obtain ⟨y, rfl⟩ := right.float_inv
    fin_cases isOp <;> exact .pure (.float _)

theorem safe_order {op : BinaryOp} {v w : Value} {t : Ty} (isOp : op ∈ [.lt, .le, .gt, .ge])
    (numeric : t.isNumeric = true) (left : v.HasType h t) (right : w.HasType h' t) :
    Safe limits s (liftM (BinaryOp.apply op v w) : Run Value) fun v s' =>
      v.HasType s'.heap .bool := by
  rcases t.numeric_cases numeric with rfl | rfl
  · obtain ⟨a, rfl⟩ := left.int_inv
    obtain ⟨b, rfl⟩ := right.int_inv
    fin_cases isOp <;> exact .pure (.bool _)
  · obtain ⟨x, rfl⟩ := left.float_inv
    obtain ⟨y, rfl⟩ := right.float_inv
    fin_cases isOp <;> exact .pure (.bool _)

theorem safe_equality {op : BinaryOp} (v w : Value) (isOp : op ∈ [.eq, .ne]) :
    Safe limits s (liftM (BinaryOp.apply op v w) : Run Value) fun v s' =>
      v.HasType s'.heap .bool := by
  fin_cases isOp <;> exact .pure (.bool _)

/-! ## Expressions -/

theorem safe_readSlot {slot : Nat} {t : Ty} (typed : LocalsTyped types live locals s.heap)
    (isLive : slot ∈ live) (declared : types[slot]? = some t) :
    Safe limits s (readSlot locals slot) fun v s' => v.HasType s'.heap t := by
  obtain ⟨v, u, found, declared', ofType⟩ := typed.value slot isLive
  rw [declared] at declared'
  cases declared'
  unfold readSlot
  rw [found]
  exact .pure ofType

theorem safe_requireClass {c : HostClass} (reachable : c ∈ classes) :
    Safe limits s (requireClass classes c) fun _ _ => True := by
  unfold requireClass
  rw [if_pos reachable]
  exact .pure trivial

theorem safe_receiver {p : Position} {name : String} {v : Value} {t : Ty} {c : HostClass}
    (typed : v.HasType h t) (owner : t.owner? = some c) :
    Safe limits s (receiver p name v) fun w _ => w.HasType h c.instanceType := by
  unfold receiver
  split
  · exact .located (.fault rfl)
  · next nonNull => exact .pure (typed.of_owner owner nonNull)

theorem Code.eval_binary {p : Position} {op : BinaryOp} {left right : Code}
    (strict : op ∉ [.and, .or]) :
    (Code.binary p op left right).eval classes locals = located p (do
      tick
      let a ← left.eval classes locals
      let b ← right.eval classes locals
      BinaryOp.apply op a b) := by
  cases op with
  | and | or => simp at strict
  | _ => rw [Code.eval] <;> simp

/-- The value of the first operand that decides a logical operator. -/
def BinaryOp.decisive : BinaryOp → Bool
  | .or => true
  | _ => false

theorem Value.bool_eq_not_iff {a b : Bool} : Value.bool a = .bool (!b) ↔ ¬a = b := by
  cases a <;> cases b <;> simp

theorem Code.eval_logic {p : Position} {op : BinaryOp} {left right : Code}
    (logical : op ∈ [.and, .or]) :
    (Code.binary p op left right).eval classes locals = located p (do
      tick
      if (← (← left.eval classes locals).asBool) = BinaryOp.decisive op then
        return .bool (BinaryOp.decisive op)
      else
        return .bool (← (← right.eval classes locals).asBool)) := by
  fin_cases logical <;>
  · rw [Code.eval]
    refine congrArg (located p) (bind_congr fun _ => bind_congr fun v => bind_congr fun b => ?_)
    cases b <;> rfl

/-- On every heap that `h` grows to, the expression evaluates to a value of the type. -/
def Code.SafeFrom (limits : Limits) (classes : List HostClass) (locals : Array Value) (h : Heap)
    (e : Code) (t : Ty) : Prop :=
  ∀ {s : RunState}, h.Extends s.heap →
    Safe limits s (e.eval classes locals) fun v s' => v.HasType s'.heap t

theorem safe_strict {p : Position} {op : BinaryOp} {left right : Code} {a b t : Ty}
    (strict : op ∉ [.and, .or]) (ofLeft : left.SafeFrom limits classes locals s.heap a)
    (ofRight : right.SafeFrom limits classes locals s.heap b)
    (applied : ∀ {v w : Value} {h h' : Heap} {s : RunState}, v.HasType h a → w.HasType h' b →
      Safe limits s (liftM (BinaryOp.apply op v w) : Run Value) fun v s' => v.HasType s'.heap t) :
    Safe limits s ((Code.binary p op left right).eval classes locals) fun v s' =>
      v.HasType s'.heap t := by
  rw [Code.eval_binary strict]
  refine .step fun s₁ grown₁ => ?_
  refine .bind (ofLeft grown₁) fun v s₂ _ grown₂ typed => ?_
  exact .bind (ofRight (grown₁.trans grown₂)) fun w s₃ _ _ typed' => applied typed typed'

theorem safe_logic {p : Position} {op : BinaryOp} {left right : Code}
    (logical : op ∈ [.and, .or]) (ofLeft : left.SafeFrom limits classes locals s.heap .bool)
    (ofRight : right.SafeFrom limits classes locals s.heap .bool) :
    Safe limits s ((Code.binary p op left right).eval classes locals) fun v s' =>
      v.HasType s'.heap .bool := by
  rw [Code.eval_logic logical]
  refine .step fun s₁ grown₁ => ?_
  refine .bind (ofLeft grown₁) fun v s₂ _ grown₂ typed => ?_
  refine .bind (safe_asBool typed) fun a s₃ _ grown₃ _ => ?_
  split
  · exact .pure (.bool _)
  · refine .bind (ofRight (grown₁.trans (grown₂.trans grown₃))) fun w s₄ _ _ typed' => ?_
    exact .map ((safe_asBool typed').mono fun _ _ _ _ _ => .bool _)

theorem strict_of_arithmetic {op : BinaryOp} (isOp : op ∈ [.add, .sub, .mul, .div, .rem]) :
    op ∉ [.and, .or] := by
  fin_cases isOp <;> simp

theorem strict_of_order {op : BinaryOp} (isOp : op ∈ [.lt, .le, .gt, .ge]) : op ∉ [.and, .or] := by
  fin_cases isOp <;> simp

theorem strict_of_equality {op : BinaryOp} (isOp : op ∈ [.eq, .ne]) : op ∉ [.and, .or] := by
  fin_cases isOp <;> simp

theorem argsTyped_of_fit {args : List Value} {ts params : List Ty}
    (typed : List.Forall₂ (Value.HasType h) args ts) (fit : List.Forall₂ Ty.FitsIn ts params) :
    Native.ArgsTyped h args params := by
  induction typed generalizing params with
  | nil =>
    cases fit
    exact .nil
  | cons first _ ih =>
    cases fit with
    | cons fits rest => exact .cons (fits.value first) (ih rest)

mutual

theorem Code.HasType.safe_eval {limits : Limits} {classes : List HostClass} {types : List Ty}
    {live : List Nat} {locals : Array Value} :
    ∀ {e : Code} {t : Ty} {s : RunState}, e.HasType types live t → Supports classes e.uses →
      LocalsTyped types live locals s.heap →
      Safe limits s (e.eval classes locals) fun v s' => v.HasType s'.heap t
  | .const p c, _, s, .const, _, _ => by
    rw [Code.eval]
    exact .step fun _ _ => .pure c.value_hasType
  | .load p slot, _, s, .load isLive declared, _, vars => by
    rw [Code.eval]
    refine .step fun s₁ grown₁ => ?_
    exact safe_readSlot (vars.mono grown₁) isLive declared
  | .getField p target owner name, _, s, .getField ofTarget isOwner found, supports, vars => by
    obtain ⟨mem, rfl, kind⟩ := Use.member?_spec found
    obtain ⟨reachable, implemented⟩ := supports _ List.mem_cons_self
    rw [Code.eval]
    refine .step fun s₁ grown₁ => ?_
    refine .bind (ofTarget.safe_eval supports.tail (vars.mono grown₁)) fun v s₂ _ _ typed => ?_
    refine .bind (safe_receiver typed isOwner) fun r s₃ _ grown₃ typed => ?_
    refine .bind (safe_requireClass reachable) fun _ s₄ _ grown₄ _ => ?_
    exact HostClass.safe_getField implemented mem kind (typed.mono (grown₃.trans grown₄))
  | .call p target owner name args, _, s, .call ofTarget isOwner found ofArgs fit, supports,
      vars => by
    obtain ⟨mem, rfl, kind⟩ := Use.member?_spec found
    obtain ⟨reachable, implemented⟩ := supports _ List.mem_cons_self
    rw [Code.eval]
    refine .step fun s₁ grown₁ => ?_
    refine .bind (ofTarget.safe_eval supports.tail.left (vars.mono grown₁))
      fun v s₂ _ grown₂ typed => ?_
    refine .bind (safe_receiver typed isOwner) fun r s₃ _ grown₃ typed => ?_
    have vars₃ := vars.mono (grown₁.trans (grown₂.trans grown₃))
    refine .bind (HaveTypes.safe_evalAll ofArgs supports.tail.right vars₃)
      fun vs s₄ _ grown₄ typedArgs => ?_
    refine .bind (safe_requireClass reachable) fun _ s₅ _ grown₅ _ => ?_
    have args := argsTyped_of_fit (typedArgs.imp fun _ _ typed => typed.mono grown₅) fit
    exact HostClass.safe_call implemented mem (of_decide_eq_true kind)
      (typed.mono (grown₃.trans (grown₄.trans grown₅))) args
  | .getConstant p owner name, _, s, .getConstant found, supports, _ => by
    obtain ⟨mem, rfl, kind⟩ := Use.member?_spec found
    obtain ⟨reachable, implemented⟩ := supports _ List.mem_cons_self
    rw [Code.eval]
    refine .step fun s₁ _ => ?_
    refine .bind (safe_requireClass reachable) fun _ s₂ _ _ _ => ?_
    exact HostClass.safe_getConstant implemented mem (of_decide_eq_true kind)
  | .callStatic p owner name args, _, s, .callStatic found ofArgs fit, supports, vars => by
    obtain ⟨mem, rfl, kind⟩ := Use.member?_spec found
    obtain ⟨reachable, implemented⟩ := supports _ List.mem_cons_self
    rw [Code.eval]
    refine .step fun s₁ grown₁ => ?_
    refine .bind (HaveTypes.safe_evalAll ofArgs supports.tail (vars.mono grown₁))
      fun vs s₂ _ _ typedArgs => ?_
    refine .bind (safe_requireClass reachable) fun _ s₃ _ grown₃ _ => ?_
    have args := argsTyped_of_fit (typedArgs.imp fun _ _ typed => typed.mono grown₃) fit
    exact HostClass.safe_callStatic implemented mem (of_decide_eq_true kind) args
  | .unary p _ operand, _, s, .neg ofOperand numeric, supports, vars => by
    rw [Code.eval]
    refine .step fun s₁ grown₁ => ?_
    exact .bind (ofOperand.safe_eval supports (vars.mono grown₁)) fun v s₂ _ _ typed =>
      safe_neg numeric typed
  | .unary p _ operand, _, s, .not ofOperand, supports, vars => by
    rw [Code.eval]
    refine .step fun s₁ grown₁ => ?_
    exact .bind (ofOperand.safe_eval supports (vars.mono grown₁)) fun v s₂ _ _ typed =>
      safe_not typed
  | .binary p op left right, _, s, .arithmetic isOp numeric ofLeft ofRight, supports, vars =>
    safe_strict (strict_of_arithmetic isOp)
      (fun grown => ofLeft.safe_eval supports.left (vars.mono grown))
      (fun grown => ofRight.safe_eval supports.right (vars.mono grown))
      (safe_arithmetic isOp numeric)
  | .binary p op left right, _, s, .order isOp numeric ofLeft ofRight, supports, vars =>
    safe_strict (strict_of_order isOp)
      (fun grown => ofLeft.safe_eval supports.left (vars.mono grown))
      (fun grown => ofRight.safe_eval supports.right (vars.mono grown))
      (safe_order isOp numeric)
  | .binary p op left right, _, s, .equality isOp _ ofLeft ofRight, supports, vars =>
    safe_strict (strict_of_equality isOp)
      (fun grown => ofLeft.safe_eval supports.left (vars.mono grown))
      (fun grown => ofRight.safe_eval supports.right (vars.mono grown))
      (fun _ _ => safe_equality _ _ isOp)
  | .binary p op left right, _, s, .logic isOp ofLeft ofRight, supports, vars =>
    safe_logic isOp (fun grown => ofLeft.safe_eval supports.left (vars.mono grown))
      (fun grown => ofRight.safe_eval supports.right (vars.mono grown))
  | .concat p left right, _, s, .concat ofLeft ofRight _ _, supports, vars => by
    rw [Code.eval]
    refine .step fun s₁ grown₁ => ?_
    refine .bind (ofLeft.safe_eval supports.left (vars.mono grown₁)) fun a s₂ _ grown₂ _ => ?_
    have vars₂ := vars.mono (grown₁.trans grown₂)
    refine .bind (ofRight.safe_eval supports.right vars₂) fun b s₃ _ _ _ => ?_
    refine .bind (safe_display a) fun _ s₄ _ _ _ => ?_
    exact .bind (safe_display b) fun _ s₅ _ _ _ => safe_string _
  | .widen p operand, _, s, .widen ofOperand, supports, vars => by
    rw [Code.eval]
    refine .step fun s₁ grown₁ => ?_
    refine .bind (ofOperand.safe_eval supports (vars.mono grown₁)) fun v s₂ _ _ typed => ?_
    obtain ⟨n, rfl⟩ := typed.int_inv
    exact .pure (.float _)

theorem HaveTypes.safe_evalAll {limits : Limits} {classes : List HostClass} {types : List Ty}
    {live : List Nat} {locals : Array Value} :
    ∀ {es : List Code} {ts : List Ty} {s : RunState}, HaveTypes types live es ts →
      Supports classes (usesAll es) → LocalsTyped types live locals s.heap →
      Safe limits s (evalAll classes locals es) fun vs s' =>
        List.Forall₂ (Value.HasType s'.heap) vs ts
  | [], _, s, .nil, _, _ => by
    rw [evalAll]
    exact .pure .nil
  | e :: rest, _, s, .cons first others, supports, vars => by
    rw [evalAll]
    refine .bind (first.safe_eval supports.left vars) fun v s₁ _ grown₁ typed => ?_
    refine .bind (HaveTypes.safe_evalAll others supports.right (vars.mono grown₁))
      fun vs s₂ _ grown₂ typedRest => ?_
    exact .pure (.cons (typed.mono grown₂) typedRest)

end

/-! ## Statements -/

namespace Exec

variable {α β : Type}

def Safe (limits : Limits) (s : RunState) (locals : Array Value) (exec : Exec α)
    (post : α → Array Value → RunState → Prop) : Prop :=
  Run.Safe limits s (exec locals) fun r s' => post r.1 r.2 s'

theorem Safe.pure {a : α} {post : α → Array Value → RunState → Prop} (holds : post a locals s) :
    Safe limits s locals (pure a) post :=
  Run.Safe.pure holds

theorem Safe.bind {exec : Exec α} {next : α → Exec β} {post : α → Array Value → RunState → Prop}
    {post' : β → Array Value → RunState → Prop} (first : Safe limits s locals exec post)
    (rest : ∀ a locals' s', s'.WellTyped → s.heap.Extends s'.heap → post a locals' s' →
      Safe limits s' locals' (next a) post') :
    Safe limits s locals (exec >>= next) post' :=
  Run.Safe.bind first fun r s' typed grown holds => rest r.1 r.2 s' typed grown holds

theorem Safe.lift_bind {run : Run α} {next : α → Exec β} {post : α → RunState → Prop}
    {post' : β → Array Value → RunState → Prop} (first : Run.Safe limits s run post)
    (rest : ∀ a s', s'.WellTyped → s.heap.Extends s'.heap → post a s' →
      Safe limits s' locals (next a) post') :
    Safe limits s locals ((liftM run : Exec α) >>= next) post' := by
  have lifted : Safe limits s locals (liftM run) fun a locals' s' => locals' = locals ∧ post a s' :=
    Run.Safe.bind first fun _ _ _ _ holds => Run.Safe.pure ⟨rfl, holds⟩
  refine .bind lifted fun a locals' s' typed grown holds => ?_
  obtain ⟨rfl, holds⟩ := holds
  exact rest a s' typed grown holds

theorem safe_get_bind {next : Array Value → Exec α} {post : α → Array Value → RunState → Prop} :
    Safe limits s locals (get >>= next) post ↔ Safe limits s locals (next locals) post :=
  Iff.rfl

theorem Safe.located {exec : Exec α} {post : α → Array Value → RunState → Prop} {p : Position}
    (safe : Safe limits s locals exec post) : Safe limits s locals (Exec.located p exec) post :=
  Run.Safe.located safe

theorem Safe.step {exec : Exec α} {p : Position} {post : α → Array Value → RunState → Prop}
    (safe : ∀ s', s.heap.Extends s'.heap → Safe limits s' locals exec post) :
    Safe limits s locals (Exec.located p ((liftM tick : Exec Unit) >>= fun _ => exec)) post :=
  .located (.lift_bind safe_tick fun _ s' _ grown _ => safe s' grown)

theorem Safe.eval_bind {e : Code} {t : Ty} {next : Value → Exec α}
    {post : α → Array Value → RunState → Prop} (typed : e.HasType types live t)
    (supports : Supports classes e.uses) (vars : LocalsTyped types live locals s.heap)
    (rest : ∀ v s', s.heap.Extends s'.heap → v.HasType s'.heap t →
      Safe limits s' locals (next v) post) :
    Safe limits s locals (Exec.eval classes e >>= next) post :=
  .lift_bind (typed.safe_eval supports vars) fun v s' _ grown ofType => rest v s' grown ofType

theorem safe_store {slot : Nat} {v : Value} {t : Ty} (declared : types[slot]? = some t)
    (typed : v.HasType s.heap t) (vars : LocalsTyped types live locals s.heap) :
    Safe limits s locals (Exec.store slot v) fun _ locals' s' =>
      LocalsTyped types (slot :: live) locals' s'.heap := by
  have bound : slot < locals.size := (List.getElem?_eq_some_iff.1 declared).1.trans_le vars.size
  unfold Exec.store
  rw [safe_get_bind, if_pos bound]
  exact Run.Safe.pure (vars.store declared typed)

def Fits (types : List Ty) (live : List Nat) (result : Ty) (flow : Flow) (locals : Array Value)
    (s : RunState) : Prop :=
  match flow with
  | .next => LocalsTyped types live locals s.heap
  | .give v => v.HasType s.heap result

theorem Safe.subset {exec : Exec Flow} {result : Ty} {fewer : List Nat}
    (safe : Safe limits s locals exec (Fits types live result)) (sub : fewer ⊆ live) :
    Safe limits s locals exec (Fits types fewer result) := by
  refine Run.Safe.mono safe fun r s' _ _ fits => ?_
  obtain ⟨flow, locals'⟩ := r
  cases flow with
  | next => exact LocalsTyped.subset fits sub
  | give v => exact fits

/-- What a round of a loop preserves, all rounds preserve. -/
theorem safe_iterate {body : Int → Exec Flow} {result : Ty}
    (round : ∀ i s locals, LocalsTyped types live locals s.heap →
      Safe limits s locals (body i) (Fits types live result))
    (rounds : Nat) (i : Int) (s : RunState) (locals : Array Value)
    (vars : LocalsTyped types live locals s.heap) :
    Safe limits s locals (iterate body rounds i) (Fits types live result) := by
  induction rounds generalizing i s locals with
  | zero => exact .pure vars
  | succ rounds ih =>
    refine .bind (round i s locals vars) fun flow locals' s' _ _ fits => ?_
    cases flow with
    | next => exact ih (i + 1) s' locals' fits
    | give v => exact .pure fits

def round (classes : List HostClass) (slot : Nat) (body : List Instr) (i : Int) : Exec Flow := do
  tick
  Exec.store slot (.int (Int64.ofInt i))
  execAll classes body

theorem safe_round {slot : Nat} {body : List Instr} {result : Ty}
    (declared : types[slot]? = some .int)
    (safe : ∀ s locals, LocalsTyped types (slot :: live) locals s.heap →
      Safe limits s locals (execAll classes body) (Fits types live result))
    (i : Int) (s : RunState) (locals : Array Value) (vars : LocalsTyped types live locals s.heap) :
    Safe limits s locals (round classes slot body i) (Fits types live result) := by
  refine .lift_bind safe_tick fun _ s₁ _ grown₁ _ => ?_
  exact .bind (safe_store declared (.int _) (vars.mono grown₁)) fun _ locals' s₂ _ _ vars =>
    safe s₂ locals' vars

end Exec

open Exec (Fits)

mutual

theorem Instr.WellTyped.safe_exec {limits : Limits} {classes : List HostClass} {types : List Ty}
    {result : Ty} : ∀ {i : Instr} {live live' : List Nat} {s : RunState} {locals : Array Value},
      i.WellTyped types result live live' → Supports classes i.uses →
      LocalsTyped types live locals s.heap →
      Exec.Safe limits s locals (i.exec classes) (Fits types live' result)
  | .store p slot value, live, _, s, locals, .store ofValue declared fits _ adds, supports,
      vars => by
    rw [Instr.exec]
    refine .step fun s₁ grown₁ => ?_
    refine .eval_bind ofValue supports (vars.mono grown₁) fun v s₂ grown₂ typed => ?_
    have vars₂ := vars.mono (grown₁.trans grown₂)
    exact .bind (Exec.safe_store declared (fits.value typed) vars₂) fun _ locals' s₃ _ _ vars₃ =>
      .pure (vars₃.subset adds)
  | .setField p target owner name value, live, _, s, locals,
      .setField ofTarget isOwner found ofValue fits, supports, vars => by
    obtain ⟨mem, rfl, kind⟩ := Use.member?_spec found
    obtain ⟨reachable, implemented⟩ := supports _ List.mem_cons_self
    rw [Instr.exec]
    refine .step fun s₁ grown₁ => ?_
    have vars₁ := vars.mono grown₁
    refine .eval_bind ofTarget supports.tail.left vars₁ fun r s₂ grown₂ typed => ?_
    refine .lift_bind (safe_receiver typed isOwner) fun r s₃ _ grown₃ typed => ?_
    have vars₃ := vars₁.mono (grown₂.trans grown₃)
    refine .eval_bind ofValue supports.tail.right vars₃ fun x s₄ grown₄ typedX => ?_
    refine .lift_bind (safe_requireClass reachable) fun _ s₅ _ grown₅ _ => ?_
    have typedR := typed.mono (grown₃.trans (grown₄.trans grown₅))
    have set : Run.Safe limits s₅ (owner.setField _ r x) fun _ _ => True :=
      HostClass.safe_setField implemented mem (of_decide_eq_true kind) typedR (fits.value typedX)
    exact .lift_bind set fun _ s₆ _ grown₆ _ =>
      .pure (vars₃.mono (grown₄.trans (grown₅.trans grown₆)))
  | .choose p cond body otherwise, live, _, s, locals, .choose ofCond ofBody ofOtherwise, supports,
      vars => by
    rw [Instr.exec]
    refine .step fun s₁ grown₁ => ?_
    refine .eval_bind ofCond supports.left (vars.mono grown₁) fun c s₂ grown₂ typed => ?_
    refine .lift_bind (.located (safe_asBool typed)) fun b s₃ _ grown₃ _ => ?_
    have vars₃ := vars.mono (grown₁.trans (grown₂.trans grown₃))
    split
    · exact (ofBody.safe_execAll supports.right.left vars₃).subset ofBody.live_subset
    · exact (ofOtherwise.safe_execAll supports.right.right vars₃).subset ofOtherwise.live_subset
  | .loop p slot first last body, live, _, s, locals, .loop ofFirst ofLast declared ofBody, supports,
      vars => by
    rw [Instr.exec_loop]
    refine .step fun s₁ grown₁ => ?_
    refine .eval_bind ofFirst supports.left (vars.mono grown₁) fun a s₂ grown₂ typed => ?_
    refine .lift_bind (.located (safe_asInt typed)) fun a s₃ _ grown₃ _ => ?_
    have vars₃ := vars.mono (grown₁.trans (grown₂.trans grown₃))
    refine .eval_bind ofLast supports.right.left vars₃ fun b s₄ grown₄ typed => ?_
    refine .lift_bind (.located (safe_asInt typed)) fun b s₅ _ grown₅ _ => ?_
    -- A round may declare variables in the body, which are out of scope behind the loop.
    refine Exec.safe_iterate (Exec.safe_round declared fun s locals vars => ?_) _ _ _ _
      (vars₃.mono (grown₄.trans grown₅))
    refine (ofBody.safe_execAll supports.right.right vars).subset fun _ mem => ?_
    exact ofBody.live_subset (List.mem_cons_of_mem slot mem)
  | .give p value, live, _, s, locals, .give ofValue fits, supports, vars => by
    rw [Instr.exec]
    refine .step fun s₁ grown₁ => ?_
    exact .eval_bind ofValue supports (vars.mono grown₁) fun v s₂ _ typed =>
      .pure (fits.value typed)
  | .eval p value, live, _, s, locals, .eval ofValue, supports, vars => by
    rw [Instr.exec]
    refine .step fun s₁ grown₁ => ?_
    exact .eval_bind ofValue supports (vars.mono grown₁) fun v s₂ grown₂ _ =>
      .pure (vars.mono (grown₁.trans grown₂))

theorem AllWellTyped.safe_execAll {limits : Limits} {classes : List HostClass} {types : List Ty}
    {result : Ty} :
    ∀ {body : List Instr} {live live' : List Nat} {s : RunState} {locals : Array Value},
      AllWellTyped types result live body live' → Supports classes (usesIn body) →
      LocalsTyped types live locals s.heap →
      Exec.Safe limits s locals (execAll classes body) (Fits types live' result)
  | [], live, _, s, locals, .nil, _, vars => by
    rw [execAll]
    exact .pure vars
  | i :: rest, live, _, s, locals, .cons first others, supports, vars => by
    rw [execAll]
    refine .bind (first.safe_exec supports.left vars) fun flow locals' s₁ _ _ fits => ?_
    cases flow with
    | next => exact others.safe_execAll supports.right fits
    | give v => exact .pure fits

end

end SceneScript
