import SceneScript.Proofs.Lexical.Checked

/-!
# Failures are accounted for

While a unit is checked, a type that is not known, of the result or of a variable in scope, is not
known because of a fault (`Accounted`). From there on every check keeps it so, and one that gives no
result has a fault recorded by then (`Accounts`). Faults are never taken back, so where none is
recorded at the end of a check all types were known before it, and the check yields a result
(`Accounts.of_yields`).
-/

namespace SceneScript.Typing

open Source (Expr Statement Path TypeName BinaryOp)
open Check
open Lexical (Declared)

variable {α β : Type} {c : Context} {s : State}

structure Accounted (c : Context) (s : State) : Prop where
  result : c.result = none → s.faults ≠ []
  types : ∀ x ∈ s.scope, x.2.type = none → s.faults ≠ []

/-- Behind the check what is missing is accounted for, the result of the check included. -/
def Accounts (c : Context) (s : State) (check : Check α) : Prop :=
  Accounted c (check.runIn c s).2 ∧
    ((check.runIn c s).1 = none → (check.runIn c s).2.faults ≠ [])

/-! ## States without faults -/

theorem Accounted.clean (accounted : Accounted c s) (clean : s.faults = []) :
    (∃ t, c.result = some t) ∧ Declared s.scope := by
  constructor
  · apply Option.ne_none_iff_exists'.1
    exact fun missing => accounted.result missing clean
  · intro x mem
    apply Option.ne_none_iff_exists'.1
    exact fun missing => accounted.types x mem missing clean

theorem accounted_of_clean
    (known : s.faults = [] → (∃ t, c.result = some t) ∧ Declared s.scope) : Accounted c s := by
  constructor
  · intro missing clean
    obtain ⟨t, is⟩ := (known clean).1
    rw [missing] at is
    contradiction
  · intro x mem missing clean
    obtain ⟨t, is⟩ := (known clean).2 x mem
    rw [missing] at is
    contradiction

theorem Accounts.of_yields {check : Check α} {post : α → State → Prop}
    (accounted : Accounted c s) (grows : Grows check)
    (yields : ∀ t, c.result = some t → Declared s.scope → Yields c s check post)
    (declared : ∀ a s', Declared s.scope → post a s' → Declared s'.scope) :
    Accounts c s check := by
  have ends (clean : (check.runIn c s).2.faults = []) : (∃ t, c.result = some t) ∧
      ∃ a, (check.runIn c s).1 = some a ∧ Declared (check.runIn c s).2.scope := by
    obtain ⟨⟨t, isResult⟩, before⟩ := accounted.clean (grows.clean rfl clean)
    obtain ⟨a, found, holds⟩ := yields t isResult before clean
    exact ⟨⟨t, isResult⟩, a, found, declared a _ before holds⟩
  constructor
  · apply accounted_of_clean
    intro clean
    obtain ⟨isResult, a, -, behind⟩ := ends clean
    exact ⟨isResult, behind⟩
  · intro missing clean
    obtain ⟨-, a, found, -⟩ := ends clean
    rw [missing] at found
    contradiction

theorem Accounts.of_settles {check : Check α} {post : α → Prop} (accounted : Accounted c s)
    (grows : Grows check) (settles : Settles c s check post) : Accounts c s check := by
  apply Accounts.of_yields accounted grows (fun _ _ _ => settles.yields)
  rintro a s' before ⟨rfl, -⟩
  exact before

/-! ## Checks of expressions -/

theorem accounts_expr (accounted : Accounted c s) (e : Expr) : Accounts c s (expr e) := by
  apply Accounts.of_yields accounted (grows.expr e)
  · exact fun _ _ declared => Lexical.yields_lowered e declared
  · exact fun _ _ declared gives => gives.1.scope.symm ▸ declared

theorem accounts_exprOf (accounted : Accounted c s) (type : Ty) (error : Ty → Error) (e : Expr) :
    Accounts c s (exprOf type error e) := by
  apply Accounts.of_yields accounted (grows.exprOf type error e)
  · exact fun _ _ declared => Lexical.yields_exprOf declared type error e
  · rintro _ _ declared ⟨typed, -, gives⟩
    exact gives.1.scope.symm ▸ declared

theorem accounts_coerce (accounted : Accounted c s) (e : Typed) (target : Ty) (p : Position) :
    Accounts c s (coerce e target p) :=
  .of_settles accounted (grows.coerce e target p) (Lexical.settles_converted e target p)

theorem accounts_binary (accounted : Accounted c s) (op : BinaryOp) (left right : Typed)
    (p : Position) : Accounts c s (binary op left right p) := by
  have settles : Settles c s (binary op left right p) fun _ => True := by
    unfold binary
    dsimp only
    repeat' split
    all_goals first | exact .pure trivial | exact .fail
  exact .of_settles accounted (grows.binary op left right p) settles

/-! ## Checks of arguments -/

theorem yields_coerceArgs_known {args : List (Position × Option Typed)}
    (known : ∀ arg ∈ args, ∃ e, arg.2 = some e) (params : List Ty) :
    Yields c s (coerceArgs args params) fun _ s' => s' = s := by
  induction args generalizing params with
  | nil => exact .pure rfl
  | cons arg args ih =>
    cases params with
    | nil => exact .pure rfl
    | cons param params =>
      obtain ⟨⟨e, found⟩, others⟩ := List.forall_mem_cons.1 known
      refine .coerceArgs_cons found (Lexical.settles_converted e param arg.1) (ih others params) ?_
      rintro code codes s' - rfl
      rfl

theorem accounts_arguments (accounted : Accounted c s) (owner : HostClass) (m : Member)
    {args : List (Position × Option Typed)}
    (argsAccounted : ∀ arg ∈ args, arg.2 = none → s.faults ≠ []) (p : Position) :
    Accounts c s (arguments owner m args p) := by
  have grows := grows.arguments owner m args p
  have known (clean : s.faults = []) :
      Yields c s (arguments owner m args p) fun _ s' => s' = s := by
    unfold arguments
    split
    · refine yields_coerceArgs_known (fun arg mem => ?_) m.params
      apply Option.ne_none_iff_exists'.1
      exact fun missing => argsAccounted arg mem missing clean
    · exact .fail
  have yields : Yields c s (arguments owner m args p) fun _ s' => s' = s :=
    fun clean => known (grows.clean rfl clean) clean
  apply Accounts.of_yields accounted grows fun _ _ _ => yields
  rintro a s' declared rfl
  exact declared

/-! ## Checks of statements -/

theorem accounts_assignment (accounted : Accounted c s) (target value : Expr) (p : Position) :
    Accounts c s (assignment target value p) := by
  apply Accounts.of_yields accounted (grows.assignment target value p)
  · exact fun _ _ declared => Lexical.yields_assignment declared target value p
  · exact fun _ _ declared lowers => declared.behind lowers

theorem accounts_statement (accounted : Accounted c s) (st : Statement) :
    Accounts c s (statement st) := by
  apply Accounts.of_yields accounted (grows.statement st)
  · exact fun _ isResult declared => Lexical.yields_statement isResult st declared
  · exact fun _ _ declared lowers => declared.behind lowers

/-! ## Where the body of a unit begins -/

theorem accounted_signature (symbols : SymbolTable) (u : Source.CompilationUnit)
    {types : Option (Option Ty × Option Ty)} {declared : State}
    (signed : (signature u.entry).runIn (contextOf symbols u none) (stateOf symbols u) =
      (types, declared)) :
    Accounted (contextOf symbols u (types.getD (none, none)).2) declared := by
  apply accounted_of_clean
  intro clean
  obtain ⟨_, rfl, param, result, rfl, -, -, rfl⟩ :=
    (Lexical.yields_signature u.entry).result signed clean
  exact ⟨⟨result, rfl⟩, List.forall_mem_cons.2 ⟨⟨param, rfl⟩, nofun⟩⟩

end SceneScript.Typing
