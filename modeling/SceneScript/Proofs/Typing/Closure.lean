import SceneScript.Typing.Checker

/-!
# Properties of all checks

All checks are put together from a few steps in a few ways. A property that these steps have and
these ways keep (`Check.Closed`) is one of every check, up to the check of a whole body.
-/

namespace SceneScript.Typing.Check

open Source (Expr Statement Path TypeName UnaryOp BinaryOp)

/-- The property `P` is one of the steps that look at nothing but the state, and it is kept by the
ways in which checks are put together. -/
structure Composed (P : ∀ {α : Type}, Check α → Prop) : Prop where
  pure : ∀ {α : Type} (a : α), P (Pure.pure a : Check α)
  failure : ∀ {α : Type}, P (Alternative.failure : Check α)
  bind : ∀ {α β : Type} {check : Check α} {next : α → Check β},
    P check → (∀ a, P (next a)) → P (check >>= next)
  attempt : ∀ {α : Type} {check : Check α}, P check → P (Check.attempt check)
  inScope : ∀ {α : Type} {check : Check α}, P check → P (Check.inScope check)
  report : ∀ (error : Error) (position : Position), P (Check.report error position)
  refer : ∀ k : HostClass, P (Check.refer k)
  lookup? : ∀ name : String, P (Check.lookup? name)
  declare : ∀ (name : String) (type : Option Ty) (assignable : Bool) (position : Position),
    P (Check.declare name type assignable position)

/-- The property `P` is also one of the steps that look at the context: those that find a class, and
looking at the type of the result. -/
structure Closed (P : ∀ {α : Type}, Check α → Prop) : Prop extends Composed P where
  imported? : ∀ name : String, P (Check.imported? name)
  resolvePath : ∀ p : Path, P (Check.resolvePath p)
  ownerOf : ∀ (type : Ty) (position : Position), P (Check.ownerOf type position)
  result_bind : ∀ {α : Type} {next : Context → Check α},
    (∀ c c', c.result = c'.result → next c = next c') → (∀ c, P (next c)) →
      P (MonadReader.read >>= next)

namespace Composed

variable {α : Type} {P : ∀ {α : Type}, Check α → Prop}

theorem fail (composed : Composed P) (error : Error) (position : Position) :
    P (Check.fail error position : Check α) :=
  composed.bind (composed.report error position) fun _ => composed.failure

theorem need (composed : Composed P) (o : Option α) : P (Check.need o) := by
  cases o with
  | none => exact composed.failure
  | some a => exact composed.pure a

theorem closed (composed : Composed P) (read : P MonadReader.read) : Closed P where
  toComposed := composed
  imported? _ := composed.bind read fun _ => composed.pure _
  resolvePath p := by
    unfold Check.resolvePath
    split
    · refine composed.bind (composed.bind read fun _ => composed.pure _) fun found => ?_
      cases found with
      | some k => exact composed.pure k
      | none => exact composed.fail _ _
    · refine composed.bind read fun _ => composed.bind (composed.pure _) fun found => ?_
      cases found with
      | some k => exact composed.pure k
      | none => exact composed.fail _ _
  ownerOf type position := by
    unfold Check.ownerOf
    split
    · exact composed.fail _ _
    · refine composed.bind read fun _ => ?_
      split
      · exact composed.pure _
      · exact composed.fail _ _
  result_bind _ rest := composed.bind read rest

end Composed

namespace Closed

variable {α : Type} {P : ∀ {α : Type}, Check α → Prop}

/-! ## Types -/

theorem resolveType (closed : Closed P) (t : TypeName) : P (Check.resolveType t) := by
  cases t with
  | named p => exact closed.bind (closed.resolvePath p) fun _ => closed.pure _
  | _ => exact closed.pure _

/-! ## Conversions and operators -/

theorem coerce (closed : Closed P) (e : Typed) (target : Ty) (position : Position) :
    P (Check.coerce e target position) := by
  unfold Check.coerce
  split
  · exact closed.pure _
  · split
    · exact closed.pure _
    · exact closed.fail _ _

theorem unary (closed : Closed P) (op : UnaryOp) (e : Typed) (position : Position) :
    P (Check.unary op e position) := by
  unfold Check.unary
  dsimp only
  repeat' split
  all_goals first | exact closed.pure _ | exact closed.fail _ _

theorem binary (closed : Closed P) (op : BinaryOp) (left right : Typed) (position : Position) :
    P (Check.binary op left right position) := by
  unfold Check.binary
  dsimp only
  repeat' split
  all_goals first | exact closed.pure _ | exact closed.fail _ _

/-! ## Members -/

theorem coerceArgs (closed : Closed P) (args : List (Position × Option Typed)) (params : List Ty) :
    P (Check.coerceArgs args params) := by
  induction args generalizing params with
  | nil => exact closed.pure _
  | cons arg args ih =>
    cases params with
    | nil => exact closed.pure _
    | cons param params =>
      have first := closed.bind (closed.need arg.2) fun e => closed.coerce e param arg.1
      refine closed.bind (closed.attempt first) fun _ => ?_
      refine closed.bind (closed.attempt (ih params)) fun _ => ?_
      exact closed.bind (closed.need _) fun _ => closed.bind (closed.need _) fun _ => closed.pure _

theorem arguments (closed : Closed P) (owner : HostClass) (m : Member)
    (args : List (Position × Option Typed)) (position : Position) :
    P (Check.arguments owner m args position) := by
  unfold Check.arguments
  split
  · exact closed.coerceArgs _ _
  · exact closed.fail _ _

theorem getField (closed : Closed P) (target : Typed) (name : String) (position : Position) :
    P (Check.getField target name position) := by
  refine closed.bind (closed.ownerOf _ _) fun owner => ?_
  split
  · split
    · exact closed.bind (closed.refer _) fun _ => closed.pure _
    · exact closed.fail _ _
  · exact closed.fail _ _

theorem call (closed : Closed P) (target : Typed) (name : String)
    (args : List (Position × Option Typed)) (position : Position) :
    P (Check.call target name args position) := by
  refine closed.bind (closed.ownerOf _ _) fun owner => ?_
  split
  · refine closed.bind (closed.arguments _ _ _ _) fun _ => ?_
    exact closed.bind (closed.refer _) fun _ => closed.pure _
  · exact closed.fail _ _

theorem getStatic (closed : Closed P) (type : Path) (name : String) (position : Position) :
    P (Check.getStatic type name position) := by
  refine closed.bind (closed.resolvePath _) fun owner => ?_
  split
  · split
    · exact closed.bind (closed.refer _) fun _ => closed.pure _
    · exact closed.fail _ _
  · exact closed.fail _ _

theorem callStatic (closed : Closed P) (type : Path) (name : String)
    (args : List (Position × Option Typed)) (position : Position) :
    P (Check.callStatic type name args position) := by
  refine closed.bind (closed.resolvePath _) fun owner => ?_
  split
  · refine closed.bind (closed.arguments _ _ _ _) fun _ => ?_
    exact closed.bind (closed.refer _) fun _ => closed.pure _
  · exact closed.fail _ _

/-! ## Expressions -/

theorem readVariable (closed : Closed P) (name : String) (position : Position) :
    P (Check.readVariable name position) := by
  refine closed.bind (closed.lookup? _) fun found => ?_
  split
  · exact closed.bind (closed.need _) fun _ => closed.pure _
  · refine closed.bind (closed.imported? _) fun _ => ?_
    split
    · exact closed.fail _ _
    · exact closed.fail _ _

mutual

theorem expr (closed : Closed P) : ∀ e : Expr, P (Check.expr e)
  | .int .. | .float .. | .string .. | .bool .. | .null .. => by
    rw [Check.expr]
    exact closed.pure _
  | .var p name => by
    rw [Check.expr]
    exact closed.readVariable _ _
  | .field p _ receiver name => by
    rw [Check.expr]
    exact closed.bind (closed.expr receiver) fun _ => closed.getField _ _ _
  | .call p _ receiver name args => by
    rw [Check.expr]
    refine closed.bind (closed.attempt (closed.expr receiver)) fun _ => ?_
    refine closed.bind (closed.attempts args) fun _ => ?_
    exact closed.bind (closed.need _) fun _ => closed.call _ _ _ _
  | .staticField p type name => by
    rw [Check.expr]
    exact closed.getStatic _ _ _
  | .staticCall p _ type name args => by
    rw [Check.expr]
    exact closed.bind (closed.attempts args) fun _ => closed.callStatic _ _ _ _
  | .unary p _ op operand => by
    rw [Check.expr]
    exact closed.bind (closed.expr operand) fun _ => closed.unary _ _ _
  | .binary p _ op left right => by
    rw [Check.expr]
    refine closed.bind (closed.attempt (closed.expr left)) fun _ => ?_
    refine closed.bind (closed.attempt (closed.expr right)) fun _ => ?_
    refine closed.bind (closed.need _) fun _ => closed.bind (closed.need _) fun _ => ?_
    exact closed.binary _ _ _ _

theorem attempts (closed : Closed P) : ∀ es : List Expr, P (Check.attempts es)
  | [] => by
    rw [Check.attempts]
    exact closed.pure _
  | e :: es => by
    rw [Check.attempts]
    refine closed.bind (closed.attempt (closed.expr e)) fun _ => ?_
    exact closed.bind (closed.attempts es) fun _ => closed.pure _

end

theorem exprOf (closed : Closed P) (type : Ty) (error : Ty → Error) (e : Expr) :
    P (Check.exprOf type error e) := by
  refine closed.bind (closed.expr e) fun _ => ?_
  split
  · exact closed.pure _
  · exact closed.fail _ _

/-! ## Statements -/

theorem binding (closed : Closed P) (name : String) (type : Option TypeName) (init : Expr)
    (position : Position) : P (Check.binding name type init position) := by
  refine closed.bind (closed.attempt (closed.expr init)) fun value => ?_
  split
  · refine closed.bind (closed.attempt (closed.resolveType _)) fun _ => ?_
    refine closed.bind (closed.attempt (closed.bind (closed.need _) fun _ => ?_)) fun _ =>
      closed.pure _
    exact closed.bind (closed.need _) fun _ => closed.coerce _ _ _
  · split
    · exact closed.pure _
    · split
      · exact closed.bind (closed.report _ _) fun _ => closed.pure _
      · exact closed.bind (closed.report _ _) fun _ => closed.pure _
      · exact closed.pure _

theorem assignVariable (closed : Closed P) (name : String) (target : Position)
    (value : Option Typed) (position : Position) :
    P (Check.assignVariable name target value position) := by
  refine closed.bind (closed.lookup? _) fun found => ?_
  split
  · exact closed.fail _ _
  · split
    · refine closed.bind (closed.need _) fun _ => closed.bind (closed.need _) fun _ => ?_
      exact closed.bind (closed.coerce _ _ _) fun _ => closed.pure _
    · exact closed.fail _ _

theorem assignField (closed : Closed P) (receiver : Option Typed) (name : String)
    (target : Position) (value : Option Typed) (position : Position) :
    P (Check.assignField receiver name target value position) := by
  refine closed.bind (closed.need _) fun _ => closed.bind (closed.ownerOf _ _) fun owner => ?_
  split
  · exact closed.fail _ _
  · split
    · refine closed.bind (closed.refer _) fun _ => closed.bind (closed.need _) fun _ => ?_
      exact closed.bind (closed.coerce _ _ _) fun _ => closed.pure _
    · exact closed.fail _ _

theorem assignment (closed : Closed P) (target value : Expr) (position : Position) :
    P (Check.assignment target value position) := by
  unfold Check.assignment
  split
  · exact closed.bind (closed.attempt (closed.expr _)) fun _ => closed.assignVariable _ _ _ _
  · refine closed.bind (closed.attempt (closed.expr _)) fun _ => ?_
    exact closed.bind (closed.attempt (closed.expr _)) fun _ => closed.assignField _ _ _ _ _
  · exact closed.fail _ _

theorem give (closed : Closed P) (value : Option Expr) (position : Position) :
    P (Check.give value position) := by
  unfold Check.give
  split
  · exact closed.fail _ _
  · refine closed.bind (closed.expr _) fun _ => ?_
    refine closed.result_bind (fun _ _ same => by rw [same]) fun _ => ?_
    refine closed.bind (closed.need _) fun _ => ?_
    exact closed.bind (closed.coerce _ _ _) fun _ => closed.pure _

mutual

theorem statement (closed : Closed P) : ∀ st : Statement, P (Check.statement st)
  | .bind p name type init => by
    rw [Check.statement]
    refine closed.bind (closed.binding _ _ _ _) fun _ => ?_
    refine closed.bind (closed.declare _ _ _ _) fun _ => ?_
    exact closed.bind (closed.need _) fun _ => closed.pure _
  | .assign p target value => by
    rw [Check.statement]
    exact closed.assignment _ _ _
  | .ifThen p cond body => by
    rw [Check.statement]
    refine closed.bind (closed.attempt (closed.exprOf _ _ _)) fun _ => ?_
    refine closed.bind (closed.inScope (closed.statements body)) fun _ => ?_
    exact closed.bind (closed.need _) fun _ => closed.pure _
  | .ifThenElse p cond body otherwise => by
    rw [Check.statement]
    refine closed.bind (closed.attempt (closed.exprOf _ _ _)) fun _ => ?_
    refine closed.bind (closed.inScope (closed.statements body)) fun _ => ?_
    refine closed.bind (closed.inScope (closed.statements otherwise)) fun _ => ?_
    exact closed.bind (closed.need _) fun _ => closed.pure _
  | .loop p name first last body => by
    rw [Check.statement]
    refine closed.bind (closed.attempt (closed.exprOf _ _ _)) fun _ => ?_
    refine closed.bind (closed.attempt (closed.exprOf _ _ _)) fun _ => ?_
    refine closed.bind (closed.inScope (closed.bind (closed.declare ..) fun _ => ?_)) fun _ => ?_
    · exact closed.bind (closed.inScope (closed.statements body)) fun _ => closed.pure _
    · exact closed.bind (closed.need _) fun _ => closed.bind (closed.need _) fun _ => closed.pure _
  | .give p value => by
    rw [Check.statement]
    exact closed.give _ _
  | .eval p value => by
    rw [Check.statement]
    exact closed.bind (closed.expr _) fun _ => closed.pure _

theorem statements (closed : Closed P) : ∀ body : List Statement, P (Check.statements body)
  | [] => by
    rw [Check.statements]
    exact closed.pure _
  | st :: rest => by
    rw [Check.statements]
    refine closed.bind (closed.attempt (closed.statement st)) fun found => ?_
    cases found with
    | some i => exact closed.bind (closed.statements rest) fun _ => closed.pure _
    | none => exact closed.statements rest

end

theorem signature (closed : Closed P) (f : Source.Function) : P (Typing.signature f) :=
  closed.bind (closed.attempt (closed.resolveType _)) fun _ =>
    closed.bind (closed.attempt (closed.resolveType _)) fun _ =>
      closed.bind (closed.declare _ _ _ _) fun _ => closed.pure _

end Closed

end SceneScript.Typing.Check
