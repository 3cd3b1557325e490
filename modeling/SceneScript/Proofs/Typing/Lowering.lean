import SceneScript.Proofs.Machine.Writes
import SceneScript.Proofs.Source.Heights
import SceneScript.Proofs.Source.Places
import SceneScript.Proofs.Typing.Recording

/-!
# What is lowered from what

Whatever a check makes of an expression is made at a position of the source, of what its parts are
lowered to, each as it is or widened. So a property of expressions and what they are lowered to that
is kept in this way (`Lowering`) holds of everything that is checked (`Check.stays_expr`,
`Check.stays_statements`), in every state and also if there are errors.
-/

namespace SceneScript.Typing

open Source (Expr Statement Path TypeName UnaryOp BinaryOp Mentions)
open Source.Parser (ExprIn StatementIn)

variable {P : Position → Prop}

namespace Check

variable {α β : Type}

/-- What the check gives and what it reports keeps to the positions with `P`, if what was reported
before does. -/
def StaysIn (P : Position → Prop) (good : α → Prop) (check : Check α) : Prop :=
  ∀ c s, (∀ f ∈ s.faults, P f.position) →
    (∀ f ∈ (check.runIn c s).2.faults, P f.position) ∧ ∀ a ∈ (check.runIn c s).1, good a

/-! ## Rules -/

namespace StaysIn

variable {good : α → Prop} {good' : β → Prop} {check : Check α} {next : α → Check β}

theorem pure {a : α} (holds : good a) : StaysIn P good (pure a) :=
  fun _ _ before => ⟨before, fun _ is => Option.some.inj is ▸ holds⟩

theorem failure : StaysIn P good (failure : Check α) :=
  fun _ _ before => ⟨before, nofun⟩

theorem read : StaysIn P (fun _ => True) read :=
  fun _ _ before => ⟨before, fun _ _ => trivial⟩

theorem get : StaysIn P (fun _ => True) get :=
  fun _ _ before => ⟨before, fun _ _ => trivial⟩

theorem modify {f : State → State} (keeps : ∀ s, (f s).faults = s.faults) :
    StaysIn P (fun _ => True) (modify f) :=
  fun _ s before => ⟨fun fault mem => before fault (keeps s ▸ mem), fun _ _ => trivial⟩

theorem report {error : Error} {position : Position} (place : P position) :
    StaysIn P (fun _ => True) (report error position) :=
  fun _ _ before => ⟨fun f mem => (State.mem_record mem).elim (fun is => is ▸ place) (before f),
    fun _ _ => trivial⟩

theorem bind (first : StaysIn P good check) (rest : ∀ a, good a → StaysIn P good' (next a)) :
    StaysIn P good' (check >>= next) := by
  intro c s before
  obtain ⟨between, holds⟩ := first c s before
  rw [runIn_bind]
  split
  · next a s' ended =>
    rw [ended] at between holds
    exact rest a (holds a rfl) c s' between
  · next s' ended =>
    rw [ended] at between
    exact ⟨between, nofun⟩

theorem attempt (stays : StaysIn P good check) :
    StaysIn P (fun o => ∀ a ∈ o, good a) (Check.attempt check) := by
  intro c s before
  obtain ⟨after, holds⟩ := stays c s before
  exact ⟨after, fun o is => Option.some.inj is ▸ holds⟩

theorem fail {error : Error} {position : Position} (place : P position) :
    StaysIn P good (fail error position : Check α) :=
  (report place).bind fun _ _ => failure

theorem imp {other : α → Prop} (stays : StaysIn P good check) (weaker : ∀ a, good a → other a) :
    StaysIn P other check := by
  intro c s before
  obtain ⟨after, holds⟩ := stays c s before
  exact ⟨after, fun a is => weaker a (holds a is)⟩

theorem need {o : Option α} (holds : ∀ a ∈ o, good a) : StaysIn P good (need o) := by
  cases o with
  | none => exact failure
  | some a => exact pure (holds a rfl)

theorem needed (o : Option α) : StaysIn P (fun _ => True) (Check.need o) :=
  need fun _ _ => trivial

theorem inScope (stays : StaysIn P good check) : StaysIn P good (inScope check) := by
  intro c s before
  rw [runIn_inScope]
  exact stays c s before

end StaysIn

/-! ## Names and types -/

theorem stays_refer (k : HostClass) : StaysIn P (fun _ => True) (refer k) :=
  .modify fun _ => rfl

theorem stays_imported? (name : String) : StaysIn P (fun _ => True) (imported? name) :=
  StaysIn.read.bind fun _ _ => .pure trivial

theorem stays_resolvePath {p : Path} (place : P p.position) :
    StaysIn P (fun _ => True) (resolvePath p) := by
  have known (found : Option HostClass) : StaysIn P (fun _ => True) (pure found : Check _) :=
    .pure trivial
  unfold resolvePath
  split
  · refine (stays_imported? _).bind fun found _ => ?_
    cases found with
    | some k => exact .pure trivial
    | none => exact .fail place
  · refine StaysIn.read.bind fun c _ => (known _).bind fun found _ => ?_
    cases found with
    | some k => exact .pure trivial
    | none => exact .fail place

theorem stays_resolveType {t : TypeName} (place : P t.position) :
    StaysIn P (fun _ => True) (resolveType t) := by
  cases t with
  | named p => exact (stays_resolvePath place).bind fun _ _ => .pure trivial
  | _ => exact .pure trivial

theorem stays_ownerOf (t : Ty) {position : Position} (place : P position) :
    StaysIn P (fun _ => True) (ownerOf t position) := by
  unfold ownerOf
  split
  · exact .fail place
  · refine StaysIn.read.bind fun _ _ => ?_
    split
    · exact .pure trivial
    · exact .fail place

theorem stays_lookup? (name : String) : StaysIn P (fun _ => True) (lookup? name) :=
  StaysIn.get.bind fun _ _ => .pure trivial

theorem stays_declare (name : String) (type : Option Ty) (assignable : Bool)
    {position : Position} (place : P position) :
    StaysIn P (fun _ => True) (declare name type assignable position) := by
  have add : StaysIn P (fun _ => True) (do
      let slot := (← MonadState.get).slots
      MonadState.modifyGet fun s => ((), { s with
        slots := slot + 1, scope := (name, ⟨slot, type, assignable⟩) :: s.scope })
      return slot : Check Nat) :=
    StaysIn.get.bind fun _ _ => (StaysIn.modify fun _ => rfl).bind fun _ _ => .pure trivial
  refine (stays_lookup? name).bind fun found _ => ?_
  dsimp only
  split
  · exact (StaysIn.report place).bind fun _ _ => add
  · exact add

end Check

/-! ## Lowering -/

def Converts (holds : Expr → Code → Prop) (e : Expr) (code : Code) : Prop :=
  holds e code ∨ ∃ c, holds e c ∧ code = .widen c.position c

/-- A property of expressions and what they are lowered to. What is made at a position with `P` of
converted parts of an expression has it. -/
structure Lowering (P : Position → Prop) where
  Holds : Expr → Code → Prop
  node : ∀ {e : Expr} {code : Code}, P code.position →
    (∀ part ∈ code.parts, ∃ child ∈ e.children, Converts Holds child part) → Holds e code

namespace Lowering

variable {L : Lowering P} {e child : Expr} {code : Code}

theorem leaf (L : Lowering P) (place : P code.position) (none : code.parts = []) :
    L.Holds e code :=
  L.node place fun _ mem => absurd (none ▸ mem) List.not_mem_nil

theorem single (L : Lowering P) {part : Code} (place : P code.position) (is : code.parts = [part])
    (among : child ∈ e.children) (holds : L.Holds child part) : L.Holds e code :=
  L.node place (is ▸ List.forall_mem_singleton.2 ⟨child, among, .inl holds⟩)

/-- The statements stand at positions with `P`, and what they evaluate is lowered from expressions
with `Q`. -/
def From (L : Lowering P) (Q : Expr → Prop) (code : List Instr) : Prop :=
  ∀ i ∈ code, P i.position ∧ ∀ part ∈ i.parts, ∃ e, Q e ∧ Converts L.Holds e part

namespace From

variable {Q : Expr → Prop} {i : Instr} {first rest : List Instr}

theorem nil : L.From Q [] :=
  fun _ mem => absurd mem List.not_mem_nil

theorem cons (place : P i.position) (parts : ∀ part ∈ i.parts, ∃ e, Q e ∧ Converts L.Holds e part)
    (others : L.From Q rest) : L.From Q (i :: rest) :=
  List.forall_mem_cons.2 ⟨⟨place, parts⟩, others⟩

theorem append (here : L.From Q first) (there : L.From Q rest) : L.From Q (first ++ rest) :=
  List.forall_mem_append.2 ⟨here, there⟩

theorem single (place : P i.position) (alone : i.inside = []) (is : i.parts = [code]) (from' : Q e)
    (converts : Converts L.Holds e code) : L.From Q (i :: i.inside) := by
  rw [alone]
  exact .cons place (is ▸ List.forall_mem_singleton.2 ⟨e, from', converts⟩) .nil

end From

end Lowering

namespace Check

variable (L : Lowering P)

/-! ## Conversions and operators -/

section

variable {L} {e l r : Expr} {position : Position} {typed left right : Typed}

theorem converts_widen (holds : L.Holds e typed.code) :
    Converts L.Holds e (widen typed).code := by
  unfold widen
  split
  · exact .inr ⟨typed.code, holds, rfl⟩
  · exact .inl holds

theorem converts_unify (ofLeft : L.Holds l left.code) (ofRight : L.Holds r right.code) :
    Converts L.Holds l (unify left right).1.code ∧
      Converts L.Holds r (unify left right).2.code := by
  unfold unify
  split
  · exact ⟨.inl ofLeft, .inl ofRight⟩
  · exact ⟨converts_widen ofLeft, converts_widen ofRight⟩

theorem stays_coerce (holds : L.Holds e typed.code) (target : Ty) (place : P position) :
    StaysIn P (Converts L.Holds e) (coerce typed target position) := by
  unfold coerce
  split
  · exact .pure (converts_widen holds)
  · split
    · exact .pure (.inl holds)
    · exact .fail place

theorem stays_unary (op : UnaryOp) (among : l ∈ e.children) (holds : L.Holds l typed.code)
    (place : P position) :
    StaysIn P (fun t => L.Holds e t.code) (unary op typed position) := by
  have made : L.Holds e (.unary position op typed.code) := L.single place rfl among holds
  unfold unary
  dsimp only
  repeat' split
  all_goals first | exact .pure made | exact .fail place

theorem stays_binary (op : BinaryOp) (children : e.children = [l, r])
    (ofLeft : L.Holds l left.code) (ofRight : L.Holds r right.code) (place : P position) :
    StaysIn P (fun t => L.Holds e t.code) (binary op left right position) := by
  have both {a b : Code} (ofA : Converts L.Holds l a) (ofB : Converts L.Holds r b) :
      ∀ part ∈ [a, b], ∃ child ∈ e.children, Converts L.Holds child part := by
    rw [children]
    exact List.forall_mem_cons.2 ⟨⟨l, List.mem_cons_self, ofA⟩,
      List.forall_mem_singleton.2 ⟨r, List.mem_cons_of_mem _ List.mem_cons_self, ofB⟩⟩
  have plain := both (.inl ofLeft) (.inl ofRight)
  have unified := both (converts_unify ofLeft ofRight).1 (converts_unify ofLeft ofRight).2
  unfold binary
  dsimp only
  repeat' split
  all_goals first
    | exact .fail place
    | exact .pure (L.node place unified)
    | exact .pure (L.node place plain)

end

/-! ## Members -/

def ArgFrom (es : List Expr) (arg : Position × Option Typed) : Prop :=
  P arg.1 ∧ ∀ t ∈ arg.2, ∃ e ∈ es, L.Holds e t.code

section

variable {L} {e receiver : Expr} {es : List Expr} {position : Position} {typed : Typed}
  {args : List (Position × Option Typed)}

theorem stays_coerceArgs (from' : ∀ a ∈ args, ArgFrom L es a) (params : List Ty) :
    StaysIn P (fun codes => ∀ code ∈ codes, ∃ e ∈ es, Converts L.Holds e code)
      (coerceArgs args params) := by
  have none : ∀ code ∈ ([] : List Code), ∃ e ∈ es, Converts L.Holds e code :=
    fun _ mem => absurd mem List.not_mem_nil
  induction args generalizing params with
  | nil => exact .pure none
  | cons arg args ih =>
    cases params with
    | nil => exact .pure none
    | cons param params =>
      obtain ⟨⟨place, value⟩, rest⟩ := List.forall_mem_cons.1 from'
      have first : StaysIn P (fun code => ∃ e ∈ es, Converts L.Holds e code)
          (do coerce (← need arg.2) param arg.1) := by
        refine (StaysIn.need value).bind fun t given => ?_
        obtain ⟨e, mem, holds⟩ := given
        exact (stays_coerce holds param place).imp fun code converts => ⟨e, mem, converts⟩
      refine first.attempt.bind fun o first => (ih rest params).attempt.bind fun os more => ?_
      refine (StaysIn.need first).bind fun code here => (StaysIn.need more).bind fun _ there => ?_
      exact .pure (List.forall_mem_cons.2 ⟨here, there⟩)

theorem stays_arguments (owner : HostClass) (m : Member) (from' : ∀ a ∈ args, ArgFrom L es a)
    (place : P position) :
    StaysIn P (fun codes => ∀ code ∈ codes, ∃ e ∈ es, Converts L.Holds e code)
      (arguments owner m args position) := by
  unfold arguments
  split
  · exact stays_coerceArgs from' _
  · exact .fail place

theorem stays_getField (among : receiver ∈ e.children) (holds : L.Holds receiver typed.code)
    (name : String) (place : P position) :
    StaysIn P (fun t => L.Holds e t.code) (getField typed name position) := by
  refine (stays_ownerOf _ place).bind fun owner _ => ?_
  split
  · split
    · exact (stays_refer _).bind fun _ _ => .pure (L.single place rfl among holds)
    · exact .fail place
  · exact .fail place

theorem stays_call (children : e.children = receiver :: es) (holds : L.Holds receiver typed.code)
    (name : String) (from' : ∀ a ∈ args, ArgFrom L es a) (place : P position) :
    StaysIn P (fun t => L.Holds e t.code) (call typed name args position) := by
  refine (stays_ownerOf _ place).bind fun owner _ => ?_
  split
  · refine (stays_arguments owner _ from' place).bind fun codes made =>
      (stays_refer _).bind fun _ _ => .pure (L.node place ?_)
    rw [children]
    refine List.forall_mem_cons.2 ⟨⟨receiver, List.mem_cons_self, .inl holds⟩, fun code mem => ?_⟩
    obtain ⟨arg, among, converts⟩ := made code mem
    exact ⟨arg, List.mem_cons_of_mem _ among, converts⟩
  · exact .fail place

theorem stays_getStatic {type : Path} (named : P type.position) (name : String)
    (place : P position) :
    StaysIn P (fun t => L.Holds e t.code) (getStatic type name position) := by
  refine (stays_resolvePath named).bind fun owner _ => ?_
  split
  · split
    · exact (stays_refer _).bind fun _ _ => .pure (L.leaf place rfl)
    · exact .fail place
  · exact .fail place

theorem stays_callStatic {type : Path} (named : P type.position) (name : String)
    (from' : ∀ a ∈ args, ArgFrom L e.children a) (place : P position) :
    StaysIn P (fun t => L.Holds e t.code) (callStatic type name args position) := by
  refine (stays_resolvePath named).bind fun owner _ => ?_
  split
  · exact (stays_arguments owner _ from' place).bind fun codes made =>
      (stays_refer _).bind fun _ _ => .pure (L.node place made)
  · exact .fail place

/-! ## Expressions -/

theorem stays_readVariable (name : String) (place : P position) :
    StaysIn P (fun t => L.Holds e t.code) (readVariable name position) := by
  refine (stays_lookup? _).bind fun found _ => ?_
  split
  · exact (StaysIn.needed _).bind fun _ _ => .pure (L.leaf place rfl)
  · refine (stays_imported? _).bind fun _ _ => ?_
    split
    · exact .fail place
    · exact .fail place

theorem stays_constant (place : P position) (value : Constant) (type : Ty) :
    StaysIn P (fun t => L.Holds e t.code) (constant position value type) :=
  .pure (L.leaf place rfl)

end

mutual

theorem stays_expr : ∀ e : Expr, ExprIn P e → StaysIn P (fun t => L.Holds e t.code) (expr e)
  | .int .., within | .float .., within | .string .., within | .bool .., within
  | .null _, within => by
    rw [expr]
    exact stays_constant within.place _ _
  | .var p name, within => by
    rw [expr]
    exact stays_readVariable _ within.place
  | .field p _ receiver name, within => by
    rw [ExprIn, Expr.positions, List.forall_mem_cons] at within
    rw [expr]
    exact (stays_expr receiver within.2).bind fun _ holds =>
      stays_getField List.mem_cons_self holds _ within.1
  | .call p _ receiver name args, within => by
    rw [ExprIn, Expr.positions, List.forall_mem_cons, List.forall_mem_append] at within
    obtain ⟨place, inReceiver, inArgs⟩ := within
    rw [expr]
    refine (stays_expr receiver inReceiver).attempt.bind fun _ holds => ?_
    refine (stays_attempts args inArgs).bind fun _ from' => ?_
    exact (StaysIn.need holds).bind fun _ holds => stays_call rfl holds _ from' place
  | .staticField p type name, within => by
    rw [ExprIn, Expr.positions, List.forall_mem_cons, List.forall_mem_singleton] at within
    rw [expr]
    exact stays_getStatic within.2 _ within.1
  | .staticCall p _ type name args, within => by
    rw [ExprIn, Expr.positions, List.forall_mem_cons, List.forall_mem_cons] at within
    obtain ⟨place, named, inArgs⟩ := within
    rw [expr]
    exact (stays_attempts args inArgs).bind fun _ from' => stays_callStatic named _ from' place
  | .unary p _ op operand, within => by
    rw [ExprIn, Expr.positions, List.forall_mem_cons] at within
    rw [expr]
    exact (stays_expr operand within.2).bind fun _ holds =>
      stays_unary _ List.mem_cons_self holds within.1
  | .binary p _ op left right, within => by
    rw [ExprIn, Expr.positions, List.forall_mem_cons, List.forall_mem_append] at within
    obtain ⟨place, inLeft, inRight⟩ := within
    rw [expr]
    refine (stays_expr left inLeft).attempt.bind fun _ holdsL => ?_
    refine (stays_expr right inRight).attempt.bind fun _ holdsR => ?_
    exact (StaysIn.need holdsL).bind fun _ holdsL => (StaysIn.need holdsR).bind fun _ holdsR =>
      stays_binary _ rfl holdsL holdsR place

theorem stays_attempts : ∀ es : List Expr, (∀ p ∈ Source.positionsAll es, P p) →
    StaysIn P (fun args => ∀ a ∈ args, ArgFrom L es a) (attempts es)
  | [], _ => by
    rw [attempts]
    exact .pure fun _ mem => absurd mem List.not_mem_nil
  | e :: es, within => by
    rw [Source.positionsAll, List.forall_mem_append] at within
    rw [attempts]
    refine (stays_expr e within.1).attempt.bind fun _ first => ?_
    refine (stays_attempts es within.2).bind fun _ rest => .pure ?_
    refine List.forall_mem_cons.2 ⟨⟨ExprIn.place within.1, fun t given => ?_⟩, fun a mem => ?_⟩
    · exact ⟨e, List.mem_cons_self, first t given⟩
    · obtain ⟨place, others⟩ := rest a mem
      refine ⟨place, fun t given => ?_⟩
      obtain ⟨e', among, holds⟩ := others t given
      exact ⟨e', List.mem_cons_of_mem _ among, holds⟩

end

theorem stays_exprOf (type : Ty) (error : Ty → Error) {e : Expr} (within : ExprIn P e) :
    StaysIn P (L.Holds e) (exprOf type error e) := by
  refine (stays_expr L e within).bind fun _ holds => ?_
  split
  · exact .pure holds
  · exact .fail within.place

/-! ## Statements -/

section

variable {Q : Expr → Prop} {position target : Position} {e : Expr}

theorem stays_binding (name : String) {type : Option TypeName}
    (annotated : ∀ t ∈ type, P t.position) (within : ExprIn P e) (place : P position) :
    StaysIn P (fun found => ∀ code ∈ found.2, Converts L.Holds e code)
      (binding name type e position) := by
  refine (stays_expr L e within).attempt.bind fun value holds => ?_
  split
  · refine (stays_resolveType (annotated _ rfl)).attempt.bind fun declared _ => ?_
    have converted := (StaysIn.need holds).bind fun typed holds =>
      (StaysIn.needed declared).bind fun t _ => stays_coerce holds t within.place
    exact converted.attempt.bind fun _ converts => .pure converts
  · split
    · exact .pure nofun
    · next v =>
      have bound : ∀ code ∈ some v.code, Converts L.Holds e code :=
        fun code is => Option.some.inj is ▸ .inl (holds v rfl)
      split
      · exact (StaysIn.report place).bind fun _ _ => .pure nofun
      · exact (StaysIn.report place).bind fun _ _ => .pure nofun
      · exact .pure bound

variable {L}

theorem stays_assignVariable (name : String) {value : Option Typed} (from' : Q e)
    (holds : ∀ t ∈ value, L.Holds e t.code) (at' : P target) (place : P position) :
    StaysIn P (fun i => L.From Q (i :: i.inside)) (assignVariable name target value position) := by
  refine (stays_lookup? _).bind fun found _ => ?_
  split
  · exact .fail at'
  · split
    · refine (StaysIn.need holds).bind fun typed holds => (StaysIn.needed _).bind fun t _ => ?_
      exact (stays_coerce holds t at').bind fun code converts =>
        .pure (.single place rfl rfl from' converts)
    · exact .fail at'

theorem stays_assignField {receiver : Option Typed} (name : String) {value : Option Typed}
    {r : Expr} (fromReceiver : Q r) (ofReceiver : ∀ t ∈ receiver, L.Holds r t.code) (from' : Q e)
    (holds : ∀ t ∈ value, L.Holds e t.code) (at' : P target) (place : P position) :
    StaysIn P (fun i => L.From Q (i :: i.inside))
      (assignField receiver name target value position) := by
  refine (StaysIn.need ofReceiver).bind fun typed ofR => ?_
  refine (stays_ownerOf _ at').bind fun owner _ => ?_
  split
  · exact .fail at'
  · split
    · refine (stays_refer _).bind fun _ _ => (StaysIn.need holds).bind fun typed' holds => ?_
      refine (stays_coerce holds _ at').bind fun code converts => .pure (.cons place ?_ .nil)
      exact List.forall_mem_cons.2 ⟨⟨r, fromReceiver, .inl ofR⟩,
        List.forall_mem_singleton.2 ⟨e, from', converts⟩⟩
    · exact .fail at'

variable (L)

theorem stays_assignment {value : Expr} (fromTarget : ∀ part, e.Contains part → Q part)
    (fromValue : Q value) (inTarget : ExprIn P e) (inValue : ExprIn P value)
    (place : P position) :
    StaysIn P (fun i => L.From Q (i :: i.inside)) (assignment e value position) := by
  unfold assignment
  split
  · exact (stays_expr L _ inValue).attempt.bind fun _ holds =>
      stays_assignVariable _ fromValue holds inTarget.place place
  · next p _ receiver name =>
    have parts := inTarget
    rw [ExprIn, Expr.positions, List.forall_mem_cons] at parts
    have fromReceiver := fromTarget receiver (.child List.mem_cons_self .self)
    refine (stays_expr L receiver parts.2).attempt.bind fun _ ofReceiver => ?_
    exact (stays_expr L _ inValue).attempt.bind fun _ holds =>
      stays_assignField _ fromReceiver ofReceiver fromValue holds inTarget.place place
  · exact .fail inTarget.place

theorem stays_give {value : Option Expr} (from' : ∀ e ∈ value, Q e)
    (within : ∀ e ∈ value, ExprIn P e) (place : P position) :
    StaysIn P (fun i => L.From Q (i :: i.inside)) (give value position) := by
  unfold give
  split
  · exact .fail place
  · next e =>
    refine (stays_expr L e (within e rfl)).bind fun typed holds => StaysIn.read.bind fun c _ => ?_
    refine (StaysIn.needed _).bind fun t _ => ?_
    exact (stays_coerce holds t (within e rfl).place).bind fun code converts =>
      .pure (.single place rfl rfl (from' e rfl) converts)

end

section

variable {Q : Expr → Prop} {p : Position} {cond first last : Expr} {body otherwise : List Statement}

theorem stays_ifThen (place : P p) (inCond : ExprIn P cond) (fromCond : Q cond)
    (ofBody : StaysIn P (fun code => L.From Q (nestedIn code)) (statements body)) :
    StaysIn P (fun i => L.From Q (i :: i.inside)) (statement (.ifThen p cond body)) := by
  rw [statement]
  refine (stays_exprOf L _ _ inCond).attempt.bind fun _ holds => ofBody.inScope.bind
    fun _ made => ?_
  refine (StaysIn.need holds).bind fun _ holds => .pure (.cons place ?_ (made.append .nil))
  exact List.forall_mem_singleton.2 ⟨cond, fromCond, .inl holds⟩

theorem stays_ifThenElse (place : P p) (inCond : ExprIn P cond) (fromCond : Q cond)
    (ofBody : StaysIn P (fun code => L.From Q (nestedIn code)) (statements body))
    (ofElse : StaysIn P (fun code => L.From Q (nestedIn code)) (statements otherwise)) :
    StaysIn P (fun i => L.From Q (i :: i.inside))
      (statement (.ifThenElse p cond body otherwise)) := by
  rw [statement]
  refine (stays_exprOf L _ _ inCond).attempt.bind fun _ holds => ?_
  refine ofBody.inScope.bind fun _ made => ofElse.inScope.bind fun _ made' => ?_
  refine (StaysIn.need holds).bind fun _ holds => .pure (.cons place ?_ (made.append made'))
  exact List.forall_mem_singleton.2 ⟨cond, fromCond, .inl holds⟩

theorem stays_loop {name : String} (place : P p) (inFirst : ExprIn P first) (inLast : ExprIn P last)
    (fromFirst : Q first) (fromLast : Q last)
    (ofBody : StaysIn P (fun code => L.From Q (nestedIn code)) (statements body)) :
    StaysIn P (fun i => L.From Q (i :: i.inside)) (statement (.loop p name first last body)) := by
  rw [statement]
  refine (stays_exprOf L _ _ inFirst).attempt.bind fun _ holdsF => ?_
  refine (stays_exprOf L _ _ inLast).attempt.bind fun _ holdsL => ?_
  have inLoop : StaysIn P (fun r => L.From Q (nestedIn r.2)) (do
      let slot ← declare name (some .int) false p
      return (slot, ← inScope (statements body))) :=
    (stays_declare _ _ _ place).bind fun _ _ => ofBody.inScope.bind fun _ made => .pure made
  refine inLoop.inScope.bind fun r made => (StaysIn.need holdsF).bind fun _ holdsF => ?_
  refine (StaysIn.need holdsL).bind fun _ holdsL => .pure (.cons place ?_ made)
  exact List.forall_mem_cons.2 ⟨⟨first, fromFirst, .inl holdsF⟩,
    List.forall_mem_singleton.2 ⟨last, fromLast, .inl holdsL⟩⟩

mutual

theorem stays_statement : ∀ st : Statement, StatementIn P st →
    (∀ e ∈ st.exprs, ∀ part, e.Contains part → Q part) →
    (∀ block ∈ st.blocks, ∀ e, Mentions block e → Q e) →
    StaysIn P (fun i => L.From Q (i :: i.inside)) (statement st)
  | .bind p name type init, within, from', _ => by
    rw [StatementIn, Statement.positions, List.forall_mem_cons, List.forall_mem_append] at within
    obtain ⟨place, annotated, inInit⟩ := within
    rw [statement]
    refine (stays_binding L name (by simpa using annotated) inInit place).bind
      fun found converts => ?_
    refine (stays_declare _ _ _ place).bind fun slot _ => ?_
    exact (StaysIn.need converts).bind fun code converts =>
      .pure (.single place rfl rfl (from' init List.mem_cons_self init .self) converts)
  | .assign p target value, within, from', _ => by
    rw [StatementIn, Statement.positions, List.forall_mem_cons, List.forall_mem_append] at within
    obtain ⟨ofTarget, ofValue⟩ := List.forall_mem_cons.1 from'
    rw [statement]
    exact stays_assignment L ofTarget (ofValue value List.mem_cons_self value .self)
      within.2.1 within.2.2 within.1
  | .ifThen p cond body, within, from', inner => by
    rw [StatementIn, Statement.positions, List.forall_mem_cons, List.forall_mem_append] at within
    obtain ⟨place, inCond, inBody⟩ := within
    exact stays_ifThen L place inCond (from' cond List.mem_cons_self cond .self)
      (stays_statements body inBody (inner body List.mem_cons_self))
  | .ifThenElse p cond body otherwise, within, from', inner => by
    simp only [StatementIn, Statement.positions, List.forall_mem_cons,
      List.forall_mem_append] at within
    obtain ⟨place, inCond, inBody, inElse⟩ := within
    obtain ⟨ofBody, ofElse⟩ := List.forall_mem_cons.1 inner
    exact stays_ifThenElse L place inCond (from' cond List.mem_cons_self cond .self)
      (stays_statements body inBody ofBody)
      (stays_statements otherwise inElse (ofElse _ List.mem_cons_self))
  | .loop p name first last body, within, from', inner => by
    simp only [StatementIn, Statement.positions, List.forall_mem_cons,
      List.forall_mem_append] at within
    obtain ⟨place, inFirst, inLast, inBody⟩ := within
    obtain ⟨ofFirst, ofLast⟩ := List.forall_mem_cons.1 from'
    exact stays_loop L place inFirst inLast (ofFirst first .self)
      (ofLast last List.mem_cons_self last .self)
      (stays_statements body inBody (inner body List.mem_cons_self))
  | .give p value, within, from', _ => by
    rw [StatementIn, Statement.positions, List.forall_mem_cons] at within
    rw [statement]
    refine stays_give L (fun e is => from' e (Option.mem_toList.2 is) e .self) (fun e is => ?_)
      within.1
    cases is
    exact within.2
  | .eval p value, within, from', _ => by
    rw [StatementIn, Statement.positions, List.forall_mem_cons] at within
    rw [statement]
    exact (stays_expr L value within.2).bind fun _ holds =>
      .pure (.single within.1 rfl rfl (from' value List.mem_cons_self value .self) (.inl holds))

theorem stays_statements : ∀ body : List Statement, (∀ p ∈ Source.positionsIn body, P p) →
    (∀ e, Mentions body e → Q e) →
    StaysIn P (fun code => L.From Q (nestedIn code)) (statements body)
  | [], _, _ => by
    rw [statements]
    exact .pure .nil
  | st :: rest, within, from' => by
    rw [Source.positionsIn, List.forall_mem_append] at within
    have first := stays_statement st within.1
      (fun e mem part contains => from' part (.expr List.mem_cons_self mem contains))
      fun block mem e mentions => from' e (.block List.mem_cons_self mem mentions)
    have others := stays_statements rest within.2 fun e mentions => from' e mentions.later
    rw [statements]
    refine first.attempt.bind fun found first => ?_
    -- A statement that fails is left out of the block.
    cases found with
    | some i => exact others.bind fun _ more => .pure ((first i rfl).append more)
    | none => exact others

end

end

theorem stays_signature {f : Source.Function} (param : P f.paramType.position)
    (result : P f.resultType.position) : StaysIn P (fun _ => True) (signature f) :=
  (stays_resolveType param).attempt.bind fun _ _ => (stays_resolveType result).attempt.bind
    fun _ _ => (stays_declare _ _ _ param).bind fun _ _ => .pure trivial

end Check

end SceneScript.Typing
