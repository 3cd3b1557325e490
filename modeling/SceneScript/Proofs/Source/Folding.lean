import Mathlib.Algebra.Group.Int.Defs
import SceneScript.Machine.Eval
import SceneScript.Proofs.Source.Entering
import SceneScript.Proofs.Source.Heights
import SceneScript.Proofs.Token.Cuts

/-!
# Folding by the machine

A parser that folds a minus into a literal by the operation of the machine, and looks at every
literal that it builds. It goes another way where the machine has no result and where a literal has
no negation of 64 bits. That way is never taken on tokens whose literals are of that size: the
parser does there what the one that folds whole numbers without a bound does
(`Parser.agree_expr`, `Parser.agree_unit`).
-/

namespace SceneScript.Source

def Negatable (v : Int) : Prop :=
  -(2 ^ 63 - 1) ≤ v ∧ v ≤ 2 ^ 63 - 1

instance (v : Int) : Decidable (Negatable v) :=
  inferInstanceAs (Decidable (_ ∧ _))

theorem Negatable.neg {v : Int} (negatable : Negatable v) : Negatable (-v) := by
  unfold Negatable at *
  omega

theorem Negatable.toInt_ofInt {v : Int} (negatable : Negatable v) : (Int64.ofInt v).toInt = v := by
  unfold Negatable at negatable
  exact Int64.toInt_ofInt_of_le (by omega) (by omega)

theorem Negatable.neg? {v : Int} (negatable : Negatable v) :
    Number.neg? (Int64.ofInt v) = some (Int64.ofInt (-v)) := by
  have low : Int64.minValue.toInt = -2 ^ 63 := rfl
  have high : Int64.maxValue.toInt = 2 ^ 63 - 1 := rfl
  rw [Number.neg?, Number.int64?, negatable.toInt_ofInt, low, high]
  unfold Negatable at negatable
  exact if_pos ⟨by omega, by omega⟩

/-! ## Literals in trees -/

theorem Expr.Contains.trans {e part inner : Expr} (outer : e.Contains part)
    (contains : part.Contains inner) : e.Contains inner := by
  induction outer with
  | self => exact contains
  | child mem _ ih => exact .child mem (ih contains)

def Expr.integer? : Expr → Option Int
  | .int _ v => some v
  | _ => none

def Expr.LiteralsFit (e : Expr) : Prop :=
  ∀ p v, e.Contains (.int p v) → Negatable v

namespace Expr.LiteralsFit

variable {e : Expr}

theorem int {p : Position} {v : Int} (negatable : Negatable v) : (Expr.int p v).LiteralsFit := by
  intro q w contains
  cases contains with
  | self => exact negatable
  | child mem _ => cases mem

theorem node (noLiteral : e.integer? = none) (children : ∀ e' ∈ e.children, e'.LiteralsFit) :
    e.LiteralsFit := by
  intro p v contains
  cases contains with
  | self => cases noLiteral
  | child mem inside => exact children _ mem p v inside

theorem integer? (fits : e.LiteralsFit) : ∀ v ∈ e.integer?, Negatable v := by
  intro v is
  cases e with
  | int p w =>
    exact Option.some.inj is ▸ fits p w .self
  | _ => cases is

end Expr.LiteralsFit

def BlockFits (body : List Statement) : Prop :=
  ∀ e, Mentions body e → e.LiteralsFit

namespace BlockFits

theorem statement {s : Statement} (exprs : ∀ e ∈ s.exprs, e.LiteralsFit)
    (blocks : ∀ block ∈ s.blocks, BlockFits block) : BlockFits [s] := by
  intro e mentions
  cases mentions with
  | expr mem inStatement contains =>
    cases List.mem_singleton.1 mem
    exact fun p v inside => exprs _ inStatement p v (contains.trans inside)
  | block mem inStatement inside =>
    cases List.mem_singleton.1 mem
    exact blocks _ inStatement e inside

theorem body {body : List Statement} (statements : ∀ s ∈ body, BlockFits [s]) :
    BlockFits body := by
  intro e mentions
  cases mentions with
  | expr mem inStatement contains =>
    exact statements _ mem e (.expr List.mem_cons_self inStatement contains)
  | block mem inStatement inside =>
    exact statements _ mem e (.block List.mem_cons_self inStatement inside)

end BlockFits

def LiteralFits (t : Token) : Prop :=
  ∀ v, t.kind = .int v → Negatable v

namespace Parser

/-! ## The parser -/

/-- Passes what a parser gives unless it is a literal that is not negatable. -/
def watched (otherwise m : Parser Expr) : Parser Expr := do
  let e ← m
  if ∀ v ∈ e.integer?, Negatable v then return e else otherwise

/-- A unary operator applied. A minus in front of a literal is folded to what the machine makes of
the value, if that is a number. -/
def applyUnaryBy (otherwise : Parser Expr) (op : UnaryOp) (position : Position) (operand : Expr) :
    Parser Expr :=
  match op, operand with
  | .neg, .int _ v =>
    match UnaryOp.apply .neg (.int (Int64.ofInt v)) with
    | .ok (.int n) => return .int position n.toInt
    | _ => otherwise
  | .neg, .float _ v =>
    match UnaryOp.apply .neg (.float v) with
    | .ok (.float x) => return .float position x
    | _ => otherwise
  | op, operand => bounded (.unaryOf position op operand)

def postfixedBy (otherwise inner : Parser Expr) : Parser Expr := do
  let e ← watched otherwise (primary inner)
  postfixTail inner (← read).rounds e

def unaryOver (apply : UnaryOp → Position → Expr → Parser Expr) (operand : Position → Parser Expr)
    (plain : Parser Expr) : Parser Expr := do
  let t ← peek
  match t.kind with
  | .symbol .minus =>
    let _ ← advance
    apply .neg t.position (← operand t.position)
  | .symbol .bang =>
    let _ ← advance
    apply .not t.position (← operand t.position)
  | _ => plain

def unaryOrBy (otherwise : Parser Expr) (operand : Position → Parser Expr) (inner : Parser Expr) :
    Parser Expr :=
  unaryOver (fun op p e => watched otherwise (applyUnaryBy otherwise op p e)) operand
    (postfixedBy otherwise inner)

def unaryBy (otherwise : Parser Expr) : Nat → Parser Expr
  | 0 => unaryOrBy otherwise (fail .codeTooDeep) tooDeepHere
  | levels + 1 =>
    unaryOrBy otherwise (fun _ => unaryBy otherwise levels)
      (binaryLevels (unaryBy otherwise levels))

def exprBy (otherwise : Parser Expr) : Nat → Parser Expr
  | 0 => tooDeepHere
  | levels + 1 => binaryLevels (unaryBy otherwise levels)

mutual

def blockBy (otherwise : Parser Expr) : Nat → Parser (List Statement)
  | 0 => closedBlock
  | levels + 1 =>
    blockOf (statementOf (exprBy otherwise levels) (blockBy otherwise levels)
      (conditionalBy otherwise levels))

def conditionalBy (otherwise : Parser Expr) : Nat → Parser Statement
  | 0 => conditionalOf (exprBy otherwise 0) closedBlock tooDeepHere
  | levels + 1 =>
    conditionalOf (exprBy otherwise (levels + 1))
      (blockOf (statementOf (exprBy otherwise levels) (blockBy otherwise levels)
        (conditionalBy otherwise levels)))
      (conditionalBy otherwise levels)

end

def unitBy (otherwise : Parser Expr) : Parser CompilationUnit :=
  unitOver do blockBy otherwise (← read).maxDepth

/-! ## Agreement -/

variable {α β : Type}

/-- On tokens with negatable literals the second parser does what the first one does. What they give
is good, and the end of the tokens is left. -/
def Agree (good : α → Prop) (m m' : Parser α) : Prop :=
  ∀ c ts, (∀ t ∈ ts, LiteralFits t) →
    m' c ts = m c ts ∧ ∀ a left, m c ts = .ok (a, left) → good a ∧ left <:+ ts

namespace Agree

variable {good : α → Prop} {good' : β → Prop} {m m' : Parser α} {k k' : α → Parser β}

theorem of_yields (yields : ∀ maxDepth, Yields (fun _ => True) maxDepth good m) :
    Agree good m m := by
  intro c ts _
  refine ⟨rfl, fun a left ran => ?_⟩
  have ends := yields c.maxDepth c ts rfl trivial fun _ _ => trivial
  rwa [ran] at ends

theorem pure {a : α} (holds : good a) : Agree good (pure a) (pure a) := by
  intro c ts _
  refine ⟨rfl, fun b left ran => ?_⟩
  cases ran
  exact ⟨holds, List.suffix_refl _⟩

theorem fail (error : Error) (p : Position) :
    Agree good (Parser.fail error p) (Parser.fail error p) :=
  fun _ _ _ => ⟨rfl, nofun⟩

theorem bind (first : Agree good m m') (rest : ∀ a, good a → Agree good' (k a) (k' a)) :
    Agree good' (m >>= k) (m' >>= k') := by
  intro c ts fit
  obtain ⟨same, gives⟩ := first c ts fit
  cases ran : m c ts with
  | error f =>
    rw [bind_error ran, bind_error (same.trans ran)]
    exact ⟨rfl, nofun⟩
  | ok r =>
    obtain ⟨a, left⟩ := r
    obtain ⟨holds, short⟩ := gives a left ran
    obtain ⟨same', gives'⟩ := rest a holds c left fun t mem => fit t (short.subset mem)
    rw [bind_ok ran, bind_ok (same.trans ran)]
    refine ⟨same', fun b left' ran' => ?_⟩
    exact ⟨(gives' b left' ran').1, (gives' b left' ran').2.trans short⟩

theorem map {f : α → β} (first : Agree good m m') (maps : ∀ a, good a → good' (f a)) :
    Agree good' (f <$> m) (f <$> m') := by
  rw [map_eq_pure_bind, map_eq_pure_bind]
  exact first.bind fun a holds => .pure (maps a holds)

theorem read_bind {k k' : Parsing → Parser β} (rest : ∀ c, Agree good' (k c) (k' c)) :
    Agree good' (read >>= k) (read >>= k') :=
  fun c ts fit => rest c c ts fit

theorem watched {m m' : Parser Expr} (otherwise : Parser Expr)
    (agree : Agree Expr.LiteralsFit m m') :
    Agree Expr.LiteralsFit m (Parser.watched otherwise m') := by
  rw [← bind_pure m]
  refine agree.bind fun e fits => ?_
  rw [if_pos fits.integer?]
  exact .pure fits

end Agree

/-! ## Tokens -/

theorem agree_peek : Agree LiteralFits peek peek := by
  intro c ts fit
  refine ⟨rfl, fun t left ran => ?_⟩
  rw [peek_run] at ran
  cases ran
  refine ⟨?_, List.suffix_refl _⟩
  cases ts with
  | nil => exact nofun
  | cons t ts => exact fit t List.mem_cons_self

theorem agree_advance : Agree LiteralFits advance advance :=
  agree_peek.bind fun t fits c ts _ => ⟨rfl, fun u left ran => by
    cases ran
    exact ⟨fits, List.tail_suffix ts⟩⟩

theorem agree_peekKind : Agree (fun _ => True) peekKind peekKind :=
  .of_yields fun _ => yields_peekKind

theorem agree_peekPosition : Agree (fun _ => True) peekPosition peekPosition :=
  .of_yields fun _ => yields_peekPosition

theorem agree_eat (s : Symbol) : Agree (fun _ => True) (eat s) (eat s) :=
  .of_yields fun _ => yields_eat s

theorem agree_eatKeyword (k : Keyword) : Agree (fun _ => True) (eatKeyword k) (eatKeyword k) :=
  .of_yields fun _ => yields_eatKeyword k

theorem agree_expect (s : Symbol) : Agree (fun _ => True) (expect s) (expect s) :=
  .of_yields fun _ => yields_expect s

theorem agree_expectKeyword (k : Keyword) :
    Agree (fun _ => True) (expectKeyword k) (expectKeyword k) :=
  .of_yields fun _ => yields_expectKeyword k

theorem agree_identifier : Agree (fun _ => True) identifier identifier :=
  .of_yields fun _ => yields_identifier

theorem agree_path : Agree (fun _ => True) path path :=
  .of_yields fun _ => yields_path

theorem agree_typeName : Agree (fun _ => True) typeName typeName :=
  .of_yields fun _ => yields_typeName

theorem agree_imports (rounds : Nat) (found : List Path) :
    Agree (fun _ => True) (imports rounds found) (imports rounds found) :=
  .of_yields fun _ => (yields_imports (P := fun _ => True) rounds fun _ _ => trivial).imp
    fun _ _ => trivial

/-! ## Expressions -/

theorem agree_bounded {e : Expr} (fits : e.LiteralsFit) :
    Agree Expr.LiteralsFit (bounded e) (bounded e) := by
  refine .read_bind fun c => ?_
  split
  · exact .pure fits
  · exact .fail _ _

theorem agree_tooDeepHere {good : α → Prop} : Agree good tooDeepHere tooDeepHere :=
  agree_peekPosition.bind fun _ _ => .fail _ _

section

variable {operator? : Token.Kind → Option BinaryOp} {operand operand' inner inner' : Parser Expr}

theorem agree_chainTail (ofOperand : Agree Expr.LiteralsFit operand operand') (rounds : Nat)
    {left : Expr} (fits : left.LiteralsFit) :
    Agree Expr.LiteralsFit (chainTail operator? operand rounds left)
      (chainTail operator? operand' rounds left) := by
  induction rounds generalizing left with
  | zero => exact .pure fits
  | succ rounds ih =>
    refine agree_peek.bind fun t _ => ?_
    cases operator? t.kind with
    | none => exact .pure fits
    | some op =>
      refine agree_advance.bind fun _ _ => ofOperand.bind fun right fits' => ?_
      refine (agree_bounded (.node rfl ?_)).bind fun e fits => ih fits
      exact List.forall_mem_cons.2 ⟨fits, List.forall_mem_singleton.2 fits'⟩

theorem agree_chain (ofOperand : Agree Expr.LiteralsFit operand operand') :
    Agree Expr.LiteralsFit (chain operator? operand) (chain operator? operand') :=
  ofOperand.bind fun _ fits => .read_bind fun _ => agree_chainTail ofOperand _ fits

theorem agree_binaryLevels (ofUnary : Agree Expr.LiteralsFit operand operand') :
    Agree Expr.LiteralsFit (binaryLevels operand) (binaryLevels operand') :=
  agree_chain (agree_chain (agree_chain (agree_chain (agree_chain (agree_chain ofUnary)))))

theorem agree_argumentTail (ofInner : Agree Expr.LiteralsFit inner inner') (rounds : Nat)
    {found : List Expr} (fits : ∀ e ∈ found, e.LiteralsFit) :
    Agree (fun es => ∀ e ∈ es, e.LiteralsFit) (argumentTail inner rounds found)
      (argumentTail inner' rounds found) := by
  have reversed {es : List Expr} (fits : ∀ e ∈ es, e.LiteralsFit) :
      ∀ e ∈ es.reverse, e.LiteralsFit :=
    fun e mem => fits e (List.mem_reverse.1 mem)
  induction rounds generalizing found with
  | zero => exact .pure (reversed fits)
  | succ rounds ih =>
    refine ofInner.bind fun e here => (agree_eat .comma).bind fun taken _ => ?_
    have more : ∀ e' ∈ e :: found, e'.LiteralsFit := List.forall_mem_cons.2 ⟨here, fits⟩
    split
    · exact ih more
    · exact (agree_expect .closeParen).bind fun _ _ => .pure (reversed more)

theorem agree_arguments (ofInner : Agree Expr.LiteralsFit inner inner') :
    Agree (fun es => ∀ e ∈ es, e.LiteralsFit) (arguments inner) (arguments inner') := by
  refine (agree_expect .openParen).bind fun _ _ => (agree_eat .closeParen).bind fun taken _ => ?_
  split
  · exact .pure nofun
  · exact .read_bind fun _ => agree_argumentTail ofInner _ nofun

theorem agree_member (ofInner : Agree Expr.LiteralsFit inner inner') :
    Agree (fun found => ∀ es, found.2 = some es → ∀ e ∈ es, e.LiteralsFit)
      (member inner) (member inner') := by
  refine agree_identifier.bind fun name _ => agree_peekKind.bind fun kind _ => ?_
  split
  · refine (agree_arguments ofInner).bind fun args fits => .pure fun es is => ?_
    cases is
    exact fits
  · exact .pure nofun

theorem agree_postfixTail (ofInner : Agree Expr.LiteralsFit inner inner') (rounds : Nat) {e : Expr}
    (fits : e.LiteralsFit) :
    Agree Expr.LiteralsFit (postfixTail inner rounds e) (postfixTail inner' rounds e) := by
  induction rounds generalizing e with
  | zero => exact .pure fits
  | succ rounds ih =>
    refine agree_peek.bind fun t _ => ?_
    split
    · refine agree_advance.bind fun _ _ => (agree_member ofInner).bind fun found inside => ?_
      split
      · next name args =>
        refine (agree_bounded (.node rfl ?_)).bind fun e fits => ih fits
        exact List.forall_mem_cons.2 ⟨fits, inside args rfl⟩
      · refine (agree_bounded (.node rfl ?_)).bind fun e fits => ih fits
        exact List.forall_mem_singleton.2 fits
    · refine agree_advance.bind fun _ _ => ?_
      split
      · refine (agree_member ofInner).bind fun found inside => ?_
        split
        · next name args =>
          refine (agree_bounded (.node rfl ?_)).bind fun e fits => ih fits
          exact inside args rfl
        · refine (agree_bounded (.node rfl ?_)).bind fun e fits => ih fits
          exact List.forall_mem_nil _
      · exact .fail _ _
    · exact .pure fits

theorem agree_primary (ofInner : Agree Expr.LiteralsFit inner inner') :
    Agree Expr.LiteralsFit (primary inner) (primary inner') := by
  refine agree_advance.bind fun t fits => ?_
  split
  case h_1 v is => exact .pure (.int (fits v is))
  case h_8 => exact ofInner.bind fun e fits => (agree_expect .closeParen).bind fun _ _ => .pure fits
  case h_9 => exact .fail _ _
  all_goals exact .pure (.node rfl nofun)

theorem agree_postfixed (otherwise : Parser Expr) (ofInner : Agree Expr.LiteralsFit inner inner') :
    Agree Expr.LiteralsFit (postfixed inner) (postfixedBy otherwise inner') :=
  ((agree_primary ofInner).watched otherwise).bind fun _ fits => .read_bind fun _ =>
    agree_postfixTail ofInner _ fits

theorem agree_applyUnary (otherwise : Parser Expr) (op : UnaryOp) (p : Position) {e : Expr}
    (fits : e.LiteralsFit) :
    Agree Expr.LiteralsFit (applyUnary op p e) (applyUnaryBy otherwise op p e) := by
  cases op with
  | not =>
    refine agree_bounded (.node rfl ?_)
    exact List.forall_mem_singleton.2 fits
  | neg =>
    cases e with
    | int q v =>
      have negatable : Negatable v := fits q v .self
      have folded : applyUnaryBy otherwise .neg p (.int q v) =
          pure (.int p (Int64.ofInt (-v)).toInt) := by
        simp only [applyUnaryBy, UnaryOp.apply, negatable.neg?]
      rw [folded, negatable.neg.toInt_ofInt]
      exact .pure (.int negatable.neg)
    | float => exact .pure (.node rfl (List.forall_mem_nil _))
    | _ =>
      refine agree_bounded (.node rfl ?_)
      exact List.forall_mem_singleton.2 fits

theorem unaryOr_eq (operand : Position → Parser Expr) (inner : Parser Expr) :
    unaryOr operand inner = unaryOver applyUnary operand (postfixed inner) := rfl

theorem agree_unaryOr (otherwise : Parser Expr) {under under' : Position → Parser Expr}
    (ofUnder : ∀ p, Agree Expr.LiteralsFit (under p) (under' p))
    (ofInner : Agree Expr.LiteralsFit inner inner') :
    Agree Expr.LiteralsFit (unaryOr under inner) (unaryOrBy otherwise under' inner') := by
  rw [unaryOr_eq]
  refine agree_peek.bind fun t _ => ?_
  split
  · refine agree_advance.bind fun _ _ => (ofUnder _).bind fun e fits => ?_
    exact (agree_applyUnary otherwise .neg t.position fits).watched otherwise
  · refine agree_advance.bind fun _ _ => (ofUnder _).bind fun e fits => ?_
    exact (agree_applyUnary otherwise .not t.position fits).watched otherwise
  · exact agree_postfixed otherwise ofInner

end

variable (otherwise : Parser Expr)

theorem agree_unary (levels : Nat) :
    Agree Expr.LiteralsFit (unary levels) (unaryBy otherwise levels) := by
  induction levels with
  | zero => exact agree_unaryOr otherwise (fun p => .fail _ _) agree_tooDeepHere
  | succ levels ih => exact agree_unaryOr otherwise (fun _ => ih) (agree_binaryLevels ih)

theorem agree_expr (levels : Nat) :
    Agree Expr.LiteralsFit (expr levels) (exprBy otherwise levels) := by
  cases levels with
  | zero => exact agree_tooDeepHere
  | succ levels => exact agree_binaryLevels (agree_unary otherwise levels)

/-! ## Statements -/

def StatementFits (s : Statement) : Prop :=
  BlockFits [s]

section

variable {expr expr' : Parser Expr} {statement statement' deeper deeper' : Parser Statement}
  {block block' : Parser (List Statement)}

theorem agree_statements (ofStatement : Agree StatementFits statement statement')
    (start : Position) (rounds : Nat) {found : List Statement}
    (fits : ∀ s ∈ found, StatementFits s) :
    Agree BlockFits (statements statement start rounds found)
      (statements statement' start rounds found) := by
  induction rounds generalizing found with
  | zero => exact .fail _ _
  | succ rounds ih =>
    refine agree_peekKind.bind fun kind _ => ?_
    split
    · refine agree_advance.bind fun _ _ => .pure (.body fun s mem => ?_)
      exact fits s (List.mem_reverse.1 mem)
    · exact .fail _ _
    · exact ofStatement.bind fun s here => ih (List.forall_mem_cons.2 ⟨here, fits⟩)

theorem agree_blockOf (ofStatement : Agree StatementFits statement statement') :
    Agree BlockFits (blockOf statement) (blockOf statement') :=
  (agree_expect .openBrace).bind fun start _ => .read_bind fun _ =>
    agree_statements ofStatement start _ nofun

theorem agree_closedBlock : Agree BlockFits closedBlock closedBlock :=
  (agree_expect .openBrace).bind fun _ _ => .fail _ _

theorem agree_conditionalOf (ofExpr : Agree Expr.LiteralsFit expr expr')
    (ofBlock : Agree BlockFits block block') (ofDeeper : Agree StatementFits deeper deeper') :
    Agree StatementFits (conditionalOf expr block deeper) (conditionalOf expr' block' deeper') := by
  refine (agree_expectKeyword .if).bind fun p _ => ofExpr.bind fun cond ofCond => ?_
  refine ofBlock.bind fun body ofBody => (agree_eatKeyword .else).bind fun taken _ => ?_
  have both {otherwise : List Statement} (ofElse : BlockFits otherwise) :
      StatementFits (.ifThenElse p cond body otherwise) :=
    .statement (List.forall_mem_singleton.2 ofCond)
      (List.forall_mem_cons.2 ⟨ofBody, List.forall_mem_singleton.2 ofElse⟩)
  split
  · refine agree_peekKind.bind fun kind _ => ?_
    split
    · exact ofDeeper.bind fun s ofElse => .pure (both ofElse)
    · exact ofBlock.bind fun otherwise ofElse => .pure (both ofElse)
  · exact .pure (.statement (List.forall_mem_singleton.2 ofCond)
      (List.forall_mem_singleton.2 ofBody))

theorem agree_bindStatement (ofExpr : Agree Expr.LiteralsFit expr expr') :
    Agree StatementFits (bindStatement expr) (bindStatement expr') := by
  refine (agree_expectKeyword .let).bind fun p _ => agree_identifier.bind fun name _ => ?_
  refine (agree_eat .colon).bind fun typed _ => ?_
  have rest (type : Option TypeName) : Agree StatementFits
      (do
        let _ ← Parser.expect .assign
        let init ← expr
        let _ ← Parser.expect .semicolon
        return Statement.bind p name type init)
      (do
        let _ ← Parser.expect .assign
        let init ← expr'
        let _ ← Parser.expect .semicolon
        return Statement.bind p name type init) :=
    (agree_expect .assign).bind fun _ _ => ofExpr.bind fun init fits =>
      (agree_expect .semicolon).bind fun _ _ =>
        .pure (.statement (List.forall_mem_singleton.2 fits) nofun)
  split
  · have annotation : Agree (fun _ => True) (some <$> typeName) (some <$> typeName) :=
      agree_typeName.map fun _ _ => trivial
    exact annotation.bind fun type _ => rest type
  · exact rest none

theorem agree_loopStatement (ofExpr : Agree Expr.LiteralsFit expr expr')
    (ofBlock : Agree BlockFits block block') :
    Agree StatementFits (loopStatement expr block) (loopStatement expr' block') := by
  refine (agree_expectKeyword .for).bind fun p _ => agree_identifier.bind fun name _ => ?_
  refine (agree_expectKeyword .in).bind fun _ _ => ofExpr.bind fun first ofFirst => ?_
  refine (agree_expect .range).bind fun _ _ => ofExpr.bind fun last ofLast => ?_
  refine ofBlock.bind fun body ofBody => .pure (.statement ?_ ?_)
  · exact List.forall_mem_cons.2 ⟨ofFirst, List.forall_mem_singleton.2 ofLast⟩
  · exact List.forall_mem_singleton.2 ofBody

theorem agree_giveStatement (ofExpr : Agree Expr.LiteralsFit expr expr') :
    Agree StatementFits (giveStatement expr) (giveStatement expr') := by
  refine (agree_expectKeyword .return).bind fun p _ => agree_peekKind.bind fun kind _ => ?_
  have given (value : Option Expr) (fits : ∀ e ∈ value, e.LiteralsFit) :
      StatementFits (.give p value) :=
    .statement (fun e mem => fits e (Option.mem_toList.1 mem)) nofun
  split
  · exact (agree_expect .semicolon).bind fun _ _ => .pure (given none nofun)
  · have present : Agree (fun value => ∀ e ∈ value, e.LiteralsFit) (some <$> expr)
        (some <$> expr') :=
      ofExpr.map fun e fits e' is => Option.some.inj is ▸ fits
    exact present.bind fun value fits => (agree_expect .semicolon).bind fun _ _ =>
      .pure (given value fits)

theorem agree_plainStatement (ofExpr : Agree Expr.LiteralsFit expr expr') :
    Agree StatementFits (plainStatement expr) (plainStatement expr') := by
  refine agree_peekPosition.bind fun p _ => ofExpr.bind fun target ofTarget => ?_
  refine (agree_eat .assign).bind fun taken _ => ?_
  split
  · refine ofExpr.bind fun value ofValue => (agree_expect .semicolon).bind fun _ _ => .pure ?_
    exact .statement (List.forall_mem_cons.2 ⟨ofTarget, List.forall_mem_singleton.2 ofValue⟩) nofun
  · exact (agree_expect .semicolon).bind fun _ _ =>
      .pure (.statement (List.forall_mem_singleton.2 ofTarget) nofun)

theorem agree_statementOf {conditional conditional' : Parser Statement}
    (ofExpr : Agree Expr.LiteralsFit expr expr') (ofBlock : Agree BlockFits block block')
    (ofConditional : Agree StatementFits conditional conditional') :
    Agree StatementFits (statementOf expr block conditional)
      (statementOf expr' block' conditional') := by
  refine agree_peekKind.bind fun kind _ => ?_
  split
  · exact agree_bindStatement ofExpr
  · exact ofConditional
  · exact agree_loopStatement ofExpr ofBlock
  · exact agree_giveStatement ofExpr
  · exact agree_plainStatement ofExpr

end

theorem agree_levels (levels : Nat) :
    Agree BlockFits (block levels) (blockBy otherwise levels) ∧
      Agree StatementFits (conditional levels) (conditionalBy otherwise levels) := by
  induction levels with
  | zero =>
    refine ⟨agree_closedBlock, ?_⟩
    rw [conditional_zero]
    exact agree_conditionalOf agree_tooDeepHere agree_closedBlock agree_tooDeepHere
  | succ levels ih =>
    have ofExpr := agree_expr otherwise levels
    have wider : Agree BlockFits (block (levels + 1)) (blockBy otherwise (levels + 1)) :=
      agree_blockOf (agree_statementOf ofExpr ih.1 ih.2)
    refine ⟨wider, ?_⟩
    rw [conditional_succ]
    exact agree_conditionalOf (agree_expr otherwise (levels + 1)) wider ih.2

/-! ## Units -/

theorem agree_functionOver {block block' : Parser (List Statement)}
    (ofBlock : Agree BlockFits block block') :
    Agree (fun f => BlockFits f.body) (functionOver block) (functionOver block') := by
  refine (agree_expectKeyword .fn).bind fun p _ => agree_identifier.bind fun name _ => ?_
  refine (agree_expect .openParen).bind fun _ _ => agree_identifier.bind fun param _ => ?_
  refine (agree_expect .colon).bind fun _ _ => agree_typeName.bind fun paramType _ => ?_
  refine (agree_expect .closeParen).bind fun _ _ => (agree_expect .arrow).bind fun _ _ => ?_
  exact agree_typeName.bind fun resultType _ => ofBlock.bind fun body fits => .pure fits

theorem agree_unitOver {block block' : Parser (List Statement)}
    (ofBlock : Agree BlockFits block block') :
    Agree (fun u => BlockFits u.entry.body) (unitOver block) (unitOver block') := by
  refine (agree_expectKeyword .module).bind fun _ _ => agree_path.bind fun moduleName _ => ?_
  refine (agree_expect .semicolon).bind fun _ _ => .read_bind fun c => ?_
  refine (agree_imports _ []).bind fun found _ => ?_
  refine (agree_functionOver ofBlock).bind fun entry fits => agree_peekKind.bind fun kind _ => ?_
  split
  · exact .pure fits
  · exact agree_peek.bind fun _ _ => .fail _ _

theorem unit_eq : unit = unitOver (do block (← read).maxDepth) := rfl

theorem agree_unit : Agree (fun u => BlockFits u.entry.body) unit (unitBy otherwise) := by
  rw [unit_eq]
  exact agree_unitOver (.read_bind fun c => (agree_levels otherwise c.maxDepth).1)

/-! ## Texts -/

theorem fits_of_ofText {text : String} {stream : Token.Stream}
    (reads : Token.Stream.ofText text = .ok stream) : ∀ t ∈ stream.tokens, LiteralFits t := by
  obtain ⟨cuts, gap, tail, splits, ends⟩ := Token.Stream.ofText_cuts text
  rw [reads] at ends
  obtain ⟨-, rfl⟩ := ends
  intro t mem v is
  obtain ⟨cut, among, rfl⟩ := List.mem_map.1 mem
  obtain ⟨front, back, whole⟩ := List.append_of_mem among
  have spells := ((splits.stands whole).spells (.int v)).2 is.symm
  generalize cut.lexeme = lexeme at spells
  cases spells with
  | int _ _ small =>
    have small : _ < 2 ^ 63 := small
    unfold Negatable
    omega

theorem Agree.onText {good : α → Prop} {m m' : Parser α} (agree : Agree good m m')
    (maxDepth : Nat) (text : String) : m'.onText maxDepth text = m.onText maxDepth text ∧
      ∀ a, m.onText maxDepth text = .ok a → good a := by
  unfold Parser.onText
  cases reads : Token.Stream.ofText text with
  | error f => exact ⟨rfl, nofun⟩
  | ok stream =>
    obtain ⟨same, gives⟩ :=
      agree ⟨stream.finish, maxDepth, stream.tokens.length⟩ stream.tokens (fits_of_ofText reads)
    dsimp only
    rw [same]
    refine ⟨rfl, fun a parsed => ?_⟩
    cases ran : m ⟨stream.finish, maxDepth, stream.tokens.length⟩ stream.tokens with
    | error f =>
      rw [ran] at parsed
      cases parsed
    | ok r =>
      rw [ran] at parsed
      cases parsed
      exact (gives _ _ ran).1

end Parser

end SceneScript.Source
