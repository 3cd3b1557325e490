import SceneScript.Proofs.Source.Runs

/-!
# Entering levels

Parsers call each other through four of them that enter a level: those of expressions, of operands
behind a unary operator, of blocks and of what follows `else if`. Here they count the levels that
have been entered, and calls are nested no more often than a given number of times. One call more
than the limit on depth is enough: what is beyond it makes no difference (`entering_expr`,
`entering_unit`).
-/

namespace SceneScript.Source.Parser

structure Entering where
  expr : Parser Expr
  /-- The operand of a unary operator, which stands at the position. -/
  operand : Position → Parser Expr
  block : Parser (List Statement)
  /-- The conditional behind `else`. -/
  elseIf : Parser Statement

def enter (maxDepth depth : Nat) (p : Position) : Parser Unit :=
  if depth < maxDepth then return () else fail .codeTooDeep p

namespace Entering

def conditional (inner : Entering) : Parser Statement :=
  conditionalOf inner.expr inner.block inner.elseIf

def outer (maxDepth depth : Nat) (inner : Entering) : Entering where
  expr := do
    enter maxDepth depth (← peekPosition)
    binaryLevels (unaryOr inner.operand inner.expr)
  operand p := do
    enter maxDepth depth p
    unaryOr inner.operand inner.expr
  block := do
    let start ← expect .openBrace
    enter maxDepth depth start
    statements (statementOf inner.expr inner.block inner.conditional) start
      ((← read).rounds + 1) []
  elseIf := do
    enter maxDepth depth (← peekPosition)
    inner.conditional

def left : Nat → Entering
  | 0 => ⟨tooDeepHere, fail .codeTooDeep, closedBlock, tooDeepHere⟩
  | levels + 1 =>
    ⟨Parser.expr (levels + 1), fun _ => unary levels, Parser.block (levels + 1),
      Parser.conditional levels⟩

end Entering

open Entering

/-- The parsers behind the given number of levels, `calls` of them nested in each other. Calls that
are nested deeper go to those that are given. -/
def entering (maxDepth : Nat) (beyond : Entering) : Nat → Nat → Entering
  | 0, _ => beyond
  | calls + 1, depth => outer maxDepth depth (entering maxDepth beyond calls (depth + 1))

variable {α β : Type} {maxDepth depth : Nat}

theorem peekPosition_bind_const (m : Parser α) : (peekPosition >>= fun _ => m) = m := by
  funext P ts
  cases ts <;> rfl

theorem enter_bind (deeper : depth < maxDepth) (p : Position) (m : Parser α) :
    (enter maxDepth depth p >>= fun _ => m) = m := by
  rw [enter, if_pos deeper]
  rfl

theorem enter_bind_fails (tight : ¬depth < maxDepth) (p : Position) (m : Parser α) :
    (enter maxDepth depth p >>= fun _ => m) = fail .codeTooDeep p := by
  rw [enter, if_neg tight]
  rfl

namespace Entering

theorem conditional_left (levels : Nat) :
    (left levels).conditional = Parser.conditional levels := by
  cases levels <;> rfl

theorem unaryOr_left (levels : Nat) :
    unaryOr (left levels).operand (Parser.expr levels) = unary levels := by
  cases levels <;> rfl

theorem expr_left (levels : Nat) : (left levels).expr = Parser.expr levels := by
  cases levels <;> rfl

theorem block_left (levels : Nat) : (left levels).block = Parser.block levels := by
  cases levels <;> rfl

theorem outer_left {levels : Nat} (deeper : depth < maxDepth) :
    outer maxDepth depth (left levels) = left (levels + 1) := by
  simp only [outer, enter_bind deeper, peekPosition_bind_const, unaryOr_left, conditional_left,
    expr_left, block_left]
  rfl

theorem outer_fails (tight : ¬depth < maxDepth) (inner : Entering) :
    outer maxDepth depth inner = left 0 := by
  simp only [outer, enter_bind_fails tight]
  rfl

end Entering

/-- It makes no difference what stands for the parsers beyond as many calls as there are levels left
and one more, which finds that there are none. -/
theorem entering_eq (beyond : Entering) {calls levels : Nat} (within : depth + levels = maxDepth)
    (enough : levels < calls) : entering maxDepth beyond calls depth = left levels := by
  induction levels generalizing calls depth with
  | zero =>
    -- The first call finds the limit reached, and nothing beyond it is asked for.
    obtain ⟨calls, rfl⟩ := Nat.exists_eq_add_one_of_ne_zero (Nat.ne_of_gt enough)
    exact outer_fails (by omega) _
  | succ levels ih =>
    obtain ⟨calls, rfl⟩ := Nat.exists_eq_add_one_of_ne_zero (Nat.ne_zero_of_lt enough)
    rw [entering, ih (by omega) (Nat.lt_of_succ_lt_succ enough)]
    exact outer_left (by omega)

theorem entering_expr (beyond : Entering) (maxDepth : Nat) :
    (entering maxDepth beyond (maxDepth + 1) 0).expr = expr maxDepth := by
  rw [entering_eq beyond (Nat.zero_add maxDepth) (Nat.lt_succ_self maxDepth), expr_left]

/-! ## Units -/

def functionOver (block : Parser (List Statement)) : Parser Function := do
  let position ← expectKeyword .fn
  let name ← identifier
  let _ ← expect .openParen
  let param ← identifier
  let _ ← expect .colon
  let paramType ← typeName
  let _ ← expect .closeParen
  let _ ← expect .arrow
  let resultType ← typeName
  let body ← block
  return { name, param, paramType, resultType, body, position }

def unitOver (block : Parser (List Statement)) : Parser CompilationUnit := do
  let _ ← expectKeyword .module
  let moduleName ← path
  let _ ← expect .semicolon
  let imports ← imports (← read).rounds []
  let entry ← functionOver block
  if (← peekKind) = .finish then
    return { moduleName, imports, entry }
  else
    unexpected .finish

variable {c : Parsing} {ts : List Token}

theorem bind_alike {m : Parser α} {k k' : α → Parser β}
    (alike : ∀ a left, k a c left = k' a c left) : (m >>= k) c ts = (m >>= k') c ts := by
  cases ran : m c ts with
  | ok r => rw [bind_ok ran, bind_ok ran, alike]
  | error f => rw [bind_error ran, bind_error ran]

theorem functionOver_block : functionOver (block c.maxDepth) c ts = function c ts := by
  unfold functionOver function
  refine bind_alike fun _ _ => bind_alike fun _ _ => bind_alike fun _ _ => bind_alike fun _ _ => ?_
  refine bind_alike fun _ _ => bind_alike fun _ _ => bind_alike fun _ _ => bind_alike fun _ _ => ?_
  exact bind_alike fun _ _ => rfl

theorem entering_unit (beyond : Entering) (c : Parsing) (ts : List Token) :
    unitOver (entering c.maxDepth beyond (c.maxDepth + 1) 0).block c ts = unit c ts := by
  rw [entering_eq beyond (Nat.zero_add c.maxDepth) (Nat.lt_succ_self c.maxDepth), block_left]
  unfold unitOver unit
  refine bind_alike fun _ _ => bind_alike fun _ _ => bind_alike fun _ _ => bind_alike fun _ _ => ?_
  refine bind_alike fun _ left => ?_
  cases ran : function c left with
  | ok r => rw [bind_ok ran, bind_ok (functionOver_block.trans ran)]
  | error f => rw [bind_error ran, bind_error (functionOver_block.trans ran)]

end SceneScript.Source.Parser
