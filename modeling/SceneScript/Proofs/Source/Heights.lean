import SceneScript.Proofs.Source.Built

/-!
# Heights and nesting

The height that an expression says it has is that of its tree, and blocks are nested no deeper than
the levels that were left to enter (`Expr.Built.height_eq`, `BlockBuilt.nesting_le`). This holds of
every expression in a unit that is parsed (`BlockBuilt.mentions`).
-/

namespace SceneScript.Source

variable {P : Position → Prop} {maxDepth : Nat}

/-! ## Expressions -/

mutual

/-- The height of the tree, whatever is stored in it. -/
def Expr.treeHeight : Expr → Nat
  | .int .. | .float .. | .string .. | .bool .. | .null .. | .var .. | .staticField .. => 1
  | .field _ _ receiver _ => 1 + receiver.treeHeight
  | .call _ _ receiver _ args => 1 + max receiver.treeHeight (treeHeights args)
  | .staticCall _ _ _ _ args => 1 + treeHeights args
  | .unary _ _ _ operand => 1 + operand.treeHeight
  | .binary _ _ _ left right => 1 + max left.treeHeight right.treeHeight

def treeHeights : List Expr → Nat
  | [] => 0
  | e :: es => max e.treeHeight (treeHeights es)

end

theorem treeHeights_le {es : List Expr} {n : Nat} :
    treeHeights es ≤ n ↔ ∀ e ∈ es, e.treeHeight ≤ n := by
  induction es with
  | nil => simp [treeHeights]
  | cons e es ih => rw [treeHeights, Nat.max_le, ih, List.forall_mem_cons]

theorem Expr.treeHeight_eq (e : Expr) : e.treeHeight = 1 + treeHeights e.children := by
  cases e <;> simp [treeHeight, children, treeHeights]

theorem Expr.treeHeight_child {e child : Expr} (mem : child ∈ e.children) :
    child.treeHeight < e.treeHeight := by
  have le := treeHeights_le.1 (Nat.le_refl (treeHeights e.children)) child mem
  rw [e.treeHeight_eq]
  omega

inductive Expr.Contains : Expr → Expr → Prop
  | self {e : Expr} : Contains e e
  | child {e child part : Expr} : child ∈ e.children → Contains child part → Contains e part

theorem maxHeight_eq {es : List Expr} (same : ∀ e ∈ es, e.height = e.treeHeight) :
    Expr.maxHeight es = treeHeights es := by
  induction es with
  | nil => rfl
  | cons e es ih =>
    obtain ⟨here, there⟩ := List.forall_mem_cons.1 same
    rw [Expr.maxHeight_cons, treeHeights, here, ih there]

namespace Expr.Built

variable {e part : Expr}

theorem height_eq (built : e.Built P maxDepth) : e.height = e.treeHeight := by
  induction built with
  | node _ _ _ height _ ih => rw [height, maxHeight_eq ih, treeHeight_eq]

theorem height_le (built : e.Built P maxDepth) : e.height ≤ maxDepth := by
  obtain ⟨-, -, -, -, within⟩ := built
  exact within

theorem contains (built : e.Built P maxDepth) (contains : e.Contains part) :
    part.Built P maxDepth := by
  induction contains with
  | self => exact built
  | child mem _ ih =>
    obtain ⟨-, -, children, -, -⟩ := built
    exact ih (children _ mem)

end Expr.Built

/-! ## Blocks -/

mutual

def Statement.nesting : Statement → Nat
  | .bind .. | .assign .. | .give .. | .eval .. => 0
  | .ifThen _ _ body | .loop _ _ _ _ body => 1 + nestingIn body
  | .ifThenElse _ _ body otherwise => 1 + max (nestingIn body) (nestingIn otherwise)

def nestingIn : List Statement → Nat
  | [] => 0
  | s :: rest => max s.nesting (nestingIn rest)

end

theorem nestingIn_le {body : List Statement} {n : Nat} :
    nestingIn body ≤ n ↔ ∀ s ∈ body, s.nesting ≤ n := by
  induction body with
  | nil => simp [nestingIn]
  | cons s rest ih => rw [nestingIn, Nat.max_le, ih, List.forall_mem_cons]

theorem Statement.nesting_le {s : Statement} {n : Nat} :
    s.nesting ≤ n ↔ ∀ block ∈ s.blocks, 1 + nestingIn block ≤ n := by
  cases s with
  | ifThenElse p cond body otherwise =>
    rw [nesting, blocks, List.forall_mem_cons, List.forall_mem_singleton]
    omega
  | _ => simp [nesting, blocks]

/-- The expressions of a block: those of its statements and of the blocks inside, with their
parts. -/
inductive Mentions : List Statement → Expr → Prop
  | expr {body s e part} : s ∈ body → e ∈ s.exprs → e.Contains part → Mentions body part
  | block {body s block e} : s ∈ body → block ∈ s.blocks → Mentions block e → Mentions body e

theorem Mentions.later {s : Statement} {rest : List Statement} {e : Expr}
    (mentions : Mentions rest e) : Mentions (s :: rest) e := by
  cases mentions with
  | expr mem inStatement contains => exact .expr (List.mem_cons_of_mem _ mem) inStatement contains
  | block mem inStatement inside => exact .block (List.mem_cons_of_mem _ mem) inStatement inside

theorem Statement.Built.nesting_le {levels : Nat} {s : Statement}
    (built : s.Built P maxDepth levels) : s.nesting ≤ levels := by
  induction built with
  | node _ _ _ entered _ ih =>
    refine Statement.nesting_le.2 fun block mem => ?_
    have inner := nestingIn_le.2 (ih block mem)
    have positive := entered block mem
    omega

namespace BlockBuilt

variable {levels : Nat} {body : List Statement}

theorem nesting_le (built : BlockBuilt P maxDepth levels body) : 1 + nestingIn body ≤ levels := by
  have inner := nestingIn_le.2 fun s mem => (built.statements s mem).nesting_le
  have positive := built.entered
  omega

theorem mentions {e : Expr} (built : BlockBuilt P maxDepth levels body)
    (mentions : Mentions body e) : e.Built P maxDepth := by
  induction mentions generalizing levels with
  | expr inBody inStatement contains =>
    obtain ⟨-, -, exprs, -, -⟩ := built.statements _ inBody
    exact (exprs _ inStatement).contains contains
  | block inBody inStatement _ ih =>
    obtain ⟨-, -, -, entered, blocks⟩ := built.statements _ inBody
    exact ih ⟨entered _ inStatement, blocks _ inStatement⟩

end BlockBuilt

end SceneScript.Source
