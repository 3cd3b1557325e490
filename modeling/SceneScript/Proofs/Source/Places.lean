import SceneScript.Proofs.Source.Built

/-!
# Positions that parsing hands on

A parser makes no positions up: those in the tree it gives, and that of the error it fails with, are
positions of tokens or the end of the text. So what holds of these holds of every position in a tree
that was parsed (`CompilationUnit.parse_places`).
-/

namespace SceneScript.Source

/-! ## Positions in a source tree -/

mutual

def Expr.positions : Expr → List Position
  | .int p _ | .float p _ | .string p _ | .bool p _ | .null p | .var p _ => [p]
  | .field p _ receiver _ => p :: receiver.positions
  | .call p _ receiver _ args => p :: (receiver.positions ++ positionsAll args)
  | .staticField p type _ => [p, type.position]
  | .staticCall p _ type _ args => p :: type.position :: positionsAll args
  | .unary p _ _ operand => p :: operand.positions
  | .binary p _ _ left right => p :: (left.positions ++ right.positions)

def positionsAll : List Expr → List Position
  | [] => []
  | e :: es => e.positions ++ positionsAll es

end

mutual

def Statement.positions : Statement → List Position
  | .bind p _ type init => p :: ((type.map TypeName.position).toList ++ init.positions)
  | .assign p target value => p :: (target.positions ++ value.positions)
  | .ifThen p cond body => p :: (cond.positions ++ positionsIn body)
  | .ifThenElse p cond body otherwise =>
    p :: (cond.positions ++ (positionsIn body ++ positionsIn otherwise))
  | .loop p _ first last body => p :: (first.positions ++ (last.positions ++ positionsIn body))
  | .give p value => p :: (value.map Expr.positions).getD []
  | .eval p value => p :: value.positions

def positionsIn : List Statement → List Position
  | [] => []
  | s :: rest => s.positions ++ positionsIn rest

end

def Function.positions (f : Function) : List Position :=
  f.position :: f.paramType.position :: f.resultType.position :: positionsIn f.body

def CompilationUnit.positions (u : CompilationUnit) : List Position :=
  u.moduleName.position :: (u.imports.map Path.position ++ u.entry.positions)

variable {P : Position → Prop}

theorem positionsAll_forall {es : List Expr} :
    (∀ p ∈ positionsAll es, P p) ↔ ∀ e ∈ es, ∀ p ∈ e.positions, P p := by
  induction es with
  | nil => simp [positionsAll]
  | cons e es ih => rw [positionsAll, List.forall_mem_append, List.forall_mem_cons, ih]

theorem positionsIn_forall {body : List Statement} :
    (∀ p ∈ positionsIn body, P p) ↔ ∀ s ∈ body, ∀ p ∈ s.positions, P p := by
  induction body with
  | nil => simp [positionsIn]
  | cons s rest ih => rw [positionsIn, List.forall_mem_append, List.forall_mem_cons, ih]

theorem Expr.position_mem (e : Expr) : e.position ∈ e.positions := by
  cases e <;> simp [position, positions]

namespace Parser

def ExprIn (P : Position → Prop) (e : Expr) : Prop :=
  ∀ p ∈ e.positions, P p

theorem ExprIn.place {e : Expr} (within : ExprIn P e) : P e.position :=
  within _ e.position_mem

def StatementIn (P : Position → Prop) (s : Statement) : Prop :=
  ∀ p ∈ s.positions, P p

end Parser

open SceneScript.Source.Parser (ExprIn StatementIn)

/-! ## Trees that are built -/

variable {maxDepth : Nat}

theorem Expr.Built.exprIn {e : Expr} (built : e.Built P maxDepth) : ExprIn P e := by
  unfold ExprIn
  induction built with
  | @node e place named _ _ _ ih =>
    cases e with
    | int | float | string | bool | null | var =>
      rw [Expr.positions]
      exact List.forall_mem_singleton.2 place
    | staticField p type name =>
      rw [Expr.positions]
      exact List.forall_mem_cons.2 ⟨place, List.forall_mem_singleton.2 (named type rfl)⟩
    | field p h receiver name =>
      rw [Expr.positions]
      exact List.forall_mem_cons.2 ⟨place, ih receiver List.mem_cons_self⟩
    | unary p h op operand =>
      rw [Expr.positions]
      exact List.forall_mem_cons.2 ⟨place, ih operand List.mem_cons_self⟩
    | call p h receiver name args =>
      obtain ⟨ofReceiver, ofArgs⟩ := List.forall_mem_cons.1 ih
      rw [Expr.positions]
      exact List.forall_mem_cons.2
        ⟨place, List.forall_mem_append.2 ⟨ofReceiver, positionsAll_forall.2 ofArgs⟩⟩
    | staticCall p h type name args =>
      rw [Expr.positions]
      exact List.forall_mem_cons.2
        ⟨place, List.forall_mem_cons.2 ⟨named type rfl, positionsAll_forall.2 ih⟩⟩
    | binary p h op left right =>
      rw [Expr.positions]
      exact List.forall_mem_cons.2 ⟨place, List.forall_mem_append.2
        ⟨ih left List.mem_cons_self, ih right (List.mem_cons_of_mem _ List.mem_cons_self)⟩⟩

theorem Statement.Built.statementIn {levels : Nat} {s : Statement}
    (built : s.Built P maxDepth levels) : StatementIn P s := by
  unfold StatementIn
  induction built with
  | @node levels s place typed exprs _ _ ih =>
    have exprs : ∀ e ∈ s.exprs, ∀ p ∈ e.positions, P p := fun e mem => (exprs e mem).exprIn
    have ih : ∀ block ∈ s.blocks, ∀ p ∈ positionsIn block, P p :=
      fun block mem => positionsIn_forall.2 (ih block mem)
    cases s with
    | bind p name type init =>
      rw [Statement.positions]
      refine List.forall_mem_cons.2 ⟨place, List.forall_mem_append.2 ⟨?_, ?_⟩⟩
      · simpa [Statement.type?] using typed
      · exact exprs init List.mem_cons_self
    | assign p target value =>
      rw [Statement.positions]
      exact List.forall_mem_cons.2 ⟨place, List.forall_mem_append.2
        ⟨exprs target List.mem_cons_self,
          exprs value (List.mem_cons_of_mem _ List.mem_cons_self)⟩⟩
    | ifThen p cond body =>
      rw [Statement.positions]
      exact List.forall_mem_cons.2 ⟨place, List.forall_mem_append.2
        ⟨exprs cond List.mem_cons_self, ih body List.mem_cons_self⟩⟩
    | ifThenElse p cond body otherwise =>
      rw [Statement.positions]
      exact List.forall_mem_cons.2 ⟨place, List.forall_mem_append.2
        ⟨exprs cond List.mem_cons_self, List.forall_mem_append.2
          ⟨ih body List.mem_cons_self, ih otherwise (List.mem_cons_of_mem _ List.mem_cons_self)⟩⟩⟩
    | loop p name first last body =>
      rw [Statement.positions]
      exact List.forall_mem_cons.2 ⟨place, List.forall_mem_append.2
        ⟨exprs first List.mem_cons_self, List.forall_mem_append.2
          ⟨exprs last (List.mem_cons_of_mem _ List.mem_cons_self), ih body List.mem_cons_self⟩⟩⟩
    | give p value =>
      rw [Statement.positions]
      refine List.forall_mem_cons.2 ⟨place, ?_⟩
      cases value with
      | none => exact nofun
      | some e => exact exprs e List.mem_cons_self
    | eval p value =>
      rw [Statement.positions]
      exact List.forall_mem_cons.2 ⟨place, exprs value List.mem_cons_self⟩

theorem CompilationUnit.Built.positions {u : CompilationUnit} (built : u.Built P maxDepth) :
    ∀ p ∈ u.positions, P p := by
  obtain ⟨named, imports, position, param, result, body⟩ := built
  simp only [CompilationUnit.positions, Function.positions, List.forall_mem_cons,
    List.forall_mem_append, List.forall_mem_map]
  exact ⟨named, imports, position, param, result,
    positionsIn_forall.2 fun s mem => (body.statements s mem).statementIn⟩

/-- What holds of the positions of all tokens and of lexical errors holds of all positions in a unit
that is parsed, and of that of the error if it is not. -/
theorem CompilationUnit.parse_places {text : String}
    (tokens : ∀ stream, Token.Stream.ofText text = .ok stream →
      ∀ t ∈ stream.closed, P t.position)
    (failure : ∀ f, Token.Stream.ofText text = .error f → P f.position) :
    match CompilationUnit.parse maxDepth text with
    | .ok u => ∀ p ∈ u.positions, P p
    | .error f => P f.position := by
  have yields : Parser.Yields P maxDepth (Built P maxDepth) Parser.unit := Parser.yields_unit
  have ends := Parser.onText_yields yields text tokens failure
  unfold CompilationUnit.parse
  cases parsed : Parser.unit.onText maxDepth text with
  | error f =>
    rw [parsed] at ends
    exact ends
  | ok u =>
    rw [parsed] at ends
    exact ends.positions

end SceneScript.Source
