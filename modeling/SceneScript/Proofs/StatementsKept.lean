import SceneScript.Proofs.Compilation
import SceneScript.Proofs.Typing.Accounts

/-!
# No statement is dropped

A statement is left out of the program if its check gives no result. That happens only where a fault
is recorded, so a unit that is accepted becomes a program with one instruction for each statement,
in the same order and in every block, and a unit that is rejected has something to report.
-/

namespace SceneScript

open Source (Statement)
open Lexical (LowersStatement LowersBody)

/-! ## Statements and their instructions -/

/-- A statement and the instruction in its place. The blocks inside have one instruction for each
statement as well; where there is nothing to do otherwise, that block is empty. -/
inductive Becomes : Statement → Instr → Prop
  | bind {p name type init slot code} :
      Becomes (.bind p name type init) (.store p slot code)
  | assign {p q name value slot code} :
      Becomes (.assign p (.var q name) value) (.store p slot code)
  | setField {p q h receiver name value target owner code} :
      Becomes (.assign p (.field q h receiver name) value) (.setField p target owner name code)
  | ifThen {p cond body code instrs} : List.Forall₂ Becomes body instrs →
      Becomes (.ifThen p cond body) (.choose p code instrs [])
  | ifThenElse {p cond body otherwise code instrs instrs'} : List.Forall₂ Becomes body instrs →
      List.Forall₂ Becomes otherwise instrs' →
      Becomes (.ifThenElse p cond body otherwise) (.choose p code instrs instrs')
  | loop {p name first last body slot a b instrs} : List.Forall₂ Becomes body instrs →
      Becomes (.loop p name first last body) (.loop p slot a b instrs)
  | give {p value code} : Becomes (.give p (some value)) (.give p code)
  | eval {p value code} : Becomes (.eval p value) (.eval p code)

mutual

theorem LowersStatement.becomes {c : Typing.Context} {st : Statement} {i : Instr}
    {scope scope' slots slots'} (lowers : LowersStatement c scope slots st i scope' slots') :
    Becomes st i := by
  cases lowers with
  | bind => exact .bind
  | assign => exact .assign
  | setField => exact .setField
  | ifThen _ body => exact .ifThen (LowersBody.becomes body)
  | ifThenElse _ body otherwise =>
    exact .ifThenElse (LowersBody.becomes body) (LowersBody.becomes otherwise)
  | loop _ _ body => exact .loop (LowersBody.becomes body)
  | give => exact .give
  | eval => exact .eval
termination_by structural st

theorem LowersBody.becomes {c : Typing.Context} {body : List Statement} {code : List Instr}
    {scope scope' slots slots'} (lowers : LowersBody c scope slots body code scope' slots') :
    List.Forall₂ Becomes body code := by
  cases lowers with
  | nil => exact .nil
  | cons first rest => exact .cons (LowersStatement.becomes first) (LowersBody.becomes rest)
termination_by structural body

end

/-! ## What is reported -/

theorem compile_reports (symbols : SymbolTable) (limits : Limits) (snippet : String) :
    match compile symbols limits snippet with
    | .ok _ => True
    | .error errors => errors ≠ [] ∧ errors.length ≤ max 1 limits.maxDiagnostics := by
  have one (e : CompileError) : [e] ≠ [] ∧ [e].length ≤ max 1 limits.maxDiagnostics :=
    ⟨List.cons_ne_nil _ _, le_max_left 1 _⟩
  rw [compile_eq]
  by_cases long : snippet.utf8ByteSize > limits.maxSnippetBytes
  · rw [if_pos long]
    exact one _
  · rw [if_neg long]
    cases Source.CompilationUnit.parse limits.maxNesting (Template.wrap snippet) with
    | error fault => exact one _
    | ok u =>
      dsimp only
      cases rejected : Typing.checkUnit symbols u with
      | ok program => trivial
      | error faults =>
        have nonempty : faults ≠ [] := Typing.checkUnit_error rejected
        dsimp only
        constructor
        · simp [nonempty]
        · rw [List.length_map, List.length_take]
          exact Nat.min_le_left _ _

/-! ## The checker -/

namespace Typing

open Check

/-- The body of a unit begins with what is missing accounted for. From any such state on each check
of an expression, an assignment or a statement, of a condition or a bound, of a conversion, of
arguments and of an operator keeps it so and has recorded a fault if it gives no result. So an
accepted unit loses no statement, and a failure is reported. -/
theorem checkUnit_keeps_statements (symbols : SymbolTable) (u : Source.CompilationUnit) :
    (∀ types declared,
      (signature u.entry).runIn (contextOf symbols u none) (stateOf symbols u) = (types, declared) →
      Accounted (contextOf symbols u (types.getD (none, none)).2) declared) ∧
    (∀ c s, Accounted c s →
      (∀ st, Accounts c s (statement st)) ∧
      (∀ target value p, Accounts c s (assignment target value p)) ∧
      (∀ e, Accounts c s (expr e)) ∧
      (∀ e, Accounts c s (exprOf .bool .conditionType e)) ∧
      (∀ e, Accounts c s (exprOf .int .boundType e)) ∧
      (∀ e target p, Accounts c s (coerce e target p)) ∧
      (∀ owner m args p, (∀ arg ∈ args, arg.2 = none → s.faults ≠ []) →
        Accounts c s (arguments owner m args p)) ∧
      ∀ op left right p, Accounts c s (binary op left right p)) ∧
    (match checkUnit symbols u with
      | .ok program => List.Forall₂ Becomes u.entry.body program.body
      | .error faults => faults ≠ []) ∧
    ∀ limits snippet,
      match compile symbols limits snippet with
      | .ok _ => True
      | .error errors => errors ≠ [] ∧ errors.length ≤ max 1 limits.maxDiagnostics := by
  refine ⟨fun _ _ => accounted_signature symbols u, ?_, ?_, compile_reports symbols⟩
  · intro c s accounted
    refine ⟨accounts_statement accounted, accounts_assignment accounted, accounts_expr accounted,
      accounts_exprOf accounted _ _, accounts_exprOf accounted _ _, accounts_coerce accounted, ?_,
      accounts_binary accounted⟩
    exact fun owner m args p known => accounts_arguments accounted owner m known p
  · split
    · next program accepted =>
      obtain ⟨-, -, scope, lowers⟩ := Lexical.checkUnit_lowers accepted
      exact LowersBody.becomes lowers
    · next faults rejected => exact checkUnit_error rejected

/-- A function of which neither the parameter type nor the result type is known. The statement that
returns the parameter is left out without a fault of its own; two are recorded already. -/
theorem checkUnit_keeps_statements_unresolved :
    let u : Source.CompilationUnit :=
      ⟨⟨"snippet", [], .start⟩, [],
        ⟨"build", "b", .named ⟨"A", [], .start⟩, .named ⟨"B", [], .start⟩,
          [.give .start (some (.var .start "b"))], .start⟩⟩
    ∃ s, Accounted (contextOf .standard u none) s ∧ s.faults.length = 2 ∧
      (statement (.give .start (some (.var .start "b")))).runIn (contextOf .standard u none) s =
        (none, s) ∧
      Accounts (contextOf .standard u none) s
        (statement (.give .start (some (.var .start "b")))) := by
  intro u
  obtain ⟨types, declared, signed⟩ : ∃ types declared,
      (signature u.entry).runIn (contextOf .standard u none) (stateOf .standard u) =
        (types, declared) := ⟨_, _, rfl⟩
  obtain ⟨begins, checks, -⟩ := checkUnit_keeps_statements .standard u
  have accounted := begins types declared signed
  have accounts := (checks _ _ accounted).1
  cases signed
  exact ⟨_, accounted, rfl, rfl, accounts _⟩

end Typing

end SceneScript
