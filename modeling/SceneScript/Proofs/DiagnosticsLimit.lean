import SceneScript.Proofs.Compilation
import SceneScript.Session.Attempt

/-!
# The limit on errors

A limit on the number of errors decides how many are reported and nothing else: not whether a unit
is accepted, not its program and not the first error (`diagnostics_limit_truncates`).
-/

namespace SceneScript

variable {α β : Type}

/-- Of two outcomes both are the same success, or the one under a limit of `n` errors fails with the
first ones of the errors of the other, with at least the first of all. -/
def Truncates (n : Nat) (full limited : Except (List α) β) : Prop :=
  match full with
  | .ok result => limited = .ok result
  | .error errors =>
    limited = .error (errors.take (max 1 n)) ∧
      ∃ first rest, errors = first :: rest ∧ (errors.take (max 1 n)).head? = some first

namespace Truncates

variable {n : Nat} {full limited : Except (List α) β}

theorem error (first : α) (rest : List α) :
    Truncates n (.error (first :: rest) : Except (List α) β)
      (.error ((first :: rest).take (max 1 n))) :=
  ⟨rfl, first, rest, rfl, by rw [List.take_cons (Nat.le_max_left 1 n), List.head?_cons]⟩

theorem map {γ : Type} (truncates : Truncates n full limited) (f : α → γ) :
    Truncates n (full.mapError (List.map f)) (limited.mapError (List.map f)) := by
  cases full with
  | ok result =>
    obtain rfl : limited = .ok result := truncates
    rfl
  | error errors =>
    obtain ⟨rfl, first, rest, rfl, -⟩ := truncates
    have same : Truncates n (.error (f first :: rest.map f) : Except (List γ) β) _ := .error _ _
    rwa [← List.map_cons, ← List.map_take] at same

end Truncates

/-! ## Checking and compiling -/

theorem Typing.checkUnitUpTo_truncates (symbols : SymbolTable) (u : Source.CompilationUnit)
    {j k : Nat} (le : j ≤ k) :
    Truncates j (checkUnitUpTo (some k) symbols u) (checkUnitUpTo (some j) symbols u) := by
  rw [checkUnitUpTo_some k, checkUnitUpTo_some j]
  cases rejected : checkUnit symbols u with
  | ok program => rfl
  | error faults =>
    obtain ⟨first, rest, rfl⟩ := List.exists_cons_of_ne_nil (checkUnit_error rejected)
    have fewer : (first :: rest).take (max 1 j) =
        ((first :: rest).take (max 1 k)).take (max 1 j) := by
      rw [List.take_take, Nat.min_eq_left (by omega)]
    dsimp only [Except.mapError]
    rw [fewer, List.take_cons (Nat.le_max_left 1 k)]
    exact .error _ _

theorem compile_truncates (symbols : SymbolTable) (limits : Limits) (snippet : String)
    {j k : Nat} (le : j ≤ k) :
    Truncates j (compile symbols { limits with maxDiagnostics := k } snippet)
      (compile symbols { limits with maxDiagnostics := j } snippet) := by
  have one (e : CompileError) : Truncates j (.error [e] : Except _ Program) (.error [e]) := by
    have single : Truncates j (.error [e] : Except _ Program) _ := .error e []
    rwa [List.take_of_length_le (Nat.le_max_left 1 j)] at single
  unfold compile
  dsimp only
  split
  · exact one _
  · cases Source.CompilationUnit.parse limits.maxNesting (Template.wrap snippet) with
    | error fault => exact one _
    | ok u =>
      have truncates := (Typing.checkUnitUpTo_truncates symbols u le).map CompileError.ofTyping
      dsimp only
      revert truncates
      cases Typing.checkUnitUpTo (some k) symbols u <;>
        cases Typing.checkUnitUpTo (some j) symbols u <;> exact id

theorem Diagnostic.ofCompileErrors_take (snippet : String) (n : Nat) (errors : List CompileError) :
    ofCompileErrors snippet (errors.take (max 1 n)) =
      { ofCompileErrors snippet errors with
        notes := (ofCompileErrors snippet errors).notes.take (n - 1) } := by
  cases errors with
  | nil => simp [ofCompileErrors]
  | cons first rest =>
    have less : max 1 n - 1 = n - 1 := by omega
    rw [List.take_cons (Nat.le_max_left 1 n), less]
    simp [ofCompileErrors, List.map_take]

/-! ## Both -/

/-- The limit on errors only truncates. A unit, and a snippet, is accepted under a limit if and only
if it is under a greater one, with the same program. Otherwise the errors up to the smaller limit,
or the one error if that is 0, are the first ones of those up to the greater limit, the first error
is the same and the diagnostics differ in their number of notes. -/
theorem diagnostics_limit_truncates (symbols : SymbolTable) {j k : Nat} (le : j ≤ k) :
    (∀ u, Truncates j (Typing.checkUnitUpTo (some k) symbols u)
      (Typing.checkUnitUpTo (some j) symbols u)) ∧
    ∀ (limits : Limits) (snippet : String),
      Truncates j (compile symbols { limits with maxDiagnostics := k } snippet)
        (compile symbols { limits with maxDiagnostics := j } snippet) ∧
      ∀ errors errors',
        compile symbols { limits with maxDiagnostics := k } snippet = .error errors →
        compile symbols { limits with maxDiagnostics := j } snippet = .error errors' →
        Diagnostic.ofCompileErrors snippet errors' =
          { Diagnostic.ofCompileErrors snippet errors with
            notes := (Diagnostic.ofCompileErrors snippet errors).notes.take (j - 1) } := by
  refine ⟨fun u => Typing.checkUnitUpTo_truncates symbols u le, fun limits snippet => ?_⟩
  have truncates := compile_truncates symbols limits snippet le
  refine ⟨truncates, fun errors errors' full limited => ?_⟩
  rw [full, limited] at truncates
  obtain ⟨are, -⟩ := truncates
  cases are
  exact Diagnostic.ofCompileErrors_take snippet j errors

def faultyUnit : Source.CompilationUnit :=
  let p : Position := ⟨1, 1⟩
  { moduleName := ⟨"modelsnip", [], p⟩
    imports := []
    entry := {
      name := Template.entryPoint
      param := "b"
      paramType := .int p
      resultType := .int p
      body := [.eval p (.var ⟨2, 1⟩ "x"), .eval p (.var ⟨3, 1⟩ "y"), .eval p (.var ⟨4, 1⟩ "z")]
      position := p } }

theorem diagnostics_limit_truncates_faulty : 0 ≤ 2 ∧
    Typing.checkUnitUpTo (some 2) .standard faultyUnit =
      .error [⟨.unresolved "x", ⟨2, 1⟩⟩, ⟨.unresolved "y", ⟨3, 1⟩⟩] ∧
    Typing.checkUnitUpTo (some 0) .standard faultyUnit =
      .error [⟨.unresolved "x", ⟨2, 1⟩⟩] := by
  have full : Typing.checkUnitUpTo (some 2) .standard faultyUnit =
      .error [⟨.unresolved "x", ⟨2, 1⟩⟩, ⟨.unresolved "y", ⟨3, 1⟩⟩] := rfl
  have truncates := (diagnostics_limit_truncates .standard (Nat.zero_le 2)).1 faultyUnit
  rw [full] at truncates
  exact ⟨Nat.zero_le 2, full, truncates.1⟩

end SceneScript
