import SceneScript.Proofs.Source.UnitReading

/-!
# Parsing undoes printing

An expression is read from its printed tokens up to a token that does not continue it, and a unit from
all of its tokens. Only positions differ.
-/

namespace SceneScript.Source

open SceneScript.Source.Parser

theorem parse_printed (P : Parsing) :
    (∀ (e : Expr) (ts rest : List Token), e.printable = true → ts.map Token.kind = e.tokens →
      ts.length ≤ P.rounds → ts.length ≤ P.maxDepth → Stops 0 (ahead P rest).kind →
      ∃ r, r.unplaced = e.bare ∧ expr P.maxDepth P (ts ++ rest) = .ok (r, rest)) ∧
    ∀ (u : CompilationUnit) (ts : List Token), u.printable = true →
      ts.map Token.kind = u.tokens → ts.length ≤ P.rounds → ts.length ≤ P.maxDepth →
      ∃ v : CompilationUnit, v.strip Expr.unplaced = u.strip Expr.bare ∧
        unit P ts = .ok (v, []) := by
  constructor
  · intro e ts rest printable printed rounds depth stops
    exact (reads e printable).ends printed ⟨depth, rounds, depth⟩ stops
  · intro u ts printable printed rounds depth
    exact unit_reads printable printed ⟨depth, rounds, depth⟩

/-- The expression `-1 - (x - !y.z) * a.b::c(2)`. -/
def mixedExpr : Expr :=
  let p := Position.start
  .binaryOf p .sub (.int p (-1))
    (.binaryOf p .mul
      (.binaryOf p .sub (.var p "x") (.unaryOf p .not (.fieldOf p (.var p "y") "z")))
      (.staticCallOf p ⟨"a", ["b"], p⟩ "c" [.int p 2]))

def mixedUnit : CompilationUnit :=
  let p := Position.start
  { moduleName := ⟨"m", [], p⟩
    imports := [⟨"model", ["Model"], p⟩]
    entry := {
      name := "f"
      param := "b"
      paramType := .int p
      resultType := .named ⟨"Model", [], p⟩
      body := [
        .bind p "x" (some (.float p)) mixedExpr,
        .loop p "i" (.int p 0) (.var p "b") [
          .ifThenElse p (.bool p true) [.assign p (.var p "x") (.var p "i")]
            [.ifThenElse p (.bool p false) [.eval p mixedExpr] [.give p none]]],
        .give p (some (.null p))]
      position := p } }

theorem parse_printed_mixed :
    (∃ r, r.unplaced = mixedExpr.bare ∧
      expr 99 ⟨.start, 99, 99⟩
        (mixedExpr.tokens.map (⟨·, .start⟩) ++ [⟨.symbol .semicolon, .start⟩]) =
          .ok (r, [⟨.symbol .semicolon, .start⟩])) ∧
    ∃ v : CompilationUnit, v.strip Expr.unplaced = mixedUnit.strip Expr.bare ∧
      unit ⟨.start, 99, 99⟩ (mixedUnit.tokens.map (⟨·, .start⟩)) = .ok (v, []) := by
  have printed (ks : List Token.Kind) : (ks.map (⟨·, .start⟩)).map Token.kind = ks := by
    rw [List.map_map]
    exact List.map_id ks
  obtain ⟨ofExpr, ofUnit⟩ := parse_printed ⟨.start, 99, 99⟩
  constructor
  · refine ofExpr mixedExpr _ _ rfl (printed _) ?_ ?_ (stops_symbol (by decide) 0)
    · rw [List.length_map]
      decide
    · rw [List.length_map]
      decide
  · refine ofUnit mixedUnit _ rfl (printed _) ?_ ?_
    · rw [List.length_map]
      decide
    · rw [List.length_map]
      decide

end SceneScript.Source
