import SceneScript.Program.Code
import SceneScript.Template

/-!
# Loading

A program is loaded by giving it the classes it uses, and no others. Only a program with the
expected entry point whose classes all have an implementation can be loaded.
-/

namespace SceneScript

namespace HostClass

def isImplemented : HostClass → Bool
  | .math | .system | .files | .environment | .directionalLight => false
  | _ => true

end HostClass

inductive LoadError where
  | missingEntryPoint (found : String)
  | wrongSignature (param result : Ty)
  | notImplemented (name : String)
deriving Repr, DecidableEq

def LoadError.message : LoadError → String
  | .missingEntryPoint found =>
    s!"entry point 'createModel' not found (unit declares '{found}')"
  | .wrongSignature param result =>
    s!"entry point 'createModel' has signature ({param.describe}) -> {result.describe}, " ++
      "expected (ModelBuilder) -> Model"
  | .notImplemented name => s!"no runtime binding for '{name}'"

/-- A program with the classes that it may reach while it runs. -/
structure Loaded where
  program : Program
  classes : List HostClass

def load (program : Program) : Except LoadError Loaded :=
  let entry := program.entry
  if entry.name ≠ Template.entryPoint then
    .error (.missingEntryPoint entry.name)
  else if entry.param ≠ .object .modelBuilder ∨ entry.result ≠ .object .model then
    .error (.wrongSignature entry.param entry.result)
  else
    match program.references.find? fun c => !c.isImplemented with
    | some c => .error (.notImplemented c.qualifiedName)
    | none => .ok ⟨program, HostClass.sorted (.modelBuilder :: .model :: program.references)⟩

end SceneScript
