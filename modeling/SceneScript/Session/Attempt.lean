import SceneScript.Compilation
import SceneScript.Invocation
import SceneScript.Message.Diagnostic

/-!
# Attempts

An attempt to build a model wraps a snippet, compiles it, loads the program and executes it. It ends
with the first step that fails; the failure is reported with its place in the snippet, if it has one
there.
-/

namespace SceneScript

/-- The steps of an attempt. -/
inductive Step where
  | assemble
  | compile
  | load
  | execute
deriving Repr, DecidableEq

structure Attempt where
  result : Except Diagnostic Model
  steps : List Step
  nextModel : Nat

namespace Diagnostic

/-- The place of a compile error in a snippet of that many lines. -/
def errorPlace (lines : Nat) (e : CompileError) : Option Position :=
  e.position.bind (Template.locationWithin? lines)

def ofCompileErrors (snippet : String) : List CompileError → Diagnostic
  | [] => ⟨.compile, "compilation failed", none, []⟩
  | first :: rest =>
    let lines := Template.lineCount snippet
    ⟨.compile, first.message, errorPlace lines first,
      rest.map fun e => ⟨e.message, errorPlace lines e⟩⟩

def ofLoadError (e : LoadError) : Diagnostic :=
  ⟨.compile, "load: " ++ e.message, none, []⟩

def ofFault (snippet : String) (f : Fault) : Diagnostic :=
  ⟨.execute, f.message, f.position.bind (Template.location? snippet), []⟩

end Diagnostic

def attempt (symbols : SymbolTable) (limits : Limits) (nextModel : Nat) (snippet : String) :
    Attempt :=
  match compile symbols limits snippet with
  | .error errors =>
    ⟨.error (.ofCompileErrors snippet errors), [.assemble, .compile], nextModel⟩
  | .ok program =>
    match load program with
    | .error e => ⟨.error (.ofLoadError e), [.assemble, .compile, .load], nextModel⟩
    | .ok loaded =>
      let i := loaded.invoke limits nextModel
      ⟨i.result.mapError (.ofFault snippet), [.assemble, .compile, .load, .execute], i.nextModel⟩

end SceneScript
