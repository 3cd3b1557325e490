import SceneScript.Limits
import SceneScript.Source.Parser
import SceneScript.Template
import SceneScript.Typing.Checker

/-!
# Compilation

From a snippet to a program: the snippet is wrapped, parsed and checked. The first stage that finds
an error ends the compilation.
-/

namespace SceneScript

inductive CompileCause where
  | tooLong (bytes limit : Nat)
  | source (error : Source.Error)
  | typing (error : Typing.Error)
deriving DecidableEq

def CompileCause.message : CompileCause → String
  | .tooLong bytes limit => s!"snippet is {bytes} bytes, limit is {limit}"
  | .source error => error.message
  | .typing error => error.message

structure CompileError where
  cause : CompileCause
  position : Option Position
deriving DecidableEq

namespace CompileError

def message (e : CompileError) : String :=
  e.cause.message

def ofSource (f : Source.Fault) : CompileError :=
  ⟨.source f.error, f.position⟩

def ofTyping (f : Typing.Fault) : CompileError :=
  ⟨.typing f.error, f.position⟩

end CompileError

/-- Compiles a snippet. There is at least one error if it fails, and at most as many as the limits
allow, or one. -/
def compile (symbols : SymbolTable) (limits : Limits) (snippet : String) :
    Except (List CompileError) Program :=
  if snippet.utf8ByteSize > limits.maxSnippetBytes then
    .error [⟨.tooLong snippet.utf8ByteSize limits.maxSnippetBytes, none⟩]
  else
    match Source.CompilationUnit.parse limits.maxNesting (Template.wrap snippet) with
    | .error fault => .error [.ofSource fault]
    | .ok unit =>
      match Typing.checkUnitUpTo (some limits.maxDiagnostics) symbols unit with
      | .error faults => .error (faults.map .ofTyping)
      | .ok program => .ok program

end SceneScript
