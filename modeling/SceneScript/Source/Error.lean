import SceneScript.Token.Lexer

/-!
# Errors of the source text

What can be wrong with a text before its names and types are looked at.
-/

namespace SceneScript.Source

inductive Expectation where
  | keyword (k : Keyword)
  | symbol (s : Symbol)
  | identifier
  | expression
  | finish
deriving Repr, DecidableEq

def Expectation.describe : Expectation → String
  | .keyword k => s!"'{k.text}'"
  | .symbol s => s!"'{s.text}'"
  | .identifier => "identifier"
  | .expression => "expression"
  | .finish => "end of input"

inductive Error where
  | lexical (error : Token.LexicalError)
  | expected (wanted : Expectation) (found : Token.Kind)
  | codeTooDeep
  | expressionTooDeep
  | unclosedBlock
  | typeNameExpected
deriving DecidableEq

def Error.message : Error → String
  | .lexical error => error.message
  | .expected wanted found => s!"expected {wanted.describe}, found {found.describe}"
  | .codeTooDeep => "code is nested too deeply"
  | .expressionTooDeep => "expression is nested too deeply"
  | .unclosedBlock => "unclosed '\x7b'"
  | .typeNameExpected => "expected a type name before '::'"

structure Fault where
  error : Error
  position : Position
deriving DecidableEq

def Fault.ofLexical (f : Token.LexicalFault) : Fault :=
  ⟨.lexical f.error, f.position⟩

end SceneScript.Source
