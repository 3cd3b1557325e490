import SceneScript.Decimal.Layout
import SceneScript.Text.Position

/-!
# Tokens

The kinds of token, the text of the fixed ones, and how an error message names each kind.
-/

namespace SceneScript

inductive Keyword where
  | «module» | use | fn | «let» | «if» | «else» | «for» | «in» | «return» | «true» | «false» | null
deriving Repr, DecidableEq

def Keyword.all : List Keyword :=
  [.module, .use, .fn, .let, .if, .else, .for, .in, .return, .true, .false, .null]

def Keyword.text : Keyword → String
  | .module => "module"
  | .use => "use"
  | .fn => "fn"
  | .let => "let"
  | .if => "if"
  | .else => "else"
  | .for => "for"
  | .in => "in"
  | .return => "return"
  | .true => "true"
  | .false => "false"
  | .null => "null"

def Keyword.ofText? (text : String) : Option Keyword :=
  all.find? fun k => k.text == text

inductive Symbol where
  | openParen | closeParen | openBrace | closeBrace
  | comma | semicolon | colon | doubleColon | dot | range | arrow | assign
  | equal | notEqual | less | lessEqual | greater | greaterEqual
  | plus | minus | star | slash | percent | bang | and | or
deriving Repr, DecidableEq

def Symbol.text : Symbol → String
  | .openParen => "("
  | .closeParen => ")"
  | .openBrace => "\x7b"
  | .closeBrace => "\x7d"
  | .comma => ","
  | .semicolon => ";"
  | .colon => ":"
  | .doubleColon => "::"
  | .dot => "."
  | .range => ".."
  | .arrow => "->"
  | .assign => "="
  | .equal => "=="
  | .notEqual => "!="
  | .less => "<"
  | .lessEqual => "<="
  | .greater => ">"
  | .greaterEqual => ">="
  | .plus => "+"
  | .minus => "-"
  | .star => "*"
  | .slash => "/"
  | .percent => "%"
  | .bang => "!"
  | .and => "&&"
  | .or => "||"

namespace Token

inductive Kind where
  | keyword (k : Keyword)
  | symbol (s : Symbol)
  | word (name : String)
  | int (value : Nat)
  | float (value : Float)
  | string (value : String)
  | finish
deriving DecidableEq

def Kind.describe : Kind → String
  | .keyword k => s!"'{k.text}'"
  | .symbol s => s!"'{s.text}'"
  | .word name => s!"identifier '{name}'"
  | .int value => s!"integer {value}"
  | .float value => "number " ++ Decimal.Layout.plain.float value
  | .string _ => "string literal"
  | .finish => "end of input"

end Token

structure Token where
  kind : Token.Kind
  position : Position
deriving DecidableEq

end SceneScript
