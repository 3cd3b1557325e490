import SceneScript.Text.Position

/-!
# Source trees

Expressions, statements and units as they are written, each with its position. Compound expressions
carry their height, so that the parser can bound it without walking the tree; the smart constructors
compute it.
-/

namespace SceneScript.Source

structure Path where
  first : String
  more : List String
  position : Position
deriving Repr, DecidableEq

namespace Path

def segments (p : Path) : List String :=
  p.first :: p.more

def qualified (p : Path) : String :=
  ".".intercalate p.segments

def isSimple (p : Path) : Bool :=
  p.more.isEmpty

def push (p : Path) (name : String) : Path :=
  { p with more := p.more ++ [name] }

end Path

inductive TypeName where
  | int (position : Position)
  | float (position : Position)
  | bool (position : Position)
  | named (path : Path)
deriving Repr, DecidableEq

def TypeName.position : TypeName → Position
  | .int p | .float p | .bool p => p
  | .named path => path.position

/-- The type that a path names; three simple names are built in. -/
def Path.toTypeName (p : Path) : TypeName :=
  if p.isSimple then
    match p.first with
    | "int" => .int p.position
    | "float" => .float p.position
    | "bool" => .bool p.position
    | _ => .named p
  else .named p

inductive UnaryOp where
  | neg
  | not
deriving Repr, DecidableEq

def UnaryOp.text : UnaryOp → String
  | .neg => "-"
  | .not => "!"

inductive BinaryOp where
  | add | sub | mul | div | rem
  | eq | ne | lt | le | gt | ge
  | and | or
deriving Repr, DecidableEq

def BinaryOp.text : BinaryOp → String
  | .add => "+"
  | .sub => "-"
  | .mul => "*"
  | .div => "/"
  | .rem => "%"
  | .eq => "=="
  | .ne => "!="
  | .lt => "<"
  | .le => "<="
  | .gt => ">"
  | .ge => ">="
  | .and => "&&"
  | .or => "||"

/-! ## Expressions -/

inductive Expr where
  | int (position : Position) (value : Int)
  | float (position : Position) (value : Float)
  | string (position : Position) (value : String)
  | bool (position : Position) (value : Bool)
  | null (position : Position)
  | var (position : Position) (name : String)
  | field (position : Position) (height : Nat) (receiver : Expr) (name : String)
  | call (position : Position) (height : Nat) (receiver : Expr) (name : String) (args : List Expr)
  | staticField (position : Position) (type : Path) (name : String)
  | staticCall (position : Position) (height : Nat) (type : Path) (name : String)
      (args : List Expr)
  | unary (position : Position) (height : Nat) (op : UnaryOp) (operand : Expr)
  | binary (position : Position) (height : Nat) (op : BinaryOp) (left right : Expr)

namespace Expr

def position : Expr → Position
  | int p _ | float p _ | string p _ | bool p _ | null p | var p _ | field p .. | call p ..
  | staticField p .. | staticCall p .. | unary p .. | binary p .. => p

/-- The stored height; a leaf has height one. -/
def height : Expr → Nat
  | int .. | float .. | string .. | bool .. | null .. | var .. | staticField .. => 1
  | field _ h .. | call _ h .. | staticCall _ h .. | unary _ h .. | binary _ h .. => h

def maxHeight (es : List Expr) : Nat :=
  es.foldl (fun h e => max h e.height) 0

theorem maxHeight_cons (e : Expr) (es : List Expr) :
    maxHeight (e :: es) = max e.height (maxHeight es) := by
  have folds (n : Nat) : es.foldl (fun h e => max h e.height) n = max n (maxHeight es) := by
    induction es generalizing n with
    | nil => simp [maxHeight]
    | cons e rest ih =>
      rw [maxHeight, List.foldl_cons, List.foldl_cons, ih, ih]
      omega
  rw [maxHeight, List.foldl_cons, folds, Nat.zero_max]

def fieldOf (p : Position) (receiver : Expr) (name : String) : Expr :=
  .field p (1 + receiver.height) receiver name

def callOf (p : Position) (receiver : Expr) (name : String) (args : List Expr) : Expr :=
  .call p (1 + max (maxHeight args) receiver.height) receiver name args

def staticCallOf (p : Position) (type : Path) (name : String) (args : List Expr) : Expr :=
  .staticCall p (1 + maxHeight args) type name args

def unaryOf (p : Position) (op : UnaryOp) (operand : Expr) : Expr :=
  .unary p (1 + operand.height) op operand

def binaryOf (p : Position) (op : BinaryOp) (left right : Expr) : Expr :=
  .binary p (1 + max left.height right.height) op left right

def path? : Expr → Option Path
  | var p name => some ⟨name, [], p⟩
  | field _ _ receiver name => receiver.path?.map (·.push name)
  | _ => none

end Expr

/-! ## Statements and units -/

inductive Statement where
  | bind (position : Position) (name : String) (type : Option TypeName) (init : Expr)
  | assign (position : Position) (target value : Expr)
  | ifThen (position : Position) (cond : Expr) (body : List Statement)
  | ifThenElse (position : Position) (cond : Expr) (body : List Statement)
      (otherwise : List Statement)
  | loop (position : Position) (name : String) (first last : Expr) (body : List Statement)
  | give (position : Position) (value : Option Expr)
  | eval (position : Position) (value : Expr)

def Statement.position : Statement → Position
  | bind p .. | assign p .. | ifThen p .. | ifThenElse p .. | loop p .. | give p .. | eval p .. => p

structure Function where
  name : String
  param : String
  paramType : TypeName
  resultType : TypeName
  body : List Statement
  position : Position

/-- A module declaration, imports and one function. -/
structure CompilationUnit where
  moduleName : Path
  imports : List Path
  entry : Function

end SceneScript.Source
