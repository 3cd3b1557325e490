import SceneScript.Catalog.Ty
import SceneScript.Source.Tree

/-!
# Programs

A program is what remains of a unit once its names are resolved and its types are checked. Variables
are numbered slots, members name the class they belong to, and every place where a whole number
becomes a floating-point number is marked.
-/

namespace SceneScript

open Source (UnaryOp BinaryOp)

inductive Constant where
  | int (value : Int64)
  | float (value : Float)
  | bool (value : Bool)
  | string (value : String)
  | null
deriving DecidableEq

inductive Code where
  | const (position : Position) (value : Constant)
  | load (position : Position) (slot : Nat)
  | getField (position : Position) (target : Code) (owner : HostClass) (name : String)
  | call (position : Position) (target : Code) (owner : HostClass) (name : String)
      (args : List Code)
  | getConstant (position : Position) (owner : HostClass) (name : String)
  | callStatic (position : Position) (owner : HostClass) (name : String) (args : List Code)
  | unary (position : Position) (op : UnaryOp) (operand : Code)
  | binary (position : Position) (op : BinaryOp) (left right : Code)
  | concat (position : Position) (left right : Code)
  | widen (position : Position) (operand : Code)

def Code.position : Code → Position
  | const p _ | load p _ | getField p .. | call p .. | getConstant p .. | callStatic p ..
  | unary p .. | binary p .. | concat p .. | widen p _ => p

inductive Instr where
  | store (position : Position) (slot : Nat) (value : Code)
  | setField (position : Position) (target : Code) (owner : HostClass) (name : String)
      (value : Code)
  | choose (position : Position) (cond : Code) (body otherwise : List Instr)
  | loop (position : Position) (slot : Nat) (first last : Code) (body : List Instr)
  | give (position : Position) (value : Code)
  | eval (position : Position) (value : Code)

def Instr.position : Instr → Position
  | store p .. | setField p .. | choose p .. | loop p .. | give p _ | eval p _ => p

structure EntryPoint where
  name : String
  param : Ty
  result : Ty
deriving Repr, DecidableEq

structure Program where
  entry : EntryPoint
  body : List Instr
  /-- The number of variables; the parameter is in slot zero. -/
  slots : Nat
  /-- The classes whose members the body uses, ordered by qualified name. -/
  references : List HostClass

end SceneScript
