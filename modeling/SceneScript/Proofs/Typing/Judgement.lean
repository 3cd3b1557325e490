import SceneScript.Catalog.Member
import SceneScript.Program.Code
import Mathlib.Data.List.Forall2
import Mathlib.Tactic.FinCases

/-!
# Static types of programs

The types of expressions and statements as rules, for fixed types of the variables and a list of the
variables that are live, that is, hold a value. A statement that stores may make its variable live
for the statements behind it; what a block makes live is not live behind the block. The type of an
expression is unique (`Code.HasType.unique`).
-/

namespace SceneScript

open Source (UnaryOp BinaryOp)

/-! ## What a program uses -/

inductive UseKind where
  | field
  | assignment
  | method
  | staticMethod
  | constant
deriving Repr, DecidableEq

structure Use where
  owner : HostClass
  kind : UseKind
  name : String
deriving Repr, DecidableEq

def UseKind.allows : UseKind → MemberKind → Bool
  | .field, k => k.isField
  | .assignment, k => k = .field
  | .method, k => k = .method
  | .staticMethod, k => k = .staticMethod
  | .constant, k => k = .constant

def Use.member? (u : Use) : Option Member :=
  let found := match u.kind with
    | .field | .assignment | .method => u.owner.instanceMember? u.name
    | .staticMethod | .constant => u.owner.staticMember? u.name
  found.filter fun m => u.kind.allows m.kind

theorem Use.member?_spec {u : Use} {m : Member} (found : u.member? = some m) :
    m ∈ u.owner.members ∧ m.name = u.name ∧ u.kind.allows m.kind = true := by
  obtain ⟨described, allowed⟩ := Option.filter_eq_some_iff.1 found
  have ofFind {q : Member → Bool}
      (is : u.owner.members.find? (fun m => m.name == u.name && q m) = some m) :
      m ∈ u.owner.members ∧ m.name = u.name := by
    have named := List.find?_some is
    exact ⟨List.mem_of_find?_eq_some is, eq_of_beq (Bool.and_eq_true_iff.1 named).1⟩
  split at described
  all_goals exact ⟨(ofFind described).1, (ofFind described).2, allowed⟩

mutual

def Code.uses : Code → List Use
  | .const .. | .load .. => []
  | .getField _ target owner name => ⟨owner, .field, name⟩ :: target.uses
  | .call _ target owner name args => ⟨owner, .method, name⟩ :: (target.uses ++ usesAll args)
  | .getConstant _ owner name => [⟨owner, .constant, name⟩]
  | .callStatic _ owner name args => ⟨owner, .staticMethod, name⟩ :: usesAll args
  | .unary _ _ operand | .widen _ operand => operand.uses
  | .binary _ _ left right | .concat _ left right => left.uses ++ right.uses

def usesAll : List Code → List Use
  | [] => []
  | e :: rest => e.uses ++ usesAll rest

end

mutual

def Instr.uses : Instr → List Use
  | .store _ _ value | .give _ value | .eval _ value => value.uses
  | .setField _ target owner name value =>
    ⟨owner, .assignment, name⟩ :: (target.uses ++ value.uses)
  | .choose _ cond body otherwise => cond.uses ++ (usesIn body ++ usesIn otherwise)
  | .loop _ _ first last body => first.uses ++ (last.uses ++ usesIn body)

def usesIn : List Instr → List Use
  | [] => []
  | i :: rest => i.uses ++ usesIn rest

end

/-! ## Types of expressions -/

/-- Whether a value of the first type may stand as it is where the second is asked for. A whole
number is made a floating-point one first. -/
def Ty.FitsIn (t target : Ty) : Prop :=
  t.assignableTo target = true ∧ ¬(t = .int ∧ target = .float)

def Ty.Comparable (t u : Ty) : Prop :=
  (t = u ∧ t.isNumeric = true) ∨ (t = .bool ∧ u = .bool) ∨
    (t.isReference = true ∧ u.isReference = true ∧
      (t.assignableTo u = true ∨ u.assignableTo t = true))

def Constant.type : Constant → Ty
  | .int _ => .int
  | .float _ => .float
  | .bool _ => .bool
  | .string _ => .string
  | .null => .null

inductive Code.HasType (types : List Ty) (live : List Nat) : Code → Ty → Prop
  | const {p c} : HasType types live (.const p c) c.type
  | load {p slot t} : slot ∈ live → types[slot]? = some t → HasType types live (.load p slot) t
  | getField {p target owner name t m} : HasType types live target t → t.owner? = some owner →
      Use.member? ⟨owner, .field, name⟩ = some m →
      HasType types live (.getField p target owner name) m.result
  | call {p target owner name args t ts m} : HasType types live target t →
      t.owner? = some owner → Use.member? ⟨owner, .method, name⟩ = some m →
      List.Forall₂ (HasType types live) args ts → List.Forall₂ Ty.FitsIn ts m.params →
      HasType types live (.call p target owner name args) m.result
  | getConstant {p owner name m} : Use.member? ⟨owner, .constant, name⟩ = some m →
      HasType types live (.getConstant p owner name) m.result
  | callStatic {p owner name args ts m} : Use.member? ⟨owner, .staticMethod, name⟩ = some m →
      List.Forall₂ (HasType types live) args ts → List.Forall₂ Ty.FitsIn ts m.params →
      HasType types live (.callStatic p owner name args) m.result
  | neg {p operand t} : HasType types live operand t → t.isNumeric = true →
      HasType types live (.unary p .neg operand) t
  | not {p operand} : HasType types live operand .bool →
      HasType types live (.unary p .not operand) .bool
  | arithmetic {p op left right t} : op ∈ [.add, .sub, .mul, .div, .rem] → t.isNumeric = true →
      HasType types live left t → HasType types live right t →
      HasType types live (.binary p op left right) t
  | order {p op left right t} : op ∈ [.lt, .le, .gt, .ge] → t.isNumeric = true →
      HasType types live left t → HasType types live right t →
      HasType types live (.binary p op left right) .bool
  | equality {p op left right t u} : op ∈ [.eq, .ne] → t.Comparable u →
      HasType types live left t → HasType types live right u →
      HasType types live (.binary p op left right) .bool
  | logic {p op left right} : op ∈ [.and, .or] → HasType types live left .bool →
      HasType types live right .bool → HasType types live (.binary p op left right) .bool
  | concat {p left right t u} : HasType types live left t → HasType types live right u →
      t ≠ .void → u ≠ .void → HasType types live (.concat p left right) .string
  | widen {p operand} : HasType types live operand .int →
      HasType types live (.widen p operand) .float

abbrev HaveTypes (types : List Ty) (live : List Nat) (es : List Code) (ts : List Ty) : Prop :=
  List.Forall₂ (Code.HasType types live) es ts

theorem getElem?_of_more {α : Type} {as bs : List α} (more : as <+: bs) {i : Nat} {a : α}
    (found : as[i]? = some a) : bs[i]? = some a := by
  obtain ⟨rest, rfl⟩ := more
  rw [List.getElem?_append_left (List.getElem?_eq_some_iff.1 found).1, found]

mutual

theorem Code.HasType.weaken {types types' : List Ty} {live live' : List Nat}
    (more : types <+: types') (sub : live ⊆ live') :
    ∀ {e : Code} {t : Ty}, e.HasType types live t → e.HasType types' live' t
  | .const .., _, .const => .const
  | .load .., _, .load isLive found => .load (sub isLive) (getElem?_of_more more found)
  | .getField .., _, .getField target owner m => .getField (target.weaken more sub) owner m
  | .call .., _, .call target owner m args fit =>
    .call (target.weaken more sub) owner m (HaveTypes.weaken more sub args) fit
  | .getConstant .., _, .getConstant m => .getConstant m
  | .callStatic .., _, .callStatic m args fit =>
    .callStatic m (HaveTypes.weaken more sub args) fit
  | .unary .., _, .neg operand numeric => .neg (operand.weaken more sub) numeric
  | .unary .., _, .not operand => .not (operand.weaken more sub)
  | .binary .., _, .arithmetic op numeric left right =>
    .arithmetic op numeric (left.weaken more sub) (right.weaken more sub)
  | .binary .., _, .order op numeric left right =>
    .order op numeric (left.weaken more sub) (right.weaken more sub)
  | .binary .., _, .equality op comparable left right =>
    .equality op comparable (left.weaken more sub) (right.weaken more sub)
  | .binary .., _, .logic op left right => .logic op (left.weaken more sub) (right.weaken more sub)
  | .concat .., _, .concat left right nonVoid nonVoid' =>
    .concat (left.weaken more sub) (right.weaken more sub) nonVoid nonVoid'
  | .widen .., _, .widen operand => .widen (operand.weaken more sub)

theorem HaveTypes.weaken {types types' : List Ty} {live live' : List Nat}
    (more : types <+: types') (sub : live ⊆ live') :
    ∀ {es : List Code} {ts : List Ty}, HaveTypes types live es ts → HaveTypes types' live' es ts
  | [], _, .nil => .nil
  | _ :: _, _, .cons first rest => .cons (first.weaken more sub) (HaveTypes.weaken more sub rest)

end

theorem Code.HasType.unique {types : List Ty} {live live' : List Nat} :
    ∀ {e : Code} {t u : Ty}, e.HasType types live t → e.HasType types live' u → t = u
  | .const .., _, _, .const, .const => rfl
  | .load .., _, _, .load _ found, .load _ found' => Option.some.inj (found.symm.trans found')
  | .getField .., _, _, .getField _ _ m, .getField _ _ m' =>
    congrArg Member.result (Option.some.inj (m.symm.trans m'))
  | .call .., _, _, .call _ _ m _ _, .call _ _ m' _ _ =>
    congrArg Member.result (Option.some.inj (m.symm.trans m'))
  | .getConstant .., _, _, .getConstant m, .getConstant m' =>
    congrArg Member.result (Option.some.inj (m.symm.trans m'))
  | .callStatic .., _, _, .callStatic m _ _, .callStatic m' _ _ =>
    congrArg Member.result (Option.some.inj (m.symm.trans m'))
  | .unary .., _, _, .neg operand _, .neg operand' _ => operand.unique operand'
  | .unary .., _, _, .not _, .not _ => rfl
  | .binary .., _, _, .arithmetic _ _ left _, .arithmetic _ _ left' _ => left.unique left'
  | .binary .., _, _, .arithmetic op _ _ _, .order op' _ _ _ => by fin_cases op <;> simp at op'
  | .binary .., _, _, .arithmetic op _ _ _, .equality op' _ _ _ => by fin_cases op <;> simp at op'
  | .binary .., _, _, .arithmetic op _ _ _, .logic op' _ _ => by fin_cases op <;> simp at op'
  | .binary .., _, _, .order op _ _ _, .arithmetic op' _ _ _ => by fin_cases op <;> simp at op'
  | .binary .., _, _, .equality op _ _ _, .arithmetic op' _ _ _ => by fin_cases op <;> simp at op'
  | .binary .., _, _, .logic op _ _, .arithmetic op' _ _ _ => by fin_cases op <;> simp at op'
  | .binary .., _, _, .order .., .order .. => rfl
  | .binary .., _, _, .order .., .equality .. => rfl
  | .binary .., _, _, .order .., .logic .. => rfl
  | .binary .., _, _, .equality .., .order .. => rfl
  | .binary .., _, _, .equality .., .equality .. => rfl
  | .binary .., _, _, .equality .., .logic .. => rfl
  | .binary .., _, _, .logic .., .order .. => rfl
  | .binary .., _, _, .logic .., .equality .. => rfl
  | .binary .., _, _, .logic .., .logic .. => rfl
  | .concat .., _, _, .concat .., .concat .. => rfl
  | .widen .., _, _, .widen _, .widen _ => rfl

/-! ## Types of statements -/

mutual

/-- A statement of a function with the given result. The last list are the variables that are live
behind it. -/
inductive Instr.WellTyped (types : List Ty) (result : Ty) : List Nat → Instr → List Nat → Prop
  | store {live live' p slot value t target} : value.HasType types live t →
      types[slot]? = some target → t.FitsIn target → live ⊆ live' → live' ⊆ slot :: live →
      Instr.WellTyped types result live (.store p slot value) live'
  | setField {live p target owner name value t u m} : target.HasType types live t →
      t.owner? = some owner → Use.member? ⟨owner, .assignment, name⟩ = some m →
      value.HasType types live u → u.FitsIn m.result →
      Instr.WellTyped types result live (.setField p target owner name value) live
  | choose {live p cond body otherwise live₁ live₂} : cond.HasType types live .bool →
      AllWellTyped types result live body live₁ → AllWellTyped types result live otherwise live₂ →
      Instr.WellTyped types result live (.choose p cond body otherwise) live
  | loop {live p slot first last body live'} : first.HasType types live .int →
      last.HasType types live .int → types[slot]? = some .int →
      AllWellTyped types result (slot :: live) body live' →
      Instr.WellTyped types result live (.loop p slot first last body) live
  | give {live p value t} : value.HasType types live t → t.FitsIn result →
      Instr.WellTyped types result live (.give p value) live
  | eval {live p value t} : value.HasType types live t →
      Instr.WellTyped types result live (.eval p value) live

inductive AllWellTyped (types : List Ty) (result : Ty) : List Nat → List Instr → List Nat → Prop
  | nil {live} : AllWellTyped types result live [] live
  | cons {live i live₁ rest live₂} : i.WellTyped types result live live₁ →
      AllWellTyped types result live₁ rest live₂ →
      AllWellTyped types result live (i :: rest) live₂

end

variable {types types' : List Ty} {result : Ty} {live live' : List Nat}

theorem Instr.WellTyped.live_subset {i : Instr} (typed : i.WellTyped types result live live') :
    live ⊆ live' := by
  cases typed with
  | store _ _ _ keeps _ => exact keeps
  | _ => exact fun _ mem => mem

theorem AllWellTyped.live_subset {body : List Instr}
    (typed : AllWellTyped types result live body live') : live ⊆ live' := by
  induction body generalizing live with
  | nil =>
    cases typed
    exact fun _ mem => mem
  | cons i rest ih =>
    cases typed with
    | cons first others => exact fun _ mem => ih others (first.live_subset mem)

mutual

theorem Instr.WellTyped.weaken (more : types <+: types') : ∀ {i : Instr} {live live' : List Nat},
    i.WellTyped types result live live' → i.WellTyped types' result live live'
  | .store .., _, _, .store value found fits keeps adds =>
    .store (value.weaken more (List.Subset.refl _)) (getElem?_of_more more found) fits keeps adds
  | .setField .., _, _, .setField target owner m value fits =>
    .setField (target.weaken more (List.Subset.refl _)) owner m
      (value.weaken more (List.Subset.refl _)) fits
  | .choose .., _, _, .choose cond body otherwise =>
    .choose (cond.weaken more (List.Subset.refl _)) (body.weaken more) (otherwise.weaken more)
  | .loop .., _, _, .loop first last found body =>
    .loop (first.weaken more (List.Subset.refl _)) (last.weaken more (List.Subset.refl _))
      (getElem?_of_more more found) (body.weaken more)
  | .give .., _, _, .give value fits => .give (value.weaken more (List.Subset.refl _)) fits
  | .eval .., _, _, .eval value => .eval (value.weaken more (List.Subset.refl _))

theorem AllWellTyped.weaken (more : types <+: types') :
    ∀ {body : List Instr} {live live' : List Nat},
      AllWellTyped types result live body live' → AllWellTyped types' result live body live'
  | [], _, _, .nil => .nil
  | _ :: _, _, _, .cons first rest => .cons (first.weaken more) (rest.weaken more)

end

end SceneScript
