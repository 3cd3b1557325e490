import SceneScript.Proofs.Lexical.Checked
import SceneScript.Proofs.Lexical.Mirrors
import SceneScript.Proofs.Lexical.Slots
import SceneScript.Proofs.Machine.Forgetting
import SceneScript.Proofs.Machine.Soundness
import SceneScript.Proofs.Soundness

/-!
# Running source trees and what they are lowered to

Where scopes match slots, an expression evaluates to what its code evaluates to
(`Lowers.mirrors`), and a statement does what its instruction does and leaves scopes that match the
slots (`LowersStatement.mirrors`), whatever the slots of variables out of scope hold.
-/

namespace SceneScript.Lexical

open Run
open Source (Expr Statement Path TypeName UnaryOp BinaryOp)
open Typing (Context Variable Typed)

variable {c : Context} {classes : List HostClass} {scopes : Scopes} {scope : Frame}
  {locals : Array Value}

/-! ## Types -/

theorem Lowers.typeOf {e : Expr} {typed : Typed} (agrees : Agrees locals scopes scope)
    (lowers : Lowers c scope e typed) : typeOf c scopes e = some typed.type := by
  cases lowers with
  | int | float | string | bool | null => rfl
  | var found type =>
    obtain ⟨b, is, ofType, -⟩ := agrees found
    rw [Lexical.typeOf, is, Option.map_some, ← ofType, type]
  | field receiver member => simp [Lexical.typeOf, receiver.typeOf agrees, member]
  | call receiver member _ => simp [Lexical.typeOf, receiver.typeOf agrees, member]
  | staticField member => simp [Lexical.typeOf, member]
  | staticCall member _ => simp [Lexical.typeOf, member]
  | unary operand => rw [Lexical.typeOf, operand.typeOf agrees]
  | concat left right isText =>
    simp [Lexical.typeOf, left.typeOf agrees, right.typeOf agrees, resultType, isText]
  | strict left right _ _ => simp [Lexical.typeOf, left.typeOf agrees, right.typeOf agrees]
  | logic left right isOp =>
    fin_cases isOp <;>
    simp [Lexical.typeOf, left.typeOf agrees, right.typeOf agrees, resultType]
termination_by structural e

theorem Lowers.member {e : Expr} {typed : Typed} {name : String} {found : HostClass × Member}
    (lowers : Lowers c scope e typed) (agrees : Agrees locals scopes scope)
    (is : member? typed.type name = some found) :
    (Lexical.typeOf c scopes e).bind (member? · name) = some found := by
  rw [lowers.typeOf agrees, Option.bind_some, is]

/-! ## Expressions -/

theorem eval_binary {p : Position} {h : Nat} {op : BinaryOp} {left right : Expr}
    (strict : op ∉ [.and, .or]) :
    eval c classes scopes (.binary p h op left right) = Lexical.located p (do
      tick
      let l ← found (typeOf c scopes left)
      let r ← found (typeOf c scopes right)
      if op = .add ∧ (l = .string ∨ r = .string) then
        let a ← eval c classes scopes left
        let b ← eval c classes scopes right
        let s ← display a
        let t ← display b
        string (s ++ t)
      else
        let a ← convert l (common l r) left.position (eval c classes scopes left)
        let b ← convert r (common l r) right.position (eval c classes scopes right)
        BinaryOp.apply op a b) := by
  cases op with
  | and | or => simp at strict
  | _ => rw [eval] <;> simp

theorem eval_logic {p : Position} {h : Nat} {op : BinaryOp} {left right : Expr}
    (logical : op ∈ [.and, .or]) :
    eval c classes scopes (.binary p h op left right) = Lexical.located p (do
      tick
      if (← (← eval c classes scopes left).asBool) = BinaryOp.decisive op then
        return .bool (BinaryOp.decisive op)
      else
        return .bool (← (← eval c classes scopes right).asBool)) := by
  fin_cases logical <;>
  · rw [eval]
    refine congrArg (Lexical.located p) ?_
    refine bind_congr fun _ => bind_congr fun v => bind_congr fun b => ?_
    cases b <;> rfl

theorem mirrors_converted {e : Expr} {typed : Typed} (lowers : Lowers c scope e typed)
    (same : Mirrors (eval c classes scopes e) (typed.code.eval classes locals) Eq) (target : Ty) :
    Mirrors (convert typed.type target e.position (eval c classes scopes e))
      ((converted typed target).eval classes locals) Eq := by
  unfold convert converted
  split
  · rw [Code.eval, lowers.position]
    refine .step _ (same.bind fun v w is => ?_)
    subst is
    exact (Mirrors.lift (v.asFloat)).bind fun x y is => is ▸ .pure rfl
  · exact same

mutual

theorem Lowers.mirrors {e : Expr} {typed : Typed} (agrees : Agrees locals scopes scope)
    (lowers : Lowers c scope e typed) :
    Mirrors (eval c classes scopes e) (typed.code.eval classes locals) Eq := by
  cases lowers with
  | int | float | string | bool | null =>
    rw [eval, Code.eval]
    exact .step _ (.pure rfl)
  | var isVar _ =>
    obtain ⟨b, is, -, value⟩ := agrees isVar
    rw [eval, Code.eval, readSlot, value]
    exact .step _ (.found_bind is (.pure rfl))
  | field ofReceiver member =>
    rw [eval, Code.eval, ofReceiver.position]
    refine .step _ (.found_bind (ofReceiver.member agrees member) ?_)
    refine (ofReceiver.mirrors agrees).bind fun v _ is => is ▸ ?_
    refine (Mirrors.lift _).bind fun r _ is => is ▸ ?_
    exact (Mirrors.lift _).bind fun _ _ _ => .lift _
  | call ofReceiver member ofArgs =>
    rw [eval, Code.eval, ofReceiver.position]
    refine .step _ (.found_bind (ofReceiver.member agrees member) ?_)
    refine (ofReceiver.mirrors agrees).bind fun v _ is => is ▸ ?_
    refine (Mirrors.lift _).bind fun r _ is => is ▸ ?_
    refine (ofArgs.mirrors agrees).bind fun vs _ is => is ▸ ?_
    exact (Mirrors.lift _).bind fun _ _ _ => .lift _
  | staticField member =>
    rw [eval, Code.eval]
    refine .step _ (.found_bind member ?_)
    exact (Mirrors.lift _).bind fun _ _ _ => .lift _
  | staticCall member ofArgs =>
    rw [eval, Code.eval]
    refine .step _ (.found_bind member ?_)
    refine (ofArgs.mirrors agrees).bind fun vs _ is => is ▸ ?_
    exact (Mirrors.lift _).bind fun _ _ _ => .lift _
  | unary ofOperand =>
    rw [eval, Code.eval]
    exact .step _ ((ofOperand.mirrors agrees).bind fun v _ is => is ▸ .lift _)
  | concat ofLeft ofRight isText =>
    rw [eval_binary (by simp), Code.eval]
    refine .step _ (.found_bind (ofLeft.typeOf agrees) (.found_bind (ofRight.typeOf agrees) ?_))
    rw [if_pos ⟨rfl, isText⟩]
    refine (ofLeft.mirrors agrees).bind fun a _ is => is ▸ ?_
    refine (ofRight.mirrors agrees).bind fun b _ is => is ▸ ?_
    refine (Mirrors.lift _).bind fun s _ is => is ▸ ?_
    exact (Mirrors.lift _).bind fun t _ is => is ▸ .lift _
  | strict ofLeft ofRight strict noText =>
    rw [eval_binary strict, Code.eval_binary strict]
    refine .step _ (.found_bind (ofLeft.typeOf agrees) (.found_bind (ofRight.typeOf agrees) ?_))
    rw [if_neg noText]
    refine (mirrors_converted ofLeft (ofLeft.mirrors agrees) _).bind fun a _ is => is ▸ ?_
    exact (mirrors_converted ofRight (ofRight.mirrors agrees) _).bind fun b _ is => is ▸ .lift _
  | logic ofLeft ofRight isOp =>
    rw [eval_logic isOp, Code.eval_logic isOp]
    refine .step _ ((ofLeft.mirrors agrees).bind fun a _ is => is ▸ ?_)
    refine (Mirrors.lift _).bind fun x _ is => is ▸ ?_
    split
    · exact .pure rfl
    · refine (ofRight.mirrors agrees).bind fun b _ is => is ▸ ?_
      exact (Mirrors.lift _).bind fun y _ is => is ▸ .pure rfl
termination_by structural e

theorem LowersArgs.mirrors {es : List Expr} {params : List Ty} {codes : List Code}
    (agrees : Agrees locals scopes scope) (lowers : LowersArgs c scope es params codes) :
    Mirrors (evalArgs c classes scopes es params) (evalAll classes locals codes) Eq := by
  cases lowers with
  | nil =>
    rw [evalArgs, evalAll]
    exact .pure rfl
  | cons first rest =>
    rw [evalArgs, evalAll]
    refine .found_bind (first.typeOf agrees) ?_
    refine (mirrors_converted first (first.mirrors agrees) _).bind fun v _ is => is ▸ ?_
    exact (rest.mirrors agrees).bind fun vs _ is => is ▸ .pure rfl
termination_by structural es

end

theorem mirrors_evalAs {e : Expr} {typed : Typed} (agrees : Agrees locals scopes scope)
    (lowers : Lowers c scope e typed) (target : Ty) :
    Mirrors (evalAs c classes scopes target e) ((converted typed target).eval classes locals) Eq :=
  .found_bind (lowers.typeOf agrees) (mirrors_converted lowers (lowers.mirrors agrees) target)

/-! ## Statements -/

/-- Two statements end alike, and where they go on, scopes and slots are as asked for. -/
def Ends (size : Nat) (goesOn : Scopes → Array Value → Prop) (r : Flow × Scopes)
    (r' : Flow × Array Value) : Prop :=
  r.1 = r'.1 ∧ r'.2.size = size ∧ (r.1 = .next → goesOn r.2 r'.2)

section

variable {forgetting : Forgetting} {outer frames : List Frame} {scope' : Frame} {slots slots' : Nat}
  {used : List Nat} {α β : Type}

theorem mirrors_store {m : OptionT Run α} {next : Unit → SceneScript.Exec β} {slot : Nat} {v : Value}
    {ends : α → β × Array Value → Prop} (within : slot < locals.size)
    (mirrors : Mirrors m (next () (locals.setIfInBounds slot v)) ends) :
    Mirrors m ((SceneScript.Exec.store slot v >>= next) locals) ends := by
  have stores : SceneScript.Exec.store slot v locals =
      pure ((), locals.setIfInBounds slot v) := by
    show (if slot < locals.size then _ else _ : SceneScript.Exec Unit) locals = _
    rw [if_pos within]
    rfl
  show Mirrors m (SceneScript.Exec.store slot v locals >>= fun r => next r.1 r.2) ends
  rw [stores, pure_bind]
  exact mirrors

theorem mirrors_bind {p : Position} {name : String} {type : Option TypeName} {init : Expr}
    {e : Typed} {t : Ty} (aligned : Aligned outer scope slots used scopes locals)
    (lowers : Lowers c scope init e) (is : type.elim (some e.type) (type? c) = some t)
    (within : slots < locals.size) :
    Mirrors (exec c classes (.bind p name type init) scopes)
      ((Instr.store p slots (converted e t)).exec classes locals)
      (Ends locals.size (Aligned outer ((name, ⟨slots, some t, true⟩) :: scope) (slots + 1)
        (slots :: used))) := by
  have known : bindingType c scopes type init = some t := by
    cases type with
    | some _ => exact is
    | none => exact (lowers.typeOf aligned.agrees).trans is
  rw [exec, Instr.exec]
  refine .exec_step p (.exec_get_bind (.exec_found_bind known ?_))
  refine .exec_eval_bind (mirrors_evalAs aligned.agrees lowers t) fun v => ?_
  refine mirrors_store within (.pure ⟨rfl, Array.size_setIfInBounds, fun _ => ?_⟩)
  exact aligned.declare (b := ⟨t, v⟩) within name true

theorem mirrors_assign {p q : Position} {name : String} {value : Expr} {w : Variable} {e : Typed}
    {t : Ty} (aligned : Aligned outer scope slots used scopes locals)
    (isVar : scope.lookup name = some w) (ofType : w.type = some t) (lowers : Lowers c scope value e)
    (within : slots ≤ locals.size) :
    Mirrors (exec c classes (.assign p (.var q name) value) scopes)
      ((Instr.store p w.slot (converted e t)).exec classes locals)
      (Ends locals.size (Aligned outer scope slots (w.slot :: used))) := by
  obtain ⟨b, is, known, -⟩ := aligned.agrees isVar
  cases ofType.symm.trans known
  rw [exec, Instr.exec]
  refine .exec_step p (.exec_get_bind (.exec_found_bind is ?_))
  refine .exec_eval_bind (mirrors_evalAs aligned.agrees lowers b.type) fun v => ?_
  have inBounds := (aligned.numbered.lt (mem_of_lookup isVar)).trans_le within
  refine mirrors_store inBounds (.pure ⟨rfl, Array.size_setIfInBounds, fun _ => ?_⟩)
  exact aligned.assign isVar v within

theorem mirrors_setField {p q : Position} {h : Nat} {receiver value : Expr} {name : String}
    {r e : Typed} {owner : HostClass} {m : Member}
    (aligned : Aligned outer scope slots used scopes locals) (ofReceiver : Lowers c scope receiver r)
    (member : member? r.type name = some (owner, m)) (lowers : Lowers c scope value e) :
    Mirrors (exec c classes (.assign p (.field q h receiver name) value) scopes)
      ((Instr.setField p r.code owner name (converted e m.result)).exec classes locals)
      (Ends locals.size (Aligned outer scope slots used)) := by
  rw [exec, Instr.exec, ofReceiver.position]
  refine .exec_step p (.exec_get_bind (.exec_found_bind (ofReceiver.member aligned.agrees member) ?_))
  refine .exec_eval_bind (ofReceiver.mirrors aligned.agrees) fun v => .exec_run_bind fun v' => ?_
  refine .exec_eval_bind (mirrors_evalAs aligned.agrees lowers m.result) fun x => ?_
  refine .exec_run_bind fun _ => .exec_run_bind fun _ => .pure ⟨rfl, rfl, fun _ => aligned⟩

def MirrorsBody (c : Context) (forgetting : Forgetting) (classes : List HostClass)
    (body : List Statement) : Prop :=
  ∀ {code outer scope scope' slots slots' used scopes locals},
    LowersBody c scope slots body code scope' slots' → slots' ≤ locals.size →
    Aligned outer scope slots used scopes locals →
    Mirrors (execAll c classes body scopes) (execAllForgetting forgetting classes used code locals)
      (Ends locals.size fun scopes' locals' =>
        ∃ used', Aligned outer scope' slots' used' scopes' locals')

theorem mirrors_block {body : List Statement} {code : List Instr}
    (mirrors : MirrorsBody c forgetting classes body)
    (lowers : LowersBody c scope slots body code scope' slots') (within : slots' ≤ locals.size)
    (aligned : Aligned frames scope slots used ([] :: scopes) locals) (used' : List Nat) :
    Mirrors (Exec.inScope (execAll c classes body) scopes)
      (forgetting.leaving used' (execAllForgetting forgetting classes used code) locals)
      (Ends locals.size fun scopes' locals' =>
        ∃ left, Matches left scopes' frames ∧ locals' = forgetting.overwrite used' left) := by
  refine .bind (mirrors lowers within aligned) fun r r' ends => .pure ?_
  obtain ⟨same, size, goesOn⟩ := ends
  refine ⟨same, (forgetting.size_overwrite used' r'.2).trans size, fun isNext => ?_⟩
  obtain ⟨used'', inner⟩ := goesOn isNext
  exact ⟨r'.2, inner.outer_matches, rfl⟩

theorem Matches.overwrite {left : Array Value} (matched : Matches left scopes frames)
    (inUse : ∀ x ∈ frames.flatten, x.2.slot ∈ used) :
    Matches (forgetting.overwrite used left) scopes frames :=
  matched.congr fun x mem => forgetting.keeps used left _ (inUse x mem)

theorem mirrors_branch {body : List Statement} {code : List Instr}
    (mirrors : MirrorsBody c forgetting classes body)
    (lowers : LowersBody c scope slots body code scope' slots') (within : slots' ≤ locals.size)
    (aligned : Aligned outer scope slots used scopes locals) :
    Mirrors (Exec.inScope (execAll c classes body) scopes)
      (forgetting.leaving used (execAllForgetting forgetting classes used code) locals)
      (Ends locals.size (Aligned outer scope slots' used)) := by
  obtain ⟨numbered, inUse, top, rfl, matched⟩ := aligned
  have block := mirrors_block mirrors lowers within (.enter numbered inUse matched) used
  refine block.mono fun r r' ends => ⟨ends.1, ends.2.1, fun isNext => ?_⟩
  obtain ⟨left, matched', overwritten⟩ := ends.2.2 isNext
  rw [overwritten]
  exact ⟨numbered.mono lowers.le, inUse, top, rfl, matched'.overwrite inUse⟩

theorem mirrors_ifThen {p : Position} {cond : Expr} {body : List Statement} {e : Typed}
    {code : List Instr} (mirrors : MirrorsBody c forgetting classes body)
    (ofCond : Lowers c scope cond e) (lowers : LowersBody c scope slots body code scope' slots')
    (within : slots' ≤ locals.size) (aligned : Aligned outer scope slots used scopes locals) :
    Mirrors (exec c classes (.ifThen p cond body) scopes)
      ((Instr.choose p e.code code []).execForgetting forgetting classes used locals)
      (Ends locals.size (Aligned outer scope slots' used)) := by
  rw [exec, Instr.execForgetting, ofCond.position]
  refine .exec_step p (.exec_get_bind (.exec_eval_bind (ofCond.mirrors aligned.agrees) fun v => ?_))
  refine .exec_run_bind fun b => ?_
  cases b with
  | true => exact mirrors_branch mirrors lowers within aligned
  | false =>
    obtain ⟨numbered, inUse, top, rfl, matched⟩ := aligned
    rw [execAllForgetting]
    refine .pure ⟨rfl, forgetting.size_overwrite used locals, fun _ => ?_⟩
    exact ⟨numbered.mono lowers.le, inUse, top, rfl, matched.overwrite inUse⟩

theorem mirrors_ifThenElse {p : Position} {cond : Expr} {body otherwise : List Statement} {e : Typed}
    {code code' : List Instr} {scope'' : Frame} {slots'' : Nat}
    (mirrors : MirrorsBody c forgetting classes body)
    (mirrors' : MirrorsBody c forgetting classes otherwise) (ofCond : Lowers c scope cond e)
    (lowers : LowersBody c scope slots body code scope' slots')
    (lowers' : LowersBody c scope slots' otherwise code' scope'' slots'')
    (within : slots'' ≤ locals.size) (aligned : Aligned outer scope slots used scopes locals) :
    Mirrors (exec c classes (.ifThenElse p cond body otherwise) scopes)
      ((Instr.choose p e.code code code').execForgetting forgetting classes used locals)
      (Ends locals.size (Aligned outer scope slots'' used)) := by
  rw [exec, Instr.execForgetting, ofCond.position]
  refine .exec_step p (.exec_get_bind (.exec_eval_bind (ofCond.mirrors aligned.agrees) fun v => ?_))
  refine .exec_run_bind fun b => ?_
  cases b with
  | true =>
    have branch := mirrors_branch mirrors lowers (lowers'.le.trans within) aligned
    refine branch.mono fun r r' ends => ⟨ends.1, ends.2.1, fun isNext => ?_⟩
    exact (ends.2.2 isNext).mono lowers'.le
  | false => exact mirrors_branch mirrors' lowers' within (aligned.mono lowers.le)

/-- What a round of a loop preserves, all rounds preserve. -/
theorem mirrors_iterate {size : Nat} (goesOn : Scopes → Array Value → Prop) {body : Int → Exec Flow} {body' : Int → SceneScript.Exec Flow}
    (round : ∀ i scopes locals, locals.size = size → goesOn scopes locals →
      Mirrors (body i scopes) (body' i locals) (Ends size goesOn))
    (rounds : Nat) (i : Int) (scopes : Scopes) (locals : Array Value) (sized : locals.size = size)
    (holds : goesOn scopes locals) :
    Mirrors (Exec.iterate body rounds i scopes) (SceneScript.Exec.iterate body' rounds i locals)
      (Ends size goesOn) := by
  induction rounds generalizing i scopes locals with
  | zero => exact .pure ⟨rfl, sized, fun _ => holds⟩
  | succ rounds ih =>
    refine .exec_bind (round i scopes locals sized holds) fun r r' ends => ?_
    obtain ⟨flow, scopes'⟩ := r
    obtain ⟨flow', locals'⟩ := r'
    obtain ⟨rfl : flow = flow', sized', goesOn⟩ := ends
    cases flow with
    | next => exact ih (i + 1) scopes' locals' sized' (goesOn rfl)
    | give v => exact .pure ⟨rfl, sized', nofun⟩

theorem mirrors_round {name : String} {body : List Statement} {code : List Instr}
    (mirrors : MirrorsBody c forgetting classes body)
    (lowers : LowersBody c ((name, ⟨slots, some .int, false⟩) :: frames.flatten) (slots + 1) body
      code scope' slots') (within : slots' ≤ locals.size) (numbered : Numbered frames.flatten slots)
    (inUse : ∀ x ∈ frames.flatten, x.2.slot ∈ used) (matched : Matches locals scopes.tail frames)
    (i : Int) :
    Mirrors ((do
        tick
        modify (Scopes.rebind name ⟨.int, .int (Int64.ofInt i)⟩)
        Exec.inScope (execAll c classes body) : Exec Flow) scopes)
      ((do
        tick
        SceneScript.Exec.store slots (.int (Int64.ofInt i))
        forgetting.leaving used (execAllForgetting forgetting classes (slots :: used) code) :
          SceneScript.Exec Flow) locals)
      (Ends locals.size fun scopes' locals' => Matches locals' scopes'.tail frames) := by
  have inBounds : slots < locals.size := lowers.le.trans within
  refine .exec_run_bind fun _ => .exec_modify_bind (mirrors_store inBounds ?_)
  have fresh := Aligned.enter numbered inUse matched
  obtain ⟨numbered', inUse', top, is, matched'⟩ :=
    fresh.declare (b := ⟨.int, .int (Int64.ofInt i)⟩) inBounds name false
  rw [is] at lowers numbered' inUse'
  rw [← Array.size_setIfInBounds] at within
  have block := mirrors_block mirrors lowers within (.enter numbered' inUse' matched') used
  refine block.mono fun r r' ends => ?_
  refine ⟨ends.1, ends.2.1.trans Array.size_setIfInBounds, fun isNext => ?_⟩
  obtain ⟨left, matched'', overwritten⟩ := ends.2.2 isNext
  rw [overwritten]
  exact matched''.tail.overwrite inUse

theorem mirrors_loop {p : Position} {name : String} {first last : Expr} {body : List Statement}
    {a b : Typed} {code : List Instr} (mirrors : MirrorsBody c forgetting classes body)
    (ofFirst : Lowers c scope first a) (ofLast : Lowers c scope last b)
    (lowers : LowersBody c ((name, ⟨slots, some .int, false⟩) :: scope) (slots + 1) body code scope'
      slots') (within : slots' ≤ locals.size)
    (aligned : Aligned outer scope slots used scopes locals) :
    Mirrors (exec c classes (.loop p name first last body) scopes)
      ((Instr.loop p slots a.code b.code code).execForgetting forgetting classes used locals)
      (Ends locals.size (Aligned outer scope slots' used)) := by
  have agrees : Agrees locals scopes scope := aligned.agrees
  obtain ⟨numbered, inUse, top, rfl, matched⟩ := aligned
  rw [exec, Instr.execForgetting, ofFirst.position, ofLast.position]
  refine .exec_step p (.exec_get_bind (.exec_eval_bind (ofFirst.mirrors agrees) fun v => ?_))
  refine .exec_run_bind fun x => .exec_get_bind ?_
  refine .exec_eval_bind (ofLast.mirrors agrees) fun w => .exec_run_bind fun y => ?_
  refine .exec_inScope (mirrors_iterate
    (fun scopes' locals' => Matches locals' scopes'.tail (top :: outer)) ?_ _ _ ([] :: scopes) locals
    rfl matched) fun r r' ends => ?_
  · intro i scopes' locals' sized matched'
    rw [← sized] at within ⊢
    exact mirrors_round mirrors lowers within numbered inUse matched' i
  · refine ⟨ends.1, ends.2.1, fun isNext => ?_⟩
    have le : slots ≤ slots' := Nat.le_of_succ_le lowers.le
    exact ⟨numbered.mono le, inUse, top, rfl, ends.2.2 isNext⟩

mutual

theorem LowersStatement.mirrors {st : Statement} {i : Instr} {outer : List Frame}
    {scope scope' : Frame} {slots slots' : Nat} {used : List Nat} {scopes : Scopes}
    {locals : Array Value}
    (lowers : LowersStatement c scope slots st i scope' slots') (within : slots' ≤ locals.size)
    (aligned : Aligned outer scope slots used scopes locals) :
    Mirrors (exec c classes st scopes) (i.execForgetting forgetting classes used locals)
      (Ends locals.size (Aligned outer scope' slots' (i.usedBehind used))) := by
  cases lowers with
  | bind lowers is =>
    rw [Instr.execForgetting_of_plain rfl]
    exact mirrors_bind aligned lowers is within
  | assign isVar ofType lowers =>
    rw [Instr.execForgetting_of_plain rfl]
    exact mirrors_assign aligned isVar ofType lowers within
  | setField receiver member lowers =>
    rw [Instr.execForgetting_of_plain rfl]
    exact mirrors_setField aligned receiver member lowers
  | ifThen ofCond lowers => exact mirrors_ifThen LowersBody.mirrors ofCond lowers within aligned
  | ifThenElse ofCond lowers lowers' =>
    exact mirrors_ifThenElse LowersBody.mirrors LowersBody.mirrors ofCond lowers lowers' within
      aligned
  | loop ofFirst ofLast lowers =>
    exact mirrors_loop LowersBody.mirrors ofFirst ofLast lowers within aligned
  | give lowers isResult =>
    rw [Instr.execForgetting_of_plain rfl, exec, Instr.exec]
    refine .exec_step _ (.exec_found_bind isResult (.exec_get_bind ?_))
    exact .exec_eval_bind (mirrors_evalAs aligned.agrees lowers _) fun v => .pure ⟨rfl, rfl, nofun⟩
  | eval lowers =>
    rw [Instr.execForgetting_of_plain rfl, exec, Instr.exec]
    refine .exec_step _ (.exec_get_bind ?_)
    exact .exec_eval_bind (lowers.mirrors aligned.agrees) fun v =>
      .pure ⟨rfl, rfl, fun _ => aligned⟩
termination_by structural st

theorem LowersBody.mirrors {body : List Statement} : MirrorsBody c forgetting classes body := by
  intro code outer scope scope' slots slots' used scopes locals lowers within aligned
  cases lowers with
  | nil =>
    rw [execAll, execAllForgetting]
    exact .pure ⟨rfl, rfl, fun _ => ⟨used, aligned⟩⟩
  | cons first rest =>
    rw [execAll, execAllForgetting]
    refine .exec_bind (first.mirrors (rest.le.trans within) aligned) fun r r' ends => ?_
    obtain ⟨flow, scopes'⟩ := r
    obtain ⟨flow', locals'⟩ := r'
    obtain ⟨rfl : flow = flow', sized, goesOn⟩ := ends
    cases flow with
    | next =>
      rw [← sized] at within ⊢
      exact LowersBody.mirrors rest within (goesOn rfl)
    | give v => exact .pure ⟨rfl, sized, nofun⟩
termination_by structural body

end

end

end SceneScript.Lexical

/-!
## Slots implement lexical scoping

A program that the checker makes of a unit runs as the source tree does over a stack of scopes: with
the same result or fault, and leaving the same state behind, so also with the same steps
(`checkUnit_lexical`). What a slot holds before its variable is declared in the block that is being
run never matters.
-/

namespace SceneScript

theorem Program.run_eq_forgetting (program : Program) (classes : List HostClass) (param : Value) :
    program.run classes param = program.runForgetting .nothing classes (program.locals param) := by
  rw [runForgetting, execAllForgetting_nothing]
  rfl

namespace Lexical

variable {symbols : SymbolTable} {u : Source.CompilationUnit} {program : Program}

theorem run_mirrors (accepted : Typing.checkUnit symbols u = .ok program)
    (forgetting : Forgetting) (classes : List HostClass) {param : Value} {locals : Array Value}
    (within : program.slots ≤ locals.size) (isParam : locals[0]? = some param) :
    Mirrors (run symbols u classes param) (program.runForgetting forgetting classes locals) Eq := by
  obtain ⟨ofParam, ofResult, scope', lowers⟩ := checkUnit_lowers accepted
  simp only [Typing.contextOf, resolveImports_fst] at ofParam ofResult lowers
  have aligned := Aligned.parameter u.entry.param ⟨program.entry.param, param⟩ isParam
  have body : Mirrors (Exec.inScope (execAll _ classes u.entry.body) [[(u.entry.param, _)]])
      (execAllForgetting forgetting classes [0] program.body locals) fun r r' => r.1 = r'.1 :=
    .exec_inScope (LowersBody.mirrors lowers within aligned) fun r r' ends => ends.1
  refine .found_bind ofParam (.found_bind ofResult ?_)
  show Mirrors _ (Prod.fst <$> execAllForgetting forgetting classes [0] program.body locals >>= _) _
  rw [bind_map_left]
  refine body.bind fun r r' same => ?_
  obtain ⟨flow, scopes⟩ := r
  obtain ⟨flow', locals'⟩ := r'
  obtain rfl : flow = flow' := same
  cases flow <;> exact .pure rfl

end Lexical

/-- Slots implement lexical scoping. In the program of a unit every name stands for the slot of the
variable that it is looked up as, and every declaration has a slot of its own. The program runs as
the source tree does, which is never stuck, and as it does if its slots held anything at first and
are overwritten whenever their variables go out of scope. -/
theorem checkUnit_lexical {symbols : SymbolTable} {u : Source.CompilationUnit} {program : Program}
    (accepted : Typing.checkUnit symbols u = .ok program) :
    (∃ scope, Lexical.LowersBody (Typing.contextOf symbols u (some program.entry.result))
      [(u.entry.param, ⟨0, some program.entry.param, false⟩)] 1 u.entry.body program.body scope
      program.slots) ∧
    ∀ (classes : List HostClass) (param : Value),
      (Lexical.run symbols u classes param).run = some <$> program.run classes param ∧
      ∀ (forgetting : Forgetting) (locals : Array Value), program.slots ≤ locals.size →
        locals[0]? = some param →
        program.runForgetting forgetting classes locals = program.run classes param := by
  obtain ⟨-, -, lowers⟩ := Lexical.checkUnit_lowers accepted
  refine ⟨lowers, fun classes param => ?_⟩
  have plain : Lexical.Mirrors (Lexical.run symbols u classes param) (program.run classes param) Eq := by
    rw [program.run_eq_forgetting]
    exact Lexical.run_mirrors accepted .nothing classes (program.slots_le_locals param)
      (program.locals_param param)
  refine ⟨plain.run_eq, fun forgetting locals within isParam => ?_⟩
  exact (Lexical.run_mirrors accepted forgetting classes within isParam).unique plain

def scopedUnit : Source.CompilationUnit :=
  let p : Position := ⟨1, 1⟩
  { moduleName := ⟨"modelsnip", [], p⟩
    imports := [⟨"model", ["ModelBuilder"], p⟩, ⟨"model", ["Model"], p⟩]
    entry := {
      name := Template.entryPoint
      param := "b"
      paramType := .named ⟨"ModelBuilder", [], p⟩
      resultType := .named ⟨"Model", [], p⟩
      body := [
        .bind p "x" (some (.float p)) (.int p 1),
        .loop p "i" (.int p 0) (.int p 3)
          [.bind p "y" none (.var p "i"), .assign p (.var p "x") (.var p "y")],
        .give p (some (.call p 2 (.var p "b") "end" []))]
      position := p } }

theorem checkUnit_lexical_scoped :
    ∃ program,
      Typing.checkUnit (.ofNames ["model.ModelBuilder", "model.Model"]) scopedUnit = .ok program ∧
      ∀ classes param v,
        (Lexical.run (.ofNames ["model.ModelBuilder", "model.Model"]) scopedUnit classes param).run =
          some <$> program.run classes param ∧
        program.runForgetting (.everything v) classes #[param, v, v, v] =
          program.run classes param := by
  refine ⟨_, rfl, fun classes param v => ?_⟩
  obtain ⟨-, runs⟩ :=
    checkUnit_lexical (show Typing.checkUnit (.ofNames ["model.ModelBuilder", "model.Model"])
      scopedUnit = .ok _ from rfl)
  obtain ⟨lexical, forgets⟩ := runs classes param
  exact ⟨lexical, forgets (.everything v) #[param, v, v, v] (Nat.le_refl 4) rfl⟩

end SceneScript
