import Mathlib.Tactic.Common
import SceneScript.Program.Code
import SceneScript.Proofs.Machine.Plain
import SceneScript.Proofs.Machine.Soundness

/-!
# Runs are made up of calls

All that a program does to objects it does by using members of classes. `Run.Composed` collects the
runs that are made up of such calls, of evaluation steps and of text. Programs run so
(`Program.composed_run`); what holds of every call and is kept by sequencing holds of every run of a
program.
-/

/-!
## Positions in a program

A program keeps the positions of the unit that it was lowered from, one for each expression and each
statement.
-/

namespace SceneScript

mutual

def Code.positions : Code → List Position
  | .const p _ | .load p _ | .getConstant p .. => [p]
  | .getField p target .. => p :: target.positions
  | .call p target _ _ args => p :: (target.positions ++ codePositions args)
  | .callStatic p _ _ args => p :: codePositions args
  | .unary p _ operand | .widen p operand => p :: operand.positions
  | .binary p _ left right | .concat p left right => p :: (left.positions ++ right.positions)

def codePositions : List Code → List Position
  | [] => []
  | e :: rest => e.positions ++ codePositions rest

end

mutual

def Instr.positions : Instr → List Position
  | .store p _ value => p :: value.positions
  | .setField p target _ _ value => p :: (target.positions ++ value.positions)
  | .choose p cond body otherwise =>
    p :: (cond.positions ++ (instrPositions body ++ instrPositions otherwise))
  | .loop p _ first last body => p :: (first.positions ++ (last.positions ++ instrPositions body))
  | .give p value | .eval p value => p :: value.positions

def instrPositions : List Instr → List Position
  | [] => []
  | i :: rest => i.positions ++ instrPositions rest

end

theorem Code.position_mem (e : Code) : e.position ∈ e.positions := by
  cases e <;> simp [position, positions]

def Code.In (P : Position → Prop) (e : Code) : Prop :=
  ∀ p ∈ e.positions, P p

def Instr.In (P : Position → Prop) (i : Instr) : Prop :=
  ∀ p ∈ i.positions, P p

variable {P : Position → Prop}

theorem Code.In.place {e : Code} (within : e.In P) : P e.position :=
  within _ e.position_mem

theorem codePositions_forall {es : List Code} :
    (∀ p ∈ codePositions es, P p) ↔ ∀ e ∈ es, e.In P := by
  induction es with
  | nil => simp [codePositions]
  | cons e rest ih => rw [codePositions, List.forall_mem_append, List.forall_mem_cons, ih, Code.In]

end SceneScript

namespace SceneScript

open Run
open Source (BinaryOp)

inductive Call where
  | method (owner : HostClass) (name : String) (receiver : Value) (args : List Value)
  | static (owner : HostClass) (name : String) (args : List Value)
  | get (owner : HostClass) (name : String) (receiver : Value)
  | set (owner : HostClass) (name : String) (receiver value : Value)
  | constant (owner : HostClass) (name : String)

def Call.run : Call → Run Value
  | .method owner name receiver args => owner.call name receiver args
  | .static owner name args => owner.callStatic name args
  | .get owner name receiver => owner.getField name receiver
  | .set owner name receiver value => do
    owner.setField name receiver value
    return .void
  | .constant owner name => owner.getConstant name

inductive Deed where
  | created (node : Nat)
  | placed (node part material : Nat)
  | attached (parent child : Nat)
deriving DecidableEq

def Call.deed? : Call → Value → Option Deed
  | .method .modelBuilder "node" _ [], .object node => some (.created node)
  | .method .modelBuilder "part" _ [.object node, .int part, .object material], _ =>
    some (.placed node part.toInt.toNat material)
  | .method .node "addPart" (.object node) [.int part, .object material], _ =>
    some (.placed node part.toInt.toNat material)
  | .method .node "addChild" (.object parent) [.object child], _ => some (.attached parent child)
  | _, _ => none

def Call.text? : Call → Option Value
  | .method .integer "toString" receiver [] | .method .float "toString" receiver []
  | .method .double "toString" receiver [] | .method .boolean "toString" receiver []
  | .method .object "toString" receiver [] => some receiver
  | .static .string "valueOf" [v] => some v
  | _ => none

def Call.renamed? : Call → Option Nat
  | .set .node "id" (.object node) _ => some node
  | _ => none

/-- Whether a call adds objects to the heap that are not charged for. -/
def Call.isFree : Call → Bool
  | .method .modelBuilder "node" _ [] | .method .modelBuilder "end" _ [] => true
  | _ => false

structure Call.IsPlain (c : Call) : Prop where
  deed : ∀ v, c.deed? v = none
  text : c.text? = none
  renamed : c.renamed? = none
  charged : c.isFree = false

inductive Call.Builds : Call → Run Value → Prop
  | generate {name : String} {receiver : Value} {args : List Value} :
      (Call.method .modelBuilder name receiver args).IsPlain →
      Builds (.method .modelBuilder name receiver args) (Building.primitive name args)
  | node {receiver : Value} : Builds (.method .modelBuilder "node" receiver []) Building.newNode
  | part {receiver node part material : Value} :
      Builds (.method .modelBuilder "part" receiver [node, part, material]) (do
        Building.placePart (← node.asObject) part material
        return .void)
  | finish {receiver : Value} : Builds (.method .modelBuilder "end" receiver []) Building.finish
  | addPart {receiver part material : Value} :
      Builds (.method .node "addPart" receiver [part, material]) (do
        Building.placePart (← receiver.asObject) part material
        return .void)
  | addChild {receiver child : Value} : Builds (.method .node "addChild" receiver [child]) (do
        Building.attach (← receiver.asObject) child
        return .void)

/-- What a call does: it is plain, converts a value to text, renames a node or builds. -/
inductive Call.Does : Call → Run Value → Prop
  | plain {c : Call} {run : Run Value} : c.IsPlain → Plain 0 run → Does c run
  | text {c : Call} {v : Value} : (∀ v, c.deed? v = none) → c.text? = some v → c.renamed? = none →
      c.isFree = false → Does c (Native.textOf v)
  | rename {receiver value : Value} : Does (.set .node "id" receiver value) (do
        Native.nodeSet "id" receiver value
        return .void)
  | builds {c : Call} {run : Run Value} : c.Builds run → Does c run

namespace Call

open Native

theorem isPlain_of_builder {name : String} {receiver : Value} {args : List Value}
    (notNode : name = "node" → args = [] → False)
    (notPart : ∀ node part material, name = "part" → args = [node, part, material] → False)
    (notEnd : name = "end" → args = [] → False) :
    (Call.method .modelBuilder name receiver args).IsPlain := by
  refine ⟨fun v => ?_, rfl, rfl, ?_⟩
  · unfold deed?
    split <;> simp_all
  · unfold isFree
    split <;> simp_all

theorem does_builderCall (name : String) (receiver : Value) (args : List Value) :
    Does (.method .modelBuilder name receiver args) (builderCall name args) := by
  unfold builderCall
  split
  · exact .builds .node
  · exact .builds .part
  · exact .plain ⟨fun _ => rfl, rfl, rfl, rfl⟩ (.building fun b => .pure _)
  · exact .builds .finish
  · next notNode notPart _ notEnd =>
    have plain : (Call.method .modelBuilder name receiver args).IsPlain :=
      isPlain_of_builder notNode notPart notEnd
    split
    · exact .builds (.generate plain)
    · exact .plain plain (plain_unknown _ _)

theorem does_nodeCall (name : String) (receiver : Value) (args : List Value) :
    Does (.method .node name receiver args) (nodeCall name receiver args) := by
  unfold nodeCall
  split
  · exact .builds .addPart
  · exact .builds .addChild
  · exact .plain ⟨fun _ => rfl, rfl, rfl, rfl⟩
      (.bind (.lift _) fun ref => plain_setTranslation ref receiver _ _ _)
  · exact .plain ⟨fun _ => rfl, rfl, rfl, rfl⟩ (.bind (.lift _) fun ref => plain_childCount ref)
  · refine .plain ⟨fun v => ?_, rfl, rfl, rfl⟩ (.bind (.lift _) fun ref => plain_unknown _ _)
    unfold deed?
    split <;> simp_all

theorem does_toStringCall {owner : HostClass} {name : String} {receiver : Value}
    {args : List Value} (converts : owner ∈ [.integer, .float, .double, .boolean, .object]) :
    Does (.method owner name receiver args) (toStringCall name receiver args) := by
  unfold toStringCall
  split
  · fin_cases converts <;> exact .text (fun _ => rfl) rfl rfl rfl
  · have plain : (Call.method owner name receiver args).IsPlain := by
      refine ⟨fun v => ?_, ?_, rfl, ?_⟩
      · fin_cases converts <;> rfl
      · unfold text?
        split <;> simp_all
      · fin_cases converts <;> rfl
    exact .plain plain (plain_unknown _ _)

theorem does_stringStatic (name : String) (args : List Value) :
    Does (.static .string name args) (stringStatic name args) := by
  unfold stringStatic
  split
  · exact .text (fun _ => rfl) rfl rfl rfl
  · refine .plain ⟨fun _ => rfl, ?_, rfl, rfl⟩ (plain_unknown _ _)
    unfold text?
    split <;> simp_all

theorem does_nodeSet (name : String) (receiver value : Value) :
    Does (.set .node name receiver value) (do
      nodeSet name receiver value
      return .void) := by
  by_cases isId : name = "id"
  · subst isId
    exact .rename
  · have unknown : nodeSet name receiver value = Native.unknown .field name := by
      unfold nodeSet
      split
      · contradiction
      · rfl
    rw [unknown]
    refine .plain ⟨fun _ => rfl, rfl, ?_, rfl⟩ (.bind (plain_unknown _ _) fun _ => .pure _)
    unfold renamed?
    split <;> simp_all

theorem does (c : Call) : c.Does c.run := by
  cases c with
  | method owner name receiver args =>
    cases owner with
    | modelBuilder => exact does_builderCall name receiver args
    | node => exact does_nodeCall name receiver args
    | model => exact .plain ⟨fun _ => rfl, rfl, rfl, rfl⟩ plain_modelCall
    | material => exact .plain ⟨fun _ => rfl, rfl, rfl, rfl⟩ plain_materialCall
    | color => exact .plain ⟨fun _ => rfl, rfl, rfl, rfl⟩ plain_colorCall
    | vector3 => exact .plain ⟨fun _ => rfl, rfl, rfl, rfl⟩ plain_vectorCall
    | array => exact .plain ⟨fun _ => rfl, rfl, rfl, rfl⟩ plain_arrayCall
    | string => exact .plain ⟨fun _ => rfl, rfl, rfl, rfl⟩ plain_stringCall
    | integer | float | double | boolean | object => exact does_toStringCall (by decide)
    | _ => exact .plain ⟨fun _ => rfl, rfl, rfl, rfl⟩ (plain_unknown _ _)
  | static owner name args =>
    cases owner with
    | string => exact does_stringStatic name args
    | material => exact .plain ⟨fun _ => rfl, rfl, rfl, rfl⟩ plain_materialStatic
    | color => exact .plain ⟨fun _ => rfl, rfl, rfl, rfl⟩ plain_colorStatic
    | colorAttribute => exact .plain ⟨fun _ => rfl, rfl, rfl, rfl⟩ plain_attributeStatic
    | vector3 => exact .plain ⟨fun _ => rfl, rfl, rfl, rfl⟩ plain_vectorStatic
    | array => exact .plain ⟨fun _ => rfl, rfl, rfl, rfl⟩ plain_arrayStatic
    | integer => exact .plain ⟨fun _ => rfl, rfl, rfl, rfl⟩ plain_integerStatic
    | float => exact .plain ⟨fun _ => rfl, rfl, rfl, rfl⟩ plain_floatStatic
    | double => exact .plain ⟨fun _ => rfl, rfl, rfl, rfl⟩ plain_doubleStatic
    | boolean => exact .plain ⟨fun _ => rfl, rfl, rfl, rfl⟩ plain_booleanStatic
    | _ => exact .plain ⟨fun _ => rfl, rfl, rfl, rfl⟩ (plain_unknown _ _)
  | get owner name receiver =>
    refine .plain ⟨fun _ => rfl, rfl, rfl, rfl⟩ ?_
    cases owner with
    | node => exact plain_nodeGet
    | material => exact plain_materialGet
    | color => exact plain_colorGet
    | vector3 => exact plain_vectorGet
    | _ => exact plain_unknown _ _
  | set owner name receiver value =>
    cases owner with
    | node => exact does_nodeSet name receiver value
    | material =>
      exact .plain ⟨fun _ => rfl, rfl, rfl, rfl⟩ (.bind plain_materialSet fun _ => .pure _)
    | color => exact .plain ⟨fun _ => rfl, rfl, rfl, rfl⟩ (.bind plain_colorSet fun _ => .pure _)
    | vector3 => exact .plain ⟨fun _ => rfl, rfl, rfl, rfl⟩ (.bind plain_vectorSet fun _ => .pure _)
    | _ => exact .plain ⟨fun _ => rfl, rfl, rfl, rfl⟩ (.bind (plain_unknown _ _) fun _ => .pure _)
  | constant owner name =>
    refine .plain ⟨fun _ => rfl, rfl, rfl, rfl⟩ ?_
    cases owner with
    | color => exact plain_colorConstant
    | integer => exact plain_integerConstant
    | float => exact plain_floatConstant
    | double => exact plain_doubleConstant
    | _ => exact plain_unknown _ _

end Call

/-- The runs that are made up of calls, of steps and of text, and locate faults at positions with
`P`. -/
inductive Run.Composed (P : Position → Prop) : {α : Type} → Run α → Prop
  | pure {α : Type} (a : α) : Composed P (pure a)
  | fault {α : Type} (cause : FaultCause) : Composed P (fault cause : Run α)
  | bind {α β : Type} {run : Run α} {next : α → Run β} : Composed P run →
      (∀ a, Composed P (next a)) → Composed P (run >>= next)
  | located {α : Type} {p : Position} {run : Run α} : P p → Composed P run →
      Composed P (located p run)
  | tick : Composed P tick
  | display (v : Value) : Composed P (display v)
  | string (s : String) : Composed P (string s)
  | call (c : Call) : Composed P c.run

namespace Run.Composed

variable {α β : Type} {P : Position → Prop} {run : Run α}

theorem lift (x : Except FaultCause α) : Composed P (liftM x : Run α) := by
  cases x with
  | ok a => exact .pure a
  | error cause => exact .fault cause

theorem map {f : α → β} (composed : Composed P run) : Composed P (f <$> run) := by
  rw [map_eq_pure_bind]
  exact composed.bind fun a => .pure (f a)

theorem step {p : Position} (place : P p) (composed : Composed P run) :
    Composed P (Run.located p (Run.tick >>= fun _ => run)) :=
  .located place (.bind .tick fun _ => composed)

theorem setField (owner : HostClass) (name : String) (receiver value : Value) :
    Composed P (owner.setField name receiver value) := by
  have called : Composed P ((Call.set owner name receiver value).run >>= fun _ => Pure.pure ()) :=
    (call _).bind fun _ => .pure ()
  have same : ((Call.set owner name receiver value).run >>= fun _ => Pure.pure ()) =
      owner.setField name receiver value := by
    rw [Call.run, bind_assoc]
    exact bind_pure _
  rwa [same] at called

theorem readSlot (locals : Array Value) (slot : Nat) : Composed P (readSlot locals slot) := by
  unfold SceneScript.readSlot
  split
  · exact .pure _
  · exact .fault _

theorem requireClass (classes : List HostClass) (c : HostClass) :
    Composed P (requireClass classes c) := by
  unfold SceneScript.requireClass
  split
  · exact .pure ()
  · exact .fault _

theorem receiver {p : Position} (place : P p) (member : String) (v : Value) :
    Composed P (receiver p member v) := by
  unfold SceneScript.receiver
  split
  · exact .located place (.fault _)
  · exact .pure v

end Run.Composed

/-! ## Expressions -/

section

variable {P : Position → Prop} {classes : List HostClass}

mutual

theorem Code.composed_eval {locals : Array Value} :
    ∀ e : Code, e.In P → Composed P (e.eval classes locals)
  | .const p c, within => by
    rw [Code.eval]
    exact .step within.place (.pure _)
  | .load p slot, within => by
    rw [Code.eval]
    exact .step within.place (.readSlot locals slot)
  | .getField p target owner name, within => by
    rw [Code.In, Code.positions, List.forall_mem_cons] at within
    obtain ⟨place, inTarget⟩ := within
    rw [Code.eval]
    refine .step place ((target.composed_eval inTarget).bind fun v => ?_)
    refine (Composed.receiver (Code.In.place inTarget) _ v).bind fun r => ?_
    exact (Composed.requireClass classes owner).bind fun _ => .call (.get owner name r)
  | .call p target owner name args, within => by
    rw [Code.In, Code.positions, List.forall_mem_cons, List.forall_mem_append] at within
    obtain ⟨place, inTarget, inArgs⟩ := within
    rw [Code.eval]
    refine .step place ((target.composed_eval inTarget).bind fun v => ?_)
    refine (Composed.receiver (Code.In.place inTarget) _ v).bind fun r => ?_
    refine (composed_evalAll args inArgs).bind fun vs => ?_
    exact (Composed.requireClass classes owner).bind fun _ => .call (.method owner name r vs)
  | .getConstant p owner name, within => by
    rw [Code.eval]
    exact .step within.place ((Composed.requireClass classes owner).bind fun _ =>
      .call (.constant owner name))
  | .callStatic p owner name args, within => by
    rw [Code.In, Code.positions, List.forall_mem_cons] at within
    rw [Code.eval]
    refine .step within.1 ((composed_evalAll args within.2).bind fun vs => ?_)
    exact (Composed.requireClass classes owner).bind fun _ => .call (.static owner name vs)
  | .unary p op operand, within => by
    rw [Code.In, Code.positions, List.forall_mem_cons] at within
    rw [Code.eval]
    exact .step within.1 ((operand.composed_eval within.2).bind fun v => .lift _)
  | .binary p op left right, within => by
    rw [Code.In, Code.positions, List.forall_mem_cons, List.forall_mem_append] at within
    obtain ⟨place, inLeft, inRight⟩ := within
    have first : Composed P (left.eval classes locals) := left.composed_eval inLeft
    have last : Composed P (right.eval classes locals) := right.composed_eval inRight
    by_cases logical : op ∈ [.and, .or]
    · rw [Code.eval_logic logical]
      refine .step place (first.bind fun v => (Composed.lift _).bind fun b => ?_)
      split
      · exact .pure _
      · exact last.bind fun w => (Composed.lift _).bind fun c => .pure _
    · rw [Code.eval_binary logical]
      exact .step place (first.bind fun a => last.bind fun b => .lift _)
  | .concat p left right, within => by
    rw [Code.In, Code.positions, List.forall_mem_cons, List.forall_mem_append] at within
    obtain ⟨place, inLeft, inRight⟩ := within
    rw [Code.eval]
    refine .step place ((left.composed_eval inLeft).bind fun a =>
      (right.composed_eval inRight).bind fun b => ?_)
    exact (Composed.display a).bind fun s => (Composed.display b).bind fun t => .string _
  | .widen p operand, within => by
    rw [Code.In, Code.positions, List.forall_mem_cons] at within
    rw [Code.eval]
    exact .step within.1 ((operand.composed_eval within.2).bind fun v =>
      (Composed.lift _).bind fun x => .pure _)

theorem composed_evalAll {locals : Array Value} :
    ∀ es : List Code, (∀ p ∈ codePositions es, P p) → Composed P (evalAll classes locals es)
  | [], _ => by
    rw [evalAll]
    exact .pure []
  | e :: rest, within => by
    rw [codePositions, List.forall_mem_append] at within
    rw [evalAll]
    exact (e.composed_eval within.1).bind fun v =>
      (composed_evalAll rest within.2).bind fun vs => .pure _

end

end

/-! ## Statements -/

def Exec.Composed (P : Position → Prop) {α : Type} (exec : Exec α) : Prop :=
  ∀ locals, Run.Composed P (exec locals)

namespace Exec.Composed

variable {α β : Type} {P : Position → Prop} {exec : Exec α} {next : α → Exec β}

theorem pure (a : α) : Composed P (pure a) :=
  fun locals => .pure (a, locals)

theorem bind (first : Composed P exec) (rest : ∀ a, Composed P (next a)) :
    Composed P (exec >>= next) :=
  fun locals => (first locals).bind fun r => rest r.1 r.2

theorem lift {run : Run α} (composed : Run.Composed P run) : Composed P (liftM run : Exec α) :=
  fun locals => composed.bind fun a => .pure (a, locals)

theorem step {p : Position} (place : P p) (composed : Composed P exec) :
    Composed P (Exec.located p ((liftM Run.tick : Exec Unit) >>= fun _ => exec)) :=
  fun locals => .located place (((Composed.lift .tick).bind fun _ => composed) locals)

theorem eval (classes : List HostClass) {e : Code} (within : e.In P) :
    Composed P (Exec.eval classes e) :=
  fun locals => (e.composed_eval within).bind fun v => .pure (v, locals)

theorem store (slot : Nat) (v : Value) : Composed P (Exec.store slot v) := by
  intro locals
  change Run.Composed P ((if slot < locals.size then _ else _ : Exec Unit) locals)
  split
  · exact .pure ((), locals.setIfInBounds slot v)
  · exact (Run.Composed.fault _).bind fun a => .pure (a, locals)

theorem iterate {body : Int → Exec Flow} (each : ∀ i, Composed P (body i)) (rounds : Nat)
    (i : Int) : Composed P (Exec.iterate body rounds i) := by
  induction rounds generalizing i with
  | zero => exact .pure _
  | succ rounds ih =>
    refine (each i).bind fun flow => ?_
    cases flow with
    | next => exact ih (i + 1)
    | give v => exact .pure _

end Exec.Composed

section

variable {P : Position → Prop} {classes : List HostClass}

mutual

theorem Instr.composed_exec : ∀ i : Instr, i.In P → Exec.Composed P (i.exec classes)
  | .store p slot value, within => by
    rw [Instr.In, Instr.positions, List.forall_mem_cons] at within
    rw [Instr.exec]
    exact .step within.1 ((Exec.Composed.eval classes within.2).bind fun v =>
      (Exec.Composed.store slot v).bind fun _ => .pure _)
  | .setField p target owner name value, within => by
    rw [Instr.In, Instr.positions, List.forall_mem_cons, List.forall_mem_append] at within
    obtain ⟨place, inTarget, inValue⟩ := within
    rw [Instr.exec]
    refine .step place ((Exec.Composed.eval classes inTarget).bind fun v => ?_)
    refine (Exec.Composed.lift (.receiver (Code.In.place inTarget) _ v)).bind fun r => ?_
    refine (Exec.Composed.eval classes inValue).bind fun x => ?_
    refine (Exec.Composed.lift (.requireClass classes owner)).bind fun _ => ?_
    exact (Exec.Composed.lift (.setField owner name r x)).bind fun _ => .pure _
  | .choose p cond body otherwise, within => by
    simp only [Instr.In, Instr.positions, List.forall_mem_cons, List.forall_mem_append] at within
    obtain ⟨place, inCond, inBody, inElse⟩ := within
    rw [Instr.exec]
    refine .step place ((Exec.Composed.eval classes inCond).bind fun c => ?_)
    refine (Exec.Composed.lift (.located (Code.In.place inCond) (.lift _))).bind fun b => ?_
    split
    · exact composed_execAll body inBody
    · exact composed_execAll otherwise inElse
  | .loop p slot first last body, within => by
    simp only [Instr.In, Instr.positions, List.forall_mem_cons, List.forall_mem_append] at within
    obtain ⟨place, inFirst, inLast, inBody⟩ := within
    rw [Instr.exec_loop]
    refine .step place ((Exec.Composed.eval classes inFirst).bind fun a => ?_)
    refine (Exec.Composed.lift (.located (Code.In.place inFirst) (.lift _))).bind fun a => ?_
    refine (Exec.Composed.eval classes inLast).bind fun b => ?_
    refine (Exec.Composed.lift (.located (Code.In.place inLast) (.lift _))).bind fun b => ?_
    refine .iterate (fun i => ?_) _ _
    exact (Exec.Composed.lift .tick).bind fun _ => (Exec.Composed.store slot _).bind fun _ =>
      composed_execAll body inBody
  | .give p value, within => by
    rw [Instr.In, Instr.positions, List.forall_mem_cons] at within
    rw [Instr.exec]
    exact .step within.1 ((Exec.Composed.eval classes within.2).bind fun v => .pure _)
  | .eval p value, within => by
    rw [Instr.In, Instr.positions, List.forall_mem_cons] at within
    rw [Instr.exec]
    exact .step within.1 ((Exec.Composed.eval classes within.2).bind fun v => .pure _)

theorem composed_execAll :
    ∀ body : List Instr, (∀ p ∈ instrPositions body, P p) → Exec.Composed P (execAll classes body)
  | [], _ => by
    rw [execAll]
    exact .pure _
  | i :: rest, within => by
    rw [instrPositions, List.forall_mem_append] at within
    rw [execAll]
    refine (i.composed_exec within.1).bind fun flow => ?_
    cases flow with
    | next => exact composed_execAll rest within.2
    | give v => exact .pure _

end

end

theorem Program.composed_run {P : Position → Prop} (classes : List HostClass) (program : Program)
    (within : ∀ p ∈ instrPositions program.body, P p) (param : Value) :
    Composed P (program.run classes param) := by
  refine (((composed_execAll program.body within) _).map).bind fun flow => ?_
  cases flow with
  | next => exact .pure _
  | give v => exact .pure _

end SceneScript
