import SceneScript.Proofs.Soundness

/-!
# Only granted classes are reached

A unit that the checker accepts names only what its symbol table grants, and the program it becomes
refers to exactly the classes whose members its body uses. Loaded, the program reaches no other
class, and its runs do not depend on what else there is to reach (`checkUnit_closed`).
-/

namespace SceneScript

open Run
open Source (UnaryOp BinaryOp)

/-! ## Members that are used -/

def Described (uses : List Use) : Prop :=
  ∀ u ∈ uses, ∃ m, u.member? = some m

theorem Described.append {us vs : List Use} (first : Described us) (rest : Described vs) :
    Described (us ++ vs) :=
  fun u mem => (List.mem_append.1 mem).elim (first u) (rest u)

theorem Described.cons {u : Use} {us : List Use} {m : Member} (found : u.member? = some m)
    (rest : Described us) : Described (u :: us) := by
  intro v mem
  rcases List.mem_cons.1 mem with rfl | mem
  · exact ⟨m, found⟩
  · exact rest v mem

theorem Described.nil : Described [] :=
  fun _ mem => absurd mem List.not_mem_nil

mutual

theorem Code.HasType.described {types : List Ty} {live : List Nat} :
    ∀ {e : Code} {t : Ty}, e.HasType types live t → Described e.uses
  | .const .., _, .const => .nil
  | .load .., _, .load .. => .nil
  | .getField .., _, .getField target _ found => .cons found target.described
  | .call .., _, .call target _ found args _ =>
    .cons found (target.described.append (HaveTypes.described args))
  | .getConstant .., _, .getConstant found => .cons found .nil
  | .callStatic .., _, .callStatic found args _ => .cons found (HaveTypes.described args)
  | .unary .., _, .neg operand _ => operand.described
  | .unary .., _, .not operand => operand.described
  | .binary .., _, .arithmetic _ _ left right => left.described.append right.described
  | .binary .., _, .order _ _ left right => left.described.append right.described
  | .binary .., _, .equality _ _ left right => left.described.append right.described
  | .binary .., _, .logic _ left right => left.described.append right.described
  | .concat .., _, .concat left right _ _ => left.described.append right.described
  | .widen .., _, .widen operand => operand.described

theorem HaveTypes.described {types : List Ty} {live : List Nat} :
    ∀ {es : List Code} {ts : List Ty}, HaveTypes types live es ts → Described (usesAll es)
  | [], _, .nil => .nil
  | _ :: _, _, .cons first rest => first.described.append (HaveTypes.described rest)

end

mutual

theorem Instr.WellTyped.described {types : List Ty} {result : Ty} :
    ∀ {i : Instr} {live live' : List Nat}, i.WellTyped types result live live' → Described i.uses
  | .store .., _, _, .store value _ _ _ _ => value.described
  | .setField .., _, _, .setField target _ found value _ =>
    .cons found (target.described.append value.described)
  | .choose .., _, _, .choose cond body otherwise =>
    cond.described.append (body.described.append otherwise.described)
  | .loop .., _, _, .loop first last _ body =>
    first.described.append (last.described.append body.described)
  | .give .., _, _, .give value _ => value.described
  | .eval .., _, _, .eval value => value.described

theorem AllWellTyped.described {types : List Ty} {result : Ty} :
    ∀ {body : List Instr} {live live' : List Nat},
      AllWellTyped types result live body live' → Described (usesIn body)
  | [], _, _, .nil => .nil
  | _ :: _, _, _, .cons first rest => first.described.append rest.described

end

/-! ## Runs with more classes -/

/-- The classes whose members are used can be reached among the first classes as among the second. -/
def SameFor (classes classes' : List HostClass) (uses : List Use) : Prop :=
  ∀ u ∈ uses, u.owner ∈ classes ↔ u.owner ∈ classes'

section

variable {classes classes' : List HostClass} {us vs : List Use} {u : Use}

theorem SameFor.left (same : SameFor classes classes' (us ++ vs)) : SameFor classes classes' us :=
  fun u mem => same u (List.mem_append_left vs mem)

theorem SameFor.right (same : SameFor classes classes' (us ++ vs)) : SameFor classes classes' vs :=
  fun u mem => same u (List.mem_append_right us mem)

theorem SameFor.tail (same : SameFor classes classes' (u :: us)) : SameFor classes classes' us :=
  fun v mem => same v (List.mem_cons_of_mem u mem)

theorem SameFor.requireClass (same : SameFor classes classes' (u :: us)) :
    SceneScript.requireClass classes u.owner = SceneScript.requireClass classes' u.owner := by
  unfold SceneScript.requireClass
  simp only [same u List.mem_cons_self]

end

mutual

theorem Code.eval_congr {classes classes' : List HostClass} {locals : Array Value} :
    ∀ {e : Code}, SameFor classes classes' e.uses →
      e.eval classes locals = e.eval classes' locals
  | .const .., _ => by simp only [Code.eval]
  | .load .., _ => by simp only [Code.eval]
  | .getField _ target owner name, same => by
    simp only [Code.eval, Code.eval_congr same.tail, same.requireClass]
  | .call _ target owner name args, same => by
    simp only [Code.eval, Code.eval_congr same.tail.left, evalAll_congr same.tail.right,
      same.requireClass]
  | .getConstant _ owner name, same => by simp only [Code.eval, same.requireClass]
  | .callStatic _ owner name args, same => by
    simp only [Code.eval, evalAll_congr same.tail, same.requireClass]
  | .unary _ op operand, same => by
    have same : SameFor classes classes' operand.uses := same
    simp only [Code.eval, Code.eval_congr same]
  | .binary _ op left right, same => by
    have same : SameFor classes classes' (left.uses ++ right.uses) := same
    cases op <;> simp only [Code.eval, Code.eval_congr same.left, Code.eval_congr same.right]
  | .concat _ left right, same => by
    have same : SameFor classes classes' (left.uses ++ right.uses) := same
    simp only [Code.eval, Code.eval_congr same.left, Code.eval_congr same.right]
  | .widen _ operand, same => by
    have same : SameFor classes classes' operand.uses := same
    simp only [Code.eval, Code.eval_congr same]

theorem evalAll_congr {classes classes' : List HostClass} {locals : Array Value} :
    ∀ {es : List Code}, SameFor classes classes' (usesAll es) →
      evalAll classes locals es = evalAll classes' locals es
  | [], _ => by simp only [evalAll]
  | e :: rest, same => by
    have same : SameFor classes classes' (e.uses ++ usesAll rest) := same
    simp only [evalAll, Code.eval_congr same.left, evalAll_congr same.right]

end

theorem Exec.eval_congr {classes classes' : List HostClass} {e : Code}
    (same : SameFor classes classes' e.uses) : Exec.eval classes e = Exec.eval classes' e := by
  simp only [Exec.eval, Code.eval_congr same]

mutual

theorem Instr.exec_congr {classes classes' : List HostClass} :
    ∀ {i : Instr}, SameFor classes classes' i.uses → i.exec classes = i.exec classes'
  | .store _ _ value, same => by
    have same : SameFor classes classes' value.uses := same
    simp only [Instr.exec, Exec.eval_congr same]
  | .setField _ target owner name value, same => by
    simp only [Instr.exec, Exec.eval_congr same.tail.left, Exec.eval_congr same.tail.right,
      same.requireClass]
  | .choose _ cond body otherwise, same => by
    have same : SameFor classes classes' (cond.uses ++ (usesIn body ++ usesIn otherwise)) := same
    simp only [Instr.exec, Exec.eval_congr same.left, execAll_congr same.right.left,
      execAll_congr same.right.right]
  | .loop _ slot first last body, same => by
    have same : SameFor classes classes' (first.uses ++ (last.uses ++ usesIn body)) := same
    simp only [Instr.exec, Exec.eval_congr same.left, Exec.eval_congr same.right.left,
      execAll_congr same.right.right]
  | .give _ value, same => by
    have same : SameFor classes classes' value.uses := same
    simp only [Instr.exec, Exec.eval_congr same]
  | .eval _ value, same => by
    have same : SameFor classes classes' value.uses := same
    simp only [Instr.exec, Exec.eval_congr same]

theorem execAll_congr {classes classes' : List HostClass} :
    ∀ {body : List Instr}, SameFor classes classes' (usesIn body) →
      execAll classes body = execAll classes' body
  | [], _ => by simp only [execAll]
  | i :: rest, same => by
    have same : SameFor classes classes' (i.uses ++ usesIn rest) := same
    simp only [execAll, Instr.exec_congr same.left, execAll_congr same.right]

end

theorem Loaded.invoke_congr {loaded : Loaded} {classes : List HostClass}
    (supports : Supports loaded.classes (usesIn loaded.program.body))
    (more : loaded.classes ⊆ classes) (limits : Limits) (nextModel : Nat) :
    Loaded.invoke ⟨loaded.program, classes⟩ limits nextModel = loaded.invoke limits nextModel := by
  have same : SameFor classes loaded.classes (usesIn loaded.program.body) := fun u mem =>
    ⟨fun _ => (supports u mem).1, fun among => more among⟩
  unfold Loaded.invoke Loaded.createModel Program.run
  rw [execAll_congr same]

/-! ## The closed world -/

theorem SymbolTable.qualifiedName_mem_names {t : SymbolTable} {k : HostClass}
    (granted : k ∈ t.granted) : k.qualifiedName ∈ t.names :=
  List.mem_map_of_mem (HostClass.mem_sorted.2 granted)

/-- A unit that is accepted against a table of any names is closed. Every import and every class
name in it is resolved, and every member in the program is one of a granted class. The references
are the classes whose members the program uses, all among the names of the table. If the program is
loaded, it can reach these, the model builder and the model; no statement or expression that any run
comes to uses a member of another class, and having more classes to reach changes no run. -/
theorem checkUnit_closed {names : List String} {u : Source.CompilationUnit} {program : Program}
    (accepted : Typing.checkUnit (.ofNames names) u = .ok program) :
    (∀ p ∈ u.imports, ∃ k, (SymbolTable.ofNames names).resolve? p.qualified = some k) ∧
    (∀ p ∈ u.paths, ∃ k, Typing.NamesIn (.ofNames names) u.imports p k) ∧
    (∀ use ∈ usesIn program.body, use.owner ∈ (SymbolTable.ofNames names).granted ∧
      ∃ m, use.member? = some m) ∧
    (∀ k, k ∈ program.references ↔ ∃ use ∈ usesIn program.body, use.owner = k) ∧
    (∀ k ∈ program.references, k.qualifiedName ∈ (SymbolTable.ofNames names).names) ∧
    ∀ loaded, load program = .ok loaded →
      (∀ k, k ∈ loaded.classes ↔ k = .modelBuilder ∨ k = .model ∨ k ∈ program.references) ∧
      ∀ (limits : Limits) (nextModel : Nat),
        (∀ i locals s, loaded.Executes limits nextModel i locals s →
          ∀ use ∈ i.uses, use.owner ∈ loaded.classes) ∧
        (∀ e locals s, loaded.Evaluates limits nextModel e locals s →
          ∀ use ∈ e.uses, use.owner ∈ loaded.classes) ∧
        (∀ f k, (loaded.invoke limits nextModel).result = .error f → f.cause ≠ .notLoaded k) ∧
        ∀ classes, loaded.classes ⊆ classes →
          Loaded.invoke ⟨program, classes⟩ limits nextModel = loaded.invoke limits nextModel := by
  have closed := Typing.checkUnit_accepts accepted
  obtain ⟨types, live, -, -, typed⟩ := closed.typed
  refine ⟨closed.imports, closed.named, fun use mem => ?_, closed.references, fun k mem => ?_, ?_⟩
  · exact ⟨closed.granted use mem, typed.described use mem⟩
  · obtain ⟨use, used, rfl⟩ := (closed.references k).1 mem
    exact SymbolTable.qualifiedName_mem_names (closed.granted use used)
  · intro loaded loads
    obtain ⟨types, sound⟩ := Loaded.sound_of_accepted closed loads
    obtain ⟨rfl, -, -⟩ := load_ok loads
    refine ⟨fun k => ?_, fun limits nextModel => ⟨?_, ?_, ?_, ?_⟩⟩
    · rw [HostClass.mem_sorted, List.mem_cons, List.mem_cons]
    · intro i locals s executes use mem
      exact (sound.supports use ((sound.executes executes).uses mem)).1
    · intro e locals s evaluates use mem
      obtain ⟨live, ofExpr⟩ := sound.evaluates evaluates
      exact (sound.supports use (ofExpr.uses mem)).1
    · intro f k fails is
      have mild := sound.invoke_mild fails
      rw [is] at mild
      cases mild
    · exact fun classes more => Loaded.invoke_congr sound.supports more limits nextModel

def endingUnit : Source.CompilationUnit :=
  let p : Position := ⟨1, 1⟩
  { moduleName := ⟨"modelsnip", [], p⟩
    imports := [⟨"model", ["ModelBuilder"], p⟩, ⟨"model", ["Model"], p⟩]
    entry := {
      name := Template.entryPoint
      param := "b"
      paramType := .named ⟨"ModelBuilder", [], p⟩
      resultType := .named ⟨"Model", [], p⟩
      body := [.give p (some (.call p 2 (.var p "b") "end" []))]
      position := p } }

theorem checkUnit_closed_endingUnit :
    ∃ program loaded,
      Typing.checkUnit (.ofNames ["model.ModelBuilder", "model.Model"]) endingUnit = .ok program ∧
      load program = .ok loaded ∧ loaded.classes = [.model, .modelBuilder] ∧
      ∀ limits nextModel e locals s, loaded.Evaluates limits nextModel e locals s →
        ∀ use ∈ e.uses, use.owner ∈ loaded.classes := by
  refine ⟨_, _, rfl, rfl, rfl, ?_⟩
  obtain ⟨-, -, -, -, -, run⟩ :=
    checkUnit_closed (show Typing.checkUnit (.ofNames ["model.ModelBuilder", "model.Model"])
      endingUnit = .ok _ from rfl)
  intro limits nextModel
  exact ((run _ rfl).2 limits nextModel).2.1

end SceneScript
