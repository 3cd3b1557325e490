import SceneScript.Proofs.Typing.Lowering
import SceneScript.Proofs.Typing.Recording
import SceneScript.Proofs.Typing.Soundness

/-!
# Soundness of checking units

What is known of a unit that the checker accepts and of the program it becomes
(`checkUnit_accepts`): the program is well typed, every name in the unit is resolved, and the
references are the classes whose members the body uses.
-/

namespace SceneScript.Typing

open Source (Path CompilationUnit)
open Check

/-! ## Imports -/

theorem resolved_of_resolveImports {symbols : SymbolTable} {paths : List Path} {k : HostClass}
    (mem : k ∈ (resolveImports symbols paths).1) :
    ∃ p ∈ paths, symbols.resolve? p.qualified = some k := by
  induction paths with
  | nil => exact absurd mem List.not_mem_nil
  | cons p rest ih =>
    rw [resolveImports] at mem
    dsimp only at mem
    split at mem
    · next found =>
      rcases List.mem_cons.1 mem with rfl | mem
      · exact ⟨p, List.mem_cons_self, found⟩
      · obtain ⟨q, inRest, found⟩ := ih mem
        exact ⟨q, List.mem_cons_of_mem p inRest, found⟩
    · obtain ⟨q, inRest, found⟩ := ih mem
      exact ⟨q, List.mem_cons_of_mem p inRest, found⟩

theorem resolves_of_resolveImports {symbols : SymbolTable} {paths : List Path}
    (clean : (resolveImports symbols paths).2 = []) :
    ∀ p ∈ paths, ∃ k, symbols.resolve? p.qualified = some k := by
  induction paths with
  | nil => exact fun p mem => absurd mem List.not_mem_nil
  | cons p rest ih =>
    rw [resolveImports] at clean
    dsimp only at clean
    split at clean
    · next k found =>
      intro q mem
      rcases List.mem_cons.1 mem with rfl | mem
      · exact ⟨k, found⟩
      · exact ih clean q mem
    · exact absurd clean (List.cons_ne_nil _ _)

/-! ## Signatures -/

theorem yields_signature {c : Context} {s : State} (f : Source.Function) :
    Yields c s (signature f) fun types s' => ∃ param result, types = (some param, some result) ∧
      s' = s.declare f.param (some param) false ∧
      ∀ p ∈ f.paramType.paths ++ f.resultType.paths, ∃ k, c.Names p k := by
  refine .bind (settles_resolveType f.paramType).yields.attempt (fun _ =>
    .bind (.attempt (grows.resolveType _)) fun _ => .bind (grows.declare _ _ _ _) fun _ => .pure _)
    fun o s₁ after => ?_
  obtain ⟨param, rfl, rfl, namedP⟩ := after
  refine .bind (settles_resolveType f.resultType).yields.attempt (fun _ =>
    .bind (grows.declare _ _ _ _) fun _ => .pure _) fun o s₂ after => ?_
  obtain ⟨result, rfl, rfl, namedR⟩ := after
  refine .bind (yields_declare f.param (some param) false f.paramType.position) (fun _ => .pure _)
    fun slot s₃ after => .pure ?_
  obtain ⟨-, rfl⟩ := after
  exact ⟨param, result, rfl, rfl, fun p mem => (List.mem_append.1 mem).elim (namedP p) (namedR p)⟩

/-! ## Units -/

def NamesIn (symbols : SymbolTable) (imports : List Path) (p : Path) (k : HostClass) : Prop :=
  if p.isSimple then
    ∃ q ∈ imports, symbols.resolve? q.qualified = some k ∧ k.simpleName = p.first
  else symbols.resolve? p.qualified = some k

structure Accepted (symbols : SymbolTable) (u : CompilationUnit) (program : Program) : Prop where
  imports : ∀ p ∈ u.imports, ∃ k, symbols.resolve? p.qualified = some k
  named : ∀ p ∈ u.paths, ∃ k, NamesIn symbols u.imports p k
  granted : ∀ use ∈ usesIn program.body, use.owner ∈ symbols.granted
  references : ∀ k, k ∈ program.references ↔ ∃ use ∈ usesIn program.body, use.owner = k
  typed : ∃ types live, types.length = program.slots ∧ types[0]? = some program.entry.param ∧
    AllWellTyped types program.entry.result [0] program.body live

theorem Context.Names.namesIn {c : Context} {imports : List Path} {p : Path} {k : HostClass}
    (names : c.Names p k) (are : c.imports = (resolveImports c.symbols imports).1) :
    NamesIn c.symbols imports p k := by
  unfold Context.Names at names
  unfold NamesIn
  split at names
  · next simple =>
    rw [if_pos simple]
    rw [are] at names
    obtain ⟨q, mem, found⟩ := resolved_of_resolveImports names.1
    exact ⟨q, mem, found, names.2⟩
  · next dotted =>
    rw [if_neg dotted]
    exact names

def contextOf (symbols : SymbolTable) (u : CompilationUnit) (result : Option Ty) : Context :=
  ⟨symbols, (resolveImports symbols u.imports).1, result⟩

def stateOf (symbols : SymbolTable) (u : CompilationUnit) : State :=
  ⟨[], 0, [], (resolveImports symbols u.imports).2.reverse, none⟩

theorem contextOf_trusted (symbols : SymbolTable) (u : CompilationUnit) (result : Option Ty) :
    (contextOf symbols u result).Trusted := by
  intro k mem
  obtain ⟨q, -, found⟩ := resolved_of_resolveImports mem
  exact SymbolTable.granted_of_resolve? found

theorem checkUnit_ok {symbols : SymbolTable} {u : CompilationUnit} {program : Program}
    (accepted : checkUnit symbols u = .ok program) :
    ∃ declared final,
      (signature u.entry).runIn (contextOf symbols u none) (stateOf symbols u) =
        (some (some program.entry.param, some program.entry.result), declared) ∧
      (inScope (statements u.entry.body)).runIn (contextOf symbols u (some program.entry.result))
        declared = (some program.body, final) ∧
      final.faults = [] ∧ program.entry.name = u.entry.name ∧ program.slots = final.slots ∧
      program.references = HostClass.sorted final.references := by
  unfold checkUnit checkUnitUpTo at accepted
  simp only [State.start_none] at accepted
  rcases signed : (signature u.entry).runIn (contextOf symbols u none) (stateOf symbols u)
    with ⟨_ | ⟨param, result⟩, declared⟩
  · unfold contextOf stateOf at signed
    simp only [signed, Option.getD_none] at accepted
    split at accepted <;> simp at *
  · rcases ran : (inScope (statements u.entry.body)).runIn (contextOf symbols u result) declared
      with ⟨body, final⟩
    unfold contextOf stateOf at signed
    unfold contextOf at ran
    simp only [signed, Option.getD_some, ran] at accepted
    split at accepted
    · next clean =>
      cases accepted
      exact ⟨declared, final, rfl, ran, clean, rfl, rfl, rfl⟩
    · cases accepted

theorem checkUnit_accepts {symbols : SymbolTable} {u : CompilationUnit} {program : Program}
    (accepted : checkUnit symbols u = .ok program) : Accepted symbols u program := by
  obtain ⟨declared, final, signed, ran, clean, -, slots, references⟩ := checkUnit_ok accepted
  -- No fault at the end means none behind the signature, and none behind the imports.
  have cleanDeclared := (Grows.inScope (grows.statements u.entry.body)).clean ran clean
  have cleanImports := (grows.signature u.entry).clean signed cleanDeclared
  obtain ⟨_, is, param, result, rfl, declares, namedSignature⟩ :=
    (yields_signature u.entry).result signed cleanDeclared
  cases is
  have start : Scoped [] (stateOf symbols u) := ⟨rfl, fun x mem => absurd mem List.not_mem_nil⟩
  have known : Scoped [program.entry.param] declared :=
    declares ▸ start.declare u.entry.param program.entry.param false
  have trusted := contextOf_trusted symbols u (some program.entry.result)
  obtain ⟨_, is, -, types, live, follows, typed⟩ :=
    (yields_block known (yields_statements trusted rfl u.entry.body known)).result ran clean
  cases is
  have onlyParam : declared.live = [0] := by rw [declares]; rfl
  refine ⟨resolves_of_resolveImports (List.reverse_eq_nil_iff.1 cleanImports), fun p mem => ?_,
    follows.records.granted, fun k => ?_, types, live, ?_, ?_, onlyParam ▸ typed⟩
  · rcases List.mem_append.1 mem with mem | mem
    · obtain ⟨k, names⟩ := namedSignature p mem
      exact ⟨k, names.namesIn rfl⟩
    · obtain ⟨k, names⟩ := follows.records.named p mem
      exact ⟨k, names.namesIn rfl⟩
  · rw [references, HostClass.mem_sorted, follows.records.references, declares]
    simp [State.declare, stateOf]
  · rw [slots, follows.known.slots]
  · exact getElem?_of_more follows.more rfl

theorem checkUnit_error {symbols : SymbolTable} {u : CompilationUnit} {faults : List Fault}
    (rejected : checkUnit symbols u = .error faults) : faults ≠ [] := by
  rintro rfl
  unfold checkUnit checkUnitUpTo at rejected
  simp only [State.start_none] at rejected
  rcases signed : (signature u.entry).runIn (contextOf symbols u none) (stateOf symbols u)
    with ⟨types, declared⟩
  rcases ran : (inScope (statements u.entry.body)).runIn
    (contextOf symbols u (types.getD (none, none)).2) declared with ⟨body, final⟩
  have signed' := signed
  have ran' := ran
  unfold contextOf stateOf at signed'
  unfold contextOf at ran'
  rw [signed', ran'] at rejected
  dsimp only at rejected
  split at rejected
  · cases rejected
  · next faults param result body differs =>
    have clean : final.faults = [] := List.reverse_eq_nil_iff.1 (Except.error.inj rejected)
    have cleanDeclared := (Grows.inScope (grows.statements u.entry.body)).clean ran clean
    obtain ⟨_, rfl, param, result, rfl, declares, -⟩ :=
      (yields_signature u.entry).result signed cleanDeclared
    have start : Scoped [] (stateOf symbols u) := ⟨rfl, fun x mem => absurd mem List.not_mem_nil⟩
    have known : Scoped [param] declared := declares ▸ start.declare u.entry.param param false
    have trusted := contextOf_trusted symbols u (some result)
    obtain ⟨body, rfl, -⟩ :=
      (yields_block known (yields_statements trusted rfl u.entry.body known)).result ran clean
    -- Without a fault both types and the body are there, so the unit would be accepted.
    exact differs param result body clean rfl rfl rfl

end SceneScript.Typing

/-!
## Heights of lowered expressions

Lowering an expression at most doubles its height: every part of it may be widened, and itself as
well where a floating-point number is asked for. So an expression of height `n` is lowered to one
that is less than `2 * n` high, and no more than that once it is converted (`Check.height_expr`,
`checkUnit_within`).
-/

namespace SceneScript

mutual

def Code.height : Code → Nat
  | .const .. | .load .. | .getConstant .. => 1
  | .getField _ target _ _ => 1 + target.height
  | .call _ target _ _ args => 1 + max target.height (heightAll args)
  | .callStatic _ _ _ args => 1 + heightAll args
  | .unary _ _ operand | .widen _ operand => 1 + operand.height
  | .binary _ _ left right | .concat _ left right => 1 + max left.height right.height

def heightAll : List Code → Nat
  | [] => 0
  | e :: es => max e.height (heightAll es)

end

theorem heightAll_le {es : List Code} {n : Nat} :
    heightAll es ≤ n ↔ ∀ e ∈ es, e.height ≤ n := by
  induction es with
  | nil => simp [heightAll]
  | cons e es ih => rw [heightAll, Nat.max_le, ih, List.forall_mem_cons]

theorem Code.height_eq (e : Code) : e.height = 1 + heightAll e.parts := by
  cases e <;> simp [height, parts, heightAll]

def PartsWithin (n : Nat) (code : List Instr) : Prop :=
  ∀ i ∈ code, ∀ part ∈ i.parts, part.height ≤ n

namespace Typing

open Source (Expr Mentions treeHeights_le)
open Check

/-- The code is less than twice as high as the expression. -/
def LowersLow (e : Expr) (code : Code) : Prop :=
  code.height < 2 * e.treeHeight

theorem height_converts {e : Expr} {code : Code} (converts : Converts LowersLow e code) :
    code.height ≤ 2 * e.treeHeight := by
  obtain low | ⟨c, low, rfl⟩ := converts
  · exact Nat.le_of_lt low
  · unfold LowersLow at low
    rw [Code.height]
    omega

def Lowering.low : Lowering fun _ => True where
  Holds := LowersLow
  node {e code} _ parts := by
    -- What widens a part makes it no higher than twice its expression.
    have low : heightAll code.parts ≤ 2 * Source.treeHeights e.children := by
      refine heightAll_le.2 fun part mem => ?_
      obtain ⟨child, among, converts⟩ := parts part mem
      have within := treeHeights_le.1 (Nat.le_refl (Source.treeHeights e.children)) child among
      exact Nat.le_trans (height_converts converts) (Nat.mul_le_mul_left 2 within)
    rw [LowersLow, code.height_eq, e.treeHeight_eq]
    omega

namespace Check

variable {e : Expr} {n : Nat} {c : Context} {s : State} {typed : Typed}

theorem height_expr (low : e.treeHeight ≤ n) (given : typed ∈ ((expr e).runIn c s).1) :
    typed.code.height < 2 * n ∧ (widen typed).code.height ≤ 2 * n := by
  have holds := (stays_expr .low e (fun _ _ => trivial) c s fun _ _ => trivial).2 typed given
  have enough : 2 * e.treeHeight ≤ 2 * n := Nat.mul_le_mul_left 2 low
  exact ⟨Nat.lt_of_lt_of_le holds enough,
    Nat.le_trans (height_converts (converts_widen (L := .low) holds)) enough⟩

end Check

/-! ## Units -/

theorem checkUnit_within {symbols : SymbolTable} {u : Source.CompilationUnit} {program : Program}
    {n : Nat} (low : ∀ e, Mentions u.entry.body e → e.treeHeight ≤ n)
    (accepted : checkUnit symbols u = .ok program) :
    PartsWithin (2 * n) (nestedIn program.body) := by
  obtain ⟨declared, final, -, ran, -⟩ := checkUnit_ok accepted
  have made := (stays_statements .low u.entry.body (fun _ _ => trivial) low).inScope
    (contextOf symbols u (some program.entry.result)) declared fun _ _ => trivial
  rw [ran] at made
  intro i mem part inside
  obtain ⟨-, parts⟩ := made.2 program.body rfl i mem
  obtain ⟨e, within, converts⟩ := parts part inside
  exact Nat.le_trans (height_converts converts) (Nat.mul_le_mul_left 2 within)

end Typing

end SceneScript
