import SceneScript.Proofs.ClosedWorld

/-!
# Granting more classes

The checker looks a class up in the symbol table only by its full name, and it asks for nothing but
the class itself. So a lookup that succeeds gives the same class wherever more is granted, and one
that fails records a fault. A check that ends without faults is thus the same check with the wider
table (`persists`), and a unit that is accepted becomes the same program (`checkUnit_grants_more`).
-/

namespace SceneScript

/-! ## Lookups -/

namespace SymbolTable

variable {t t' : SymbolTable}

theorem resolve?_grants_more (more : t.granted ⊆ t'.granted) {name : String} {k : HostClass}
    (found : t.resolve? name = some k) : t'.resolve? name = some k := by
  rw [resolve?, Option.filter_eq_some_iff, decide_eq_true_eq] at found ⊢
  exact ⟨found.1, more found.2⟩

theorem grant?_grants_more (more : t.granted ⊆ t'.granted) {k k' : HostClass}
    (found : t.grant? k = some k') : t'.grant? k = some k' := by
  rw [grant?, Option.ite_none_right_eq_some] at found ⊢
  exact ⟨more found.1, found.2⟩

theorem granted_subset_of_names (more : ∀ name ∈ t.names, name ∈ t'.names) :
    t.granted ⊆ t'.granted := by
  intro k granted
  obtain ⟨k', granted', same⟩ := List.mem_map.1 (more _ (qualifiedName_mem_names granted))
  have is := HostClass.ofName?_qualifiedName k
  rw [← same, HostClass.ofName?_qualifiedName, Option.some.injEq] at is
  rw [← is]
  exact HostClass.mem_sorted.1 granted'

end SymbolTable

namespace Typing

open Source (Path CompilationUnit)

theorem resolveImports_grants_more {t t' : SymbolTable} (more : t.granted ⊆ t'.granted)
    {paths : List Path} (clean : (resolveImports t paths).2 = []) :
    resolveImports t' paths = resolveImports t paths := by
  induction paths with
  | nil => rfl
  | cons p rest ih =>
    obtain ⟨k, found⟩ := resolves_of_resolveImports clean p List.mem_cons_self
    rw [resolveImports] at clean ⊢
    rw [found] at clean
    rw [resolveImports, found, SymbolTable.resolve?_grants_more more found, ih clean]

/-! ## Checks -/

structure Context.Widens (c c' : Context) : Prop where
  granted : c.symbols.granted ⊆ c'.symbols.granted
  imports : c'.imports = c.imports
  result : c'.result = c.result

namespace Check

variable {α β : Type}

theorem runIn_find (find : Context → Option HostClass) (error : Error) (position : Position)
    (c : Context) (s : State) :
    Check.runIn (do
      match find (← read) with
      | some k => return k
      | none => fail error position) c s =
      match find c with
      | some k => (some k, s)
      | none => (none, s.record ⟨error, position⟩) := by
  change (match find c with
    | some k => pure k
    | none => fail error position : Check HostClass).runIn c s = _
  cases find c <;> rfl

/-- What the check does without recording a fault, it does wherever more is granted. -/
def Persists (check : Check α) : Prop :=
  ∀ c c' s, c.Widens c' → (check.runIn c s).2.faults = [] →
    check.runIn c' s = check.runIn c s

namespace Persists

theorem bind {check : Check α} {next : α → Check β} (first : Persists check)
    (grows : ∀ a, Grows (next a)) (rest : ∀ a, Persists (next a)) :
    Persists (check >>= next) := by
  intro c c' s widens clean
  rw [runIn_bind] at clean
  rw [runIn_bind, runIn_bind]
  rcases ran : check.runIn c s with ⟨_ | a, s'⟩ <;> rw [ran] at clean
  · rw [first c c' s widens (ran ▸ clean), ran]
  · have cleanFirst := (grows a).clean rfl clean
    rw [first c c' s widens (ran ▸ cleanFirst), ran]
    exact rest a c c' s' widens clean

theorem attempt {check : Check α} (persists : Persists check) :
    Persists (Check.attempt check) := by
  intro c c' s widens clean
  rw [runIn_attempt, runIn_attempt, persists c c' s widens clean]

theorem inScope {check : Check α} (persists : Persists check) : Persists (inScope check) := by
  intro c c' s widens clean
  rw [runIn_inScope] at clean
  rw [runIn_inScope, runIn_inScope, persists c c' s widens clean]

theorem fail (error : Error) (position : Position) :
    Persists (fail error position : Check α) :=
  fun _ _ s _ clean => absurd clean (s.record_ne_nil _)

theorem imported? (name : String) : Persists (imported? name) := by
  intro c c' s widens _
  change (some (c'.imports.find? _), s) = _
  rw [widens.imports]
  rfl

theorem find (find : Context → Option HostClass)
    (finds : ∀ c c' k, c.Widens c' → find c = some k → find c' = some k) (error : Error)
    (position : Position) :
    Persists (do
      match find (← read) with
      | some k => return k
      | none => Check.fail error position) := by
  intro c c' s widens clean
  rw [runIn_find] at clean
  rw [runIn_find, runIn_find]
  rcases found : find c with _ | k
  · rw [found] at clean
    exact absurd clean (s.record_ne_nil _)
  · rw [finds c c' k widens found]

theorem result_bind {next : Context → Check α}
    (same : ∀ c c', c.result = c'.result → next c = next c') (rest : ∀ c, Persists (next c)) :
    Persists (read >>= next) := by
  intro c c' s widens clean
  change (next c').runIn c' s = (next c).runIn c s
  rw [same c' c widens.result]
  exact rest c c c' s widens clean

end Persists

/-- The check keeps the faults recorded before it, and without any it does the same wherever more is
granted. The first half is what makes the second one hold of sequences. -/
def Steady (check : Check α) : Prop :=
  Grows check ∧ Persists check

namespace Steady

theorem pure (a : α) : Steady (pure a) :=
  ⟨.pure a, fun _ _ _ _ _ => rfl⟩

theorem bind {check : Check α} {next : α → Check β} (first : Steady check)
    (rest : ∀ a, Steady (next a)) : Steady (check >>= next) :=
  ⟨.bind first.1 fun a => (rest a).1, .bind first.2 (fun a => (rest a).1) fun a => (rest a).2⟩

theorem report (error : Error) (position : Position) : Steady (report error position) :=
  ⟨.report error position, fun _ _ s _ clean => absurd clean (s.record_ne_nil _)⟩

theorem lookup? (name : String) : Steady (lookup? name) :=
  ⟨grows.lookup? name, fun _ _ _ _ _ => rfl⟩

theorem declare (name : String) (type : Option Ty) (assignable : Bool) (position : Position) :
    Steady (declare name type assignable position) := by
  refine .bind (lookup? name) fun found => ?_
  have add : Steady (do
      let slot := (← MonadState.get).slots
      MonadState.modifyGet fun s => ((), { s with
        slots := slot + 1, scope := (name, ⟨slot, type, assignable⟩) :: s.scope })
      return slot : Check Nat) :=
    ⟨.bind .get fun _ => .bind (.modify fun _ => rfl) fun _ => .pure _, fun _ _ _ _ _ => rfl⟩
  dsimp only
  split
  · exact .bind (report _ _) fun _ => add
  · exact add

theorem resolvePath (p : Path) : Steady (resolvePath p) := by
  refine ⟨grows.resolvePath p, ?_⟩
  unfold Check.resolvePath
  split
  · refine .bind (.imported? _) (fun found => ?_) fun found => ?_
    · cases found with
      | some k => exact .pure k
      | none => exact .fail _ _
    · cases found with
      | some k => exact (pure k).2
      | none => exact .fail _ _
  · refine Persists.find (fun c => c.symbols.resolve? p.qualified) ?_ _ _
    exact fun c c' k widens found => SymbolTable.resolve?_grants_more widens.granted found

theorem ownerOf (type : Ty) (position : Position) : Steady (ownerOf type position) := by
  refine ⟨grows.ownerOf type position, ?_⟩
  unfold Check.ownerOf
  split
  · exact .fail _ _
  · next owner _ =>
    refine Persists.find (fun c => c.symbols.grant? owner) ?_ _ _
    exact fun c c' k widens found => SymbolTable.grant?_grants_more widens.granted found

end Steady

theorem steady : Closed @Steady where
  pure := .pure
  failure := ⟨.failure, fun _ _ _ _ _ => rfl⟩
  bind := .bind
  attempt inner := ⟨.attempt inner.1, .attempt inner.2⟩
  inScope inner := ⟨.inScope inner.1, .inScope inner.2⟩
  report := .report
  refer k := ⟨grows.refer k, fun _ _ _ _ _ => rfl⟩
  lookup? := .lookup?
  declare := .declare
  imported? name := ⟨grows.imported? name, .imported? name⟩
  resolvePath := .resolvePath
  ownerOf := .ownerOf
  result_bind same rest :=
    ⟨grows.result_bind same fun c => (rest c).1, .result_bind same fun c => (rest c).2⟩

end Check

/-! ## Units -/

open Check

theorem checkUnit_of_runs {symbols : SymbolTable} {u : CompilationUnit} {program : Program}
    {declared final : State}
    (signed : (signature u.entry).runIn (contextOf symbols u none) (stateOf symbols u) =
      (some (some program.entry.param, some program.entry.result), declared))
    (ran : (inScope (statements u.entry.body)).runIn
      (contextOf symbols u (some program.entry.result)) declared = (some program.body, final))
    (clean : final.faults = []) (name : program.entry.name = u.entry.name)
    (slots : program.slots = final.slots)
    (references : program.references = HostClass.sorted final.references) :
    checkUnit symbols u = .ok program := by
  unfold contextOf stateOf at signed
  unfold contextOf at ran
  unfold checkUnit checkUnitUpTo
  simp only [State.start_none, signed, Option.getD_some, ran, clean, ← name, ← slots, ← references]

theorem checkUnit_widens {symbols wider : SymbolTable} (more : symbols.granted ⊆ wider.granted)
    {u : CompilationUnit} {program : Program} (accepted : checkUnit symbols u = .ok program) :
    checkUnit wider u = .ok program := by
  obtain ⟨declared, final, signed, ran, clean, name, slots, references⟩ := checkUnit_ok accepted
  have cleanDeclared := (Grows.inScope (grows.statements u.entry.body)).clean ran clean
  have cleanStart := (grows.signature u.entry).clean signed cleanDeclared
  have cleanImports : (resolveImports symbols u.imports).2 = [] :=
    List.reverse_eq_nil_iff.1 cleanStart
  -- The imports, the signature and the body are checked as before, one after the other.
  have imports := resolveImports_grants_more more cleanImports
  have widens (result : Option Ty) :
      (contextOf symbols u result).Widens (contextOf wider u result) :=
    ⟨more, congrArg Prod.fst imports, rfl⟩
  have start : stateOf wider u = stateOf symbols u := by rw [stateOf, imports, stateOf]
  have signed' := (steady.signature u.entry).2 _ _ _ (widens none)
    (show (Check.runIn _ _ (stateOf symbols u)).2.faults = [] by rw [signed]; exact cleanDeclared)
  have ran' := (steady.inScope (steady.statements u.entry.body)).2 _ _ _
    (widens (some program.entry.result)) (by rw [ran]; exact clean)
  refine checkUnit_of_runs ?_ (ran'.trans ran) clean name slots references
  rw [start, signed', signed]

/-- A unit that is accepted against a table of any names, with any limit on errors, becomes the same
program, with the same entry point and references, against every table that has these names. -/
theorem checkUnit_grants_more {names wider : List String}
    (more : ∀ name ∈ (SymbolTable.ofNames names).names, name ∈ (SymbolTable.ofNames wider).names)
    {limit : Option Nat} {u : CompilationUnit} {program : Program}
    (accepted : checkUnitUpTo limit (.ofNames names) u = .ok program) :
    checkUnitUpTo limit (.ofNames wider) u = .ok program := by
  have granted := SymbolTable.granted_subset_of_names more
  cases limit with
  | none => exact checkUnit_widens granted accepted
  | some n =>
    rw [checkUnitUpTo_some] at accepted ⊢
    rcases checked : checkUnit (.ofNames names) u with faults | program'
    · rw [checked] at accepted
      cases accepted
    · rw [checkUnit_widens granted checked, ← checked, accepted]

theorem checkUnit_grants_more_endingUnit :
    ∃ program, checkUnit (.ofNames ["model.ModelBuilder", "model.Model"]) endingUnit = .ok program ∧
      checkUnit (.ofNames ["model.Node", "model.Model", "lang.String", "model.ModelBuilder"])
        endingUnit = .ok program :=
  ⟨_, rfl, checkUnit_grants_more (by decide)
    (show checkUnitUpTo none (.ofNames ["model.ModelBuilder", "model.Model"]) endingUnit = .ok _
      from rfl)⟩

end Typing

end SceneScript
