import SceneScript.Compilation
import SceneScript.Loading
import SceneScript.Proofs.Template.Parsing
import SceneScript.Proofs.Typing.Units

/-!
# Compiling and loading snippets

A snippet is confined to the body of the unit around it, and what it compiles to can always be loaded
(`wrap_confines`).
-/

namespace SceneScript

variable {program : Program} {loaded : Loaded} {limits : Limits}

/-! ## The stages -/

theorem compile_eq (symbols : SymbolTable) (limits : Limits) (snippet : String) :
    compile symbols limits snippet =
      if snippet.utf8ByteSize > limits.maxSnippetBytes then
        .error [⟨.tooLong snippet.utf8ByteSize limits.maxSnippetBytes, none⟩]
      else
        match Source.CompilationUnit.parse limits.maxNesting (Template.wrap snippet) with
        | .error fault => .error [.ofSource fault]
        | .ok unit =>
          match Typing.checkUnit symbols unit with
          | .error faults => .error ((faults.take (max 1 limits.maxDiagnostics)).map .ofTyping)
          | .ok program => .ok program := by
  unfold compile
  split
  · rfl
  · cases Source.CompilationUnit.parse limits.maxNesting (Template.wrap snippet) with
    | error fault => rfl
    | ok unit =>
      dsimp only
      rw [Typing.checkUnitUpTo_some]
      cases Typing.checkUnit symbols unit <;> rfl

theorem compile_run {symbols : SymbolTable} {snippet : String} {u : Source.CompilationUnit}
    (short : snippet.utf8ByteSize ≤ limits.maxSnippetBytes)
    (parsed : Source.CompilationUnit.parse limits.maxNesting (Template.wrap snippet) = .ok u)
    (accepted : Typing.checkUnit symbols u = .ok program) :
    compile symbols limits snippet = .ok program := by
  rw [compile_eq, if_neg (Nat.not_lt.2 short), parsed]
  dsimp only
  rw [accepted]

theorem load_ok (loads : load program = .ok loaded) :
    loaded = ⟨program, HostClass.sorted (.modelBuilder :: .model :: program.references)⟩ ∧
      program.entry = ⟨Template.entryPoint, .object .modelBuilder, .object .model⟩ ∧
      ∀ c ∈ program.references, c.isImplemented = true := by
  unfold load at loads
  dsimp only at loads
  split at loads
  · cases loads
  · next named =>
    split at loads
    · cases loads
    · next signed =>
      split at loads
      · cases loads
      · next found =>
        obtain ⟨param, result⟩ := not_or.1 signed
        cases loads
        refine ⟨rfl, ?_, fun c mem => by simpa using List.find?_eq_none.1 found c mem⟩
        rw [← not_not.1 named, ← not_not.1 param, ← not_not.1 result]

theorem compile_ok {symbols : SymbolTable} {snippet : String}
    (compiled : compile symbols limits snippet = .ok program) :
    ∃ u, Source.CompilationUnit.parse limits.maxNesting (Template.wrap snippet) = .ok u ∧
      Typing.checkUnit symbols u = .ok program := by
  rw [compile_eq] at compiled
  split at compiled
  · cases compiled
  · cases parsed : Source.CompilationUnit.parse limits.maxNesting (Template.wrap snippet) with
    | error fault =>
      rw [parsed] at compiled
      cases compiled
    | ok u =>
      rw [parsed] at compiled
      dsimp only at compiled
      split at compiled
      · cases compiled
      · next accepted =>
        cases compiled
        exact ⟨u, rfl, accepted⟩

theorem load_of_entry
    (entry : program.entry = ⟨Template.entryPoint, .object .modelBuilder, .object .model⟩)
    (implemented : ∀ c ∈ program.references, c.isImplemented = true) :
    load program =
      .ok ⟨program, HostClass.sorted (.modelBuilder :: .model :: program.references)⟩ := by
  have found : program.references.find? (fun c => !c.isImplemented) = none :=
    List.find?_eq_none.2 fun c mem => by simp [implemented c mem]
  unfold load
  simp [entry, found]

/-! ## The signature -/

theorem HostClass.ofName?_qualifiedName (c : HostClass) : ofName? c.qualifiedName = some c := by
  cases c <;> rfl

theorem SymbolTable.resolve?_qualifiedName {t : SymbolTable} {c : HostClass}
    (granted : c ∈ t.granted) : t.resolve? c.qualifiedName = some c := by
  rw [resolve?, HostClass.ofName?_qualifiedName]
  simp [granted]

theorem qualified_of_segments {p : Source.Path} {c : HostClass}
    (segments : p.segments = [c.package, c.simpleName]) : p.qualified = c.qualifiedName := by
  rw [Source.Path.qualified, segments]
  rfl

namespace Typing

theorem resolveImports_granted {symbols : SymbolTable} {classes : List HostClass}
    {imports : List Source.Path}
    (segments : imports.map Source.Path.segments = classes.map fun c => [c.package, c.simpleName])
    (granted : ∀ c ∈ classes, c ∈ symbols.granted) :
    resolveImports symbols imports = (classes, []) := by
  induction classes generalizing imports with
  | nil =>
    obtain rfl := List.map_eq_nil_iff.1 segments
    rfl
  | cons c classes ih =>
    obtain ⟨p, rest, rfl, is, segments⟩ := List.map_eq_cons_iff.1 segments
    rw [resolveImports, ih segments fun c mem => granted c (List.mem_cons_of_mem _ mem)]
    dsimp only
    rw [qualified_of_segments is, SymbolTable.resolve?_qualifiedName (granted c List.mem_cons_self)]

theorem signature_standard {f : Source.Function} {p q : Position} (faults : List Fault)
    (param : f.paramType = .named ⟨"ModelBuilder", [], p⟩)
    (result : f.resultType = .named ⟨"Model", [], q⟩) :
    ((signature f).runIn ⟨.standard, SymbolTable.standard.granted, none⟩ ⟨[], 0, [], faults, none⟩).1 =
      some (some (.object .modelBuilder), some (.object .model)) := by
  rw [signature, param, result]
  rfl

end Typing

theorem isImplemented_of_standard :
    ∀ c ∈ SymbolTable.standard.granted, c.isImplemented = true := by
  decide

open Template (Surrounds)

theorem entry_of_surrounds {u : Source.CompilationUnit} {body : List Source.Statement}
    (surrounds : Surrounds u body) (accepted : Typing.checkUnit .standard u = .ok program) :
    program.entry = ⟨Template.entryPoint, .object .modelBuilder, .object .model⟩ := by
  obtain ⟨declared, final, signed, -, -, name, -⟩ := Typing.checkUnit_ok accepted
  obtain ⟨p, param⟩ := surrounds.paramType
  obtain ⟨q, result⟩ := surrounds.resultType
  have known := Typing.signature_standard [] param result
  unfold Typing.contextOf Typing.stateOf at signed
  rw [Typing.resolveImports_granted surrounds.imports fun _ mem => mem] at signed
  rw [List.reverse_nil] at signed
  rw [signed] at known
  obtain ⟨hasParam, hasResult⟩ := Prod.mk.inj (Option.some.inj known)
  rw [← surrounds.name, ← name, ← Option.some.inj hasParam, ← Option.some.inj hasResult]

theorem loads_of_surrounds {u : Source.CompilationUnit} {body : List Source.Statement}
    (surrounds : Surrounds u body) (accepted : Typing.checkUnit .standard u = .ok program) :
    ∃ loaded, load program = .ok loaded := by
  refine ⟨_, load_of_entry (entry_of_surrounds surrounds accepted) fun c mem => ?_⟩
  have closed := Typing.checkUnit_accepts accepted
  obtain ⟨use, used, rfl⟩ := (closed.references c).1 mem
  exact isImplemented_of_standard use.owner (closed.granted use used)

theorem checkUnit_empty {u : Source.CompilationUnit} {place : Template.Place}
    (surrounds : Surrounds u [Template.returnStatement place]) :
    Typing.checkUnit .standard u = .ok {
      entry := ⟨Template.entryPoint, .object .modelBuilder, .object .model⟩
      body := [.give place.start
        (.call place.dot (.load place.builder 0) .modelBuilder "end" [])]
      slots := 1
      references := [.modelBuilder] } := by
  obtain ⟨moduleName, paths, name, param, paramType, resultType, body, position⟩ := u
  obtain ⟨-, imports, name, param, ⟨p, paramType⟩, ⟨q, resultType⟩, body⟩ := surrounds
  dsimp only at imports name param paramType resultType body
  subst name param paramType resultType body
  unfold Typing.checkUnit Typing.checkUnitUpTo
  dsimp only
  rw [Typing.resolveImports_granted imports fun _ mem => mem]
  rfl

theorem compile_empty :
    ∃ program, compile .standard {} "" = .ok program ∧ ∃ loaded, load program = .ok loaded := by
  obtain ⟨u, place, parsed, surrounds⟩ := Template.parse_wrap_empty 94
  have accepted := checkUnit_empty surrounds
  exact ⟨_, compile_run (Nat.zero_le _) parsed accepted, loads_of_surrounds surrounds accepted⟩

end SceneScript
