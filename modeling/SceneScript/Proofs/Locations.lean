import SceneScript.Proofs.Compilation
import SceneScript.Proofs.Machine.Calls
import SceneScript.Proofs.Session.Numbering
import SceneScript.Proofs.SlotRuns
import SceneScript.Proofs.Source.Places
import SceneScript.Proofs.Template.Visible
import SceneScript.Proofs.Typing.Lowering

/-!
# Where errors are reported

Every error of a failed attempt stands at something visible in the unit around the snippet, or
nowhere. So each place that is reported is that of a visible character of the snippet, and errors in
the fixed text are reported without a place (`Slot.replace_places`).
-/

/-!
## Positions that checking hands on

The checker makes no positions up either: every error it reports, and every part of the program that
it gives, stands at a position of the unit (`checkUnit_places`).
-/

namespace SceneScript

variable {P : Position → Prop}

theorem Code.positions_eq (e : Code) : e.positions = e.position :: codePositions e.parts := by
  cases e <;> simp [positions, position, parts, codePositions]

theorem Code.In.of_parts {e : Code} (place : P e.position) (parts : ∀ part ∈ e.parts, part.In P) :
    e.In P := by
  rw [Code.In, e.positions_eq]
  exact List.forall_mem_cons.2 ⟨place, codePositions_forall.2 parts⟩

def Instr.Placed (P : Position → Prop) (i : Instr) : Prop :=
  P i.position ∧ ∀ part ∈ i.parts, part.In P

mutual

theorem Instr.in_of_placed : ∀ i : Instr, (∀ j ∈ i :: i.inside, j.Placed P) → i.In P
  | .store p slot value, placed | .give p value, placed | .eval p value, placed => by
    obtain ⟨place, parts⟩ := placed _ List.mem_cons_self
    exact List.forall_mem_cons.2 ⟨place, parts value List.mem_cons_self⟩
  | .setField p target owner name value, placed => by
    obtain ⟨place, parts⟩ := placed _ List.mem_cons_self
    obtain ⟨ofTarget, ofValue⟩ := List.forall_mem_cons.1 parts
    exact List.forall_mem_cons.2
      ⟨place, List.forall_mem_append.2 ⟨ofTarget, ofValue value List.mem_cons_self⟩⟩
  | .choose p cond body otherwise, placed => by
    obtain ⟨⟨place, parts⟩, inside⟩ := List.forall_mem_cons.1 placed
    obtain ⟨inBody, inElse⟩ := List.forall_mem_append.1 inside
    exact List.forall_mem_cons.2 ⟨place, List.forall_mem_append.2
      ⟨parts cond List.mem_cons_self, List.forall_mem_append.2
        ⟨positions_of_placed body inBody, positions_of_placed otherwise inElse⟩⟩⟩
  | .loop p slot first last body, placed => by
    obtain ⟨⟨place, parts⟩, inside⟩ := List.forall_mem_cons.1 placed
    obtain ⟨ofFirst, ofLast⟩ := List.forall_mem_cons.1 parts
    exact List.forall_mem_cons.2 ⟨place, List.forall_mem_append.2
      ⟨ofFirst, List.forall_mem_append.2
        ⟨ofLast last List.mem_cons_self, positions_of_placed body inside⟩⟩⟩

theorem positions_of_placed : ∀ code : List Instr, (∀ i ∈ nestedIn code, i.Placed P) →
    ∀ p ∈ instrPositions code, P p
  | [], _ => fun _ mem => absurd mem List.not_mem_nil
  | i :: rest, placed => by
    rw [nestedIn, ← List.cons_append] at placed
    obtain ⟨first, others⟩ := List.forall_mem_append.1 placed
    exact List.forall_mem_append.2 ⟨i.in_of_placed first, positions_of_placed rest others⟩

end

namespace Typing

open Source (Expr Path)
open Check

theorem converts_in {e : Expr} {code : Code} (converts : Converts (fun _ c => c.In P) e code) :
    code.In P := by
  obtain within | ⟨c, within, rfl⟩ := converts
  · exact within
  · exact .of_parts within.place (List.forall_mem_singleton.2 within)

def Lowering.placed (P : Position → Prop) : Lowering P where
  Holds _ code := code.In P
  node place parts := .of_parts place fun part mem => by
    obtain ⟨_, _, converts⟩ := parts part mem
    exact converts_in converts

theorem Lowering.From.placed {Q : Expr → Prop} {code : List Instr}
    (from' : (Lowering.placed P).From Q code) : ∀ i ∈ code, i.Placed P := by
  intro i mem
  obtain ⟨place, parts⟩ := from' i mem
  refine ⟨place, fun part mem => ?_⟩
  obtain ⟨_, _, converts⟩ := parts part mem
  exact converts_in converts

/-! ## Units -/

theorem resolveImports_places (symbols : SymbolTable) {paths : List Path}
    (within : ∀ p ∈ paths, P p.position) :
    ∀ f ∈ (resolveImports symbols paths).2, P f.position := by
  induction paths with
  | nil => exact fun _ mem => absurd mem List.not_mem_nil
  | cons p rest ih =>
    obtain ⟨here, there⟩ := List.forall_mem_cons.1 within
    rw [resolveImports]
    dsimp only
    split
    · exact ih there
    · exact List.forall_mem_cons.2 ⟨here, ih there⟩

theorem checkUnit_places (symbols : SymbolTable) {u : Source.CompilationUnit}
    (within : ∀ p ∈ u.positions, P p) :
    match checkUnit symbols u with
    | .ok program => ∀ p ∈ instrPositions program.body, P p
    | .error faults => ∀ f ∈ faults, P f.position := by
  simp only [Source.CompilationUnit.positions, Source.Function.positions, List.forall_mem_cons,
    List.forall_mem_append, List.forall_mem_map] at within
  obtain ⟨-, imported, -, param, result, body⟩ := within
  have missing := resolveImports_places symbols imported
  let imports := (resolveImports symbols u.imports).1
  let start : State := ⟨[], 0, [], (resolveImports symbols u.imports).2.reverse, none⟩
  have fresh : ∀ f ∈ start.faults, P f.position := fun f mem => missing f (List.mem_reverse.1 mem)
  have signed := (stays_signature param result ⟨symbols, imports, none⟩ start fresh).1
  have ofBody := stays_statements (.placed P) (Q := fun _ => True) u.entry.body body
    fun _ _ => trivial
  have checked (types : Option Ty) := ofBody.inScope ⟨symbols, imports, types⟩
    ((signature u.entry).runIn ⟨symbols, imports, none⟩ start).2 signed
  unfold checkUnit checkUnitUpTo
  simp only [State.start_none]
  split
  · next program accepted =>
    split at accepted
    · next clean found =>
      cases accepted
      exact positions_of_placed _ ((checked _).2 _ found).placed
    · cases accepted
  · next faults rejected =>
    split at rejected
    · cases rejected
    · cases rejected
      exact fun f mem => (checked _).1 f (List.mem_reverse.1 mem)

end Typing

end SceneScript

namespace SceneScript

open Template (Fixed Visible)

variable {symbols : SymbolTable} {limits : Limits} {snippet : String}

def Diagnostic.places (d : Diagnostic) : List (Option Position) :=
  d.location :: d.notes.map Note.location

theorem Diagnostic.places_ofCompileErrors (snippet : String) (first : CompileError)
    (rest : List CompileError) : (ofCompileErrors snippet (first :: rest)).places =
      (first :: rest).map (errorPlace (Template.lineCount snippet)) := by
  simp [ofCompileErrors, places]

def errorPositions (symbols : SymbolTable) (limits : Limits) (nextModel : Nat) (snippet : String) :
    List (Option Position) :=
  match compile symbols limits snippet with
  | .error errors => errors.map CompileError.position
  | .ok program =>
    match load program with
    | .error _ => [none]
    | .ok loaded =>
      match (loaded.invoke limits nextModel).result with
      | .error f => [f.position]
      | .ok _ => []

/-- The place that is reported for an error with that position in the unit: that of the character of
the snippet at which the error stands. -/
structure Reported (snippet : String) (position place : Option Position) : Prop where
  own : ∀ p, place = some p ↔ ∃ front c back, snippet.toList = front ++ c :: back ∧
    Text.isBlank c = false ∧ p = .place front ∧
    position = some (.place (Template.header.toList ++ front))
  fixed : ∀ p ∈ position, Fixed snippet p → place = none

theorem Reported.nowhere : Reported snippet none none where
  own := fun _ => ⟨nofun, fun ⟨_, _, _, _, _, _, stands⟩ => absurd stands nofun⟩
  fixed := nofun

theorem Reported.of_visible {position : Option Position}
    (visible : ∀ p ∈ position, ∃ l, Visible snippet p l) :
    Reported snippet position (position.bind (Template.location? snippet)) := by
  cases position with
  | none => exact .nowhere
  | some p =>
    obtain ⟨l, visible⟩ := visible p rfl
    rw [Option.bind_some]
    refine ⟨fun q => ⟨fun place => ?_, fun ⟨front, c, back, is, notBlank, at', stands⟩ => ?_⟩,
      fun q is fixed => ?_⟩
    · rw [visible.location] at place
      cases visible with
      | fixed => cases place
      | own is notBlank =>
        cases place
        exact ⟨_, _, _, is, notBlank, rfl, rfl⟩
    · rw [Option.some.inj stands, (Visible.own is notBlank).location, at']
    · rw [Option.some.inj is, fixed.location]

theorem Reported.own_of_mem {positions places : List (Option Position)}
    (errors : List.Forall₂ (Reported snippet) positions places) :
    ∀ p, some p ∈ places → ∃ front c back, snippet.toList = front ++ c :: back ∧
      Text.isBlank c = false ∧ p = .place front := by
  induction errors with
  | nil => exact nofun
  | cons error _ ih =>
    intro p mem
    rcases List.mem_cons.1 mem with rfl | mem
    · obtain ⟨front, c, back, is, notBlank, stands, -⟩ := (error.own p).1 rfl
      exact ⟨front, c, back, is, notBlank, stands⟩
    · exact ih p mem

/-! ## The stages -/

theorem parse_visible (maxDepth : Nat) (snippet : String) :
    match Source.CompilationUnit.parse maxDepth (Template.wrap snippet) with
    | .ok u => ∀ p ∈ u.positions, ∃ l, Visible snippet p l
    | .error f => ∃ l, Visible snippet f.position l :=
  Source.CompilationUnit.parse_places (fun _ => Template.visible_tokens)
    fun _ => Template.visible_fault

theorem compile_visible (symbols : SymbolTable) (limits : Limits) (snippet : String) :
    match compile symbols limits snippet with
    | .ok program => ∀ p ∈ instrPositions program.body, ∃ l, Visible snippet p l
    | .error errors => errors ≠ [] ∧ ∀ e ∈ errors, ∀ p ∈ e.position, ∃ l, Visible snippet p l := by
  have parsed := parse_visible limits.maxNesting snippet
  rw [compile_eq]
  split_ifs
  · exact ⟨List.cons_ne_nil _ _, List.forall_mem_singleton.2 nofun⟩
  · cases parse : Source.CompilationUnit.parse limits.maxNesting (Template.wrap snippet) with
    | error f =>
      rw [parse] at parsed
      refine ⟨List.cons_ne_nil _ _, List.forall_mem_singleton.2 fun p is => ?_⟩
      cases is
      exact parsed
    | ok u =>
      rw [parse] at parsed
      have places := Typing.checkUnit_places symbols parsed
      dsimp only
      cases checked : Typing.checkUnit symbols u with
      | ok program =>
        rw [checked] at places
        exact places
      | error faults =>
        rw [checked] at places
        dsimp only
        refine ⟨?_, List.forall_mem_map.2 fun f mem p is => ?_⟩
        · simp [Typing.checkUnit_error checked]
        · cases is
          exact places f (List.mem_of_mem_take mem)

theorem attempt_reported {n : Nat} {d : Diagnostic}
    (failed : (attempt symbols limits n snippet).result = .error d) :
    List.Forall₂ (Reported snippet) (errorPositions symbols limits n snippet) d.places := by
  have visible := compile_visible symbols limits snippet
  unfold attempt at failed
  unfold errorPositions
  -- An attempt fails to compile, to load or to run.
  cases compiled : compile symbols limits snippet with
  | error errors =>
    rw [compiled] at failed visible
    obtain ⟨nonempty, visible⟩ := visible
    obtain ⟨first, rest, rfl⟩ := List.exists_cons_of_ne_nil nonempty
    cases failed
    dsimp only
    rw [Diagnostic.places_ofCompileErrors, List.forall₂_map_left_iff, List.forall₂_map_right_iff,
      List.forall₂_same]
    exact fun e mem => .of_visible (visible e mem)
  | ok program =>
    rw [compiled] at failed visible
    dsimp only at failed ⊢
    cases loads : load program with
    | error e =>
      rw [loads] at failed
      cases failed
      exact .cons .nowhere .nil
    | ok loaded =>
      rw [loads] at failed
      obtain ⟨is, -, -⟩ := load_ok loads
      have within : ∀ p ∈ instrPositions loaded.program.body, ∃ l, Visible snippet p l := by
        rw [is]
        exact visible
      have fault := (loaded.invoke_alike within limits n n).2
      dsimp only at failed ⊢
      cases result : (loaded.invoke limits n).result with
      | ok m =>
        rw [result] at failed
        cases failed
      | error f =>
        rw [result] at failed
        cases failed
        exact .cons (.of_visible (fault f result)) .nil

/-- Each place that a failed replacement reports, for its error or for a further one, is the line
and the column of a character of the snippet that is not blank. Errors in the fixed text around the
snippet are reported without a place. -/
theorem Slot.replace_places {s : Slot} {d : Diagnostic}
    (failed : (s.replace snippet).result = .error d) :
    (∀ p, some p ∈ d.places → ∃ front c back, snippet.toList = front ++ c :: back ∧
      Text.isBlank c = false ∧ p = .place front) ∧
    List.Forall₂ (Reported snippet) (errorPositions .standard s.limits s.nextModel snippet)
      d.places := by
  have result : (s.replace snippet).result =
      (attempt .standard s.limits s.nextModel snippet).result :=
    congrArg Replacement.result (s.replace_eq snippet)
  have errors := attempt_reported (result ▸ failed)
  exact ⟨Reported.own_of_mem errors, errors⟩

theorem Slot.replace_unreadable {s : Slot} {f : Token.LexicalFault}
    (short : snippet.utf8ByteSize ≤ s.limits.maxSnippetBytes)
    (failed : Token.Stream.ofText snippet = .error f) :
    ∃ d, (s.replace snippet).result = .error d ∧ d.places = [some f.position] := by
  obtain ⟨e, failed', -⟩ := Template.ofText_wrap_error failed
  have place := Template.location?_of_standsIn (Token.Stream.extend_error_stands failed)
  generalize f.position.down (Template.newlines Template.header) = p at failed' place
  let fault : Source.Fault := .ofLexical ⟨e, p⟩
  have parsed : Source.CompilationUnit.parse s.limits.maxNesting (Template.wrap snippet) =
      .error fault := by
    unfold Source.CompilationUnit.parse Source.Parser.onText
    rw [failed']
    rfl
  have compiled : compile .standard s.limits snippet = .error [.ofSource fault] := by
    unfold compile
    rw [if_neg (Nat.not_lt.2 short), parsed]
  have found : Diagnostic.errorPlace (Template.lineCount snippet) (.ofSource fault) =
      some f.position := by
    have stands : (CompileError.ofSource fault).position = some p := rfl
    rw [Diagnostic.errorPlace, stands, Option.bind_some, ← Template.location?, place]
  refine ⟨.ofCompileErrors snippet [.ofSource fault], ?_, ?_⟩
  · rw [Slot.replace_eq]
    unfold attempt
    rw [compiled]
  · rw [Diagnostic.places_ofCompileErrors, List.map_singleton, found]

/-- A character that begins no token, on the second line of a snippet. -/
theorem Slot.replace_places_hash : ∃ d, ((empty {} 0).replace "\n #").result = .error d ∧
    d.places = [some ⟨2, 2⟩] ∧
    ∃ front c back, "\n #".toList = front ++ c :: back ∧ Text.isBlank c = false ∧
      ⟨2, 2⟩ = Position.place front := by
  have reads : Token.Stream.ofText "\n #" = .error ⟨.unexpectedCharacter '#', ⟨2, 2⟩⟩ := by
    have toList : "\n #".toList = ['\n', ' ', '#'] := rfl
    unfold Token.Stream.ofText
    rw [toList, Token.Stream.extend_ok rfl, Token.Stream.extend_ok rfl,
      Token.Stream.extend_error rfl]
    rfl
  have short : "\n #".utf8ByteSize ≤ (empty {} 0).limits.maxSnippetBytes := by decide
  obtain ⟨d, failed, places⟩ := replace_unreadable short reads
  exact ⟨d, failed, places, (replace_places failed).1 _ (places ▸ List.mem_singleton_self _)⟩

end SceneScript
