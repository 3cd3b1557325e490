import SceneScript.Proofs.Typing.Checks
import SceneScript.Proofs.Typing.Judgement

/-!
# Names that a check resolves

The class names written in a unit, and what checking a part of a unit says about them: each is
resolved, each use of a member is of a granted class, and the references recorded are the classes of
these uses, no more and no fewer (`Typing.Records`).
-/

namespace SceneScript

/-! ## Class names in a source tree -/

namespace Source

def TypeName.paths : TypeName → List Path
  | .named p => [p]
  | _ => []

mutual

def Expr.paths : Expr → List Path
  | .int .. | .float .. | .string .. | .bool .. | .null .. | .var .. => []
  | .field _ _ receiver _ => receiver.paths
  | .call _ _ receiver _ args => receiver.paths ++ pathsAll args
  | .staticField _ type _ => [type]
  | .staticCall _ _ type _ args => type :: pathsAll args
  | .unary _ _ _ operand => operand.paths
  | .binary _ _ _ left right => left.paths ++ right.paths

def pathsAll : List Expr → List Path
  | [] => []
  | e :: es => e.paths ++ pathsAll es

end

mutual

def Statement.paths : Statement → List Path
  | .bind _ _ type init => init.paths ++ (type.map TypeName.paths).getD []
  | .assign _ target value => target.paths ++ value.paths
  | .ifThen _ cond body => cond.paths ++ pathsIn body
  | .ifThenElse _ cond body otherwise => cond.paths ++ (pathsIn body ++ pathsIn otherwise)
  | .loop _ _ first last body => first.paths ++ (last.paths ++ pathsIn body)
  | .give _ value => (value.map Expr.paths).getD []
  | .eval _ value => value.paths

def pathsIn : List Statement → List Path
  | [] => []
  | s :: rest => s.paths ++ pathsIn rest

end

def CompilationUnit.paths (u : CompilationUnit) : List Path :=
  u.entry.paramType.paths ++ u.entry.resultType.paths ++ pathsIn u.entry.body

end Source

theorem SymbolTable.granted_of_resolve? {t : SymbolTable} {name : String} {k : HostClass}
    (found : t.resolve? name = some k) : k ∈ t.granted := by
  simpa using (Option.filter_eq_some_iff.1 found).2

namespace Typing

open Source (Path TypeName)
open Check

/-! ## Resolved names -/

def Context.Names (c : Context) (p : Path) (k : HostClass) : Prop :=
  if p.isSimple then k ∈ c.imports ∧ k.simpleName = p.first
  else c.symbols.resolve? p.qualified = some k

def Context.Trusted (c : Context) : Prop :=
  ∀ k ∈ c.imports, k ∈ c.symbols.granted

variable {c : Context} {s s' s'' : State}

theorem Context.Names.granted {p : Path} {k : HostClass} (names : c.Names p k)
    (trusted : c.Trusted) : k ∈ c.symbols.granted := by
  unfold Names at names
  split at names
  · exact trusted k names.1
  · exact SymbolTable.granted_of_resolve? names

theorem settles_imported? (name : String) :
    Settles c s (imported? name) fun found =>
      ∀ k, found = some k → k ∈ c.imports ∧ k.simpleName = name := by
  refine .read_bind (.pure fun k found => ?_)
  exact ⟨List.mem_of_find?_eq_some found, eq_of_beq (List.find?_some found :)⟩

theorem settles_resolvePath (p : Path) : Settles c s (resolvePath p) (c.Names p) := by
  unfold resolvePath Context.Names
  split
  · refine .bind (settles_imported? p.first) fun found is => ?_
    cases found with
    | some k => exact .pure (is k rfl)
    | none => exact .fail
  · refine .read_bind (.bind (.pure rfl) fun found is => ?_)
    subst is
    cases c.symbols.resolve? p.qualified with
    | some k => exact .pure rfl
    | none => exact .fail

theorem settles_resolveType (t : TypeName) :
    Settles c s (resolveType t) fun _ => ∀ p ∈ t.paths, ∃ k, c.Names p k := by
  cases t with
  | named p =>
    refine .bind (settles_resolvePath p) fun k names => .pure fun q mem => ?_
    rw [List.mem_singleton.1 mem]
    exact ⟨k, names⟩
  | _ => exact .pure fun p mem => absurd mem List.not_mem_nil

theorem settles_ownerOf (t : Ty) (position : Position) :
    Settles c s (ownerOf t position) fun k => t.owner? = some k ∧ k ∈ c.symbols.granted := by
  unfold ownerOf
  split
  · exact .fail
  · next owner found =>
    refine .read_bind ?_
    unfold SymbolTable.grant?
    by_cases granted : owner ∈ c.symbols.granted
    · rw [if_pos granted]
      exact .pure ⟨found, granted⟩
    · rw [if_neg granted]
      exact .fail

/-! ## Records of uses -/

/-- Between two states, the class names were resolved, and of the uses the classes are granted and
have been recorded. -/
structure Records (c : Context) (s s' : State) (uses : List Use) (paths : List Path) : Prop where
  references : ∀ k, k ∈ s'.references ↔ k ∈ s.references ∨ ∃ u ∈ uses, u.owner = k
  granted : ∀ u ∈ uses, u.owner ∈ c.symbols.granted
  named : ∀ p ∈ paths, ∃ k, c.Names p k

namespace Records

variable {uses uses' : List Use} {paths paths' : List Path}

theorem nothing (same : s'.references = s.references) : Records c s s' [] [] where
  references k := by simp [same]
  granted u mem := absurd mem List.not_mem_nil
  named p mem := absurd mem List.not_mem_nil

theorem trans (first : Records c s s' uses paths) (second : Records c s' s'' uses' paths') :
    Records c s s'' (uses ++ uses') (paths ++ paths') where
  references k := by
    simp only [second.references, first.references, List.mem_append, or_and_right, exists_or,
      or_assoc]
  granted u mem := (List.mem_append.1 mem).elim (first.granted u) (second.granted u)
  named p mem := (List.mem_append.1 mem).elim (first.named p) (second.named p)

theorem use {u : Use} (records : Records c s s' uses paths)
    (granted : u.owner ∈ c.symbols.granted)
    (added : s''.references = u.owner :: s'.references) :
    Records c s s'' (u :: uses) paths where
  references k := by
    simp only [added, List.mem_cons, records.references, exists_eq_or_imp, eq_comm (a := k)]
    tauto
  granted v mem := by
    rcases List.mem_cons.1 mem with rfl | mem
    · exact granted
    · exact records.granted v mem
  named := records.named

theorem name (ps : List Path) (records : Records c s s' uses paths)
    (named : ∀ p ∈ ps, ∃ k, c.Names p k) : Records c s s' uses (ps ++ paths) where
  references := records.references
  granted := records.granted
  named p mem := (List.mem_append.1 mem).elim (named p) (records.named p)

theorem congr (records : Records c s s' uses paths) (sameUses : ∀ u, u ∈ uses' ↔ u ∈ uses)
    (samePaths : ∀ p, p ∈ paths' ↔ p ∈ paths) : Records c s s' uses' paths' where
  references k := by simp only [sameUses, records.references]
  granted u mem := records.granted u ((sameUses u).1 mem)
  named p mem := records.named p ((samePaths p).1 mem)

theorem leave {scope : List (String × Variable)} (records : Records c s s' uses paths) :
    Records c s { s' with scope } uses paths where
  references := records.references
  granted := records.granted
  named := records.named

end Records

end Typing

end SceneScript
