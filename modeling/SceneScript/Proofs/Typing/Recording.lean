import SceneScript.Proofs.Typing.Checks

/-!
# Checking with a limit on errors

A check never looks at the errors that are recorded, so it does the same whether or not there is a
limit on their number (`Lockstep`). With a limit a unit is accepted or rejected as without one, and
of the errors the first ones are recorded (`checkUnitUpTo_some`).
-/

namespace SceneScript.Typing

/-! ## States with a limit -/

namespace State

def upTo (n : Nat) (s : State) : State :=
  { s with faults := s.faults.drop (s.faults.length - max 1 n), limit := some n }

theorem record_unlimited {s : State} (unlimited : s.limit = none) (f : Fault) :
    s.record f = { s with faults := f :: s.faults } := by
  rw [record, isFull, unlimited, Option.any_none, if_neg Bool.false_ne_true]

theorem record_upTo {s : State} (unlimited : s.limit = none) (n : Nat) (f : Fault) :
    (s.upTo n).record f = (s.record f).upTo n := by
  rw [record_unlimited unlimited, record]
  by_cases full : max 1 n ≤ s.faults.length
  · have isFull : (s.upTo n).isFull = true := by
      simp only [State.isFull, upTo, Option.any_some, List.length_drop, decide_eq_true_eq]
      omega
    have further : (f :: s.faults).length - max 1 n = s.faults.length - max 1 n + 1 := by
      rw [List.length_cons, Nat.succ_sub full]
    rw [if_pos isFull, upTo, upTo, further, List.drop_succ_cons]
  · have room : (s.upTo n).isFull = false := by
      simp only [State.isFull, upTo, Option.any_some, List.length_drop, decide_eq_false_iff_not]
      omega
    have all : s.faults.length - max 1 n = 0 := Nat.sub_eq_zero_of_le (Nat.le_of_not_le full)
    have all' : (f :: s.faults).length - max 1 n = 0 := by
      rw [List.length_cons]
      omega
    rw [room, if_neg Bool.false_ne_true, upTo, upTo, all, all', List.drop_zero, List.drop_zero]

theorem foldl_record_unlimited {s : State} (unlimited : s.limit = none) (faults : List Fault) :
    faults.foldl record s = { s with faults := faults.reverse ++ s.faults } := by
  induction faults generalizing s with
  | nil => rfl
  | cons f faults ih =>
    have still : (s.record f).limit = none := by rw [record_unlimited unlimited, unlimited]
    rw [List.foldl_cons, ih still, record_unlimited unlimited, List.reverse_cons,
      List.append_assoc, List.singleton_append]

theorem foldl_record_upTo {s : State} (unlimited : s.limit = none) (n : Nat)
    (faults : List Fault) : faults.foldl record (s.upTo n) = (faults.foldl record s).upTo n := by
  induction faults generalizing s with
  | nil => rfl
  | cons f faults ih =>
    have still : (s.record f).limit = none := by rw [record_unlimited unlimited, unlimited]
    rw [List.foldl_cons, List.foldl_cons, record_upTo unlimited, ih still]

theorem start_none (faults : List Fault) :
    start none faults = ⟨[], 0, [], faults.reverse, none⟩ := by
  rw [start, foldl_record_unlimited rfl, List.append_nil]

theorem start_some (n : Nat) (faults : List Fault) :
    start (some n) faults = (start none faults).upTo n := by
  have empty : (⟨[], 0, [], [], some n⟩ : State) = upTo n ⟨[], 0, [], [], none⟩ := by
    rw [upTo, List.drop_nil]
  rw [start, start, empty, foldl_record_upTo rfl]

theorem reverse_faults_upTo (n : Nat) (s : State) :
    (s.upTo n).faults.reverse = s.faults.reverse.take (max 1 n) :=
  List.take_reverse.symm

theorem faults_upTo_eq_nil {n : Nat} {s : State} : (s.upTo n).faults = [] ↔ s.faults = [] := by
  rw [← List.reverse_eq_nil_iff, reverse_faults_upTo, List.take_eq_nil_iff,
    List.reverse_eq_nil_iff]
  exact or_iff_right (by omega)

end State

namespace Check

variable {α β : Type}

/-- From a state in which all errors are recorded, and from the one with a limit, the check does the
same. -/
def Lockstep (check : Check α) : Prop :=
  ∀ c s n, s.limit = none → (check.runIn c s).2.limit = none ∧
    check.runIn c (s.upTo n) = ((check.runIn c s).1, (check.runIn c s).2.upTo n)

/-! ## Rules -/

namespace Lockstep

theorem pure (a : α) : Lockstep (pure a) :=
  fun _ _ _ unlimited => ⟨unlimited, rfl⟩

theorem failure : Lockstep (failure : Check α) :=
  fun _ _ _ unlimited => ⟨unlimited, rfl⟩

theorem read : Lockstep read :=
  fun _ _ _ unlimited => ⟨unlimited, rfl⟩

theorem modify {f : State → State} (keeps : ∀ s, (f s).limit = s.limit)
    (commutes : ∀ s n, f (s.upTo n) = (f s).upTo n) : Lockstep (modify f) :=
  fun _ s n unlimited => ⟨(keeps s).trans unlimited, Prod.ext rfl (commutes s n)⟩

theorem report (error : Error) (position : Position) : Lockstep (report error position) := by
  intro c s n unlimited
  constructor
  · change (s.record _).limit = none
    rw [State.record_unlimited unlimited, unlimited]
  · exact Prod.ext rfl (State.record_upTo unlimited n _)

theorem bind {check : Check α} {next : α → Check β} (first : Lockstep check)
    (rest : ∀ a, Lockstep (next a)) : Lockstep (check >>= next) := by
  intro c s n unlimited
  obtain ⟨still, same⟩ := first c s n unlimited
  rw [runIn_bind, runIn_bind, same]
  rcases ran : check.runIn c s with ⟨_ | a, s'⟩
  · rw [ran] at still
    exact ⟨still, rfl⟩
  · rw [ran] at still
    exact rest a c s' n still

theorem get_bind {next : State → Check α} (same : ∀ s n, next (s.upTo n) = next s)
    (rest : ∀ s, Lockstep (next s)) : Lockstep (get >>= next) := by
  intro c s n unlimited
  change _ ∧ (next (s.upTo n)).runIn c (s.upTo n) = _
  rw [same]
  exact rest s c s n unlimited

theorem attempt {check : Check α} (lockstep : Lockstep check) : Lockstep (Check.attempt check) := by
  intro c s n unlimited
  obtain ⟨still, same⟩ := lockstep c s n unlimited
  rw [runIn_attempt, runIn_attempt, same]
  exact ⟨still, rfl⟩

theorem lookup? (name : String) : Lockstep (lookup? name) :=
  .get_bind (fun _ _ => rfl) fun _ => .pure _

theorem inScope {check : Check α} (lockstep : Lockstep check) : Lockstep (inScope check) := by
  intro c s n unlimited
  obtain ⟨still, same⟩ := lockstep c s n unlimited
  rw [runIn_inScope, runIn_inScope, same]
  exact ⟨still, rfl⟩

theorem declare (name : String) (type : Option Ty) (assignable : Bool) (position : Position) :
    Lockstep (declare name type assignable position) := by
  have add : Lockstep (do
      let slot := (← MonadState.get).slots
      MonadState.modifyGet fun s => ((), { s with
        slots := slot + 1, scope := (name, ⟨slot, type, assignable⟩) :: s.scope })
      return slot : Check Nat) :=
    .get_bind (fun _ _ => rfl) fun _ =>
      .bind (.modify (fun _ => rfl) fun _ _ => rfl) fun _ => .pure _
  refine .bind (lookup? name) fun found => ?_
  dsimp only
  split
  · exact .bind (.report _ _) fun _ => add
  · exact add

end Lockstep

theorem lockstep : Closed @Lockstep :=
  Composed.closed
    { pure := .pure
      failure := .failure
      bind := .bind
      attempt := .attempt
      inScope := .inScope
      report := .report
      refer _ := .modify (fun _ => rfl) fun _ _ => rfl
      lookup? := .lookup?
      declare := .declare }
    .read

end Check

/-! ## Units -/

open Check

/-- A unit is accepted as it is without a limit, or rejected with the first ones of its errors. -/
theorem checkUnitUpTo_some (n : Nat) (symbols : SymbolTable) (u : Source.CompilationUnit) :
    checkUnitUpTo (some n) symbols u =
      (checkUnit symbols u).mapError fun faults => faults.take (max 1 n) := by
  unfold checkUnit checkUnitUpTo
  dsimp only
  rw [State.start_some]
  have unlimited : (State.start none (resolveImports symbols u.imports).2).limit = none := by
    rw [State.start_none]
  generalize State.start none (resolveImports symbols u.imports).2 = s at unlimited
  obtain ⟨still, same⟩ := lockstep.signature u.entry
    ⟨symbols, (resolveImports symbols u.imports).1, none⟩ s n unlimited
  rw [same]
  generalize (signature u.entry).runIn _ s = signed at still
  obtain ⟨types, declared⟩ := signed
  obtain ⟨-, same⟩ := (lockstep.inScope (lockstep.statements u.entry.body))
    ⟨symbols, (resolveImports symbols u.imports).1, (types.getD (none, none)).2⟩ declared n still
  dsimp only
  rw [same]
  generalize (inScope (statements u.entry.body)).runIn _ declared = checked
  obtain ⟨body, final⟩ := checked
  dsimp only
  -- The limit drops faults and never the first one, so both accept the same units.
  by_cases clean : final.faults = []
  · rw [clean, State.faults_upTo_eq_nil.2 clean]
    rcases types.getD (none, none) with ⟨_ | param, _ | result⟩ <;> cases body <;>
      simp [Except.mapError, State.upTo]
  · have first := State.reverse_faults_upTo n final
    obtain ⟨f, rest, are⟩ := List.exists_cons_of_ne_nil clean
    obtain ⟨f', rest', are'⟩ :=
      List.exists_cons_of_ne_nil (mt State.faults_upTo_eq_nil.1 clean : (final.upTo n).faults ≠ [])
    rw [are, are'] at first
    rw [are, are']
    exact congrArg Except.error first

end SceneScript.Typing
