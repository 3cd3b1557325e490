import SceneScript.Proofs.Lexical.Lowering
import SceneScript.Proofs.Machine.Writes
import SceneScript.Proofs.Typing.Recording
import SceneScript.Proofs.Typing.Units

/-!
# Which variables a program assigns

A check gives every declaration a slot of its own, and lets only variables that may be assigned be
stored to. So what a block writes is either declared in it or may be assigned (`State.MayWrite`),
and no loop writes its own variable (`checkUnit_spares`).
-/

namespace SceneScript

def Instr.SparesVariable : Instr → Prop
  | .loop _ slot _ _ body => slot ∉ writesIn body
  | _ => True

namespace Typing

open Source (Expr Statement Path TypeName)

/-! ## Variables in scope -/

namespace State

def InUse (s : State) : Prop :=
  ∀ x ∈ s.scope, x.2.slot < s.slots

structure Declares (s s' : State) : Prop where
  le : s.slots ≤ s'.slots
  scope : ∃ added, s'.scope = added ++ s.scope ∧
    ∀ x ∈ added, s.slots ≤ x.2.slot ∧ x.2.slot < s'.slots

def MayWrite (s : State) (slot : Nat) : Prop :=
  s.slots ≤ slot ∨ ∃ x ∈ s.scope, x.2.slot = slot ∧ x.2.assignable = true

namespace Declares

variable {s s' s'' : State}

theorem of_eq (slots : s'.slots = s.slots) (scope : s'.scope = s.scope) : s.Declares s' :=
  ⟨slots.ge, [], scope, nofun⟩

theorem refl (s : State) : s.Declares s :=
  .of_eq rfl rfl

theorem trans (first : s.Declares s') (second : s'.Declares s'') : s.Declares s'' := by
  obtain ⟨le, added, scope, fresh⟩ := first
  obtain ⟨le', added', scope', fresh'⟩ := second
  refine ⟨le.trans le', added' ++ added, by rw [scope', scope, List.append_assoc], ?_⟩
  refine List.forall_mem_append.2 ⟨fun x mem => ?_, fun x mem => ?_⟩
  · exact ⟨le.trans (fresh' x mem).1, (fresh' x mem).2⟩
  · exact ⟨(fresh x mem).1, (fresh x mem).2.trans_le le'⟩

theorem inUse (declares : s.Declares s') (inUse : s.InUse) : s'.InUse := by
  obtain ⟨le, added, scope, fresh⟩ := declares
  rw [InUse, scope]
  exact List.forall_mem_append.2
    ⟨fun x mem => (fresh x mem).2, fun x mem => (inUse x mem).trans_le le⟩

theorem mayWrite (declares : s.Declares s') {slot : Nat} (may : s'.MayWrite slot) :
    s.MayWrite slot := by
  obtain ⟨le, added, scope, fresh⟩ := declares
  obtain unused | ⟨x, mem, is, assignable⟩ := may
  · exact .inl (le.trans unused)
  · rw [scope, List.mem_append] at mem
    obtain mem | mem := mem
    · exact .inl (is ▸ (fresh x mem).1)
    · exact .inr ⟨x, mem, is, assignable⟩

end Declares

theorem record_eq (s : State) (f : Fault) : ∃ faults, s.record f = { s with faults } := by
  unfold record
  split
  · exact ⟨s.faults, rfl⟩
  · exact ⟨f :: s.faults, rfl⟩

end State

/-! ## Checks declare variables -/

namespace Check

variable {α β : Type} {c : Context} {s s' : State}

def Declares (check : Check α) : Prop :=
  ∀ (c : Context) (s : State), s.Declares (check.runIn c s).2

theorem declare_runIn (name : String) (type : Option Ty) (assignable : Bool) (p : Position)
    (c : Context) (s : State) : ∃ faults, (declare name type assignable p).runIn c s =
      (some s.slots, { s with
        slots := s.slots + 1
        scope := (name, ⟨s.slots, type, assignable⟩) :: s.scope
        faults }) := by
  by_cases taken : (s.scope.lookup name).isSome
  · obtain ⟨faults, recorded⟩ := s.record_eq ⟨.alreadyDefined name, p⟩
    refine ⟨faults, ?_⟩
    unfold declare
    rw [runIn_bind]
    change (if (s.scope.lookup name).isSome then _ else _ : Check Nat).runIn c s = _
    rw [if_pos taken, runIn_bind]
    change Check.runIn _ c (s.record _) = _
    rw [recorded]
    rfl
  · refine ⟨s.faults, ?_⟩
    unfold declare
    rw [runIn_bind]
    change (if (s.scope.lookup name).isSome then _ else _ : Check Nat).runIn c s = _
    rw [if_neg taken]
    rfl

namespace Declares

theorem read : Declares read :=
  fun _ s => .refl s

theorem bind {check : Check α} {next : α → Check β} (first : Declares check)
    (rest : ∀ a, Declares (next a)) : Declares (check >>= next) := by
  intro c s
  have before := first c s
  rw [runIn_bind]
  rcases ran : check.runIn c s with ⟨_ | a, s₁⟩
  · rwa [ran] at before
  · rw [ran] at before
    exact before.trans (rest a c s₁)

theorem inScope {check : Check α} (inner : Declares check) : Declares (inScope check) := by
  intro c s
  rw [runIn_inScope]
  exact ⟨(inner c s).le, [], rfl, nofun⟩

theorem report (error : Error) (p : Position) : Declares (report error p) := by
  intro c s
  obtain ⟨faults, recorded⟩ := s.record_eq ⟨error, p⟩
  change s.Declares (s.record _)
  rw [recorded]
  exact .of_eq rfl rfl

theorem declare (name : String) (type : Option Ty) (assignable : Bool) (p : Position) :
    Declares (declare name type assignable p) := by
  intro c s
  obtain ⟨faults, ran⟩ := declare_runIn name type assignable p c s
  rw [ran]
  refine ⟨Nat.le_succ _, [_], rfl, List.forall_mem_singleton.2 ?_⟩
  exact ⟨Nat.le_refl _, Nat.lt_succ_self _⟩

end Declares

theorem declares : Closed @Declares :=
  Composed.closed
    { pure _ _ s := .refl s
      failure _ s := .refl s
      bind := .bind
      attempt inner := inner
      inScope := .inScope
      report := .report
      refer _ _ _ := .of_eq rfl rfl
      lookup? _ _ s := .refl s
      declare := .declare }
    .read

/-! ## What statements write -/

/-- What is made between two states writes only what may be written in the first one and is in use
in the second one, and the loops in it do not write their variables. -/
structure Harmless (s s' : State) (writes : List Nat) (nested : List Instr) : Prop where
  writes : ∀ slot ∈ writes, s.MayWrite slot ∧ slot < s'.slots
  loops : ∀ i ∈ nested, i.SparesVariable

namespace Harmless

variable {s₀ s₁ : State} {writes writes' : List Nat} {nested nested' : List Instr}

theorem nothing : Harmless s s' [] [] :=
  ⟨nofun, nofun⟩

theorem mono (harmless : Harmless s s' writes nested) (before : s₀.Declares s)
    (behind : s'.slots ≤ s₁.slots) : Harmless s₀ s₁ writes nested where
  writes slot mem :=
    ⟨before.mayWrite (harmless.writes slot mem).1, (harmless.writes slot mem).2.trans_le behind⟩
  loops := harmless.loops

theorem append (first : Harmless s s' writes nested) (second : Harmless s s' writes' nested') :
    Harmless s s' (writes ++ writes') (nested ++ nested') where
  writes := List.forall_mem_append.2 ⟨first.writes, second.writes⟩
  loops := List.forall_mem_append.2 ⟨first.loops, second.loops⟩

end Harmless

structure HarmlessInstr (s s' : State) (i : Instr) : Prop where
  inside : Harmless s s' i.writes i.inside
  itself : i.SparesVariable

namespace HarmlessInstr

theorem mono {s₀ s₁ : State} {i : Instr} (harmless : HarmlessInstr s s' i)
    (before : s₀.Declares s) (behind : s'.slots ≤ s₁.slots) : HarmlessInstr s₀ s₁ i :=
  ⟨harmless.inside.mono before behind, harmless.itself⟩

theorem cons {i : Instr} {rest : List Instr} (first : HarmlessInstr s s' i)
    (others : Harmless s s' (writesIn rest) (nestedIn rest)) :
    Harmless s s' (writesIn (i :: rest)) (nestedIn (i :: rest)) := by
  have all := first.inside.append others
  exact ⟨all.writes, List.forall_mem_cons.2 ⟨first.itself, all.loops⟩⟩

theorem store {p : Position} {slot : Nat} {value : Code} (may : s.MayWrite slot)
    (used : slot < s'.slots) : HarmlessInstr s s' (.store p slot value) :=
  ⟨⟨List.forall_mem_singleton.2 ⟨may, used⟩, nofun⟩, trivial⟩

theorem loop {p : Position} {name : String} {first last : Code} {body : List Instr}
    {s₁ : State} (inUse : s.InUse) (slots : s₁.slots = s.slots + 1)
    (scope : s₁.scope = (name, ⟨s.slots, some .int, false⟩) :: s.scope)
    (inner : Harmless s₁ s' (writesIn body) (nestedIn body)) (le : s.slots < s'.slots) :
    HarmlessInstr s s' (.loop p s.slots first last body) := by
  refine ⟨⟨List.forall_mem_cons.2 ⟨⟨.inl (Nat.le_refl _), le⟩, fun slot mem => ?_⟩, inner.loops⟩,
    fun mem => ?_⟩
  · obtain ⟨may, used⟩ := inner.writes slot mem
    refine ⟨?_, used⟩
    obtain fresh | ⟨x, mem, is, assignable⟩ := may
    · rw [slots] at fresh
      exact .inl (Nat.le_of_succ_le fresh)
    · rw [scope, List.mem_cons] at mem
      obtain rfl | mem := mem
      · cases assignable
      · exact .inr ⟨x, mem, is, assignable⟩
  · obtain ⟨fresh | ⟨x, mem, is, assignable⟩, -⟩ := inner.writes s.slots mem
    · rw [slots] at fresh
      exact Nat.not_succ_le_self _ fresh
    · rw [scope, List.mem_cons] at mem
      obtain rfl | mem := mem
      · cases assignable
      · exact (inUse x mem).ne is

end HarmlessInstr

/-! ## Results of checks -/

def Makes (c : Context) (s : State) (check : Check α) (post : α → State → Prop) : Prop :=
  ∀ a s', check.runIn c s = (some a, s') → post a s'

namespace Makes

variable {check : Check α} {post : α → State → Prop}

theorem pure {a : α} (holds : post a s) : Makes c s (pure a) post := by
  intro a s' ran
  cases ran
  exact holds

theorem mono {weaker : α → State → Prop} (makes : Makes c s check post)
    (weaken : ∀ a s', post a s' → weaker a s') : Makes c s check weaker :=
  fun a s' ran => weaken a s' (makes a s' ran)

theorem bind {next : α → Check β} {post' : β → State → Prop} (first : Makes c s check post)
    (rest : ∀ a s', post a s' → Makes c s' (next a) post') :
    Makes c s (check >>= next) post' := by
  intro b s' ran
  rw [runIn_bind] at ran
  rcases made : check.runIn c s with ⟨_ | a, s₁⟩
  · rw [made] at ran
    cases ran
  · rw [made] at ran
    exact rest a s₁ (first a s₁ made) b s' ran

theorem fail {error : Error} {p : Position} : Makes c s (fail error p : Check α) post := by
  intro a s' ran
  rw [Check.fail, runIn_bind] at ran
  cases ran

theorem need {o : Option α} : Makes c s (Check.need o) fun _ s' => s' = s := by
  intro a s' ran
  cases o <;> cases ran
  rfl

theorem declares (declares : Declares check) : Makes c s check fun _ s' => s.Declares s' := by
  intro a s' ran
  have behind := declares c s
  rwa [ran] at behind

theorem and_declares (makes : Makes c s check post) (declares : Declares check) :
    Makes c s check fun a s' => post a s' ∧ s.Declares s' :=
  fun a s' ran => ⟨makes a s' ran, Makes.declares declares a s' ran⟩

theorem get_bind {next : State → Check α} (makes : Makes c s (next s) post) :
    Makes c s (get >>= next) post :=
  makes

theorem inScope (makes : Makes c s check post) :
    Makes c s (inScope check) fun a s' =>
      ∃ inner, post a inner ∧ s' = { inner with scope := s.scope } := by
  intro a s' ran
  rw [runIn_inScope] at ran
  rcases made : check.runIn c s with ⟨o, inner⟩
  rw [made] at ran
  cases ran
  exact ⟨inner, makes a inner made, rfl⟩

theorem declare {name : String} {type : Option Ty} {assignable : Bool} {p : Position} :
    Makes c s (Check.declare name type assignable p) fun slot s' =>
      slot = s.slots ∧ s'.slots = s.slots + 1 ∧
        s'.scope = (name, ⟨s.slots, type, assignable⟩) :: s.scope := by
  intro slot s' ran
  obtain ⟨faults, is⟩ := declare_runIn name type assignable p c s
  rw [is] at ran
  cases ran
  exact ⟨rfl, rfl, rfl⟩

end Makes

/-! ## Statements -/

def MakesHarmless (check : Check Instr) : Prop :=
  ∀ c s, State.InUse s → Makes c s check fun i s' => HarmlessInstr s s' i

def MakesHarmlessBody (check : Check (List Instr)) : Prop :=
  ∀ c s, State.InUse s → Makes c s check fun body s' =>
    Harmless s s' (writesIn body) (nestedIn body)

theorem MakesHarmlessBody.inScope {check : Check (List Instr)} (inner : MakesHarmlessBody check) :
    MakesHarmlessBody (Check.inScope check) := by
  intro c s inUse
  refine (inner c s inUse).inScope.mono fun body s' after => ?_
  obtain ⟨s₁, harmless, rfl⟩ := after
  exact harmless.mono (.refl s) (Nat.le_refl _)

theorem HarmlessInstr.quiet {i : Instr} (writes : i.writes = []) (inside : i.inside = [])
    (itself : i.SparesVariable) : HarmlessInstr s s' i :=
  ⟨by rw [writes, inside]; exact .nothing, itself⟩

theorem harmless_bind (p : Position) (name : String) (type : Option TypeName) (init : Expr) :
    MakesHarmless (statement (.bind p name type init)) := by
  intro c s inUse
  rw [statement]
  refine .bind (.declares (declares.binding name type init p)) fun r s₁ before => ?_
  refine .bind .declare fun slot s₂ after => .bind .need fun code s₃ same => .pure ?_
  obtain ⟨rfl, slots, -⟩ := after
  subst same
  exact .store (before.mayWrite (.inl (Nat.le_refl _))) (slots ▸ Nat.lt_succ_self _)

theorem harmless_assignVariable (name : String) (q : Position) (value : Option Typed)
    (p : Position) : MakesHarmless (assignVariable name q value p) := by
  intro c s inUse
  refine .get_bind ?_
  cases found : s.scope.lookup name with
  | none => exact .fail
  | some v =>
    have mem := Lexical.mem_of_lookup found
    dsimp only
    split
    · next assignable =>
      refine .bind .need fun e s₁ same => .bind .need fun t s₂ same' => ?_
      subst same same'
      refine .bind (.declares (declares.coerce e t q)) fun code s₃ behind => .pure ?_
      exact .store (.inr ⟨_, mem, rfl, assignable⟩) ((inUse _ mem).trans_le behind.le)
    · exact .fail

theorem harmless_assignField (receiver : Option Typed) (name : String) (q : Position)
    (value : Option Typed) (p : Position) :
    MakesHarmless (assignField receiver name q value p) := by
  intro c s inUse
  refine .bind .need fun r s₁ _ => .bind (.declares (declares.ownerOf _ q)) fun owner s₂ _ => ?_
  split
  · exact .fail
  · split
    · refine .bind (.declares (declares.refer _)) fun _ s₃ _ => .bind .need fun e s₄ _ => ?_
      refine .bind (.declares (declares.coerce _ _ q)) fun code s₅ _ => .pure ?_
      exact .quiet rfl rfl trivial
    · exact .fail

theorem harmless_assignment (target value : Expr) (p : Position) :
    MakesHarmless (assignment target value p) := by
  intro c s inUse
  unfold assignment
  split
  · next q name =>
    refine .bind (.declares (declares.attempt (declares.expr value))) fun o s₁ before => ?_
    refine (harmless_assignVariable name q o p c s₁ (before.inUse inUse)).mono fun i s₂ made => ?_
    exact made.mono before (Nat.le_refl _)
  · next q h receiver name =>
    refine .bind (.declares (declares.attempt (declares.expr receiver))) fun o s₁ before => ?_
    refine .bind (.declares (declares.attempt (declares.expr value))) fun o' s₂ before' => ?_
    have before := before.trans before'
    refine (harmless_assignField o name q o' p c s₂ (before.inUse inUse)).mono fun i s₃ made => ?_
    exact made.mono before (Nat.le_refl _)
  · exact .fail

theorem harmless_give (value : Option Expr) (p : Position) : MakesHarmless (give value p) := by
  intro c s inUse
  unfold give
  split
  · exact .fail
  · refine .bind (.declares (declares.expr _)) fun e s₁ _ => ?_
    refine .bind (.declares .read) fun c' s₂ _ => .bind .need fun t s₃ _ => ?_
    refine .bind (.declares (declares.coerce _ _ _)) fun code s₄ _ => .pure ?_
    exact .quiet rfl rfl trivial

section

variable {body otherwise : List Statement}

theorem harmless_ifThen (p : Position) (cond : Expr)
    (inner : MakesHarmlessBody (statements body)) :
    MakesHarmless (statement (.ifThen p cond body)) := by
  intro c s inUse
  rw [statement]
  refine .bind (.declares (declares.attempt (declares.exprOf _ _ cond))) fun o s₁ before => ?_
  refine .bind (inner.inScope c s₁ (before.inUse inUse)) fun code s₂ made => ?_
  refine .bind .need fun _ s₃ same => .pure ⟨?_, trivial⟩
  subst same
  have made := made.mono before (Nat.le_refl _)
  exact made.append .nothing

theorem harmless_ifThenElse (p : Position) (cond : Expr)
    (inner : MakesHarmlessBody (statements body))
    (inner' : MakesHarmlessBody (statements otherwise)) :
    MakesHarmless (statement (.ifThenElse p cond body otherwise)) := by
  intro c s inUse
  rw [statement]
  refine .bind (.declares (declares.attempt (declares.exprOf _ _ cond))) fun o s₁ before => ?_
  have inUse₁ := before.inUse inUse
  refine .bind ((inner.inScope c s₁ inUse₁).and_declares (declares.inScope (declares.statements _)))
    fun code s₂ made => ?_
  obtain ⟨made, between⟩ := made
  refine .bind ((inner'.inScope c s₂ (between.inUse inUse₁)).and_declares
    (declares.inScope (declares.statements _))) fun code' s₃ made' => ?_
  obtain ⟨made', behind⟩ := made'
  refine .bind .need fun _ s₄ same => .pure ⟨?_, trivial⟩
  subst same
  exact (made.mono before behind.le).append (made'.mono (before.trans between) (Nat.le_refl _))

theorem harmless_loop (p : Position) (name : String) (first last : Expr)
    (inner : MakesHarmlessBody (statements body)) :
    MakesHarmless (statement (.loop p name first last body)) := by
  intro c s inUse
  rw [statement]
  refine .bind (.declares (declares.attempt (declares.exprOf _ _ first))) fun o s₁ before => ?_
  refine .bind (.declares (declares.attempt (declares.exprOf _ _ last))) fun o' s₂ before' => ?_
  have before := before.trans before'
  have inUse₂ := before.inUse inUse
  have round : Makes c s₂ (do
      let slot ← declare name (some .int) false p
      return (slot, ← Check.inScope (statements body)) : Check (Nat × List Instr)) fun r s₃ =>
      ∀ a b, HarmlessInstr s₂ s₃ (.loop p r.1 a b r.2) := by
    refine .bind .declare fun slot s₃ declared => ?_
    obtain ⟨rfl, slots, scope⟩ := declared
    -- The slot of the loop variable is a new one.
    have inUse₃ : s₃.InUse := by
      rw [State.InUse, slots, scope]
      exact List.forall_mem_cons.2
        ⟨Nat.lt_succ_self _, fun x mem => Nat.lt_succ_of_lt (inUse₂ x mem)⟩
    refine .bind ((inner.inScope c s₃ inUse₃).and_declares
      (declares.inScope (declares.statements _))) fun code s₄ made => .pure fun a b => ?_
    obtain ⟨made, behind⟩ := made
    exact .loop inUse₂ slots scope made (Nat.lt_of_lt_of_le (by omega) behind.le)
  refine .bind round.inScope fun r s₄ made => ?_
  obtain ⟨s₃, made, rfl⟩ := made
  refine .bind .need fun a s₅ same => .bind .need fun b s₆ same' => .pure ?_
  subst same same'
  exact (made a b).mono before (Nat.le_refl _)

end

mutual

theorem harmless_statement : ∀ st : Statement, MakesHarmless (statement st)
  | .bind p name type init => harmless_bind p name type init
  | .assign p target value => by
    rw [statement]
    exact harmless_assignment target value p
  | .ifThen p cond body => harmless_ifThen p cond (harmless_statements body)
  | .ifThenElse p cond body otherwise =>
    harmless_ifThenElse p cond (harmless_statements body) (harmless_statements otherwise)
  | .loop p name first last body => harmless_loop p name first last (harmless_statements body)
  | .give p value => by
    rw [statement]
    exact harmless_give value p
  | .eval p value => by
    intro c s inUse
    rw [statement]
    exact .bind (.declares (declares.expr value)) fun e s₁ _ => .pure (.quiet rfl rfl trivial)

theorem harmless_statements : ∀ body : List Statement, MakesHarmlessBody (statements body)
  | [] => by
    intro c s inUse
    rw [statements]
    exact .pure .nothing
  | st :: rest => by
    intro c s inUse
    rw [statements]
    have first : Makes c s (Check.attempt (statement st)) fun o s₁ =>
        s.Declares s₁ ∧ ∀ i ∈ o, HarmlessInstr s s₁ i := by
      intro o s₁ ran
      rw [runIn_attempt] at ran
      cases ran
      exact ⟨declares.statement st c s, fun i made =>
        harmless_statement st c s inUse i _ (Prod.ext made rfl)⟩
    refine .bind first fun o s₁ made => ?_
    obtain ⟨before, made⟩ := made
    have others := (harmless_statements rest c s₁ (before.inUse inUse)).and_declares
      (declares.statements rest)
    cases o with
    | none =>
      refine others.mono fun code s₂ after => ?_
      exact after.1.mono before (Nat.le_refl _)
    | some i =>
      refine .bind others fun code s₂ after => .pure ?_
      exact ((made i rfl).mono (.refl s) after.2.le).cons (after.1.mono before (Nat.le_refl _))

end

end Check

/-! ## Units -/

/-- No loop of an accepted unit writes its variable in its body, and all slots that are written are
among those of the program. -/
theorem checkUnit_spares {symbols : SymbolTable} {u : Source.CompilationUnit} {program : Program}
    (accepted : checkUnit symbols u = .ok program) :
    (∀ i ∈ nestedIn program.body, i.SparesVariable) ∧
      ∀ slot ∈ writesIn program.body, slot < program.slots := by
  obtain ⟨declared, final, signed, ran, -, -, slots, -⟩ := checkUnit_ok accepted
  have inUse : declared.InUse := by
    have before := Check.declares.signature u.entry (contextOf symbols u none) (stateOf symbols u)
    rw [signed] at before
    exact before.inUse nofun
  have made := (Check.harmless_statements u.entry.body).inScope _ _ inUse _ _ ran
  exact ⟨made.loops, fun slot mem => slots ▸ (made.writes slot mem).2⟩

end Typing

end SceneScript
