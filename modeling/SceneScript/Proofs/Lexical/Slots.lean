import SceneScript.Proofs.Lexical.Lowering
import SceneScript.Proofs.Lexical.Interpreter
import Mathlib.Data.List.Forall2
import Mathlib.Tactic.Common

/-!
# The slots of the variables in scope

Scopes match slots if the variables that the checker knows stand for the bindings of the scopes, one
by one, and every binding is in the slot of its variable. Since every declaration takes the next
slot, two variables in scope never share one (`Numbered`), so that assigning to a name and storing
in its slot do the same (`Matches.assign`), and so do binding a name and storing in the next slot
(`Aligned.declare`).
-/

namespace SceneScript.Lexical

open Typing (Variable)

abbrev Frame := List (String × Variable)

variable {scopes : Scopes} {scope : Frame} {frames : List Frame} {locals : Array Value}
  {name : String} {w : Variable} {v : Value} {slots slots' : Nat}

/-! ## Numbering -/

/-- The variables have different slots below a bound, the last one the highest. -/
def Numbered (scope : Frame) (slots : Nat) : Prop :=
  (slots :: scope.map fun x => x.2.slot).Pairwise (· > ·)

namespace Numbered

theorem lt (numbered : Numbered scope slots) {x : String × Variable} (mem : x ∈ scope) :
    x.2.slot < slots :=
  (List.pairwise_cons.1 numbered).1 _ (List.mem_map_of_mem mem)

theorem apart (numbered : Numbered scope slots) :
    scope.Pairwise fun x y => x.2.slot ≠ y.2.slot :=
  (List.pairwise_map.1 (List.pairwise_cons.1 numbered).2).imp fun above => above.ne'

theorem mono (numbered : Numbered scope slots) (le : slots ≤ slots') : Numbered scope slots' := by
  obtain ⟨below, pairwise⟩ := List.pairwise_cons.1 numbered
  exact List.pairwise_cons.2 ⟨fun slot mem => (below slot mem).trans_le le, pairwise⟩

theorem declare (numbered : Numbered scope slots) (name : String) (type : Option Ty)
    (assignable : Bool) :
    Numbered ((name, ⟨slots, type, assignable⟩) :: scope) (slots + 1) := by
  refine List.pairwise_cons.2 ⟨fun slot mem => ?_, numbered⟩
  rcases List.mem_cons.1 mem with rfl | mem
  · exact Nat.lt_succ_self _
  · exact ((List.pairwise_cons.1 numbered).1 slot mem).trans (Nat.lt_succ_self _)

end Numbered

/-! ## Bindings in their slots -/

def Holds (locals : Array Value) (b : Binding) (w : Variable) : Prop :=
  w.type = some b.type ∧ locals[w.slot]? = some b.value

def Stands (locals : Array Value) (x : String × Binding) (y : String × Variable) : Prop :=
  x.1 = y.1 ∧ Holds locals x.2 y.2

def Matches (locals : Array Value) (scopes : Scopes) (frames : List Frame) : Prop :=
  List.Forall₂ (List.Forall₂ (Stands locals)) scopes frames

theorem stands_congr {bs : Scope} {locals' : Array Value}
    (stand : List.Forall₂ (Stands locals) bs scope)
    (same : ∀ x ∈ scope, locals'[x.2.slot]? = locals[x.2.slot]?) :
    List.Forall₂ (Stands locals') bs scope := by
  induction stand with
  | nil => exact .nil
  | cons first _ ih =>
    obtain ⟨name, type, value⟩ := first
    obtain ⟨sameFirst, sameRest⟩ := List.forall_mem_cons.1 same
    exact .cons ⟨name, type, sameFirst.trans value⟩ (ih sameRest)

theorem Matches.congr {locals' : Array Value} (matched : Matches locals scopes frames)
    (same : ∀ x ∈ frames.flatten, locals'[x.2.slot]? = locals[x.2.slot]?) :
    Matches locals' scopes frames := by
  induction matched with
  | nil => exact .nil
  | cons first _ ih =>
    obtain ⟨sameFirst, sameRest⟩ := List.forall_mem_append.1 same
    exact .cons (stands_congr first sameFirst) (ih sameRest)

theorem Matches.tail {top : Frame} (matched : Matches locals scopes (top :: frames)) :
    Matches locals scopes.tail frames := by
  cases matched with
  | cons _ rest => exact rest

/-! ## Looking a name up -/

theorem lookup_stands {bs : Scope} (stand : List.Forall₂ (Stands locals) bs scope)
    (name : String) : Option.Rel (Holds locals) (bs.lookup name) (scope.lookup name) := by
  induction stand with
  | nil => exact .none
  | @cons x y bs scope first _ ih =>
    obtain ⟨n, b⟩ := x
    obtain ⟨n', w⟩ := y
    obtain ⟨rfl : n = n', holds⟩ := first
    rw [List.lookup_cons, List.lookup_cons]
    split
    · exact .some holds
    · exact ih

theorem Matches.lookup_rel (matched : Matches locals scopes frames) (name : String) :
    Option.Rel (Holds locals) (scopes.lookup? name) (frames.flatten.lookup name) := by
  induction matched with
  | nil => exact .none
  | cons first _ ih =>
    rw [Scopes.lookup?, List.findSome?_cons, List.flatten_cons, List.lookup_append]
    have related := lookup_stands first name
    generalize List.lookup name _ = binding at related ⊢
    generalize List.lookup name _ = known at related ⊢
    cases related with
    | none => exact ih
    | some holds => exact .some holds

/-- What an expression may rely on: a variable in scope has a binding in its slot. -/
def Agrees (locals : Array Value) (scopes : Scopes) (scope : Frame) : Prop :=
  ∀ {name w}, scope.lookup name = some w →
    ∃ b, scopes.lookup? name = some b ∧ Holds locals b w

theorem Matches.agrees (matched : Matches locals scopes frames) :
    Agrees locals scopes frames.flatten := by
  intro name w found
  have related := matched.lookup_rel name
  rw [found] at related
  generalize scopes.lookup? name = binding at related ⊢
  cases related with
  | some holds => exact ⟨_, rfl, holds⟩

/-! ## Giving a variable a value -/

theorem getElem?_store (slot : Nat) (v : Value) (within : slot < locals.size) :
    (locals.setIfInBounds slot v)[slot]? = some v := by
  rw [Array.getElem?_setIfInBounds_self, if_pos within]

theorem stands_assign {bs : Scope} (stand : List.Forall₂ (Stands locals) bs scope)
    (apart : scope.Pairwise fun x y => x.2.slot ≠ y.2.slot)
    (found : scope.lookup name = some w) (within : w.slot < locals.size) :
    List.Forall₂ (Stands (locals.setIfInBounds w.slot v)) (bs.assign name v) scope := by
  induction stand with
  | nil => cases found
  | @cons x y bs scope first rest ih =>
    obtain ⟨n, b⟩ := x
    obtain ⟨n', u⟩ := y
    obtain ⟨rfl : n = n', type, value⟩ := first
    obtain ⟨others, apart⟩ := List.pairwise_cons.1 apart
    rw [List.lookup_cons] at found
    rw [Scope.assign]
    by_cases same : n = name
    · subst same
      rw [beq_self_eq_true] at found
      cases found
      rw [if_pos rfl]
      refine .cons ⟨rfl, type, getElem?_store _ v within⟩ (stands_congr rest fun y mem => ?_)
      exact Array.getElem?_setIfInBounds_ne (others y mem)
    · rw [beq_false_of_ne (Ne.symm same)] at found
      rw [if_neg same]
      have other : u.slot ≠ w.slot := others _ (mem_of_lookup found)
      refine .cons ⟨rfl, type, ?_⟩ (ih apart found)
      rw [Array.getElem?_setIfInBounds_ne other.symm]
      exact value

theorem Matches.assign (matched : Matches locals scopes frames)
    (apart : frames.flatten.Pairwise fun x y => x.2.slot ≠ y.2.slot)
    (found : frames.flatten.lookup name = some w) (within : w.slot < locals.size) :
    Matches (locals.setIfInBounds w.slot v) (scopes.assign name v) frames := by
  induction matched with
  | nil => cases found
  | @cons bs scope scopes frames first rest ih =>
    rw [List.flatten_cons] at apart found
    obtain ⟨apartFirst, apartRest, between⟩ := List.pairwise_append.1 apart
    rw [List.lookup_append] at found
    have related := lookup_stands first name
    rw [Scopes.assign]
    cases here : scope.lookup name with
    | some u =>
      rw [here] at found related
      cases found
      cases is : bs.lookup name with
      | none =>
        rw [is] at related
        cases related
      | some b =>
        -- The innermost scope that knows the name takes the value, in a slot none outside uses.
        refine .cons (stands_assign first apartFirst here within)
          (Matches.congr rest fun y inRest => ?_)
        exact Array.getElem?_setIfInBounds_ne (between _ (mem_of_lookup here) y inRest)
    | none =>
      rw [here] at found related
      cases is : bs.lookup name with
      | some b =>
        rw [is] at related
        cases related
      | none =>
        refine .cons (stands_congr first fun x inFirst => ?_) (ih apartRest found)
        exact Array.getElem?_setIfInBounds_ne (between x inFirst _ (mem_of_lookup found)).symm

/-! ## Scopes in step with slots -/

/-- What every statement preserves: the innermost scope and the given outer ones match the slots,
which are numbered and in use. -/
structure Aligned (outer : List Frame) (scope : Frame) (slots : Nat) (used : List Nat)
    (scopes : Scopes) (locals : Array Value) : Prop where
  numbered : Numbered scope slots
  inUse : ∀ x ∈ scope, x.2.slot ∈ used
  matched : ∃ top, scope = (top :: outer).flatten ∧ Matches locals scopes (top :: outer)

namespace Aligned

variable {outer : List Frame} {used : List Nat}

theorem agrees (aligned : Aligned outer scope slots used scopes locals) :
    Agrees locals scopes scope := by
  obtain ⟨top, rfl, matched⟩ := aligned.matched
  exact matched.agrees

theorem mono (aligned : Aligned outer scope slots used scopes locals) (le : slots ≤ slots') :
    Aligned outer scope slots' used scopes locals :=
  { aligned with numbered := aligned.numbered.mono le }

theorem declare {b : Binding} (aligned : Aligned outer scope slots used scopes locals)
    (within : slots < locals.size) (name : String) (assignable : Bool) :
    Aligned outer ((name, ⟨slots, some b.type, assignable⟩) :: scope) (slots + 1) (slots :: used)
      (scopes.bind name b) (locals.setIfInBounds slots b.value) where
  numbered := aligned.numbered.declare name (some b.type) assignable
  inUse := List.forall_mem_cons.2
    ⟨List.mem_cons_self, fun x mem => List.mem_cons_of_mem _ (aligned.inUse x mem)⟩
  matched := by
    have below := fun x => aligned.numbered.lt (x := x)
    obtain ⟨top, rfl, matched⟩ := aligned.matched
    have kept : Matches (locals.setIfInBounds slots b.value) scopes (top :: outer) :=
      matched.congr fun x mem => Array.getElem?_setIfInBounds_ne (below x mem).ne'
    cases kept with
    | cons first rest =>
      exact ⟨_, rfl, .cons (.cons ⟨rfl, rfl, getElem?_store _ _ within⟩ first) rest⟩

theorem assign (aligned : Aligned outer scope slots used scopes locals)
    (found : scope.lookup name = some w) (v : Value) (within : slots ≤ locals.size) :
    Aligned outer scope slots (w.slot :: used) (scopes.assign name v)
      (locals.setIfInBounds w.slot v) where
  numbered := aligned.numbered
  inUse x mem := List.mem_cons_of_mem _ (aligned.inUse x mem)
  matched := by
    have below := aligned.numbered.lt (mem_of_lookup found)
    have apart := aligned.numbered.apart
    obtain ⟨top, rfl, matched⟩ := aligned.matched
    exact ⟨top, rfl, matched.assign apart found (below.trans_le within)⟩

theorem enter (numbered : Numbered frames.flatten slots)
    (inUse : ∀ x ∈ frames.flatten, x.2.slot ∈ used) (matched : Matches locals scopes frames) :
    Aligned frames frames.flatten slots used ([] :: scopes) locals :=
  ⟨numbered, inUse, [], rfl, .cons .nil matched⟩

theorem outer_matches (aligned : Aligned outer scope slots used scopes locals) :
    Matches locals scopes.tail outer := by
  obtain ⟨top, -, matched⟩ := aligned.matched
  exact matched.tail

theorem parameter (name : String) (b : Binding) (isParam : locals[0]? = some b.value) :
    Aligned [[(name, ⟨0, some b.type, false⟩)]] [(name, ⟨0, some b.type, false⟩)] 1 [0]
      [[], [(name, b)]] locals := by
  have numbered : Numbered [(name, ⟨0, some b.type, false⟩)] 1 := by simp [Numbered]
  have inUse : ∀ x ∈ [(name, (⟨0, some b.type, false⟩ : Variable))], x.2.slot ∈ [0] := by simp
  exact enter numbered inUse (.cons (.cons ⟨rfl, rfl, isParam⟩ .nil) .nil)

end Aligned

end SceneScript.Lexical
