import SceneScript.Proofs.Lexical.Lowering
import SceneScript.Proofs.Machine.Soundness
import SceneScript.Proofs.Typing.Units

/-!
# Checked units are lowered

A check without faults yields a program that is what the tree is lowered to.
-/

namespace SceneScript.Lexical

open Source (Expr Statement Path TypeName UnaryOp BinaryOp)
open Typing (Check Context Variable Typed State Keeps)
open Typing.Check

variable {c : Context} {s s' : State} {scope : List (String × Variable)}

/-! ## Names -/

theorem settles_class? (p : Path) : Settles c s (resolvePath p) fun k => class? c p = some k := by
  unfold resolvePath class?
  split
  · have isFound : Settles c s (imported? p.first) fun o =>
        o = c.imports.find? fun k => k.simpleName == p.first := .read_bind (.pure rfl)
    refine .bind isFound fun o is => ?_
    rw [← is]
    cases o with
    | some k => exact .pure rfl
    | none => exact .fail
  · refine .read_bind (.bind (.pure rfl) fun o is => ?_)
    subst is
    cases c.symbols.resolve? p.qualified with
    | some k => exact .pure rfl
    | none => exact .fail

theorem settles_type? (t : TypeName) : Settles c s (resolveType t) fun u => type? c t = some u := by
  cases t with
  | named p =>
    refine .bind (settles_class? p) fun k is => .pure ?_
    rw [type?, is, Option.map_some]
  | _ => exact .pure rfl

theorem settles_lookup (name : String) :
    Settles c s (lookup? name) (· = s.scope.lookup name) :=
  .get_bind (.pure rfl)

/-! ## Conversions -/

theorem settles_converted (e : Typed) (target : Ty) (p : Position) :
    Settles c s (coerce e target p) (· = converted e target) := by
  unfold coerce converted
  split
  · next widens => exact .pure (by rw [widen, if_pos widens.1])
  · split
    · exact .pure rfl
    · exact .fail

theorem unify_eq {l r : Typed} (ofLeft : l.type.isNumeric = true)
    (ofRight : r.type.isNumeric = true) :
    unify l r = (⟨converted l (common l.type r.type), common l.type r.type⟩,
      ⟨converted r (common l.type r.type), common l.type r.type⟩) := by
  obtain ⟨code, type⟩ := l
  obtain ⟨code', type'⟩ := r
  rcases type.numeric_cases ofLeft with rfl | rfl <;>
  rcases type'.numeric_cases ofRight with rfl | rfl <;>
  simp [unify, common, converted, widen]

/-! ## Operators -/

theorem settles_unary (op : UnaryOp) (e : Typed) (p : Position) :
    Settles c s (unary op e p) (· = ⟨.unary p op e.code, e.type⟩) := by
  unfold unary
  cases op <;>
  · dsimp only
    split
    · exact .pure rfl
    · exact .fail

section

variable {p : Position} {h : Nat} {left right : Expr} {l r : Typed}

theorem settles_numeric {op : BinaryOp} {t : Ty} {mismatch : Check Typed}
    (ofLeft : Lowers c scope left l) (ofRight : Lowers c scope right r) (isStrict : op ∉ [.and, .or])
    (noText : ¬(op = .add ∧ (l.type = .string ∨ r.type = .string)))
    (is : (unify l r).1.type = common l.type r.type → t = resultType op l.type r.type)
    (otherwise : Settles c s mismatch (Lowers c scope (.binary p h op left right))) :
    Settles c s
      (if l.type.isNumeric && r.type.isNumeric then
        pure ⟨.binary p op (unify l r).1.code (unify l r).2.code, t⟩
      else mismatch)
      (Lowers c scope (.binary p h op left right)) := by
  split
  · next numeric =>
    obtain ⟨ofL, ofR⟩ := Bool.and_eq_true_iff.1 numeric
    have unified := unify_eq ofL ofR
    rw [is (by rw [unified]), unified]
    exact .pure (.strict ofLeft ofRight isStrict noText)
  · exact otherwise

theorem int_not_comparable {t u : Ty} (is : comparable t u = true) : t ≠ .int ∧ u ≠ .int := by
  constructor
  · rintro rfl
    cases u <;> simp [comparable, Ty.isReference] at is
  · rintro rfl
    cases t <;> simp [comparable, Ty.isReference] at is

theorem settles_binary (op : BinaryOp) (ofLeft : Lowers c scope left l)
    (ofRight : Lowers c scope right r) (p : Position) (h : Nat) :
    Settles c s (binary op l r p) (Lowers c scope (.binary p h op left right)) := by
  unfold binary
  cases op with
  | add =>
    dsimp only
    split
    · next isText =>
      split
      · exact .fail
      · exact .pure (.concat ofLeft ofRight isText)
    · next noText =>
      refine settles_numeric ofLeft ofRight ?_ ?_ (fun is => ?_) .fail
      · simp
      · exact fun isText => noText isText.2
      · rw [is, resultType, if_neg noText]
  | sub | mul | div | rem =>
    refine settles_numeric ofLeft ofRight ?_ ?_ id .fail
    · simp
    · simp
  | lt | le | gt | ge =>
    refine settles_numeric ofLeft ofRight ?_ ?_ (fun _ => rfl) .fail
    · simp
    · simp
  | eq | ne =>
    refine settles_numeric ofLeft ofRight ?_ ?_ (fun _ => rfl) ?_
    · simp
    · simp
    split
    · next is =>
      obtain ⟨notLeft, notRight⟩ := int_not_comparable is
      have plainLeft : converted l (common l.type r.type) = l.code :=
        if_neg fun widens => notLeft widens.1
      have plainRight : converted r (common l.type r.type) = r.code :=
        if_neg fun widens => notRight widens.1
      rw [← plainLeft, ← plainRight]
      exact .pure (.strict ofLeft ofRight (by simp) (by simp))
    · exact .fail
  | and | or =>
    dsimp only
    split
    · exact .pure (.logic ofLeft ofRight (by simp))
    · exact .fail

end

/-! ## Members -/

def ArgsLower (c : Context) (scope : List (String × Variable)) (es : List Expr)
    (args : List (Position × Option Typed)) : Prop :=
  List.Forall₂ (fun e arg => ∃ typed, arg.2 = some typed ∧ Lowers c scope e typed) es args

theorem yields_coerceArgs {es : List Expr} {args : List (Position × Option Typed)}
    {params : List Ty} (lower : ArgsLower c scope es args) (length : args.length = params.length) :
    Yields c s (coerceArgs args params) fun codes s' => s' = s ∧ LowersArgs c scope es params codes := by
  induction lower generalizing params with
  | nil =>
    obtain rfl := List.length_eq_zero_iff.1 length.symm
    exact .pure ⟨rfl, .nil⟩
  | @cons e arg es args first _ ih =>
    obtain ⟨typed, found, lowers⟩ := first
    cases params with
    | nil => simp at length
    | cons param params =>
      have others := ih (Nat.succ.inj length)
      refine .coerceArgs_cons found (settles_converted typed param arg.1) others ?_
      rintro code codes s' rfl ⟨rfl, lower⟩
      exact ⟨rfl, .cons lowers lower⟩

theorem yields_arguments {es : List Expr} {args : List (Position × Option Typed)}
    (owner : HostClass) (m : Member) (lower : ArgsLower c scope es args) (p : Position) :
    Yields c s (arguments owner m args p) fun codes s' =>
      s' = s ∧ LowersArgs c scope es m.params codes := by
  unfold arguments
  split
  · next length => exact yields_coerceArgs lower length
  · exact .fail

theorem member?_of {type : Ty} {name : String} {owner : HostClass} {m : Member}
    (is : type.owner? = some owner) (found : owner.instanceMember? name = some m) :
    m.name = name ∧ member? type name = some (owner, m) := by
  refine ⟨Typing.name_of_instanceMember? found, ?_⟩
  rw [member?, is]
  simp [found]

theorem staticMember?_of {type : Path} {name : String} {owner : HostClass} {m : Member}
    (is : class? c type = some owner) (found : owner.staticMember? name = some m) :
    m.name = name ∧ staticMember? c type name = some (owner, m) := by
  refine ⟨Typing.name_of_staticMember? found, ?_⟩
  rw [staticMember?, is]
  simp [found]

/-- An expression that a check of a member yields is what the given one is lowered to. -/
def Gives (c : Context) (s : State) (e : Expr) (typed : Typed) (s' : State) : Prop :=
  Keeps s s' ∧ Lowers c s.scope e typed

theorem yields_getField {receiver : Expr} {target : Typed} (lowers : Lowers c s.scope receiver target)
    (name : String) (p : Position) (h : Nat) :
    Yields c s (getField target name p) (Gives c s (.field p h receiver name)) := by
  refine .bind_settled (Typing.settles_ownerOf target.type p) fun owner known => ?_
  split
  · next m found =>
    split
    · obtain ⟨named, member⟩ := member?_of known.1 found
      rw [named]
      exact .modify_bind (.pure ⟨⟨rfl, rfl⟩, .field lowers member⟩)
    · exact .fail
  · exact .fail

theorem yields_call {receiver : Expr} {target : Typed} {es : List Expr}
    {args : List (Position × Option Typed)} (lowers : Lowers c s.scope receiver target)
    (ofArgs : ArgsLower c s.scope es args) (name : String) (p : Position) (h : Nat) :
    Yields c s (call target name args p) (Gives c s (.call p h receiver name es)) := by
  refine .bind_settled (Typing.settles_ownerOf target.type p) fun owner known => ?_
  split
  · next m found =>
    refine .bind (yields_arguments owner m ofArgs p)
      (fun _ => .bind (grows.refer _) fun _ => .pure _) fun codes s' after => ?_
    obtain ⟨rfl, lower⟩ := after
    obtain ⟨named, member⟩ := member?_of known.1 (Option.filter_eq_some_iff.1 found).1
    rw [named]
    exact .modify_bind (.pure ⟨⟨rfl, rfl⟩, .call lowers member lower⟩)
  · exact .fail

theorem yields_getStatic (type : Path) (name : String) (p : Position) :
    Yields c s (getStatic type name p) (Gives c s (.staticField p type name)) := by
  refine .bind_settled (settles_class? type) fun owner is => ?_
  split
  · next m found =>
    split
    · obtain ⟨named, member⟩ := staticMember?_of is found
      rw [named]
      exact .modify_bind (.pure ⟨⟨rfl, rfl⟩, .staticField member⟩)
    · exact .fail
  · exact .fail

theorem yields_callStatic (type : Path) {es : List Expr} {args : List (Position × Option Typed)}
    (ofArgs : ArgsLower c s.scope es args) (name : String) (p : Position) (h : Nat) :
    Yields c s (callStatic type name args p) (Gives c s (.staticCall p h type name es)) := by
  refine .bind_settled (settles_class? type) fun owner is => ?_
  split
  · next m found =>
    refine .bind (yields_arguments owner m ofArgs p)
      (fun _ => .bind (grows.refer _) fun _ => .pure _) fun codes s' after => ?_
    obtain ⟨rfl, lower⟩ := after
    obtain ⟨named, member⟩ := staticMember?_of is (Option.filter_eq_some_iff.1 found).1
    rw [named]
    exact .modify_bind (.pure ⟨⟨rfl, rfl⟩, .staticCall member lower⟩)
  · exact .fail

/-! ## Expressions -/

def Declared (scope : List (String × Variable)) : Prop :=
  ∀ x ∈ scope, ∃ t, x.2.type = some t

theorem Declared.lookup {name : String} {v : Variable} (declared : Declared scope)
    (found : scope.lookup name = some v) : ∃ t, v.type = some t :=
  declared _ (mem_of_lookup found)

theorem yields_readVariable (declared : Declared s.scope) (name : String) (p : Position) :
    Yields c s (readVariable name p) (Gives c s (.var p name)) := by
  refine .bind_settled (settles_lookup name) fun found is => ?_
  split
  · next v =>
    obtain ⟨t, ofType⟩ := declared.lookup is.symm
    refine .bind_settled (.need ofType) fun t' same => ?_
    subst same
    exact .pure ⟨.refl s, .var is.symm ofType⟩
  · refine .bind_settled (Typing.settles_imported? name) fun found _ => ?_
    split
    · exact .fail
    · exact .fail

theorem Gives.trans {s₁ s₂ : State} {e : Expr} {typed : Typed} (keeps : Keeps s s₁)
    (gives : Gives c s₁ e typed s₂) : Gives c s e typed s₂ :=
  ⟨keeps.trans gives.1, keeps.scope ▸ gives.2⟩

mutual

theorem yields_lowered : ∀ {s : State} (e : Expr), Declared s.scope →
    Yields c s (expr e) (Gives c s e)
  | s, .int .., _ => by
    rw [expr]
    exact .pure ⟨.refl s, .int⟩
  | s, .float .., _ => by
    rw [expr]
    exact .pure ⟨.refl s, .float⟩
  | s, .string .., _ => by
    rw [expr]
    exact .pure ⟨.refl s, .string⟩
  | s, .bool .., _ => by
    rw [expr]
    exact .pure ⟨.refl s, .bool⟩
  | s, .null .., _ => by
    rw [expr]
    exact .pure ⟨.refl s, .null⟩
  | s, .var p name, declared => by
    rw [expr]
    exact yields_readVariable declared name p
  | s, .field p h receiver name, declared => by
    rw [expr]
    refine .bind (yields_lowered receiver declared) (fun _ => grows.getField _ _ _)
      fun target s₁ after => ?_
    obtain ⟨keeps, lowers⟩ := after
    refine .mono (yields_getField (keeps.scope.symm ▸ lowers) name p h) fun e s₂ gives => ?_
    exact gives.trans keeps
  | s, .call p h receiver name args, declared =>
    .call (yields_lowered receiver declared) fun target s₁ ⟨keeps₁, lowers⟩ =>
      ⟨_, yields_attempts args (keeps₁.scope.symm ▸ declared), fun found s₂ ⟨keeps₂, lower⟩ => by
        have keeps := keeps₁.trans keeps₂
        refine .mono (yields_call (keeps.scope.symm ▸ lowers) (keeps₂.scope.symm ▸ lower) name p h)
          fun e s₃ gives => ?_
        exact gives.trans keeps⟩
  | s, .staticField p type name, _ => by
    rw [expr]
    exact yields_getStatic type name p
  | s, .staticCall p h type name args, declared => by
    rw [expr]
    refine .bind (yields_attempts args declared) (fun _ => grows.callStatic _ _ _ _)
      fun found s₁ after => ?_
    obtain ⟨keeps, lower⟩ := after
    refine .mono (yields_callStatic type (keeps.scope.symm ▸ lower) name p h) fun e s₂ gives => ?_
    exact gives.trans keeps
  | s, .unary p h op operand, declared => by
    rw [expr]
    refine .bind (yields_lowered operand declared) (fun _ => grows.unary _ _ _)
      fun e s₁ after => ?_
    obtain ⟨keeps, lowers⟩ := after
    refine .mono (settles_unary op e p).yields fun e' s₂ after => ?_
    obtain ⟨rfl, rfl⟩ := after
    exact ⟨keeps, .unary lowers⟩
  | s, .binary p h op left right, declared =>
    .binary (yields_lowered left declared) fun l s₁ ⟨keeps₁, ofLeft⟩ =>
      ⟨_, yields_lowered right (keeps₁.scope.symm ▸ declared), fun r s₂ ⟨keeps₂, ofRight⟩ => by
        refine .mono (settles_binary op ofLeft (keeps₁.scope ▸ ofRight) p h).yields
          fun e s₃ after => ?_
        obtain ⟨rfl, lowers⟩ := after
        exact ⟨keeps₁.trans keeps₂, lowers⟩⟩

theorem yields_attempts : ∀ {s : State} (es : List Expr), Declared s.scope →
    Yields c s (attempts es) fun args s' => Keeps s s' ∧ ArgsLower c s.scope es args
  | s, [], _ => by
    rw [attempts]
    exact .pure ⟨.refl s, .nil⟩
  | s, e :: es, declared => by
    refine .attempts_cons (yields_lowered e declared) fun first s₁ ⟨keeps₁, lowers⟩ => ?_
    refine .mono (yields_attempts es (keeps₁.scope.symm ▸ declared)) fun found s₂ after => ?_
    obtain ⟨keeps₂, others⟩ := after
    exact ⟨keeps₁.trans keeps₂, .cons ⟨first, rfl, lowers⟩ (keeps₁.scope ▸ others)⟩

end

theorem yields_exprOf (declared : Declared s.scope) (type : Ty) (error : Ty → Typing.Error)
    (e : Expr) :
    Yields c s (exprOf type error e) fun code s' =>
      ∃ typed, code = typed.code ∧ Gives c s e typed s' :=
  .exprOf (yields_lowered e declared) fun typed _ gives _ => ⟨typed, rfl, gives⟩

/-! ## Statements -/

def GivesInstr (c : Context) (s : State) (st : Statement) (i : Instr) (s' : State) : Prop :=
  LowersStatement c s.scope s.slots st i s'.scope s'.slots

def GivesBody (c : Context) (s : State) (body : List Statement) (code : List Instr)
    (s' : State) : Prop :=
  LowersBody c s.scope s.slots body code s'.scope s'.slots

def GivesBlock (c : Context) (s : State) (body : List Statement) (code : List Instr)
    (s' : State) : Prop :=
  s'.scope = s.scope ∧ ∃ inner, LowersBody c s.scope s.slots body code inner s'.slots

theorem yields_block {check : Check (List Instr)} {body : List Statement}
    (yields : Yields c s check (GivesBody c s body)) :
    Yields c s (inScope check) (GivesBlock c s body) := by
  refine .mono yields.inScope fun code s' after => ?_
  obtain ⟨inner, lowers, rfl⟩ := after
  exact ⟨rfl, inner.scope, lowers⟩

theorem yields_binding (declared : Declared s.scope) (name : String) (type : Option TypeName)
    (init : Expr) (p : Position) :
    Yields c s (binding name type init p) fun r s' => ∃ typed t, Gives c s init typed s' ∧
      type.elim (some typed.type) (type? c) = some t ∧ r = (some t, some (converted typed t)) := by
  cases type with
  | some t =>
    exact .binding_typed (yields_lowered init declared) (fun _ _ _ => settles_type? t)
      fun typed s₁ target gives is => ⟨_, settles_converted typed target init.position,
        fun code same => ⟨typed, target, gives, is, by rw [same]⟩⟩
  | none =>
    refine .binding_inferred (yields_lowered init declared) fun typed s₁ gives _ _ => ?_
    have plain : converted typed typed.type = typed.code :=
      if_neg fun ⟨int, float⟩ => nomatch int.symm.trans float
    exact ⟨typed, typed.type, gives, rfl, by rw [plain]⟩

theorem yields_bind (declared : Declared s.scope) (p : Position) (name : String)
    (type : Option TypeName) (init : Expr) :
    Yields c s (statement (.bind p name type init)) (GivesInstr c s (.bind p name type init)) := by
  refine .declaration (yields_binding declared name type init p) fun r s₁ after => ?_
  obtain ⟨typed, t, ⟨keeps, lowers⟩, is, rfl⟩ := after
  refine ⟨_, rfl, (Typing.yields_declare name (some t) true p).mono fun slot s₂ after => ?_⟩
  obtain ⟨rfl, rfl⟩ := after
  rw [GivesInstr, State.declare, keeps.scope, keeps.slots]
  exact .bind lowers is

theorem yields_assignVariable {value : Expr} {e : Typed} (declared : Declared s.scope)
    (lowers : Lowers c s.scope value e) (name : String) (q p : Position) :
    Yields c s (assignVariable name q (some e) p) fun i s' =>
      s' = s ∧ LowersStatement c s.scope s.slots (.assign p (.var q name) value) i s.scope
        s.slots := by
  refine .bind_settled (settles_lookup name) fun found is => ?_
  split
  · exact .fail
  · next v =>
    obtain ⟨t, ofType⟩ := declared.lookup is.symm
    split
    · refine .bind_settled (.need rfl) fun e' same => ?_
      subst same
      refine .bind_settled (.need ofType) fun t' same => ?_
      subst same
      refine .bind_settled (settles_converted e' t' q) fun code same => .pure ?_
      subst same
      exact ⟨rfl, .assign is.symm ofType lowers⟩
    · exact .fail

theorem yields_assignField {receiver value : Expr} {r e : Typed} {h : Nat}
    (ofReceiver : Lowers c s.scope receiver r) (lowers : Lowers c s.scope value e) (name : String)
    (q p : Position) :
    Yields c s (assignField (some r) name q (some e) p) fun i s' =>
      Keeps s s' ∧ LowersStatement c s.scope s.slots (.assign p (.field q h receiver name) value) i
        s.scope s.slots := by
  refine .bind_settled (.need rfl) fun r' same => ?_
  subst same
  refine .bind_settled (Typing.settles_ownerOf r'.type q) fun owner known => ?_
  split
  · exact .fail
  · next m found =>
    split
    · refine .modify_bind (.bind_settled (.need rfl) fun e' same => ?_)
      subst same
      refine .bind_settled (settles_converted e' m.result q) fun code same => .pure ?_
      subst same
      obtain ⟨named, member⟩ := member?_of known.1 (Option.filter_eq_some_iff.1 found).1
      rw [named]
      exact ⟨⟨rfl, rfl⟩, .setField ofReceiver member lowers⟩
    · exact .fail

theorem GivesInstr.of_keeps {st : Statement} {i : Instr} (keeps : Keeps s s')
    (lowers : LowersStatement c s.scope s.slots st i s.scope s.slots) :
    GivesInstr c s st i s' := by
  rw [GivesInstr, keeps.scope, keeps.slots]
  exact lowers

theorem yields_assignment (declared : Declared s.scope) (target value : Expr) (p : Position) :
    Yields c s (assignment target value p) (GivesInstr c s (.assign p target value)) := by
  cases target with
  | var q name =>
    refine .assignVariable (yields_lowered value declared) fun e s₁ ⟨keeps, lowers⟩ => ?_
    refine .mono (yields_assignVariable (keeps.scope.symm ▸ declared) (keeps.scope.symm ▸ lowers)
      name q p) fun i s₂ after => ?_
    obtain ⟨rfl, assigns⟩ := after
    rw [keeps.scope, keeps.slots] at assigns
    exact .of_keeps keeps assigns
  | field q h receiver name =>
    refine .assignField (yields_lowered receiver declared) fun r s₁ ⟨keeps₁, ofReceiver⟩ =>
      ⟨_, yields_lowered value (keeps₁.scope.symm ▸ declared), fun e s₂ ⟨keeps₂, lowers⟩ => ?_⟩
    have keeps := keeps₁.trans keeps₂
    refine .mono (yields_assignField (h := h) (keeps.scope.symm ▸ ofReceiver)
      (keeps₂.scope.symm ▸ lowers) name q p) fun i s₃ after => ?_
    obtain ⟨keeps₃, assigns⟩ := after
    rw [keeps.scope, keeps.slots] at assigns
    exact .of_keeps (keeps.trans keeps₃) assigns
  | _ => exact .fail

theorem yields_give {result : Ty} (declared : Declared s.scope) (isResult : c.result = some result)
    (value : Option Expr) (p : Position) :
    Yields c s (give value p) (GivesInstr c s (.give p value)) := by
  cases value with
  | none => exact .fail
  | some e =>
    refine .give isResult (yields_lowered e declared) fun typed s₁ ⟨keeps, lowers⟩ => ?_
    refine (settles_converted typed result e.position).mono fun code same => ?_
    subst same
    exact .of_keeps keeps (.give lowers isResult)

theorem Declared.behind {scope' : List (String × Variable)} {slots slots' : Nat} {st : Statement}
    {i : Instr} (declared : Declared scope)
    (lowers : LowersStatement c scope slots st i scope' slots') : Declared scope' := by
  cases lowers with
  | bind => exact List.forall_mem_cons.2 ⟨⟨_, rfl⟩, declared⟩
  | _ => exact declared

/-- What the checks of a list of statements yield wherever it stands. -/
def YieldsBody (c : Context) (body : List Statement) : Prop :=
  ∀ {s : State}, Declared s.scope → Yields c s (statements body) (GivesBody c s body)

section

variable {body otherwise : List Statement}

theorem yields_ifThen (declared : Declared s.scope) (p : Position) (cond : Expr)
    (inner : YieldsBody c body) :
    Yields c s (statement (.ifThen p cond body)) (GivesInstr c s (.ifThen p cond body)) := by
  refine .ifThen (yields_exprOf declared .bool .conditionType cond) fun code s₁ after => ?_
  obtain ⟨typed, rfl, keeps, lowers⟩ := after
  refine .mono (yields_block (inner (keeps.scope.symm ▸ declared))) fun b s₂ after => ?_
  obtain ⟨scope, inside, block⟩ := after
  rw [keeps.scope, keeps.slots] at block
  rw [GivesInstr, scope, keeps.scope]
  exact .ifThen lowers block

theorem yields_ifThenElse (declared : Declared s.scope) (p : Position) (cond : Expr)
    (inner : YieldsBody c body) (inner' : YieldsBody c otherwise) :
    Yields c s (statement (.ifThenElse p cond body otherwise))
      (GivesInstr c s (.ifThenElse p cond body otherwise)) := by
  refine .ifThenElse (yields_exprOf declared .bool .conditionType cond) fun code s₁ after => ?_
  obtain ⟨typed, rfl, keeps, lowers⟩ := after
  have declared₁ : Declared s₁.scope := keeps.scope.symm ▸ declared
  refine ⟨_, yields_block (inner declared₁), fun b s₂ ⟨scope₂, inside, block⟩ => ?_⟩
  refine .mono (yields_block (inner' (scope₂.symm ▸ declared₁))) fun b' s₃ after => ?_
  obtain ⟨scope₃, inside', block'⟩ := after
  rw [scope₂, keeps.scope] at block'
  rw [keeps.scope, keeps.slots] at block
  rw [GivesInstr, scope₃, scope₂, keeps.scope]
  exact .ifThenElse lowers block block'

theorem yields_round (declared : Declared s.scope) (name : String) (p : Position)
    (inner : YieldsBody c body) :
    Yields c s (do
      let slot ← declare name (some .int) false p
      return (slot, ← inScope (statements body)) : Check (Nat × List Instr)) fun r s' =>
      r.1 = s.slots ∧ ∃ inside, LowersBody c ((name, ⟨s.slots, some .int, false⟩) :: s.scope)
        (s.slots + 1) body r.2 inside s'.slots := by
  refine .bind (Typing.yields_declare name (some .int) false p) (fun _ =>
    .bind (.inScope (grows.statements body)) fun _ => .pure _) fun slot s₁ after => ?_
  obtain ⟨rfl, rfl⟩ := after
  have declared₁ : Declared (s.declare name (some .int) false).scope :=
    List.forall_mem_cons.2 ⟨⟨_, rfl⟩, declared⟩
  refine .bind (yields_block (inner declared₁)) (fun _ => .pure _) fun code s₂ after => .pure ?_
  obtain ⟨-, inside, lowers⟩ := after
  exact ⟨rfl, inside, lowers⟩

theorem yields_loop (declared : Declared s.scope) (p : Position) (name : String)
    (first last : Expr) (inner : YieldsBody c body) :
    Yields c s (statement (.loop p name first last body))
      (GivesInstr c s (.loop p name first last body)) := by
  refine .loop (yields_exprOf declared .int .boundType first) fun code s₁ after => ?_
  obtain ⟨a, rfl, keeps₁, ofFirst⟩ := after
  have declared₁ : Declared s₁.scope := keeps₁.scope.symm ▸ declared
  refine ⟨_, yields_exprOf declared₁ .int .boundType last, fun code' s₂ after => ?_⟩
  obtain ⟨b, rfl, keeps₂, ofLast⟩ := after
  have keeps := keeps₁.trans keeps₂
  refine .mono (yields_round (keeps.scope.symm ▸ declared) name p inner).inScope
    fun r s₄ after => ?_
  obtain ⟨s₃, ⟨slot, inside, lowers⟩, rfl⟩ := after
  rw [keeps.scope, keeps.slots] at lowers
  rw [GivesInstr, keeps.scope, slot, keeps.slots]
  exact .loop ofFirst (keeps₁.scope ▸ ofLast) lowers

end

mutual

theorem yields_statement {result : Ty} (isResult : c.result = some result) :
    ∀ {s : State} (st : Statement), Declared s.scope →
      Yields c s (statement st) (GivesInstr c s st)
  | s, .bind p name type init, declared => yields_bind declared p name type init
  | s, .assign p target value, declared => by
    rw [statement]
    exact yields_assignment declared target value p
  | s, .ifThen p cond body, declared =>
    yields_ifThen declared p cond fun declared => yields_lowersBody isResult body declared
  | s, .ifThenElse p cond body otherwise, declared =>
    yields_ifThenElse declared p cond (fun declared => yields_lowersBody isResult body declared)
      fun declared => yields_lowersBody isResult otherwise declared
  | s, .loop p name first last body, declared =>
    yields_loop declared p name first last fun declared =>
      yields_lowersBody isResult body declared
  | s, .give p value, declared => by
    rw [statement]
    exact yields_give declared isResult value p
  | s, .eval p value, declared => by
    rw [statement]
    refine .bind (yields_lowered value declared) (fun _ => .pure _) fun e s₁ after => .pure ?_
    obtain ⟨keeps, lowers⟩ := after
    exact .of_keeps keeps (.eval lowers)

theorem yields_lowersBody {result : Ty} (isResult : c.result = some result) :
    ∀ {s : State} (body : List Statement), Declared s.scope →
      Yields c s (statements body) (GivesBody c s body)
  | s, [], _ => by
    rw [statements]
    exact .pure .nil
  | s, st :: rest, declared =>
    .statements_cons (yields_statement isResult st declared) fun i s₁ lowers =>
      .mono (yields_lowersBody isResult rest (declared.behind lowers)) fun b s₂ others =>
        .cons lowers others

end

/-! ## Units -/

theorem resolveImports_fst (symbols : SymbolTable) (paths : List Path) :
    (Typing.resolveImports symbols paths).1 =
      paths.filterMap fun p => symbols.resolve? p.qualified := by
  induction paths with
  | nil => rfl
  | cons p rest ih =>
    rw [Typing.resolveImports, List.filterMap_cons, ← ih]
    cases symbols.resolve? p.qualified <;> rfl

theorem yields_signature (f : Source.Function) :
    Yields c s (Typing.signature f) fun types s' => ∃ param result,
      types = (some param, some result) ∧ type? c f.paramType = some param ∧
      type? c f.resultType = some result ∧ s' = s.declare f.param (some param) false := by
  refine .bind (settles_type? f.paramType).yields.attempt (fun _ =>
    .bind (.attempt (grows.resolveType _)) fun _ => .bind (grows.declare _ _ _ _) fun _ => .pure _)
    fun o s₁ after => ?_
  obtain ⟨param, rfl, rfl, isParam⟩ := after
  refine .bind (settles_type? f.resultType).yields.attempt (fun _ =>
    .bind (grows.declare _ _ _ _) fun _ => .pure _) fun o s₂ after => ?_
  obtain ⟨result, rfl, rfl, isResult⟩ := after
  refine .bind (Typing.yields_declare f.param (some param) false f.paramType.position)
    (fun _ => .pure _) fun slot s₃ after => .pure ?_
  obtain ⟨rfl, rfl⟩ := after
  exact ⟨param, result, rfl, isParam, isResult, rfl⟩

/-- The body of a unit that is accepted is lowered with the parameter in the first slot. -/
theorem checkUnit_lowers {symbols : SymbolTable} {u : Source.CompilationUnit} {program : Program}
    (accepted : Typing.checkUnit symbols u = .ok program) :
    type? (Typing.contextOf symbols u none) u.entry.paramType = some program.entry.param ∧
    type? (Typing.contextOf symbols u none) u.entry.resultType = some program.entry.result ∧
    ∃ scope', LowersBody (Typing.contextOf symbols u (some program.entry.result))
      [(u.entry.param, ⟨0, some program.entry.param, false⟩)] 1 u.entry.body program.body scope'
      program.slots := by
  obtain ⟨declared, final, signed, ran, clean, -, slots, -⟩ := Typing.checkUnit_ok accepted
  have cleanDeclared := (Grows.inScope (grows.statements u.entry.body)).clean ran clean
  obtain ⟨_, is, param, result, rfl, isParam, isResult, rfl⟩ :=
    (yields_signature u.entry).result signed cleanDeclared
  cases is
  refine ⟨isParam, isResult, ?_⟩
  have known : Declared ((Typing.stateOf symbols u).declare u.entry.param
      (some program.entry.param) false).scope :=
    List.forall_mem_cons.2 ⟨⟨_, rfl⟩, nofun⟩
  obtain ⟨_, is, -, inner, lowers⟩ :=
    (yields_block (yields_lowersBody rfl u.entry.body known)).result ran clean
  cases is
  exact ⟨inner, slots ▸ lowers⟩

end SceneScript.Lexical
