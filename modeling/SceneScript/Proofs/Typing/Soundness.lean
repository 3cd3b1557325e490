import SceneScript.Proofs.Typing.Names

/-!
# Soundness of the checker

What the checker accepts is well typed. The types of the variables are kept beside the state of the
checker, by slot: a variable in scope has the type that is listed for its slot, and declaring one
appends to the list. An expression leaves the variables as they are (`yields_expr`); a statement may
declare some, and the list of types only grows (`yields_statement`).
-/

namespace SceneScript.Typing

open Source (Expr Statement Path TypeName UnaryOp BinaryOp)
open Check

def State.live (s : State) : List Nat :=
  s.scope.map fun x => x.2.slot

variable {c : Context} {types : List Ty} {live : List Nat} {s s' : State}

structure Scoped (types : List Ty) (s : State) : Prop where
  slots : s.slots = types.length
  types : ∀ x ∈ s.scope, ∃ t, x.2.type = some t ∧ types[x.2.slot]? = some t

structure Keeps (s s' : State) : Prop where
  scope : s'.scope = s.scope
  slots : s'.slots = s.slots

theorem Keeps.refl (s : State) : Keeps s s := ⟨rfl, rfl⟩

theorem Keeps.trans {s'' : State} (first : Keeps s s') (second : Keeps s' s'') : Keeps s s'' :=
  ⟨second.scope.trans first.scope, second.slots.trans first.slots⟩

theorem Keeps.live_eq (keeps : Keeps s s') : s'.live = s.live := by
  rw [State.live, State.live, keeps.scope]

theorem Keeps.scope_known (keeps : Keeps s s') (known : Scoped types s) : Scoped types s' where
  slots := keeps.slots.trans known.slots
  types := keeps.scope ▸ known.types

/-! ## Conversions -/

theorem widen_typed {e : Typed} (typed : e.code.HasType types live e.type) :
    (widen e).code.HasType types live (widen e).type := by
  unfold widen
  split
  · next int => exact .widen (int ▸ typed)
  · exact typed

theorem widen_uses (e : Typed) : (widen e).code.uses = e.code.uses := by
  unfold widen
  split
  · rw [Code.uses]
  · rfl

theorem widen_type {e : Typed} (numeric : e.type.isNumeric = true) : (widen e).type = .float := by
  unfold widen
  split
  · rfl
  · next notInt => cases h : e.type <;> simp_all [Ty.isNumeric]

structure Typed.Becomes (types : List Ty) (live : List Nat) (e : Typed) (target : Ty)
    (code : Code) : Prop where
  fits : ∃ t, code.HasType types live t ∧ t.FitsIn target
  uses : code.uses = e.code.uses

theorem settles_coerce {e : Typed} (typed : e.code.HasType types live e.type) (target : Ty)
    (position : Position) :
    Settles c s (coerce e target position) (e.Becomes types live target) := by
  unfold coerce
  split
  · next toFloat =>
    refine .pure ⟨⟨.float, ?_, ?_⟩, widen_uses e⟩
    · have numeric : e.type.isNumeric = true := by rw [toFloat.1]; rfl
      exact widen_type numeric ▸ widen_typed typed
    · rw [toFloat.2]
      exact ⟨rfl, by simp⟩
  · next kept =>
    split
    · next fits => exact .pure ⟨⟨e.type, typed, fits, kept⟩, rfl⟩
    · exact .fail

theorem unify_typed {left right : Typed} (ofLeft : left.code.HasType types live left.type)
    (ofRight : right.code.HasType types live right.type)
    (numeric : left.type.isNumeric = true ∧ right.type.isNumeric = true) :
    ∃ t, t.isNumeric = true ∧ (unify left right).1.code.HasType types live t ∧
      (unify left right).2.code.HasType types live t ∧ (unify left right).1.type = t := by
  unfold unify
  split
  · next ints => exact ⟨.int, rfl, ints.1 ▸ ofLeft, ints.2 ▸ ofRight, ints.1⟩
  · have isLeft := widen_type numeric.1
    have isRight := widen_type numeric.2
    exact ⟨.float, rfl, isLeft ▸ widen_typed ofLeft, isRight ▸ widen_typed ofRight, isLeft⟩

theorem unify_uses (left right : Typed) :
    (unify left right).1.code.uses = left.code.uses ∧
      (unify left right).2.code.uses = right.code.uses := by
  unfold unify
  split
  · exact ⟨rfl, rfl⟩
  · exact ⟨widen_uses left, widen_uses right⟩

/-! ## Operators -/

theorem settles_unary (op : UnaryOp) {e : Typed} (typed : e.code.HasType types live e.type)
    (position : Position) :
    Settles c s (unary op e position) fun e' =>
      e'.code.HasType types live e'.type ∧ e'.code.uses = e.code.uses := by
  unfold unary
  dsimp only
  cases op with
  | neg =>
    dsimp only
    split
    · next numeric => exact .pure ⟨.neg typed numeric, by rw [Code.uses]⟩
    · exact .fail
  | not =>
    dsimp only
    split
    · next isBool =>
      have isBool := of_decide_eq_true isBool
      refine .pure ⟨?_, by rw [Code.uses]⟩
      dsimp only
      rw [isBool] at typed ⊢
      exact .not typed
    · exact .fail

theorem comparable_sound {t u : Ty} (is : comparable t u = true) : t.Comparable u := by
  unfold comparable at is
  simp only [Bool.or_eq_true, Bool.and_eq_true, decide_eq_true_eq] at is
  rcases is with bools | ⟨⟨left, right⟩, fits⟩
  · exact .inr (.inl bools)
  · exact .inr (.inr ⟨left, right, fits⟩)

structure Typed.Joins (types : List Ty) (live : List Nat) (left right e : Typed) : Prop where
  typed : e.code.HasType types live e.type
  uses : e.code.uses = left.code.uses ++ right.code.uses

section Binary

variable {op : BinaryOp} {left right : Typed} {position : Position} {mismatch : Check Typed}

theorem settles_numeric {type : Ty → Ty}
    (rule : ∀ {t l r}, t.isNumeric = true → Code.HasType types live l t →
      Code.HasType types live r t → (Code.binary position op l r).HasType types live (type t))
    (ofLeft : left.code.HasType types live left.type)
    (ofRight : right.code.HasType types live right.type)
    (otherwise : Settles c s mismatch (left.Joins types live right)) :
    Settles c s
      (if left.type.isNumeric && right.type.isNumeric then
        pure ⟨.binary position op (unify left right).1.code (unify left right).2.code,
          type (unify left right).1.type⟩
      else mismatch)
      (left.Joins types live right) := by
  split
  · next numeric =>
    obtain ⟨t, isNumeric, ofL, ofR, is⟩ :=
      unify_typed ofLeft ofRight (Bool.and_eq_true_iff.1 numeric)
    refine .pure ⟨is ▸ rule isNumeric ofL ofR, ?_⟩
    rw [Code.uses, (unify_uses left right).1, (unify_uses left right).2]
  · exact otherwise

theorem settles_binary (op : BinaryOp) (ofLeft : left.code.HasType types live left.type)
    (ofRight : right.code.HasType types live right.type) (position : Position) :
    Settles c s (binary op left right position) (left.Joins types live right) := by
  unfold binary
  cases op with
  | add =>
    dsimp only
    split
    · split
      · exact .fail
      · next nonVoid =>
        rw [not_or] at nonVoid
        exact .pure ⟨.concat ofLeft ofRight nonVoid.1 nonVoid.2, by rw [Code.uses]⟩
    · exact settles_numeric (.arithmetic (by simp)) ofLeft ofRight .fail
  | sub | mul | div | rem => exact settles_numeric (.arithmetic (by simp)) ofLeft ofRight .fail
  | lt | le | gt | ge => exact settles_numeric (.order (by simp)) ofLeft ofRight .fail
  | eq | ne =>
    refine settles_numeric (fun numeric => .equality (by simp) (.inl ⟨rfl, numeric⟩)) ofLeft
      ofRight ?_
    split
    · next is =>
      exact .pure ⟨.equality (by simp) (comparable_sound is) ofLeft ofRight, by rw [Code.uses]⟩
    · exact .fail
  | and | or =>
    dsimp only
    split
    · next bools =>
      exact .pure ⟨.logic (by simp) (bools.1 ▸ ofLeft) (bools.2 ▸ ofRight), by rw [Code.uses]⟩
    · exact .fail

end Binary

/-! ## Members -/

theorem name_of_instanceMember? {owner : HostClass} {name : String} {m : Member}
    (found : owner.instanceMember? name = some m) : m.name = name :=
  eq_of_beq (Bool.and_eq_true_iff.1 (List.find?_some found :)).1

theorem name_of_staticMember? {owner : HostClass} {name : String} {m : Member}
    (found : owner.staticMember? name = some m) : m.name = name :=
  eq_of_beq (Bool.and_eq_true_iff.1 (List.find?_some found :)).1

def UsesMember (c : Context) (types : List Ty) (s : State) (uses : List Use) (e : Typed)
    (s' : State) : Prop :=
  ∃ u : Use, u.owner ∈ c.symbols.granted ∧
    s' = { s with references := u.owner :: s.references } ∧
    e.code.HasType types s.live e.type ∧ e.code.uses = u :: uses

structure ArgsTyped (types : List Ty) (live : List Nat) (args : List (Position × Option Typed))
    (typed : List Typed) : Prop where
  found : args.map Prod.snd = typed.map some
  haveTypes : HaveTypes types live (typed.map Typed.code) (typed.map Typed.type)

structure ArgsBecome (types : List Ty) (live : List Nat) (typed : List Typed) (params : List Ty)
    (codes : List Code) : Prop where
  fit : ∃ ts, HaveTypes types live codes ts ∧ List.Forall₂ Ty.FitsIn ts params
  uses : usesAll codes = usesAll (typed.map Typed.code)

theorem yields_coerceArgs {args : List (Position × Option Typed)} {typed : List Typed}
    {params : List Ty} (ofArgs : ArgsTyped types live args typed)
    (length : args.length = params.length) :
    Yields c s (coerceArgs args params) fun codes s' =>
      s' = s ∧ ArgsBecome types live typed params codes := by
  induction args generalizing typed params with
  | nil =>
    obtain rfl : typed = [] := by simpa using ofArgs.found.symm
    obtain rfl := List.length_eq_zero_iff.1 length.symm
    exact .pure ⟨rfl, ⟨[], .nil, .nil⟩, rfl⟩
  | cons arg args ih =>
    obtain ⟨found, haveTypes⟩ := ofArgs
    cases typed with
    | nil => simp at found
    | cons e rest =>
      cases params with
      | nil => simp at length
      | cons param params =>
        simp only [List.map_cons, List.cons.injEq] at found
        simp only [List.map_cons, List.forall₂_cons] at haveTypes
        have others := ih ⟨found.2, haveTypes.2⟩ (Nat.succ.inj length)
        refine .coerceArgs_cons found.1 (settles_coerce haveTypes.1 param arg.1) others ?_
        rintro code codes s' become ⟨rfl, becomeRest⟩
        obtain ⟨t, ofType, fits⟩ := become.fits
        obtain ⟨ts, ofTypes, fit⟩ := becomeRest.fit
        refine ⟨rfl, ⟨t :: ts, .cons ofType ofTypes, .cons fits fit⟩, ?_⟩
        simp only [List.map_cons, usesAll, become.uses, becomeRest.uses]

theorem yields_arguments {args : List (Position × Option Typed)} {typed : List Typed}
    (owner : HostClass) (m : Member) (ofArgs : ArgsTyped types live args typed)
    (position : Position) :
    Yields c s (arguments owner m args position) fun codes s' =>
      s' = s ∧ ArgsBecome types live typed m.params codes := by
  unfold arguments
  split
  · next length => exact yields_coerceArgs ofArgs length
  · exact .fail

theorem yields_getField {target : Typed} (ofTarget : target.code.HasType types s.live target.type)
    (name : String) (position : Position) :
    Yields c s (getField target name position) (UsesMember c types s target.code.uses) := by
  refine .bind_settled (settles_ownerOf target.type position) fun owner known => ?_
  split
  · next m found =>
    split
    · next isField =>
      refine .modify_bind (.pure ⟨⟨owner, .field, m.name⟩, known.2, rfl, ?_, by rw [Code.uses]⟩)
      obtain rfl := name_of_instanceMember? found
      exact .getField ofTarget known.1 (Option.filter_eq_some_iff.2 ⟨found, isField⟩)
    · exact .fail
  · exact .fail

theorem yields_call {target : Typed} {args : List (Position × Option Typed)} {typed : List Typed}
    (ofTarget : target.code.HasType types s.live target.type)
    (ofArgs : ArgsTyped types s.live args typed) (name : String) (position : Position) :
    Yields c s (call target name args position)
      (UsesMember c types s (target.code.uses ++ usesAll (typed.map Typed.code))) := by
  refine .bind_settled (settles_ownerOf target.type position) fun owner known => ?_
  split
  · next m found =>
    refine .bind (yields_arguments owner m ofArgs position)
      (fun _ => .bind (grows.refer _) fun _ => .pure _) fun codes s' after => ?_
    obtain ⟨rfl, become⟩ := after
    obtain ⟨ts, haveTypes, fit⟩ := become.fit
    refine .modify_bind (.pure ⟨⟨owner, .method, m.name⟩, known.2, rfl, ?_, ?_⟩)
    · obtain ⟨described, kind⟩ := Option.filter_eq_some_iff.1 found
      obtain rfl := name_of_instanceMember? described
      exact .call ofTarget known.1 found haveTypes fit
    · rw [Code.uses, become.uses]
  · exact .fail

theorem yields_getStatic (types : List Ty) (type : Path) (name : String) (position : Position)
    (trusted : c.Trusted) :
    Yields c s (getStatic type name position) fun e s' =>
      (∃ k, c.Names type k) ∧ UsesMember c types s [] e s' := by
  refine .bind_settled (settles_resolvePath type) fun owner names => ?_
  split
  · next m found =>
    split
    · next isConstant =>
      refine .modify_bind (.pure ⟨⟨owner, names⟩, ⟨owner, .constant, m.name⟩,
        names.granted trusted, rfl, ?_, by rw [Code.uses]⟩)
      obtain rfl := name_of_staticMember? found
      exact .getConstant (Option.filter_eq_some_iff.2 ⟨found, decide_eq_true isConstant⟩)
    · exact .fail
  · exact .fail

theorem yields_callStatic {args : List (Position × Option Typed)} {typed : List Typed}
    (type : Path) (ofArgs : ArgsTyped types s.live args typed) (name : String)
    (position : Position) (trusted : c.Trusted) :
    Yields c s (callStatic type name args position) fun e s' =>
      (∃ k, c.Names type k) ∧ UsesMember c types s (usesAll (typed.map Typed.code)) e s' := by
  refine .bind_settled (settles_resolvePath type) fun owner names => ?_
  split
  · next m found =>
    refine .bind (yields_arguments owner m ofArgs position)
      (fun _ => .bind (grows.refer _) fun _ => .pure _) fun codes s' after => ?_
    obtain ⟨rfl, become⟩ := after
    obtain ⟨ts, haveTypes, fit⟩ := become.fit
    refine .modify_bind (.pure ⟨⟨owner, names⟩, ⟨owner, .staticMethod, m.name⟩,
      names.granted trusted, rfl, ?_, ?_⟩)
    · obtain ⟨described, kind⟩ := Option.filter_eq_some_iff.1 found
      obtain rfl := name_of_staticMember? described
      exact .callStatic found haveTypes fit
    · rw [Code.uses, become.uses]
  · exact .fail

/-! ## Expressions -/

structure Checked (c : Context) (types : List Ty) (s : State) (paths : List Path) (e : Typed)
    (s' : State) : Prop where
  typed : e.code.HasType types s.live e.type
  keeps : Keeps s s'
  records : Records c s s' e.code.uses paths

structure AllChecked (c : Context) (types : List Ty) (s : State) (paths : List Path)
    (args : List (Position × Option Typed)) (s' : State) (typed : List Typed) : Prop where
  args : ArgsTyped types s.live args typed
  keeps : Keeps s s'
  records : Records c s s' (usesAll (typed.map Typed.code)) paths

theorem UsesMember.checked {uses : List Use} {paths : List Path} {e : Typed} {s'' : State}
    (used : UsesMember c types s' uses e s'') (keeps : Keeps s s')
    (records : Records c s s' uses paths) : Checked c types s paths e s'' := by
  obtain ⟨u, granted, rfl, typed, is⟩ := used
  refine ⟨keeps.live_eq ▸ typed, ⟨keeps.scope, keeps.slots⟩, ?_⟩
  rw [is]
  exact records.use granted rfl

theorem settles_lookup? (known : Scoped types s) (name : String) :
    Settles c s (lookup? name) fun found => ∀ v, found = some v →
      v.slot ∈ s.live ∧ ∃ t, v.type = some t ∧ types[v.slot]? = some t := by
  refine .get_bind (.pure fun v found => ?_)
  obtain ⟨before, after, split, -⟩ := List.lookup_eq_some_iff.1 found
  have mem : (name, v) ∈ s.scope := by simp [split]
  exact ⟨List.mem_map.2 ⟨_, mem, rfl⟩, known.types _ mem⟩

theorem yields_readVariable (known : Scoped types s) (name : String) (position : Position) :
    Yields c s (readVariable name position) (Checked c types s []) := by
  refine .bind_settled (settles_lookup? known name) fun found is => ?_
  split
  · next v =>
    obtain ⟨isLive, t, declared, listed⟩ := is v rfl
    refine .bind_settled (.need declared) fun t' same => ?_
    subst same
    exact .pure ⟨.load isLive listed, .refl s, by rw [Code.uses]; exact .nothing rfl⟩
  · refine .bind_settled (settles_imported? name) fun found _ => ?_
    split
    · exact .fail
    · exact .fail

mutual

theorem yields_expr (trusted : c.Trusted) : ∀ {s : State} (e : Expr), Scoped types s →
    Yields c s (expr e) (Checked c types s e.paths)
  | s, .int .., _ | s, .float .., _ | s, .string .., _ | s, .bool .., _ | s, .null .., _ => by
    rw [expr, Expr.paths]
    exact .pure ⟨.const, .refl s, by rw [Code.uses]; exact .nothing rfl⟩
  | s, .var p name, known => by
    rw [expr, Expr.paths]
    exact yields_readVariable known name p
  | s, .field p _ receiver name, known => by
    rw [expr, Expr.paths]
    refine .bind (yields_expr trusted receiver known) (fun _ => grows.getField _ _ _)
      fun target s' checked => ?_
    have ofTarget := checked.keeps.live_eq ▸ checked.typed
    refine .mono (yields_getField ofTarget name p) fun e s'' used => ?_
    exact used.checked checked.keeps checked.records
  | s, .call p _ receiver name args, known => by
    rw [Expr.paths]
    refine .call (yields_expr trusted receiver known) fun target s₁ checked =>
      ⟨_, yields_attempts trusted args (checked.keeps.scope_known known), fun found s₂ after => ?_⟩
    obtain ⟨typed, all⟩ := after
    have keeps := checked.keeps.trans all.keeps
    have ofArgs : ArgsTyped types s₂.live found typed := all.keeps.live_eq ▸ all.args
    refine .mono (yields_call (keeps.live_eq ▸ checked.typed) ofArgs name p) fun e s₃ used => ?_
    exact used.checked keeps (checked.records.trans all.records)
  | s, .staticField p type name, known => by
    rw [expr, Expr.paths]
    refine .mono (yields_getStatic types type name p trusted) fun e s' after => ?_
    obtain ⟨names, used⟩ := after
    refine used.checked (.refl s) ((Records.nothing rfl).name [type] fun q mem => ?_)
    rwa [List.mem_singleton.1 mem]
  | s, .staticCall p _ type name args, known => by
    rw [expr, Expr.paths]
    refine .bind (yields_attempts trusted args known) (fun _ => grows.callStatic _ _ _ _)
      fun found s₁ after => ?_
    obtain ⟨typed, all⟩ := after
    have ofArgs : ArgsTyped types s₁.live found typed := all.keeps.live_eq ▸ all.args
    refine .mono (yields_callStatic type ofArgs name p trusted) fun e s₂ after => ?_
    obtain ⟨names, used⟩ := after
    refine used.checked all.keeps (all.records.name [type] fun q mem => ?_)
    rwa [List.mem_singleton.1 mem]
  | s, .unary p _ op operand, known => by
    rw [expr, Expr.paths]
    refine .bind (yields_expr trusted operand known) (fun _ => grows.unary _ _ _)
      fun e s' checked => ?_
    refine .mono (settles_unary op checked.typed p).yields fun e' s'' after => ?_
    obtain ⟨rfl, typed, uses⟩ := after
    exact ⟨typed, checked.keeps, uses ▸ checked.records⟩
  | s, .binary p _ op left right, known => by
    rw [Expr.paths]
    refine .binary (yields_expr trusted left known) fun l s₁ checkedL =>
      ⟨_, yields_expr trusted right (checkedL.keeps.scope_known known), fun r s₂ checkedR => ?_⟩
    have ofRight := checkedL.keeps.live_eq ▸ checkedR.typed
    refine .mono (settles_binary op checkedL.typed ofRight p).yields fun e s' after => ?_
    obtain ⟨rfl, joins⟩ := after
    refine ⟨joins.typed, checkedL.keeps.trans checkedR.keeps, ?_⟩
    rw [joins.uses]
    exact checkedL.records.trans checkedR.records

theorem yields_attempts (trusted : c.Trusted) : ∀ {s : State} (es : List Expr), Scoped types s →
    Yields c s (attempts es) fun args s' =>
      ∃ typed, AllChecked c types s (Source.pathsAll es) args s' typed
  | s, [], _ => by
    rw [attempts, Source.pathsAll]
    exact .pure ⟨[], ⟨rfl, .nil⟩, .refl s, .nothing rfl⟩
  | s, e :: es, known => by
    rw [Source.pathsAll]
    refine .attempts_cons (yields_expr trusted e known) fun first s₁ checked => ?_
    refine .mono (yields_attempts trusted es (checked.keeps.scope_known known))
      fun found s₂ after => ?_
    obtain ⟨typed, all⟩ := after
    have ofArgs : ArgsTyped types s.live found typed := checked.keeps.live_eq ▸ all.args
    refine ⟨first :: typed, ⟨?_, .cons checked.typed ofArgs.haveTypes⟩,
      checked.keeps.trans all.keeps, checked.records.trans all.records⟩
    rw [List.map_cons, List.map_cons, ofArgs.found]

end

theorem yields_exprOf (trusted : c.Trusted) (known : Scoped types s) (type : Ty)
    (error : Ty → Error) (e : Expr) :
    Yields c s (exprOf type error e) fun code s' =>
      Checked c types s e.paths ⟨code, type⟩ s' :=
  .exprOf (yields_expr trusted e known) fun _ _ checked is =>
    ⟨is ▸ checked.typed, checked.keeps, checked.records⟩

/-! ## Variables -/

def State.declare (s : State) (name : String) (type : Option Ty) (assignable : Bool) : State :=
  { s with slots := s.slots + 1, scope := (name, ⟨s.slots, type, assignable⟩) :: s.scope }

theorem yields_declare (name : String) (type : Option Ty) (assignable : Bool)
    (position : Position) :
    Yields c s (declare name type assignable position) fun slot s' =>
      slot = s.slots ∧ s' = s.declare name type assignable := by
  have isFound : Settles c s (lookup? name) fun _ => True := .get_bind (.pure trivial)
  refine .bind_settled isFound fun found _ => ?_
  dsimp only
  split
  · refine .report_bind fun _ => ?_
    exact .bind .get fun _ => .bind (.modify fun _ => rfl) fun _ => .pure _
  · exact .get_bind (.modify_bind (.pure ⟨rfl, rfl⟩))

theorem Scoped.declare (known : Scoped types s) (name : String) (t : Ty) (assignable : Bool) :
    Scoped (types ++ [t]) (s.declare name (some t) assignable) where
  slots := by simp [State.declare, known.slots]
  types x mem := by
    rcases List.mem_cons.1 mem with rfl | mem
    · exact ⟨t, rfl, by simp [known.slots]⟩
    · obtain ⟨u, declared, listed⟩ := known.types x mem
      exact ⟨u, declared, getElem?_of_more (List.prefix_append types [t]) listed⟩

/-! ## Statements -/

/-- What holds of the variables and records between two states: the list of types has grown to hold
the variables in scope. -/
structure Follows (c : Context) (types : List Ty) (s : State) (uses : List Use)
    (paths : List Path) (s' : State) (types' : List Ty) : Prop where
  more : types <+: types'
  known : Scoped types' s'
  records : Records c s s' uses paths

structure Binds (c : Context) (types : List Ty) (s : State) (paths : List Path) (t : Ty)
    (code : Code) (s' : State) : Prop where
  fits : ∃ u, code.HasType types s.live u ∧ u.FitsIn t
  keeps : Keeps s s'
  records : Records c s s' code.uses paths

theorem yields_binding (trusted : c.Trusted) (known : Scoped types s) (name : String)
    (type : Option TypeName) (init : Expr) (position : Position) :
    Yields c s (binding name type init position) fun r s' =>
      ∃ t code, r = (some t, some code) ∧
        Binds c types s (init.paths ++ (type.map TypeName.paths).getD []) t code s' := by
  cases type with
  | some t =>
    refine .binding_typed (yields_expr trusted init known) (fun _ _ _ => settles_resolveType t)
      fun e s₁ u checked named => ⟨_, settles_coerce checked.typed u init.position, ?_⟩
    intro code become
    refine ⟨u, code, rfl, become.fits, checked.keeps, ?_⟩
    rw [become.uses]
    exact (checked.records.name _ named).congr (fun _ => .rfl) fun p => by simp [or_comm]
  | none =>
    refine .binding_inferred (yields_expr trusted init known) fun e s₁ checked _ nonVoid => ?_
    refine ⟨e.type, e.code, rfl, ⟨e.type, checked.typed, ?_, ?_⟩, checked.keeps, ?_⟩
    · simpa [Ty.assignableTo] using nonVoid
    · rintro ⟨int, float⟩
      simp [int] at float
    · simpa using checked.records

def StatementChecked (c : Context) (types : List Ty) (result : Ty) (s : State) (paths : List Path)
    (i : Instr) (s' : State) : Prop :=
  ∃ types', Follows c types s i.uses paths s' types' ∧ i.WellTyped types' result s.live s'.live

def BodyChecked (c : Context) (types : List Ty) (result : Ty) (s : State) (paths : List Path)
    (body : List Instr) (s' : State) : Prop :=
  ∃ types', Follows c types s (usesIn body) paths s' types' ∧
    AllWellTyped types' result s.live body s'.live

def BlockChecked (c : Context) (types : List Ty) (result : Ty) (s : State) (paths : List Path)
    (body : List Instr) (s' : State) : Prop :=
  s'.scope = s.scope ∧ ∃ types' live, Follows c types s (usesIn body) paths s' types' ∧
    AllWellTyped types' result s.live body live

section Statements

variable {result : Ty} {paths : List Path}

theorem Keeps.statement {i : Instr} (keeps : Keeps s s') (known : Scoped types s)
    (records : Records c s s' i.uses paths) (typed : i.WellTyped types result s.live s.live) :
    StatementChecked c types result s paths i s' :=
  ⟨types, ⟨List.prefix_rfl, keeps.scope_known known, records⟩, keeps.live_eq ▸ typed⟩

theorem yields_assignVariable (result : Ty) (known : Scoped types s) {e : Typed}
    (typed : e.code.HasType types s.live e.type) (name : String) (target : Position)
    (position : Position) :
    Yields c s (assignVariable name target (some e) position) fun i s' =>
      s' = s ∧ i.uses = e.code.uses ∧ i.WellTyped types result s.live s.live := by
  refine .bind_settled (settles_lookup? known name) fun found is => ?_
  split
  · exact .fail
  · next v =>
    obtain ⟨isLive, t, declared, listed⟩ := is v rfl
    split
    · refine .bind_settled (.need rfl) fun e' same => ?_
      subst same
      refine .bind_settled (.need declared) fun t' same => ?_
      subst same
      refine .bind_settled (settles_coerce typed t' target) fun code become => .pure ?_
      obtain ⟨u, ofType, fits⟩ := become.fits
      refine ⟨rfl, by rw [Instr.uses, become.uses], ?_⟩
      refine .store ofType listed fits (List.Subset.refl _) fun slot mem => ?_
      exact List.mem_cons_of_mem _ mem
    · exact .fail

theorem yields_assignField (result : Ty) {receiver e : Typed}
    (ofReceiver : receiver.code.HasType types s.live receiver.type)
    (typed : e.code.HasType types s.live e.type) (name : String) (target : Position)
    (position : Position) :
    Yields c s (assignField (some receiver) name target (some e) position) fun i s' =>
      ∃ u : Use, u.owner ∈ c.symbols.granted ∧
        s' = { s with references := u.owner :: s.references } ∧
        i.uses = u :: (receiver.code.uses ++ e.code.uses) ∧
        i.WellTyped types result s.live s.live := by
  refine .bind_settled (.need rfl) fun receiver' same => ?_
  subst same
  refine .bind_settled (settles_ownerOf receiver'.type target) fun owner known => ?_
  split
  · exact .fail
  · next m found =>
    split
    · next isField =>
      refine .modify_bind (.bind_settled (.need rfl) fun e' same => ?_)
      subst same
      refine .bind_settled (settles_coerce typed m.result target) fun code become => .pure ?_
      obtain ⟨t, ofType, fits⟩ := become.fits
      obtain ⟨described, -⟩ := Option.filter_eq_some_iff.1 found
      obtain rfl := name_of_instanceMember? described
      refine ⟨⟨owner, .assignment, m.name⟩, known.2, rfl, by rw [Instr.uses, become.uses], ?_⟩
      refine .setField ofReceiver known.1 ?_ ofType fits
      exact Option.filter_eq_some_iff.2 ⟨described, decide_eq_true isField⟩
    · exact .fail

theorem yields_assignment (trusted : c.Trusted) (known : Scoped types s) (target value : Expr)
    (position : Position) :
    Yields c s (assignment target value position)
      (StatementChecked c types result s (target.paths ++ value.paths)) := by
  cases target with
  | var p name =>
    refine .assignVariable (yields_expr trusted value known) fun e s₁ checked => ?_
    have keeps := checked.keeps
    refine .mono (yields_assignVariable result (keeps.scope_known known)
      (keeps.live_eq ▸ checked.typed) name p position) fun i s₂ after => ?_
    obtain ⟨rfl, uses, typed⟩ := after
    rw [Expr.paths, List.nil_append]
    exact keeps.statement known (uses ▸ checked.records) (keeps.live_eq ▸ typed)
  | field p h receiver name =>
    refine .assignField (yields_expr trusted receiver known) fun r s₁ checkedR =>
      ⟨_, yields_expr trusted value (checkedR.keeps.scope_known known), fun e s₂ checkedE => ?_⟩
    have keeps := checkedR.keeps.trans checkedE.keeps
    refine .mono (yields_assignField result (keeps.live_eq ▸ checkedR.typed)
      (checkedE.keeps.live_eq ▸ checkedE.typed) name p position) fun i s₃ after => ?_
    obtain ⟨u, granted, rfl, uses, typed⟩ := after
    rw [Expr.paths]
    refine Keeps.statement ⟨keeps.scope, keeps.slots⟩ known ?_ (keeps.live_eq ▸ typed)
    rw [uses]
    exact (checkedR.records.trans checkedE.records).use granted rfl
  | _ => exact .fail

theorem yields_give (trusted : c.Trusted) (known : Scoped types s)
    (isResult : c.result = some result) (value : Option Expr) (position : Position) :
    Yields c s (give value position)
      (StatementChecked c types result s ((value.map Expr.paths).getD [])) := by
  cases value with
  | none => exact .fail
  | some e =>
    refine .give isResult (yields_expr trusted e known) fun typed s₁ checked => ?_
    refine (settles_coerce checked.typed result e.position).mono fun code become => ?_
    obtain ⟨u, ofType, fits⟩ := become.fits
    refine checked.keeps.statement known ?_ (.give ofType fits)
    rw [Instr.uses, become.uses]
    exact checked.records

theorem Follows.trans {types' types'' : List Ty} {s'' : State} {uses uses' : List Use}
    {paths' : List Path} (first : Follows c types s uses paths s' types')
    (second : Follows c types' s' uses' paths' s'' types'') :
    Follows c types s (uses ++ uses') (paths ++ paths') s'' types'' where
  more := first.more.trans second.more
  known := second.known
  records := first.records.trans second.records

theorem Checked.follows {e : Typed} (checked : Checked c types s paths e s')
    (known : Scoped types s) : Follows c types s e.code.uses paths s' types where
  more := List.prefix_rfl
  known := checked.keeps.scope_known known
  records := checked.records

theorem Follows.leave {uses : List Use} {types' : List Ty}
    (follows : Follows c types s uses paths s' types') (known : Scoped types s) :
    Follows c types s uses paths { s' with scope := s.scope } types' where
  more := follows.more
  known := by
    refine ⟨follows.known.slots, fun x mem => ?_⟩
    obtain ⟨t, declared, listed⟩ := known.types x mem
    exact ⟨t, declared, getElem?_of_more follows.more listed⟩
  records := follows.records.leave

theorem yields_block {check : Check (List Instr)} (known : Scoped types s)
    (yields : Yields c s check (BodyChecked c types result s paths)) :
    Yields c s (inScope check) (BlockChecked c types result s paths) := by
  refine .mono yields.inScope fun body s' after => ?_
  obtain ⟨inner, ⟨types', follows, typed⟩, rfl⟩ := after
  exact ⟨rfl, types', inner.live, follows.leave known, typed⟩

theorem live_of_scope (same : s'.scope = s.scope) : s'.live = s.live := by
  rw [State.live, State.live, same]

theorem yields_bind (trusted : c.Trusted) (known : Scoped types s) (p : Position) (name : String)
    (type : Option TypeName) (init : Expr) :
    Yields c s (statement (.bind p name type init))
      (StatementChecked c types result s (Statement.bind p name type init).paths) := by
  rw [Statement.paths]
  refine .declaration (yields_binding trusted known name type init p) fun r s₁ after => ?_
  obtain ⟨t, code, rfl, binds⟩ := after
  refine ⟨code, rfl, (yields_declare name (some t) true p).mono fun slot s₂ after => ?_⟩
  obtain ⟨rfl, rfl⟩ := after
  have known₁ := binds.keeps.scope_known known
  have more := List.prefix_append types [t]
  obtain ⟨u, ofType, fits⟩ := binds.fits
  have listed : (types ++ [t])[s₁.slots]? = some t := by simp [known₁.slots]
  have live : (s₁.declare name (some t) true).live = s₁.slots :: s.live := by
    rw [← binds.keeps.live_eq]
    rfl
  refine ⟨types ++ [t], ⟨more, known₁.declare name t true, ?_⟩, ?_⟩
  · rw [Instr.uses]
    exact ⟨binds.records.references, binds.records.granted, binds.records.named⟩
  · rw [live]
    exact .store (ofType.weaken more (List.Subset.refl _)) listed fits
      (List.subset_cons_self _ _) (List.Subset.refl _)

/-- What the checks of a list of statements yield wherever it stands. -/
def Checks (c : Context) (result : Ty) (body : List Statement) : Prop :=
  ∀ {types : List Ty} {s : State}, Scoped types s →
    Yields c s (statements body) (BodyChecked c types result s (Source.pathsIn body))

theorem yields_ifThen {body : List Statement} (trusted : c.Trusted) (known : Scoped types s)
    (p : Position) (cond : Expr) (inner : Checks c result body) :
    Yields c s (statement (.ifThen p cond body))
      (StatementChecked c types result s (Statement.ifThen p cond body).paths) := by
  rw [Statement.paths]
  refine .ifThen (yields_exprOf trusted known .bool .conditionType cond) fun code s₁ checked => ?_
  have known₁ := checked.keeps.scope_known known
  refine .mono (yields_block known₁ (inner known₁)) fun b s₂ after => ?_
  obtain ⟨scope, types', live, follows, typed⟩ := after
  have live₁ := checked.keeps.live_eq
  have live₂ : s₂.live = s.live := (live_of_scope scope).trans live₁
  refine ⟨types', ?_, ?_⟩
  · rw [Instr.uses, usesIn, List.append_nil]
    exact (checked.follows known).trans follows
  · rw [live₂]
    exact .choose (checked.typed.weaken follows.more (List.Subset.refl _)) (live₁ ▸ typed) .nil

theorem yields_ifThenElse {body otherwise : List Statement} (trusted : c.Trusted)
    (known : Scoped types s) (p : Position) (cond : Expr) (inner : Checks c result body)
    (inner' : Checks c result otherwise) :
    Yields c s (statement (.ifThenElse p cond body otherwise))
      (StatementChecked c types result s (Statement.ifThenElse p cond body otherwise).paths) := by
  rw [Statement.paths]
  refine .ifThenElse (yields_exprOf trusted known .bool .conditionType cond)
    fun code s₁ checked => ?_
  have known₁ := checked.keeps.scope_known known
  refine ⟨_, yields_block known₁ (inner known₁), fun b s₂ after => ?_⟩
  obtain ⟨scope₂, types₂, live, follows, typed⟩ := after
  refine .mono (yields_block follows.known (inner' follows.known)) fun b' s₃ after => ?_
  obtain ⟨scope₃, types₃, live', follows', typed'⟩ := after
  have live₁ := checked.keeps.live_eq
  have live₂ : s₂.live = s.live := (live_of_scope scope₂).trans live₁
  have live₃ : s₃.live = s.live := (live_of_scope scope₃).trans live₂
  refine ⟨types₃, ?_, ?_⟩
  · rw [Instr.uses]
    exact (checked.follows known).trans (follows.trans follows')
  · rw [live₃]
    refine .choose ?_ (live₁ ▸ typed.weaken follows'.more) (live₂ ▸ typed')
    exact checked.typed.weaken (follows.more.trans follows'.more) (List.Subset.refl _)

theorem yields_round {body : List Statement} (known : Scoped types s) (name : String) (p : Position)
    (inner : Checks c result body) :
    Yields c s (do
      let slot ← declare name (some .int) false p
      return (slot, ← inScope (statements body)) : Check (Nat × List Instr)) fun r s' =>
      ∃ types' live, Follows c types s (usesIn r.2) (Source.pathsIn body) s' types' ∧
        types'[r.1]? = some .int ∧ AllWellTyped types' result (r.1 :: s.live) r.2 live := by
  refine .bind (yields_declare name (some .int) false p) (fun _ =>
    .bind (.inScope (grows.statements body)) fun _ => .pure _) fun slot s₁ after => ?_
  obtain ⟨rfl, rfl⟩ := after
  have known₁ := known.declare name .int false
  refine .bind (yields_block known₁ (inner known₁)) (fun _ => .pure _)
    fun code s₂ after => .pure ?_
  obtain ⟨-, types', live, follows, typed⟩ := after
  refine ⟨types', live, ⟨(List.prefix_append _ _).trans follows.more, follows.known, ?_⟩, ?_, typed⟩
  · exact ⟨follows.records.references, follows.records.granted, follows.records.named⟩
  · exact getElem?_of_more follows.more (by simp [known.slots])

theorem yields_loop {body : List Statement} (trusted : c.Trusted) (known : Scoped types s)
    (p : Position) (name : String) (first last : Expr) (inner : Checks c result body) :
    Yields c s (statement (.loop p name first last body))
      (StatementChecked c types result s (Statement.loop p name first last body).paths) := by
  rw [Statement.paths]
  refine .loop (yields_exprOf trusted known .int .boundType first) fun a s₁ checkedA => ?_
  have known₁ := checkedA.keeps.scope_known known
  refine ⟨_, yields_exprOf trusted known₁ .int .boundType last, fun b s₂ checkedB => ?_⟩
  have known₂ := checkedB.keeps.scope_known known₁
  refine .mono (yields_round known₂ name p inner).inScope fun r s₄ after => ?_
  obtain ⟨s₃, ⟨types', live, follows, declared, typed⟩, rfl⟩ := after
  have live₁ := checkedA.keeps.live_eq
  have live₂ := checkedB.keeps.live_eq.trans live₁
  refine ⟨types', ?_, ?_⟩
  · rw [Instr.uses]
    exact (checkedA.follows known).trans ((checkedB.follows known₁).trans (follows.leave known₂))
  · have live₃ : State.live { s₃ with scope := s₂.scope } = s.live := live₂
    rw [live₃]
    refine .loop (checkedA.typed.weaken follows.more (List.Subset.refl _)) ?_ declared
      (live₂ ▸ typed)
    exact live₁ ▸ checkedB.typed.weaken follows.more (List.Subset.refl _)

theorem yields_eval (trusted : c.Trusted) (known : Scoped types s) (p : Position) (value : Expr) :
    Yields c s (statement (.eval p value))
      (StatementChecked c types result s (Statement.eval p value).paths) := by
  rw [statement, Statement.paths]
  refine .bind (yields_expr trusted value known) (fun _ => .pure _) fun e s₁ checked => .pure ?_
  refine checked.keeps.statement known ?_ (.eval checked.typed)
  rw [Instr.uses]
  exact checked.records

mutual

theorem yields_statement (trusted : c.Trusted) (isResult : c.result = some result) :
    ∀ {types : List Ty} {s : State} (st : Statement), Scoped types s →
      Yields c s (statement st) (StatementChecked c types result s st.paths)
  | types, s, .bind p name type init, known => yields_bind trusted known p name type init
  | types, s, .assign p target value, known => by
    rw [statement, Statement.paths]
    exact yields_assignment trusted known target value p
  | types, s, .ifThen p cond body, known =>
    yields_ifThen trusted known p cond fun known => yields_statements trusted isResult body known
  | types, s, .ifThenElse p cond body otherwise, known =>
    yields_ifThenElse trusted known p cond
      (fun known => yields_statements trusted isResult body known)
      fun known => yields_statements trusted isResult otherwise known
  | types, s, .loop p name first last body, known =>
    yields_loop trusted known p name first last fun known =>
      yields_statements trusted isResult body known
  | types, s, .give p value, known => by
    rw [statement, Statement.paths]
    exact yields_give trusted known isResult value p
  | types, s, .eval p value, known => yields_eval trusted known p value

theorem yields_statements (trusted : c.Trusted) (isResult : c.result = some result) :
    ∀ {types : List Ty} {s : State} (body : List Statement), Scoped types s →
      Yields c s (statements body) (BodyChecked c types result s (Source.pathsIn body))
  | types, s, [], known => by
    rw [statements, Source.pathsIn]
    exact .pure ⟨types, ⟨List.prefix_rfl, known, .nothing rfl⟩, .nil⟩
  | types, s, st :: rest, known => by
    rw [Source.pathsIn]
    refine .statements_cons (yields_statement trusted isResult st known) fun i s₁ after => ?_
    obtain ⟨types₁, follows, typed⟩ := after
    refine .mono (yields_statements trusted isResult rest follows.known) fun b s₂ after => ?_
    obtain ⟨types₂, follows', typed'⟩ := after
    exact ⟨types₂, follows.trans follows', .cons (typed.weaken follows'.more) typed'⟩

end

end Statements

end SceneScript.Typing
