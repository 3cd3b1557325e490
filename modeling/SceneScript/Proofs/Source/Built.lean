import SceneScript.Proofs.Source.Runs

/-!
# What parsing builds

A tree that is parsed is built of nodes: each stands at the position of a token, is as high as it
says and no higher than the limit, and a statement holds blocks only if there was a level left to
enter (`Parser.yields_unit`, `Parser.yields_expr`). A parser reads on from where it is, so what it
leaves is the end of what it was given; an error stands at a token or at the end of the text.
-/

namespace SceneScript.Source

/-! ## Parts of trees -/

namespace Expr

def children : Expr → List Expr
  | int .. | float .. | string .. | bool .. | null .. | var .. | staticField .. => []
  | field _ _ receiver _ => [receiver]
  | call _ _ receiver _ args => receiver :: args
  | staticCall _ _ _ _ args => args
  | unary _ _ _ operand => [operand]
  | binary _ _ _ left right => [left, right]

def type? : Expr → Option Path
  | staticField _ type _ | staticCall _ _ type _ _ => some type
  | _ => none

theorem maxHeight_pair (left right : Expr) :
    maxHeight [left, right] = max left.height right.height := by
  simp [maxHeight]

end Expr

namespace Statement

def type? : Statement → Option TypeName
  | bind _ _ type _ => type
  | _ => none

/-- The expressions of a statement, those in its blocks left out. -/
def exprs : Statement → List Expr
  | bind _ _ _ init => [init]
  | assign _ target value => [target, value]
  | ifThen _ cond _ | ifThenElse _ cond _ _ => [cond]
  | loop _ _ first last _ => [first, last]
  | give _ value => value.toList
  | eval _ value => [value]

def blocks : Statement → List (List Statement)
  | ifThen _ _ body | loop _ _ _ _ body => [body]
  | ifThenElse _ _ body otherwise => [body, otherwise]
  | bind .. | assign .. | give .. | eval .. => []

end Statement

/-! ## Trees that are built -/

variable {P : Position → Prop} {maxDepth : Nat}

/-- Every node stands at a position with `P`, says how high it is and is within the limit. -/
inductive Expr.Built (P : Position → Prop) (maxDepth : Nat) : Expr → Prop
  | node {e : Expr} : P e.position → (∀ path ∈ e.type?, P path.position) →
      (∀ e' ∈ e.children, Built P maxDepth e') → e.height = 1 + maxHeight e.children →
      e.height ≤ maxDepth → Built P maxDepth e

inductive Statement.Built (P : Position → Prop) (maxDepth : Nat) : Nat → Statement → Prop
  | node {levels : Nat} {s : Statement} : P s.position → (∀ t ∈ s.type?, P t.position) →
      (∀ e ∈ s.exprs, e.Built P maxDepth) → (∀ block ∈ s.blocks, 0 < levels) →
      (∀ block ∈ s.blocks, ∀ s' ∈ block, Built P maxDepth (levels - 1) s') →
      Built P maxDepth levels s

structure BlockBuilt (P : Position → Prop) (maxDepth levels : Nat) (block : List Statement) :
    Prop where
  entered : 0 < levels
  statements : ∀ s ∈ block, s.Built P maxDepth (levels - 1)

structure Function.Built (P : Position → Prop) (maxDepth : Nat) (f : Function) : Prop where
  position : P f.position
  paramType : P f.paramType.position
  resultType : P f.resultType.position
  body : BlockBuilt P maxDepth maxDepth f.body

structure CompilationUnit.Built (P : Position → Prop) (maxDepth : Nat) (u : CompilationUnit) :
    Prop where
  moduleName : P u.moduleName.position
  imports : ∀ path ∈ u.imports, P path.position
  entry : u.entry.Built P maxDepth

namespace Expr.Built

variable {e : Expr}

theorem leaf (place : P e.position) (named : ∀ path ∈ e.type?, P path.position)
    (alone : e.children = []) (height : e.height = 1) (positive : 0 < maxDepth) :
    e.Built P maxDepth := by
  refine .node place named (by simp [alone]) ?_ ?_
  · rw [alone, height]
    rfl
  · rw [height]
    exact positive

theorem path? {path : Path} (built : e.Built P maxDepth) (is : e.path? = some path) :
    P path.position := by
  induction built generalizing path with
  | @node e place _ _ _ _ ih =>
    cases e with
    | var =>
      cases is
      exact place
    | field p h receiver name =>
      obtain ⟨front, found, rfl⟩ := Option.map_eq_some_iff.1 is
      have among : P front.position := ih receiver List.mem_cons_self found
      exact among
    | _ => cases is

end Expr.Built

theorem Statement.Built.of_blocks {levels : Nat} {s : Statement} (place : P s.position)
    (typed : ∀ t ∈ s.type?, P t.position) (exprs : ∀ e ∈ s.exprs, e.Built P maxDepth)
    (blocks : ∀ block ∈ s.blocks, BlockBuilt P maxDepth levels block) :
    s.Built P maxDepth levels :=
  .node place typed exprs (fun block mem => (blocks block mem).entered)
    fun block mem => (blocks block mem).statements

theorem Path.toTypeName_position (p : Path) : p.toTypeName.position = p.position := by
  unfold toTypeName
  split
  · split <;> rfl
  · rfl

namespace Parser

variable {α β : Type}

/-- What the parser gives is good, and it leaves the end of the tokens ahead; an error stands at a
token ahead or at the end of the text. The limit on depth is the given one. -/
def Yields (P : Position → Prop) (maxDepth : Nat) (good : α → Prop) (m : Parser α) : Prop :=
  ∀ c ts, c.maxDepth = maxDepth → P c.finish → (∀ t ∈ ts, P t.position) →
    match m c ts with
    | .ok (a, left) => good a ∧ left <:+ ts
    | .error f => P f.position

/-! ## Rules -/

namespace Yields

variable {good : α → Prop} {good' : β → Prop} {m : Parser α} {k : α → Parser β}

theorem pure {a : α} (holds : good a) : Yields P maxDepth good (pure a) :=
  fun _ ts _ _ _ => ⟨holds, List.suffix_refl ts⟩

theorem fail {error : Error} {p : Position} (place : P p) :
    Yields P maxDepth good (Parser.fail error p : Parser α) :=
  fun _ _ _ _ _ => place

theorem bind (first : Yields P maxDepth good m)
    (rest : ∀ a, good a → Yields P maxDepth good' (k a)) : Yields P maxDepth good' (m >>= k) := by
  intro c ts depth finish ahead
  have first := first c ts depth finish ahead
  rw [bind_run]
  cases ran : m c ts with
  | error f =>
    rw [ran] at first
    exact first
  | ok r =>
    obtain ⟨a, left⟩ := r
    rw [ran] at first
    obtain ⟨holds, short⟩ := first
    have rest := rest a holds c left depth finish fun t mem => ahead t (short.subset mem)
    dsimp only
    cases ran' : k a c left with
    | error f =>
      rw [ran'] at rest
      exact rest
    | ok r =>
      rw [ran'] at rest
      exact ⟨rest.1, rest.2.trans short⟩

theorem map {f : α → β} (first : Yields P maxDepth good m) (maps : ∀ a, good a → good' (f a)) :
    Yields P maxDepth good' (f <$> m) := by
  rw [map_eq_pure_bind]
  exact first.bind fun a holds => .pure (maps a holds)

theorem imp {good' : α → Prop} (first : Yields P maxDepth good m)
    (weaker : ∀ a, good a → good' a) : Yields P maxDepth good' m := by
  intro c ts depth finish ahead
  have first := first c ts depth finish ahead
  cases ran : m c ts with
  | error f =>
    rw [ran] at first
    exact first
  | ok r =>
    rw [ran] at first
    exact ⟨weaker r.1 first.1, first.2⟩

theorem read_bind {k : Parsing → Parser β}
    (rest : ∀ c, c.maxDepth = maxDepth → Yields P maxDepth good' (k c)) :
    Yields P maxDepth good' (read >>= k) :=
  fun c ts depth finish ahead => rest c depth c ts depth finish ahead

end Yields

/-! ## Tokens -/

theorem ahead_place {c : Parsing} {ts : List Token} (finish : P c.finish)
    (among : ∀ t ∈ ts, P t.position) : P (ahead c ts).position := by
  cases ts with
  | nil => exact finish
  | cons t ts => exact among t List.mem_cons_self

theorem yields_peek : Yields P maxDepth (fun t => P t.position) peek := by
  intro c ts _ finish among
  rw [peek_run]
  exact ⟨ahead_place finish among, List.suffix_refl ts⟩

theorem yields_peekKind : Yields P maxDepth (fun _ => True) peekKind :=
  yields_peek.bind fun _ _ => .pure trivial

theorem yields_peekPosition : Yields P maxDepth P peekPosition :=
  yields_peek.bind fun _ place => .pure place

theorem yields_advance : Yields P maxDepth (fun t => P t.position) advance := by
  intro c ts _ finish among
  rw [advance_run]
  exact ⟨ahead_place finish among, List.tail_suffix ts⟩

theorem yields_eat (s : Symbol) : Yields P maxDepth (fun _ => True) (eat s) := by
  refine yields_peekKind.bind fun kind _ => ?_
  split
  · exact yields_advance.bind fun _ _ => .pure trivial
  · exact .pure trivial

theorem yields_eatKeyword (k : Keyword) : Yields P maxDepth (fun _ => True) (eatKeyword k) := by
  refine yields_peekKind.bind fun kind _ => ?_
  split
  · exact yields_advance.bind fun _ _ => .pure trivial
  · exact .pure trivial

theorem yields_unexpected {good : α → Prop} (wanted : Expectation) :
    Yields P maxDepth good (unexpected wanted : Parser α) :=
  yields_peek.bind fun _ place => .fail place

theorem yields_expect (s : Symbol) : Yields P maxDepth P (expect s) := by
  refine yields_peek.bind fun t place => (yields_eat s).bind fun taken _ => ?_
  split
  · exact .pure place
  · exact yields_unexpected _

theorem yields_expectKeyword (k : Keyword) : Yields P maxDepth P (expectKeyword k) := by
  refine yields_peek.bind fun t place => (yields_eatKeyword k).bind fun taken _ => ?_
  split
  · exact .pure place
  · exact yields_unexpected _

theorem yields_identifier : Yields P maxDepth (fun _ => True) identifier := by
  refine yields_peekKind.bind fun kind _ => ?_
  split
  · exact yields_advance.bind fun _ _ => .pure trivial
  · exact yields_unexpected _

theorem yields_pathTail (rounds : Nat) {p : Path} (place : P p.position) :
    Yields P maxDepth (fun p => P p.position) (pathTail rounds p) := by
  induction rounds generalizing p with
  | zero => exact .pure place
  | succ rounds ih =>
    refine (yields_eat .dot).bind fun taken _ => ?_
    split
    · exact yields_identifier.bind fun name _ => ih (p := p.push name) place
    · exact .pure place

theorem yields_path : Yields P maxDepth (fun p => P p.position) path := by
  refine yields_peekPosition.bind fun p place => yields_identifier.bind fun first _ => ?_
  exact .read_bind fun c _ => yields_pathTail _ place

theorem yields_typeName : Yields P maxDepth (fun t => P t.position) typeName :=
  yields_path.bind fun p place => .pure (p.toTypeName_position ▸ place)

/-! ## Expressions -/

theorem yields_bounded {e : Expr} (place : P e.position)
    (named : ∀ path ∈ e.type?, P path.position)
    (children : ∀ e' ∈ e.children, e'.Built P maxDepth)
    (height : e.height = 1 + Expr.maxHeight e.children) :
    Yields P maxDepth (Expr.Built P maxDepth) (bounded e) := by
  refine .read_bind fun c depth => ?_
  rw [depth]
  split
  · next within => exact .pure (.node place named children height within)
  · exact .fail place

theorem yields_tooDeepHere {good : α → Prop} :
    Yields P maxDepth good (tooDeepHere : Parser α) :=
  yields_peekPosition.bind fun _ place => .fail place

section

variable {operator? : Token.Kind → Option BinaryOp} {operand inner : Parser Expr}

theorem yields_chainTail (ofOperand : Yields P maxDepth (Expr.Built P maxDepth) operand)
    (rounds : Nat) {left : Expr} (built : left.Built P maxDepth) :
    Yields P maxDepth (Expr.Built P maxDepth) (chainTail operator? operand rounds left) := by
  induction rounds generalizing left with
  | zero => exact .pure built
  | succ rounds ih =>
    refine yields_peek.bind fun t place => ?_
    cases operator? t.kind with
    | none => exact .pure built
    | some op =>
      refine yields_advance.bind fun _ _ => ofOperand.bind fun right built' => ?_
      refine (yields_bounded place nofun ?_ ?_).bind fun e built => ih built
      · exact List.forall_mem_cons.2 ⟨built, List.forall_mem_singleton.2 built'⟩
      · exact congrArg (1 + ·) (Expr.maxHeight_pair left right).symm

theorem yields_chain (ofOperand : Yields P maxDepth (Expr.Built P maxDepth) operand) :
    Yields P maxDepth (Expr.Built P maxDepth) (chain operator? operand) :=
  ofOperand.bind fun _ built => .read_bind fun _ _ => yields_chainTail ofOperand _ built

theorem yields_binaryLevels (ofUnary : Yields P maxDepth (Expr.Built P maxDepth) operand) :
    Yields P maxDepth (Expr.Built P maxDepth) (binaryLevels operand) :=
  yields_chain (yields_chain (yields_chain (yields_chain (yields_chain (yields_chain ofUnary)))))

theorem yields_argumentTail (ofInner : Yields P maxDepth (Expr.Built P maxDepth) inner)
    (rounds : Nat) {found : List Expr} (built : ∀ e ∈ found, e.Built P maxDepth) :
    Yields P maxDepth (fun es => ∀ e ∈ es, e.Built P maxDepth)
      (argumentTail inner rounds found) := by
  have reversed {es : List Expr} (built : ∀ e ∈ es, e.Built P maxDepth) :
      ∀ e ∈ es.reverse, e.Built P maxDepth :=
    fun e mem => built e (List.mem_reverse.1 mem)
  induction rounds generalizing found with
  | zero => exact .pure (reversed built)
  | succ rounds ih =>
    refine ofInner.bind fun e here => (yields_eat .comma).bind fun taken _ => ?_
    have more : ∀ e' ∈ e :: found, e'.Built P maxDepth := List.forall_mem_cons.2 ⟨here, built⟩
    split
    · exact ih more
    · exact (yields_expect .closeParen).bind fun _ _ => .pure (reversed more)

theorem yields_arguments (ofInner : Yields P maxDepth (Expr.Built P maxDepth) inner) :
    Yields P maxDepth (fun es => ∀ e ∈ es, e.Built P maxDepth) (arguments inner) := by
  refine (yields_expect .openParen).bind fun _ _ => (yields_eat .closeParen).bind fun taken _ => ?_
  split
  · exact .pure nofun
  · exact .read_bind fun _ _ => yields_argumentTail ofInner _ nofun

theorem yields_member (ofInner : Yields P maxDepth (Expr.Built P maxDepth) inner) :
    Yields P maxDepth (fun found => ∀ es, found.2 = some es → ∀ e ∈ es, e.Built P maxDepth)
      (member inner) := by
  refine yields_identifier.bind fun name _ => yields_peekKind.bind fun kind _ => ?_
  split
  · refine (yields_arguments ofInner).bind fun args built => .pure fun es is => ?_
    cases is
    exact built
  · exact .pure nofun

theorem yields_postfixTail (ofInner : Yields P maxDepth (Expr.Built P maxDepth) inner)
    (rounds : Nat) {e : Expr} (built : e.Built P maxDepth) :
    Yields P maxDepth (Expr.Built P maxDepth) (postfixTail inner rounds e) := by
  induction rounds generalizing e with
  | zero => exact .pure built
  | succ rounds ih =>
    refine yields_peek.bind fun t place => ?_
    split
    · refine yields_advance.bind fun _ _ => (yields_member ofInner).bind fun found inside => ?_
      split
      · next name args =>
        refine (yields_bounded place nofun ?_ ?_).bind fun e built => ih built
        · exact List.forall_mem_cons.2 ⟨built, inside args rfl⟩
        · exact congrArg (1 + ·) ((Nat.max_comm _ _).trans (Expr.maxHeight_cons e args).symm)
      · refine (yields_bounded place nofun ?_ ?_).bind fun e built => ih built
        · exact List.forall_mem_singleton.2 built
        · exact congrArg (1 + ·) (Nat.zero_max _).symm
    · refine yields_advance.bind fun _ _ => ?_
      split
      · next type is =>
        have named : ∀ path ∈ some type, P path.position :=
          fun _ same => Option.some.inj same ▸ built.path? is
        refine (yields_member ofInner).bind fun found inside => ?_
        split
        · next name args =>
          refine (yields_bounded place ?_ ?_ rfl).bind fun e built => ih built
          · exact named
          · exact inside args rfl
        · refine (yields_bounded place ?_ (List.forall_mem_nil _) rfl).bind fun e built => ih built
          exact named
      · exact .fail place
    · exact .pure built

theorem yields_primary (positive : 0 < maxDepth)
    (ofInner : Yields P maxDepth (Expr.Built P maxDepth) inner) :
    Yields P maxDepth (Expr.Built P maxDepth) (primary inner) := by
  refine yields_advance.bind fun t place => ?_
  split
  case h_8 =>
    exact ofInner.bind fun e built => (yields_expect .closeParen).bind fun _ _ => .pure built
  case h_9 => exact .fail place
  all_goals exact .pure (.leaf place nofun rfl rfl positive)

theorem yields_postfixed (positive : 0 < maxDepth)
    (ofInner : Yields P maxDepth (Expr.Built P maxDepth) inner) :
    Yields P maxDepth (Expr.Built P maxDepth) (postfixed inner) :=
  (yields_primary positive ofInner).bind fun _ built => .read_bind fun _ _ =>
    yields_postfixTail ofInner _ built

theorem yields_applyUnary (positive : 0 < maxDepth) (op : UnaryOp) {p : Position} {e : Expr}
    (place : P p) (built : e.Built P maxDepth) :
    Yields P maxDepth (Expr.Built P maxDepth) (applyUnary op p e) := by
  unfold applyUnary
  split
  · exact .pure (.leaf place nofun rfl rfl positive)
  · exact .pure (.leaf place nofun rfl rfl positive)
  · refine yields_bounded place nofun (List.forall_mem_singleton.2 built) ?_
    exact congrArg (1 + ·) (Nat.zero_max _).symm

theorem yields_unaryOr {under : Position → Parser Expr} (positive : 0 < maxDepth)
    (ofUnder : ∀ p, P p → Yields P maxDepth (Expr.Built P maxDepth) (under p))
    (ofInner : Yields P maxDepth (Expr.Built P maxDepth) inner) :
    Yields P maxDepth (Expr.Built P maxDepth) (unaryOr under inner) := by
  refine yields_peek.bind fun t place => ?_
  split
  · refine yields_advance.bind fun _ _ => (ofUnder _ place).bind fun e built => ?_
    exact yields_applyUnary positive .neg place built
  · refine yields_advance.bind fun _ _ => (ofUnder _ place).bind fun e built => ?_
    exact yields_applyUnary positive .not place built
  · exact yields_postfixed positive ofInner

end

theorem yields_unary (positive : 0 < maxDepth) (levels : Nat) :
    Yields P maxDepth (Expr.Built P maxDepth) (unary levels) := by
  induction levels with
  | zero => exact yields_unaryOr positive (fun p place => .fail place) yields_tooDeepHere
  | succ levels ih => exact yields_unaryOr positive (fun _ _ => ih) (yields_binaryLevels ih)

theorem yields_expr {levels : Nat} (within : levels ≤ maxDepth) :
    Yields P maxDepth (Expr.Built P maxDepth) (expr levels) := by
  cases levels with
  | zero => exact yields_tooDeepHere
  | succ levels => exact yields_binaryLevels (yields_unary (Nat.zero_lt_of_lt within) levels)

/-! ## Statements -/

section

variable {expr : Parser Expr} {statement deeper : Parser Statement}
  {block : Parser (List Statement)} {levels : Nat}

theorem yields_statements {good : Statement → Prop} (ofStatement : Yields P maxDepth good statement)
    {start : Position} (opened : P start) (rounds : Nat) {found : List Statement}
    (built : ∀ s ∈ found, good s) :
    Yields P maxDepth (fun body => ∀ s ∈ body, good s)
      (statements statement start rounds found) := by
  induction rounds generalizing found with
  | zero => exact .fail opened
  | succ rounds ih =>
    refine yields_peekKind.bind fun kind _ => ?_
    split
    · exact yields_advance.bind fun _ _ => .pure fun s mem => built s (List.mem_reverse.1 mem)
    · exact .fail opened
    · exact ofStatement.bind fun s here => ih (List.forall_mem_cons.2 ⟨here, built⟩)

theorem yields_blockOf
    (ofStatement : Yields P maxDepth (Statement.Built P maxDepth levels) statement) :
    Yields P maxDepth (BlockBuilt P maxDepth (levels + 1)) (blockOf statement) := by
  refine (yields_expect .openBrace).bind fun _ opened => .read_bind fun c _ => ?_
  exact (yields_statements ofStatement opened _ (List.forall_mem_nil _)).imp fun body built =>
    ⟨Nat.succ_pos levels, built⟩

theorem yields_closedBlock : Yields P maxDepth (BlockBuilt P maxDepth levels) closedBlock :=
  (yields_expect .openBrace).bind fun _ opened => .fail opened

theorem yields_conditionalOf (ofExpr : Yields P maxDepth (Expr.Built P maxDepth) expr)
    (ofBlock : Yields P maxDepth (BlockBuilt P maxDepth levels) block)
    (ofDeeper : Yields P maxDepth (fun s => BlockBuilt P maxDepth levels [s]) deeper) :
    Yields P maxDepth (Statement.Built P maxDepth levels) (conditionalOf expr block deeper) := by
  refine (yields_expectKeyword .if).bind fun p place => ofExpr.bind fun cond ofCond => ?_
  refine ofBlock.bind fun body ofBody => (yields_eatKeyword .else).bind fun taken _ => ?_
  have both {otherwise : List Statement} (ofElse : BlockBuilt P maxDepth levels otherwise) :
      (Statement.ifThenElse p cond body otherwise).Built P maxDepth levels :=
    .of_blocks place nofun (List.forall_mem_singleton.2 ofCond)
      (List.forall_mem_cons.2 ⟨ofBody, List.forall_mem_singleton.2 ofElse⟩)
  split
  · refine yields_peekKind.bind fun kind _ => ?_
    split
    · exact ofDeeper.bind fun s ofElse => .pure (both ofElse)
    · exact ofBlock.bind fun otherwise ofElse => .pure (both ofElse)
  · exact .pure (.of_blocks place nofun (List.forall_mem_singleton.2 ofCond)
      (List.forall_mem_singleton.2 ofBody))

theorem yields_bindStatement (ofExpr : Yields P maxDepth (Expr.Built P maxDepth) expr) :
    Yields P maxDepth (Statement.Built P maxDepth levels) (bindStatement expr) := by
  refine (yields_expectKeyword .let).bind fun p place => yields_identifier.bind fun name _ => ?_
  refine (yields_eat .colon).bind fun typed _ => ?_
  have rest (type : Option TypeName) (annotated : ∀ t ∈ type, P t.position) :
      Yields P maxDepth (Statement.Built P maxDepth levels)
        (do
          let _ ← Parser.expect .assign
          let init ← expr
          let _ ← Parser.expect .semicolon
          return Statement.bind p name type init) := by
    refine (yields_expect .assign).bind fun _ _ => ofExpr.bind fun init ofInit => ?_
    refine (yields_expect .semicolon).bind fun _ _ => .pure ?_
    exact .of_blocks place annotated (List.forall_mem_singleton.2 ofInit) nofun
  split
  · have annotation : Yields P maxDepth (fun type => ∀ t ∈ type, P t.position)
        (some <$> typeName) :=
      yields_typeName.map fun t place t' is => Option.some.inj is ▸ place
    exact annotation.bind rest
  · exact rest none nofun

theorem yields_loopStatement (ofExpr : Yields P maxDepth (Expr.Built P maxDepth) expr)
    (ofBlock : Yields P maxDepth (BlockBuilt P maxDepth levels) block) :
    Yields P maxDepth (Statement.Built P maxDepth levels) (loopStatement expr block) := by
  refine (yields_expectKeyword .for).bind fun p place => yields_identifier.bind fun name _ => ?_
  refine (yields_expectKeyword .in).bind fun _ _ => ofExpr.bind fun first ofFirst => ?_
  refine (yields_expect .range).bind fun _ _ => ofExpr.bind fun last ofLast => ?_
  refine ofBlock.bind fun body ofBody => .pure (.of_blocks place nofun ?_ ?_)
  · exact List.forall_mem_cons.2 ⟨ofFirst, List.forall_mem_singleton.2 ofLast⟩
  · exact List.forall_mem_singleton.2 ofBody

theorem yields_giveStatement (ofExpr : Yields P maxDepth (Expr.Built P maxDepth) expr) :
    Yields P maxDepth (Statement.Built P maxDepth levels) (giveStatement expr) := by
  refine (yields_expectKeyword .return).bind fun p place => yields_peekKind.bind fun kind _ => ?_
  have given (value : Option Expr) (built : ∀ e ∈ value, e.Built P maxDepth) :
      (Statement.give p value).Built P maxDepth levels :=
    .of_blocks place nofun (fun e mem => built e (Option.mem_toList.1 mem)) nofun
  split
  · exact (yields_expect .semicolon).bind fun _ _ => .pure (given none nofun)
  · have present : Yields P maxDepth (fun value => ∀ e ∈ value, e.Built P maxDepth)
        (some <$> expr) :=
      ofExpr.map fun e built e' is => Option.some.inj is ▸ built
    exact present.bind fun value built => (yields_expect .semicolon).bind fun _ _ =>
      .pure (given value built)

theorem yields_plainStatement (ofExpr : Yields P maxDepth (Expr.Built P maxDepth) expr) :
    Yields P maxDepth (Statement.Built P maxDepth levels) (plainStatement expr) := by
  refine yields_peekPosition.bind fun p place => ofExpr.bind fun target ofTarget => ?_
  refine (yields_eat .assign).bind fun taken _ => ?_
  split
  · refine ofExpr.bind fun value ofValue => (yields_expect .semicolon).bind fun _ _ => .pure ?_
    exact .of_blocks place nofun
      (List.forall_mem_cons.2 ⟨ofTarget, List.forall_mem_singleton.2 ofValue⟩) nofun
  · exact (yields_expect .semicolon).bind fun _ _ =>
      .pure (.of_blocks place nofun (List.forall_mem_singleton.2 ofTarget) nofun)

theorem yields_statementOf {conditional : Parser Statement}
    (ofExpr : Yields P maxDepth (Expr.Built P maxDepth) expr)
    (ofBlock : Yields P maxDepth (BlockBuilt P maxDepth levels) block)
    (ofConditional : Yields P maxDepth (Statement.Built P maxDepth levels) conditional) :
    Yields P maxDepth (Statement.Built P maxDepth levels)
      (statementOf expr block conditional) := by
  refine yields_peekKind.bind fun kind _ => ?_
  split
  · exact yields_bindStatement ofExpr
  · exact ofConditional
  · exact yields_loopStatement ofExpr ofBlock
  · exact yields_giveStatement ofExpr
  · exact yields_plainStatement ofExpr

end

theorem yields_levels {levels : Nat} (within : levels ≤ maxDepth) :
    Yields P maxDepth (BlockBuilt P maxDepth levels) (block levels) ∧
      Yields P maxDepth (Statement.Built P maxDepth levels) (conditional levels) := by
  induction levels with
  | zero =>
    refine ⟨yields_closedBlock, ?_⟩
    rw [conditional_zero]
    exact yields_conditionalOf (yields_expr within) yields_closedBlock yields_tooDeepHere
  | succ levels ih =>
    have within' := Nat.le_of_succ_le within
    obtain ⟨ofBlock, ofConditional⟩ := ih within'
    have wider : Yields P maxDepth (BlockBuilt P maxDepth (levels + 1)) (block (levels + 1)) :=
      yields_blockOf (yields_statementOf (yields_expr within') ofBlock ofConditional)
    refine ⟨wider, ?_⟩
    rw [conditional_succ]
    refine yields_conditionalOf (yields_expr within) wider ?_
    -- What follows `else if` is built as the only statement of a block.
    exact ofConditional.imp fun s built => ⟨Nat.succ_pos levels, List.forall_mem_singleton.2 built⟩

/-! ## Units -/

theorem yields_function : Yields P maxDepth (Function.Built P maxDepth) function := by
  refine (yields_expectKeyword .fn).bind fun p place => yields_identifier.bind fun name _ => ?_
  refine (yields_expect .openParen).bind fun _ _ => yields_identifier.bind fun param _ => ?_
  refine (yields_expect .colon).bind fun _ _ => yields_typeName.bind fun paramType ofParam => ?_
  refine (yields_expect .closeParen).bind fun _ _ => (yields_expect .arrow).bind fun _ _ => ?_
  refine yields_typeName.bind fun resultType ofResult => .read_bind fun c depth => ?_
  rw [depth]
  exact (yields_levels (Nat.le_refl maxDepth)).1.bind fun body built =>
    .pure ⟨place, ofParam, ofResult, built⟩

theorem yields_imports (rounds : Nat) {found : List Path} (places : ∀ p ∈ found, P p.position) :
    Yields P maxDepth (fun paths => ∀ p ∈ paths, P p.position) (imports rounds found) := by
  have reversed {paths : List Path} (places : ∀ p ∈ paths, P p.position) :
      ∀ p ∈ paths.reverse, P p.position :=
    fun p mem => places p (List.mem_reverse.1 mem)
  induction rounds generalizing found with
  | zero => exact .pure (reversed places)
  | succ rounds ih =>
    refine (yields_eatKeyword .use).bind fun taken _ => ?_
    split
    · exact yields_path.bind fun p place => (yields_expect .semicolon).bind fun _ _ =>
        ih (List.forall_mem_cons.2 ⟨place, places⟩)
    · exact .pure (reversed places)

theorem yields_unit : Yields P maxDepth (CompilationUnit.Built P maxDepth) unit := by
  refine (yields_expectKeyword .module).bind fun _ _ => ?_
  refine yields_path.bind fun moduleName named => ?_
  refine (yields_expect .semicolon).bind fun _ _ => .read_bind fun c _ => ?_
  refine (yields_imports _ nofun).bind fun found places => ?_
  refine yields_function.bind fun entry built => yields_peekKind.bind fun kind _ => ?_
  split
  · exact .pure ⟨named, places, built⟩
  · exact yields_unexpected _

/-! ## Texts -/

theorem onText_yields {good : α → Prop} {m : Parser α} (yields : Yields P maxDepth good m)
    (text : String)
    (tokens : ∀ stream, Token.Stream.ofText text = .ok stream →
      ∀ t ∈ stream.closed, P t.position)
    (failure : ∀ f, Token.Stream.ofText text = .error f → P f.position) :
    match m.onText maxDepth text with
    | .ok a => good a
    | .error f => P f.position := by
  unfold onText
  cases reads : Token.Stream.ofText text with
  | error f => exact failure f reads
  | ok stream =>
    have places := tokens stream reads
    rw [Token.Stream.closed, List.forall_mem_append, List.forall_mem_singleton] at places
    have yields := yields ⟨stream.finish, maxDepth, stream.tokens.length⟩ stream.tokens rfl
      places.2 places.1
    dsimp only
    cases ran : m ⟨stream.finish, maxDepth, stream.tokens.length⟩ stream.tokens with
    | error f =>
      rw [ran] at yields
      exact yields
    | ok r =>
      rw [ran] at yields
      exact yields.1

theorem good_of_onText {good : α → Prop} {m : Parser α} {text : String} {a : α}
    (yields : Yields (fun _ => True) maxDepth good m) (parsed : m.onText maxDepth text = .ok a) :
    good a := by
  have ends := onText_yields yields text (fun _ _ _ _ => trivial) fun _ _ => trivial
  rwa [parsed] at ends

end Parser

theorem Expr.built_of_parse {text : String} {e : Expr} (parsed : Expr.parse maxDepth text = .ok e) :
    e.Built (fun _ => True) maxDepth :=
  Parser.good_of_onText (Parser.yields_expr (Nat.le_refl maxDepth)) parsed

theorem CompilationUnit.built_of_parse {text : String} {u : CompilationUnit}
    (parsed : CompilationUnit.parse maxDepth text = .ok u) : u.Built (fun _ => True) maxDepth :=
  Parser.good_of_onText Parser.yields_unit parsed

end SceneScript.Source
