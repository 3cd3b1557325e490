import SceneScript.Proofs.Source.Runs

/-!
# Raising the limit on depth

A parser looks at the limit on depth only to fail. So what parses under one limit parses under every
higher one, to the same result (`Expr.parse_deeper`, `CompilationUnit.parse_deeper`).
-/

namespace SceneScript.Source

/-- Two ways to read the same text, the second with a limit on depth that is no lower. -/
structure Deepening where
  low : Parsing
  high : Parsing
  sameFinish : low.finish = high.finish
  sameRounds : low.rounds = high.rounds
  deeper : low.maxDepth ≤ high.maxDepth

namespace Deepening

open SceneScript.Source.Parser

variable {α β : Type} {c : Deepening}

def Follows (c : Deepening) (m m' : Parser α) : Prop :=
  ∀ ⦃ts r⦄, m c.low ts = .ok r → m' c.high ts = .ok r

/-! ## Rules -/

namespace Follows

variable {m m' : Parser α} {k k' : α → Parser β}

theorem pure (a : α) : c.Follows (pure a) (pure a) :=
  fun _ _ ran => ran

theorem fails (error : Error) (p : Position) : c.Follows (fail error p) m' := by
  intro ts r ran
  cases ran

theorem bind_fails {first : Parser β} {error : Error} {place : β → Position} :
    c.Follows (first >>= fun p => fail error (place p)) m' := by
  intro ts r ran
  rw [bind_run] at ran
  cases h : first c.low ts with
  | error f =>
    rw [h] at ran
    cases ran
  | ok p =>
    rw [h] at ran
    cases ran

theorem bind (first : c.Follows m m') (rest : ∀ a, c.Follows (k a) (k' a)) :
    c.Follows (m >>= k) (m' >>= k') := by
  intro ts r ran
  rw [bind_run] at ran
  cases h : m c.low ts with
  | error f =>
    rw [h] at ran
    cases ran
  | ok a =>
    rw [h] at ran
    rw [bind_ok (first h)]
    exact rest a.1 ran

theorem map {f : α → β} (first : c.Follows m m') : c.Follows (f <$> m) (f <$> m') := by
  intro ts r ran
  have ran : (m >>= fun a => Pure.pure (f a)) c.low ts = .ok r := by rwa [← map_eq_pure_bind]
  rw [map_eq_pure_bind]
  exact first.bind (fun a => .pure (f a)) ran

theorem read_bind {k k' : Parsing → Parser β}
    (rest : ∀ low high, low.rounds = high.rounds → low.maxDepth ≤ high.maxDepth →
      c.Follows (k low) (k' high)) :
    c.Follows (read >>= k) (read >>= k') :=
  fun _ _ ran => rest c.low c.high c.sameRounds c.deeper ran

end Follows

/-! ## Tokens -/

theorem ahead_eq (ts : List Token) : ahead c.low ts = ahead c.high ts := by
  cases ts with
  | nil => rw [ahead, ahead, c.sameFinish]
  | cons t ts => rfl

theorem follows_peek : c.Follows peek peek := by
  intro ts r ran
  rwa [peek_run, ahead_eq, ← peek_run] at ran

theorem follows_peekKind : c.Follows peekKind peekKind :=
  follows_peek.bind fun t => .pure t.kind

theorem follows_peekPosition : c.Follows peekPosition peekPosition :=
  follows_peek.bind fun t => .pure t.position

theorem follows_advance : c.Follows advance advance := by
  intro ts r ran
  rwa [advance_run, ahead_eq, ← advance_run] at ran

theorem follows_eat (s : Symbol) : c.Follows (eat s) (eat s) := by
  refine follows_peekKind.bind fun kind => ?_
  split
  · exact follows_advance.bind fun _ => .pure true
  · exact .pure false

theorem follows_eatKeyword (k : Keyword) : c.Follows (eatKeyword k) (eatKeyword k) := by
  refine follows_peekKind.bind fun kind => ?_
  split
  · exact follows_advance.bind fun _ => .pure true
  · exact .pure false

theorem follows_unexpected (wanted : Expectation) :
    c.Follows (unexpected wanted : Parser α) (unexpected wanted) :=
  follows_peek.bind fun _ => .fails _ _

theorem follows_expect (s : Symbol) : c.Follows (expect s) (expect s) := by
  refine follows_peek.bind fun t => (follows_eat s).bind fun taken => ?_
  split
  · exact .pure t.position
  · exact follows_unexpected _

theorem follows_expectKeyword (k : Keyword) : c.Follows (expectKeyword k) (expectKeyword k) := by
  refine follows_peek.bind fun t => (follows_eatKeyword k).bind fun taken => ?_
  split
  · exact .pure t.position
  · exact follows_unexpected _

theorem follows_identifier : c.Follows identifier identifier := by
  refine follows_peekKind.bind fun kind => ?_
  split
  · exact follows_advance.bind fun _ => .pure _
  · exact follows_unexpected _

theorem follows_pathTail (rounds : Nat) (p : Path) :
    c.Follows (pathTail rounds p) (pathTail rounds p) := by
  induction rounds generalizing p with
  | zero => exact .pure p
  | succ rounds ih =>
    refine (follows_eat .dot).bind fun taken => ?_
    split
    · exact follows_identifier.bind fun name => ih (p.push name)
    · exact .pure p

theorem follows_path : c.Follows path path := by
  refine follows_peekPosition.bind fun p => follows_identifier.bind fun first => .read_bind ?_
  intro low high same _
  rw [same]
  exact follows_pathTail _ _

theorem follows_typeName : c.Follows typeName typeName :=
  follows_path.bind fun p => .pure p.toTypeName

/-! ## Expressions -/

theorem follows_bounded (e : Expr) : c.Follows (bounded e) (bounded e) := by
  refine .read_bind fun low high _ deeper => ?_
  split
  · next fits =>
    rw [if_pos (Nat.le_trans fits deeper)]
    exact .pure e
  · exact .fails _ _

theorem follows_tooDeepHere {m : Parser α} : c.Follows tooDeepHere m :=
  .bind_fails

section

variable {operator? : Token.Kind → Option BinaryOp} {operand operand' inner inner' : Parser Expr}

theorem follows_chainTail (ofOperand : c.Follows operand operand') (rounds : Nat) (left : Expr) :
    c.Follows (chainTail operator? operand rounds left)
      (chainTail operator? operand' rounds left) := by
  induction rounds generalizing left with
  | zero => exact .pure left
  | succ rounds ih =>
    refine follows_peek.bind fun t => ?_
    cases operator? t.kind with
    | none => exact .pure left
    | some op =>
      refine follows_advance.bind fun _ => ofOperand.bind fun right => ?_
      exact (follows_bounded _).bind fun e => ih e

theorem follows_chain (ofOperand : c.Follows operand operand') :
    c.Follows (chain operator? operand) (chain operator? operand') := by
  refine ofOperand.bind fun left => .read_bind fun low high same _ => ?_
  rw [same]
  exact follows_chainTail ofOperand _ left

theorem follows_binaryLevels (ofUnary : c.Follows operand operand') :
    c.Follows (binaryLevels operand) (binaryLevels operand') :=
  follows_chain (follows_chain (follows_chain (follows_chain (follows_chain
    (follows_chain ofUnary)))))

theorem follows_argumentTail (ofInner : c.Follows inner inner') (rounds : Nat)
    (found : List Expr) :
    c.Follows (argumentTail inner rounds found) (argumentTail inner' rounds found) := by
  induction rounds generalizing found with
  | zero => exact .pure _
  | succ rounds ih =>
    refine ofInner.bind fun e => (follows_eat .comma).bind fun taken => ?_
    split
    · exact ih _
    · exact (follows_expect .closeParen).bind fun _ => .pure _

theorem follows_arguments (ofInner : c.Follows inner inner') :
    c.Follows (arguments inner) (arguments inner') := by
  refine (follows_expect .openParen).bind fun _ => (follows_eat .closeParen).bind fun taken => ?_
  split
  · exact .pure []
  · refine .read_bind fun low high same _ => ?_
    rw [same]
    exact follows_argumentTail ofInner _ _

theorem follows_member (ofInner : c.Follows inner inner') :
    c.Follows (member inner) (member inner') := by
  refine follows_identifier.bind fun name => follows_peekKind.bind fun kind => ?_
  split
  · exact (follows_arguments ofInner).bind fun args => .pure _
  · exact .pure _

theorem follows_postfixTail (ofInner : c.Follows inner inner') (rounds : Nat) (e : Expr) :
    c.Follows (postfixTail inner rounds e) (postfixTail inner' rounds e) := by
  induction rounds generalizing e with
  | zero => exact .pure e
  | succ rounds ih =>
    refine follows_peek.bind fun t => ?_
    split
    · refine follows_advance.bind fun _ => (follows_member ofInner).bind fun found => ?_
      split <;> exact (follows_bounded _).bind fun e => ih e
    · refine follows_advance.bind fun _ => ?_
      split
      · refine (follows_member ofInner).bind fun found => ?_
        split <;> exact (follows_bounded _).bind fun e => ih e
      · exact .fails _ _
    · exact .pure e

theorem follows_primary (ofInner : c.Follows inner inner') :
    c.Follows (primary inner) (primary inner') := by
  refine follows_advance.bind fun t => ?_
  split
  case h_8 => exact ofInner.bind fun e => (follows_expect .closeParen).bind fun _ => .pure e
  case h_9 => exact .fails _ _
  all_goals exact .pure _

theorem follows_postfixed (ofInner : c.Follows inner inner') :
    c.Follows (postfixed inner) (postfixed inner') := by
  refine (follows_primary ofInner).bind fun e => .read_bind fun low high same _ => ?_
  rw [same]
  exact follows_postfixTail ofInner _ e

theorem follows_applyUnary (op : UnaryOp) (p : Position) (e : Expr) :
    c.Follows (applyUnary op p e) (applyUnary op p e) := by
  unfold applyUnary
  split
  · exact .pure _
  · exact .pure _
  · exact follows_bounded _

theorem follows_unaryOr {under under' : Position → Parser Expr}
    (ofUnder : ∀ p, c.Follows (under p) (under' p)) (ofInner : c.Follows inner inner') :
    c.Follows (unaryOr under inner) (unaryOr under' inner') := by
  refine follows_peek.bind fun t => ?_
  split
  · refine follows_advance.bind fun _ => (ofUnder _).bind fun e => ?_
    exact follows_applyUnary .neg t.position e
  · refine follows_advance.bind fun _ => (ofUnder _).bind fun e => ?_
    exact follows_applyUnary .not t.position e
  · exact follows_postfixed ofInner

end

theorem follows_unary {levels levels' : Nat} (more : levels ≤ levels') :
    c.Follows (unary levels) (unary levels') := by
  induction levels generalizing levels' with
  | zero =>
    cases levels' with
    | zero => exact follows_unaryOr (fun p => .fails _ _) follows_tooDeepHere
    | succ levels' => exact follows_unaryOr (fun p => .fails _ _) follows_tooDeepHere
  | succ levels ih =>
    cases levels' with
    | zero => exact absurd more (Nat.not_succ_le_zero levels)
    | succ levels' =>
      have inner := ih (Nat.le_of_succ_le_succ more)
      exact follows_unaryOr (fun _ => inner) (follows_binaryLevels inner)

theorem follows_expr {levels levels' : Nat} (more : levels ≤ levels') :
    c.Follows (expr levels) (expr levels') := by
  cases levels with
  | zero => exact follows_tooDeepHere
  | succ levels =>
    cases levels' with
    | zero => exact absurd more (Nat.not_succ_le_zero levels)
    | succ levels' => exact follows_binaryLevels (follows_unary (Nat.le_of_succ_le_succ more))

/-! ## Statements -/

section

variable {expr expr' : Parser Expr} {statement statement' deeper deeper' : Parser Statement}
  {block block' : Parser (List Statement)}

theorem follows_statements (ofStatement : c.Follows statement statement') (start : Position)
    (rounds : Nat) (found : List Statement) :
    c.Follows (statements statement start rounds found)
      (statements statement' start rounds found) := by
  induction rounds generalizing found with
  | zero => exact .fails _ _
  | succ rounds ih =>
    refine follows_peekKind.bind fun kind => ?_
    split
    · exact follows_advance.bind fun _ => .pure _
    · exact .fails _ _
    · exact ofStatement.bind fun s => ih (s :: found)

theorem follows_blockOf (ofStatement : c.Follows statement statement') :
    c.Follows (blockOf statement) (blockOf statement') := by
  refine (follows_expect .openBrace).bind fun start => .read_bind fun low high same _ => ?_
  rw [same]
  exact follows_statements ofStatement start _ []

theorem follows_closedBlock : c.Follows closedBlock block :=
  .bind_fails

theorem follows_conditionalOf (ofExpr : c.Follows expr expr') (ofBlock : c.Follows block block')
    (ofDeeper : c.Follows deeper deeper') :
    c.Follows (conditionalOf expr block deeper) (conditionalOf expr' block' deeper') := by
  refine (follows_expectKeyword .if).bind fun p => ofExpr.bind fun cond => ?_
  refine ofBlock.bind fun body => (follows_eatKeyword .else).bind fun taken => ?_
  split
  · refine follows_peekKind.bind fun kind => ?_
    split
    · exact ofDeeper.bind fun s => .pure _
    · exact ofBlock.bind fun otherwise => .pure _
  · exact .pure _

theorem follows_bindStatement (ofExpr : c.Follows expr expr') :
    c.Follows (bindStatement expr) (bindStatement expr') := by
  refine (follows_expectKeyword .let).bind fun p => follows_identifier.bind fun name => ?_
  refine (follows_eat .colon).bind fun typed => ?_
  have rest (type : Option TypeName) : c.Follows
      (do
        let _ ← Parser.expect .assign
        let init ← expr
        let _ ← Parser.expect .semicolon
        return Statement.bind p name type init)
      (do
        let _ ← Parser.expect .assign
        let init ← expr'
        let _ ← Parser.expect .semicolon
        return Statement.bind p name type init) :=
    (follows_expect .assign).bind fun _ => ofExpr.bind fun init =>
      (follows_expect .semicolon).bind fun _ => .pure _
  split
  · exact (follows_typeName.map).bind rest
  · exact rest none

theorem follows_loopStatement (ofExpr : c.Follows expr expr') (ofBlock : c.Follows block block') :
    c.Follows (loopStatement expr block) (loopStatement expr' block') := by
  refine (follows_expectKeyword .for).bind fun p => follows_identifier.bind fun name => ?_
  refine (follows_expectKeyword .in).bind fun _ => ofExpr.bind fun first => ?_
  refine (follows_expect .range).bind fun _ => ofExpr.bind fun last => ?_
  exact ofBlock.bind fun body => .pure _

theorem follows_giveStatement (ofExpr : c.Follows expr expr') :
    c.Follows (giveStatement expr) (giveStatement expr') := by
  refine (follows_expectKeyword .return).bind fun p => follows_peekKind.bind fun kind => ?_
  split
  · exact (follows_expect .semicolon).bind fun _ => .pure _
  · exact (ofExpr.map).bind fun value => (follows_expect .semicolon).bind fun _ => .pure _

theorem follows_plainStatement (ofExpr : c.Follows expr expr') :
    c.Follows (plainStatement expr) (plainStatement expr') := by
  refine follows_peekPosition.bind fun p => ofExpr.bind fun target => ?_
  refine (follows_eat .assign).bind fun taken => ?_
  split
  · exact ofExpr.bind fun value => (follows_expect .semicolon).bind fun _ => .pure _
  · exact (follows_expect .semicolon).bind fun _ => .pure _

theorem follows_statementOf {conditional conditional' : Parser Statement}
    (ofExpr : c.Follows expr expr') (ofBlock : c.Follows block block')
    (ofConditional : c.Follows conditional conditional') :
    c.Follows (statementOf expr block conditional) (statementOf expr' block' conditional') := by
  refine follows_peekKind.bind fun kind => ?_
  split
  · exact follows_bindStatement ofExpr
  · exact ofConditional
  · exact follows_loopStatement ofExpr ofBlock
  · exact follows_giveStatement ofExpr
  · exact follows_plainStatement ofExpr

end

theorem follows_levels {levels levels' : Nat} (more : levels ≤ levels') :
    c.Follows (block levels) (block levels') ∧
      c.Follows (conditional levels) (conditional levels') := by
  induction levels generalizing levels' with
  | zero =>
    refine ⟨follows_closedBlock, ?_⟩
    rw [conditional_zero]
    cases levels' with
    | zero =>
      exact follows_conditionalOf follows_tooDeepHere follows_closedBlock follows_tooDeepHere
    | succ levels' =>
      rw [conditional_succ]
      exact follows_conditionalOf follows_tooDeepHere follows_closedBlock follows_tooDeepHere
  | succ levels ih =>
    cases levels' with
    | zero => exact absurd more (Nat.not_succ_le_zero levels)
    | succ levels' =>
      obtain ⟨ofBlock, ofConditional⟩ := ih (Nat.le_of_succ_le_succ more)
      have ofExpr := follows_expr (c := c) (Nat.le_of_succ_le_succ more)
      have wider : c.Follows (block (levels + 1)) (block (levels' + 1)) :=
        follows_blockOf (follows_statementOf ofExpr ofBlock ofConditional)
      refine ⟨wider, ?_⟩
      rw [conditional_succ, conditional_succ]
      exact follows_conditionalOf (follows_expr more) wider ofConditional

/-! ## Units -/

theorem follows_function : c.Follows function function := by
  refine (follows_expectKeyword .fn).bind fun p => follows_identifier.bind fun name => ?_
  refine (follows_expect .openParen).bind fun _ => follows_identifier.bind fun param => ?_
  refine (follows_expect .colon).bind fun _ => follows_typeName.bind fun paramType => ?_
  refine (follows_expect .closeParen).bind fun _ => (follows_expect .arrow).bind fun _ => ?_
  refine follows_typeName.bind fun resultType => .read_bind fun low high _ deeper => ?_
  exact (follows_levels deeper).1.bind fun body => .pure _

theorem follows_imports (rounds : Nat) (found : List Path) :
    c.Follows (imports rounds found) (imports rounds found) := by
  induction rounds generalizing found with
  | zero => exact .pure _
  | succ rounds ih =>
    refine (follows_eatKeyword .use).bind fun taken => ?_
    split
    · exact follows_path.bind fun p => (follows_expect .semicolon).bind fun _ => ih _
    · exact .pure _

theorem follows_unit : c.Follows unit unit := by
  refine (follows_expectKeyword .module).bind fun _ => follows_path.bind fun moduleName => ?_
  refine (follows_expect .semicolon).bind fun _ => .read_bind fun low high same _ => ?_
  rw [same]
  refine (follows_imports _ []).bind fun found => follows_function.bind fun entry => ?_
  refine follows_peekKind.bind fun kind => ?_
  split
  · exact .pure _
  · exact follows_unexpected _

theorem onText_deeper {m m' : Parser α} {low high : Nat} {text : String} {a : α}
    (deeper : low ≤ high) (follows : ∀ c : Deepening, c.low.maxDepth = low →
      c.high.maxDepth = high → c.Follows m m')
    (parsed : m.onText low text = .ok a) : m'.onText high text = .ok a := by
  unfold onText at parsed ⊢
  cases reads : Token.Stream.ofText text with
  | error fault =>
    rw [reads] at parsed
    cases parsed
  | ok stream =>
    rw [reads] at parsed
    dsimp only at parsed ⊢
    let c : Deepening :=
      ⟨⟨stream.finish, low, stream.tokens.length⟩, ⟨stream.finish, high, stream.tokens.length⟩,
        rfl, rfl, deeper⟩
    cases ran : m c.low stream.tokens with
    | error fault =>
      rw [ran] at parsed
      cases parsed
    | ok r =>
      rw [ran] at parsed
      rw [follows c rfl rfl ran]
      exact parsed

end Deepening

theorem Expr.parse_deeper {low high : Nat} {text : String} {e : Expr} (deeper : low ≤ high)
    (parsed : Expr.parse low text = .ok e) : Expr.parse high text = .ok e :=
  Deepening.onText_deeper deeper (fun _ _ _ => Deepening.follows_expr deeper) parsed

theorem CompilationUnit.parse_deeper {low high : Nat} {text : String} {u : CompilationUnit}
    (deeper : low ≤ high) (parsed : CompilationUnit.parse low text = .ok u) :
    CompilationUnit.parse high text = .ok u :=
  Deepening.onText_deeper deeper (fun _ _ _ => Deepening.follows_unit) parsed

end SceneScript.Source
