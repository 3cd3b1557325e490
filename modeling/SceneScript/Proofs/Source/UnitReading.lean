import SceneScript.Proofs.Source.Reading
import SceneScript.Proofs.Source.Statements

/-!
# Reading units

Types, statements, blocks and units are read from their tokens if the expressions inside are.
-/

namespace SceneScript.Source

open Token (Kind)

namespace Parser

variable {P : Parsing} {levels rounds : Nat} {ts rest : List Token}

/-! ## Paths and types -/

theorem pathTail_reads {p : Path} {names : List String}
    (printed : ts.map Token.kind = names.flatMap fun name => [.symbol .dot, .word name])
    (enough : ts.length ≤ rounds) (stops : (ahead P rest).kind ≠ .symbol .dot) :
    pathTail rounds p P (ts ++ rest) = .ok ({ p with more := p.more ++ names }, rest) := by
  induction names generalizing p ts rounds with
  | nil =>
    obtain rfl := List.map_eq_nil_iff.mp printed
    rw [List.append_nil]
    exact pathTail_stops stops
  | cons name names ih =>
    obtain ⟨dot, others, rfl, isDot, behind⟩ := List.map_eq_cons_iff.mp printed
    obtain ⟨word, ts, rfl, isWord, behind⟩ := List.map_eq_cons_iff.mp behind
    simp only [List.length_cons] at enough
    obtain ⟨rounds, rfl⟩ : ∃ n, rounds = n + 1 := ⟨rounds - 1, by omega⟩
    rw [pathTail, List.cons_append, List.cons_append, eat_cons isDot, if_pos rfl,
      identifier_cons isWord, ih behind (by omega), Path.push, List.append_assoc]
    rfl

theorem path_reads {p : Path} (printed : ts.map Token.kind = p.tokens) (fits : Fits P levels ts)
    (stops : (ahead P rest).kind ≠ .symbol .dot) :
    ∃ q, q.unplaced = p.unplaced ∧ path P (ts ++ rest) = .ok (q, rest) := by
  obtain ⟨word, ts, rfl, is, behind⟩ := List.map_eq_cons_iff.mp printed
  refine ⟨⟨p.first, p.more, word.position⟩, rfl, ?_⟩
  rw [path, List.cons_append, peekPosition_cons, identifier_cons is, read_bind_run]
  exact pathTail_reads behind fits.tail.rounds stops

theorem unplaced_toTypeName (p : Path) : p.toTypeName.unplaced = p.unplaced.toTypeName := by
  obtain ⟨first, more, position⟩ := p
  cases more with
  | nil =>
    simp only [Path.toTypeName, Path.unplaced, Path.isSimple, List.isEmpty_nil, if_true]
    split <;> rfl
  | cons => rfl

theorem typeName_reads {type : TypeName} (printable : type.printable = true)
    (printed : ts.map Token.kind = type.tokens) (fits : Fits P levels ts)
    (stops : (ahead P rest).kind ≠ .symbol .dot) :
    ∃ t, t.unplaced = type.unplaced ∧ typeName P (ts ++ rest) = .ok (t, rest) := by
  obtain ⟨p, tokens, same⟩ : ∃ p : Path, type.tokens = p.tokens ∧
      p.toTypeName.unplaced = type.unplaced := by
    cases type with
    | int => exact ⟨⟨"int", [], .start⟩, rfl, rfl⟩
    | float => exact ⟨⟨"float", [], .start⟩, rfl, rfl⟩
    | bool => exact ⟨⟨"bool", [], .start⟩, rfl, rfl⟩
    | named p => exact ⟨p, rfl, congrArg TypeName.unplaced (of_decide_eq_true printable)⟩
  obtain ⟨q, sameName, ran⟩ := path_reads (printed.trans tokens) fits stops
  refine ⟨q.toTypeName, ?_, bind_ok ran _⟩
  rw [← same, unplaced_toTypeName, unplaced_toTypeName, sameName]

/-! ## Statements -/

def startsExpr : Kind → Bool
  | .keyword k => k ∈ [.true, .false, .null]
  | .symbol s => s ∈ [.openParen, .minus, .bang]
  | .finish => false
  | _ => true

def startsStatement : Kind → Bool
  | .keyword k => k ∈ [.let, .if, .for, .return, .true, .false, .null]
  | kind => startsExpr kind

theorem startsStatement_of_expr {kind : Kind} (starts : startsExpr kind = true) :
    startsStatement kind = true := by
  cases kind with
  | keyword k => cases k <;> first | rfl | cases starts
  | _ => exact starts

theorem startsExpr_tokens (e : Expr) :
    ∃ first more, e.tokens = first :: more ∧ startsExpr first = true := by
  obtain ⟨first, more, split, is⟩ := e.begins_tokens
  refine ⟨first, more, split, ?_⟩
  rcases is with opened | ⟨-, rfl | rfl⟩
  · cases first with
    | keyword k => cases k <;> first | rfl | cases opened
    | symbol s => cases s <;> first | rfl | cases opened
    | finish => cases opened
    | _ => rfl
  · rfl
  · rfl

theorem startsStatement_tokens (s : Statement) :
    ∃ first more, s.tokens = first :: more ∧ startsStatement first = true := by
  cases s with
  | assign _ e | eval _ e =>
    obtain ⟨first, more, split, starts⟩ := startsExpr_tokens e
    rw [Statement.tokens, split]
    exact ⟨first, _, rfl, startsStatement_of_expr starts⟩
  | _ => exact ⟨_, _, rfl, rfl⟩

theorem ahead_of_tokens {k : Kind} {more : List Kind} (printed : ts.map Token.kind = k :: more) :
    (ahead P (ts ++ rest)).kind = k := by
  obtain ⟨t, others, rfl, is, -⟩ := List.map_eq_cons_iff.mp printed
  exact is

theorem startsExpr_ahead {e : Expr} {more : List Kind}
    (printed : ts.map Token.kind = e.tokens ++ more) (P : Parsing) (rest : List Token) :
    startsExpr (ahead P (ts ++ rest)).kind = true := by
  obtain ⟨first, others, split, starts⟩ := startsExpr_tokens e
  rw [split] at printed
  rw [ahead_of_tokens printed]
  exact starts

theorem startsStatement_ahead {s : Statement} {more : List Kind}
    (printed : ts.map Token.kind = s.tokens ++ more) (P : Parsing) (rest : List Token) :
    startsStatement (ahead P (ts ++ rest)).kind = true := by
  obtain ⟨first, others, split, starts⟩ := startsStatement_tokens s
  rw [split] at printed
  rw [ahead_of_tokens printed]
  exact starts

def ReadsStatement (P : Parsing) (s : Statement) : Prop :=
  ∀ ⦃levels ts⦄, ts.map Token.kind = s.tokens → Fits P levels ts →
    ∀ rest, (ahead P rest).kind ≠ .keyword .else →
      ∃ r, r.strip Expr.unplaced = s.strip Expr.bare ∧
        statement levels P (ts ++ rest) = .ok (r, rest)

def ReadsBlock (P : Parsing) (body : List Statement) : Prop :=
  ∀ ⦃levels ts⦄, ts.map Token.kind = inBraces (Statement.tokensAll body) → Fits P levels ts →
    ∀ rest, ∃ rs, Statement.stripAll Expr.unplaced rs = Statement.stripAll Expr.bare body ∧
      block levels P (ts ++ rest) = .ok (rs, rest)

section

variable {t : Token} {e : Expr}

theorem statement_bind (is : t.kind = .keyword .let) :
    statement levels P (t :: ts) = bindStatement (expr levels) P (t :: ts) := by
  rw [statement, statementOf, peekKind_cons, is]

theorem statement_conditional (is : t.kind = .keyword .if) :
    statement levels P (t :: ts) = conditional levels P (t :: ts) := by
  rw [statement, statementOf, peekKind_cons, is]

theorem statement_loop (is : t.kind = .keyword .for) :
    statement levels P (t :: ts) = loopStatement (expr levels) (block levels) P (t :: ts) := by
  rw [statement, statementOf, peekKind_cons, is]

theorem statement_give (is : t.kind = .keyword .return) :
    statement levels P (t :: ts) = giveStatement (expr levels) P (t :: ts) := by
  rw [statement, statementOf, peekKind_cons, is]

theorem statement_plain (starts : startsExpr (ahead P ts).kind = true) :
    statement levels P ts = plainStatement (expr levels) P ts := by
  rw [statement, statementOf, bind_ok peekKind_run]
  cases is : (ahead P ts).kind with
  | keyword k =>
    rw [is] at starts
    cases k <;> first | rfl | cases starts
  | _ => rfl

theorem peekPosition_run : peekPosition P ts = .ok ((ahead P ts).position, ts) := by
  cases ts <;> rfl

theorem Reads.upTo {s : Symbol} {tokens : List Kind} (reads : Reads P e)
    (printed : ts.map Token.kind = e.tokens ++ .symbol s :: tokens) (fits : Fits P levels ts)
    (stops : stopsAt s = true) (rest : List Token) :
    ∃ r t others, r.unplaced = e.bare ∧ t.kind = .symbol s ∧ others.map Token.kind = tokens ∧
      Fits P levels (t :: others) ∧
      expr levels P (ts ++ rest) = .ok (r, t :: (others ++ rest)) := by
  obtain ⟨es, behind, rfl, own, printed⟩ := List.map_eq_append_iff.mp printed
  obtain ⟨t, others, rfl, is, printed⟩ := List.map_eq_cons_iff.mp printed
  have stopped : Stops 0 (ahead P (t :: (others ++ rest))).kind := is ▸ stops_symbol stops 0
  obtain ⟨r, same, ran⟩ := reads.ends own fits.left stopped
  refine ⟨r, t, others, same, is, printed, fits.right, ?_⟩
  rw [List.append_assoc]
  exact ran

theorem reads_eval (p : Position) (reads : Reads P e) : ReadsStatement P (.eval p e) := by
  intro levels ts printed fits rest _
  rw [Statement.tokens] at printed
  have starts := startsExpr_ahead printed P rest
  obtain ⟨r, t, others, same, is, printed, -, ran⟩ := reads.upTo printed fits (by decide) rest
  obtain rfl := List.map_eq_nil_iff.mp printed
  refine ⟨.eval (ahead P (ts ++ rest)).position r, ?_, ?_⟩
  · rw [Statement.strip, Statement.strip, same]
  · have noAssign : (ahead P (t :: ([] ++ rest))).kind ≠ .symbol .assign := by
      show t.kind ≠ _
      rw [is]
      decide
    rw [statement_plain starts, plainStatement, bind_ok peekPosition_run, bind_ok ran,
      bind_ok (eat_left noAssign), if_neg Bool.false_ne_true, expect_cons is]
    rfl

theorem reads_assign (p : Position) {value : Expr} (reads : Reads P e)
    (ofValue : Reads P value) : ReadsStatement P (.assign p e value) := by
  intro levels ts printed fits rest _
  rw [Statement.tokens, List.append_assoc, List.cons_append] at printed
  have starts := startsExpr_ahead printed P rest
  obtain ⟨r, t, others, same, is, printed, fits, ran⟩ := reads.upTo printed fits (by decide) rest
  obtain ⟨v, t', others', same', is', printed', -, ran'⟩ :=
    ofValue.upTo printed fits.tail (by decide) rest
  obtain rfl := List.map_eq_nil_iff.mp printed'
  refine ⟨.assign (ahead P (ts ++ rest)).position r v, ?_, ?_⟩
  · rw [Statement.strip, Statement.strip, same, same']
  · rw [statement_plain starts, plainStatement, bind_ok peekPosition_run, bind_ok ran,
      eat_cons is, if_pos rfl, bind_ok ran', expect_cons is']
    rfl

theorem reads_give (p : Position) {value : Option Expr} (reads : ∀ e ∈ value, Reads P e) :
    ReadsStatement P (.give p value) := by
  intro levels ts printed fits rest _
  cases value with
  | none =>
    obtain ⟨t, others, rfl, is, printed⟩ := List.map_eq_cons_iff.mp printed
    obtain ⟨semicolon, rfl, ends⟩ := List.map_eq_singleton_iff.mp printed
    refine ⟨.give t.position none, rfl, ?_⟩
    rw [List.cons_append, statement_give is, giveStatement, expectKeyword_cons is,
      List.singleton_append, peekKind_cons, if_pos ends, pure_bind]
    exact expect_cons ends _
  | some e =>
    obtain ⟨t, us, rfl, is, printed⟩ := List.map_eq_cons_iff.mp printed
    have printed : us.map Token.kind = e.tokens ++ [.symbol .semicolon] := printed
    have starts := startsExpr_ahead printed P rest
    have noSemicolon : (ahead P (us ++ rest)).kind ≠ .symbol .semicolon := by
      intro ends
      rw [ends] at starts
      cases starts
    obtain ⟨r, semicolon, others, same, ends, printed, -, ran⟩ :=
      (reads e rfl).upTo printed fits.tail (by decide) rest
    obtain rfl := List.map_eq_nil_iff.mp printed
    refine ⟨.give t.position (some r), ?_, ?_⟩
    · rw [Statement.strip, Statement.strip, Option.map_some, Option.map_some, same]
    · rw [List.cons_append, statement_give is, giveStatement, expectKeyword_cons is,
        bind_ok peekKind_run, if_neg noSemicolon]
      simp only [map_eq_pure_bind, bind_assoc, pure_bind]
      rw [bind_ok ran, expect_cons ends]
      rfl

theorem reads_bind_inferred (p : Position) (name : String) (reads : Reads P e) :
    ReadsStatement P (.bind p name none e) := by
  intro levels ts printed fits rest _
  obtain ⟨t, us, rfl, is, printed⟩ := List.map_eq_cons_iff.mp printed
  obtain ⟨word, us, rfl, named, printed⟩ := List.map_eq_cons_iff.mp printed
  obtain ⟨assign, us, rfl, assigned, printed⟩ := List.map_eq_cons_iff.mp printed
  have printed : us.map Token.kind = e.tokens ++ [.symbol .semicolon] := printed
  obtain ⟨r, semicolon, others, same, ends, printed, -, ran⟩ :=
    reads.upTo printed fits.tail.tail.tail (by decide) rest
  obtain rfl := List.map_eq_nil_iff.mp printed
  refine ⟨.bind t.position name none r, by rw [Statement.strip, Statement.strip, same], ?_⟩
  have noColon : (ahead P (assign :: (us ++ rest))).kind ≠ .symbol .colon := by
    show assign.kind ≠ _
    rw [assigned]
    decide
  simp only [List.cons_append]
  rw [statement_bind is, bindStatement, expectKeyword_cons is, identifier_cons named,
    bind_ok (eat_left noColon), if_neg Bool.false_ne_true, pure_bind]
  dsimp only
  rw [expect_cons assigned, bind_ok ran, expect_cons ends]
  rfl

theorem reads_bind_typed (p : Position) (name : String) {type : TypeName}
    (typed : type.printable = true) (reads : Reads P e) :
    ReadsStatement P (.bind p name (some type) e) := by
  intro levels ts printed fits rest _
  obtain ⟨t, us, rfl, is, printed⟩ := List.map_eq_cons_iff.mp printed
  obtain ⟨word, us, rfl, named, printed⟩ := List.map_eq_cons_iff.mp printed
  obtain ⟨colon, us, rfl, annotated, printed⟩ := List.map_eq_cons_iff.mp printed
  have printed : us.map Token.kind = type.tokens ++ .symbol .assign :: e.tokens ++
    [.symbol .semicolon] := printed
  rw [List.append_assoc] at printed
  obtain ⟨vs, us, rfl, ofType, printed⟩ := List.map_eq_append_iff.mp printed
  obtain ⟨assign, us, rfl, assigned, printed⟩ := List.map_eq_cons_iff.mp printed
  have fits := fits.tail.tail.tail
  have noDot : (ahead P (assign :: (us ++ rest))).kind ≠ .symbol .dot := by
    show assign.kind ≠ _
    rw [assigned]
    decide
  obtain ⟨type', sameType, typeRan⟩ := typeName_reads typed ofType fits.left noDot
  obtain ⟨r, semicolon, others, same, ends, printed, -, ran⟩ :=
    reads.upTo printed fits.right.tail (by decide) rest
  obtain rfl := List.map_eq_nil_iff.mp printed
  refine ⟨.bind t.position name (some type') r, ?_, ?_⟩
  · rw [Statement.strip, Statement.strip, same, Option.map_some, Option.map_some, sameType]
  · simp only [List.cons_append, List.append_assoc]
    rw [statement_bind is, bindStatement, expectKeyword_cons is, identifier_cons named,
      eat_cons annotated, if_pos rfl, map_eq_pure_bind, bind_assoc, bind_ok typeRan, pure_bind]
    dsimp only
    rw [expect_cons assigned, bind_ok ran, expect_cons ends]
    rfl

theorem reads_bind (p : Position) (name : String) {type : Option TypeName}
    (typed : type.all TypeName.printable = true) (reads : Reads P e) :
    ReadsStatement P (.bind p name type e) :=
  match type with
  | none => reads_bind_inferred p name reads
  | some _ => reads_bind_typed p name typed reads

theorem reads_loop (p : Position) (name : String) {last : Expr} {body : List Statement}
    (ofFirst : Reads P e) (ofLast : Reads P last) (ofBody : ReadsBlock P body) :
    ReadsStatement P (.loop p name e last body) := by
  intro levels ts printed fits rest _
  obtain ⟨t, us, rfl, is, printed⟩ := List.map_eq_cons_iff.mp printed
  obtain ⟨word, us, rfl, named, printed⟩ := List.map_eq_cons_iff.mp printed
  obtain ⟨within, us, rfl, isIn, printed⟩ := List.map_eq_cons_iff.mp printed
  have printed : us.map Token.kind = e.tokens ++ .symbol .range :: last.tokens ++
    inBraces (Statement.tokensAll body) := printed
  rw [List.append_assoc] at printed
  obtain ⟨r, range, us, same, isRange, printed, fits, ran⟩ :=
    ofFirst.upTo printed fits.tail.tail.tail (by decide) rest
  obtain ⟨r', brace, us', same', isBrace, printed', fits, ran'⟩ :=
    ofLast.upTo printed fits.tail (by decide) rest
  have block : (brace :: us').map Token.kind = inBraces (Statement.tokensAll body) :=
    congrArg₂ List.cons isBrace printed'
  obtain ⟨rs, sames, rans⟩ := ofBody block fits rest
  refine ⟨.loop t.position name r r' rs, ?_, ?_⟩
  · rw [Statement.strip, Statement.strip, same, same', sames]
  · simp only [List.cons_append]
    rw [statement_loop is, loopStatement, expectKeyword_cons is, identifier_cons named,
      expectKeyword_cons isIn, bind_ok ran, expect_cons isRange, bind_ok ran']
    exact bind_ok rans _

theorem guarded_reads {body : List Statement} {t : Token} {more : List Kind}
    (is : t.kind = .keyword .if) (ofCond : Reads P e) (ofBody : ReadsBlock P body)
    (printed : ts.map Token.kind = e.tokens ++ (inBraces (Statement.tokensAll body) ++ more))
    (fits : Fits P levels (t :: ts)) (deeper : Parser Statement) (rest : List Token) :
    ∃ r rs others, r.unplaced = e.bare ∧
      Statement.stripAll Expr.unplaced rs = Statement.stripAll Expr.bare body ∧
      others.map Token.kind = more ∧ Fits P levels (t :: others) ∧
      conditionalOf (expr levels) (block levels) deeper P (t :: (ts ++ rest)) =
        (do
          if ← eatKeyword .else then
            if (← peekKind) = .keyword .if then
              return .ifThenElse t.position r rs [← deeper]
            else
              return .ifThenElse t.position r rs (← block levels)
          else
            return .ifThen t.position r rs : Parser _) P (others ++ rest) := by
  rw [← List.append_assoc] at printed
  obtain ⟨us, others, rfl, printed, behind⟩ := List.map_eq_append_iff.mp printed
  obtain ⟨r, brace, us', same, isBrace, printed', fits', ran⟩ :=
    ofCond.upTo printed fits.tail.left (by decide) (others ++ rest)
  have enclosed : (brace :: us').map Token.kind = inBraces (Statement.tokensAll body) :=
    congrArg₂ List.cons isBrace printed'
  obtain ⟨rs, sames, rans⟩ := ofBody enclosed fits' (others ++ rest)
  have shorter : (t :: others).length ≤ (t :: (us ++ others)).length := by
    simp only [List.length_cons, List.length_append]
    omega
  refine ⟨r, rs, others, same, sames, behind, fits.mono shorter, ?_⟩
  rw [conditionalOf, expectKeyword_cons is, List.append_assoc, bind_ok ran]
  exact bind_ok rans _

theorem reads_ifThen (p : Position) {body : List Statement} (ofCond : Reads P e)
    (ofBody : ReadsBlock P body) : ReadsStatement P (.ifThen p e body) := by
  intro levels ts printed fits rest noElse
  obtain ⟨t, us, rfl, is, printed⟩ := List.map_eq_cons_iff.mp printed
  obtain ⟨levels, rfl⟩ := fits.exists_levels
  obtain ⟨r, rs, others, same, sames, printed, -, ran⟩ :=
    guarded_reads is ofCond ofBody (printed.trans (by rw [List.append_nil]; rfl)) fits
      (conditional levels) rest
  obtain rfl := List.map_eq_nil_iff.mp printed
  refine ⟨.ifThen t.position r rs, by rw [Statement.strip, Statement.strip, same, sames], ?_⟩
  rw [List.cons_append, statement_conditional is, conditional_succ, ran, List.nil_append,
    bind_ok (eatKeyword_left noElse)]
  rfl

theorem reads_ifThenElse (p : Position) {body otherwise : List Statement} (ofCond : Reads P e)
    (ofBody : ReadsBlock P body) (ofOther : ReadsBlock P otherwise)
    (ofOthers : ∀ s ∈ otherwise, ReadsStatement P s) :
    ReadsStatement P (.ifThenElse p e body otherwise) := by
  intro levels ts printed fits rest noElse
  rw [Statement.tokens, List.append_assoc, List.cons_append] at printed
  obtain ⟨t, us, rfl, is, printed⟩ := List.map_eq_cons_iff.mp printed
  obtain ⟨levels, rfl⟩ := fits.exists_levels
  obtain ⟨r, rs, others, same, sames, printed, fits, ran⟩ :=
    guarded_reads is ofCond ofBody printed fits (conditional levels) rest
  obtain ⟨alternative, vs, rfl, isElse, printed⟩ := List.map_eq_cons_iff.mp printed
  rw [List.cons_append, statement_conditional is, conditional_succ, ran, List.cons_append,
    eatKeyword_cons isElse, if_pos rfl, bind_ok peekKind_run]
  -- An `else` is followed by another `if` or by a block.
  split at printed
  · rename_i chained
    obtain ⟨s, rfl, others, begins⟩ : ∃ s, otherwise = [s] ∧
        ∃ others, s.tokens = .keyword .if :: others := by
      unfold isElseIf at chained
      split at chained
      · exact ⟨_, rfl, _, rfl⟩
      · exact ⟨_, rfl, _, rfl⟩
      · cases chained
    rw [Statement.tokensAll, Statement.tokensAll, List.append_nil] at printed
    have fewer : Fits P levels vs := by
      have ⟨enough, rounds, depth⟩ := fits
      simp only [List.length_cons] at enough rounds depth
      exact ⟨by omega, by omega, by omega⟩
    obtain ⟨r', same', ran'⟩ := ofOthers s List.mem_cons_self printed fewer rest noElse
    obtain ⟨t', vs, rfl, isIf, -⟩ := List.map_eq_cons_iff.mp (printed.trans begins)
    rw [List.cons_append, statement_conditional isIf] at ran'
    refine ⟨.ifThenElse t.position r rs [r'], ?_, ?_⟩
    · rw [Statement.strip, Statement.strip, same, sames, Statement.stripAll, same']
      rfl
    · rw [if_pos (show (ahead P (t' :: vs ++ rest)).kind = _ from isIf), List.cons_append,
        bind_ok ran']
      rfl
  · have isBrace : (ahead P (vs ++ rest)).kind = .symbol .openBrace := ahead_of_tokens printed
    obtain ⟨rs', sames', ran'⟩ := ofOther printed fits.tail.tail rest
    refine ⟨.ifThenElse t.position r rs rs', ?_, ?_⟩
    · rw [Statement.strip, Statement.strip, same, sames, sames']
    · rw [if_neg (by rw [isBrace]; nofun), bind_ok ran']
      rfl

end

/-! ## Blocks -/

theorem statements_read {body : List Statement} (reads : ∀ s ∈ body, ReadsStatement P s)
    (printed : ts.map Token.kind = Statement.tokensAll body ++ [.symbol .closeBrace])
    (fits : Fits P levels ts) (enough : ts.length ≤ rounds) (start : Position)
    (found : List Statement) :
    ∃ rs, Statement.stripAll Expr.unplaced rs = Statement.stripAll Expr.bare body ∧
      statements (statement levels) start rounds found P (ts ++ rest) =
        .ok (found.reverse ++ rs, rest) := by
  induction body generalizing ts rounds found with
  | nil =>
    obtain ⟨close, rfl, closing⟩ := List.map_eq_singleton_iff.mp printed
    obtain ⟨rounds, rfl⟩ : ∃ n, rounds = n + 1 := ⟨rounds - 1, by
      simp only [List.length_singleton] at enough
      omega⟩
    refine ⟨[], rfl, ?_⟩
    rw [List.append_nil]
    exact statements_closed closing
  | cons s body ih =>
    have ⟨first, others⟩ := List.forall_mem_cons.mp reads
    rw [Statement.tokensAll, List.append_assoc] at printed
    have starts := startsStatement_ahead printed P rest
    obtain ⟨us, vs, rfl, own, behind⟩ := List.map_eq_append_iff.mp printed
    have some : 0 < us.length := by
      obtain ⟨first, more, split, -⟩ := startsStatement_tokens s
      rw [← List.length_map, own, split]
      exact Nat.succ_pos _
    simp only [List.length_append] at enough
    obtain ⟨rounds, rfl⟩ : ∃ n, rounds = n + 1 := ⟨rounds - 1, by omega⟩
    -- A statement or the brace begins here, and neither is an `else`.
    have noElse : (ahead P (vs ++ rest)).kind ≠ .keyword .else := by
      cases body with
      | nil =>
        rw [ahead_of_tokens behind]
        nofun
      | cons next body =>
        rw [Statement.tokensAll, List.append_assoc] at behind
        intro isElse
        have starts := startsStatement_ahead behind P rest
        rw [isElse] at starts
        cases starts
    obtain ⟨r, same, ran⟩ := first own fits.left (vs ++ rest) noElse
    have fewer : vs.length ≤ rounds := by omega
    obtain ⟨rs, sames, rans⟩ := ih others behind fits.right fewer (r :: found)
    refine ⟨r :: rs, by rw [Statement.stripAll, Statement.stripAll, same, sames], ?_⟩
    rw [statements_more (fun isBrace => by rw [isBrace] at starts; cases starts)
      (fun isFinish => by rw [isFinish] at starts; cases starts), List.append_assoc, bind_ok ran,
      rans, List.reverse_cons, List.append_assoc]
    rfl

theorem reads_block {body : List Statement} (reads : ∀ s ∈ body, ReadsStatement P s) :
    ReadsBlock P body := by
  intro levels ts printed fits rest
  obtain ⟨opening, us, rfl, opens, behind⟩ := List.map_eq_cons_iff.mp printed
  obtain ⟨levels, rfl⟩ := fits.exists_levels
  have ⟨enough, rounds, depth⟩ := fits
  simp only [List.length_cons] at enough rounds depth
  have fewer : Fits P levels us := ⟨by omega, by omega, by omega⟩
  have within : us.length ≤ P.rounds + 1 := by omega
  rw [block_succ, blockOf, List.cons_append, expect_cons opens, read_bind_run]
  exact statements_read reads behind fewer within opening.position []

/-! ## All statements -/

mutual

theorem readsStatement : ∀ s : Statement, s.printable = true → ReadsStatement P s
  | .bind p name type init, printable => by
    have ⟨typed, inside⟩ : type.all TypeName.printable = true ∧ init.printable = true := by
      simpa [Statement.printable] using printable
    exact reads_bind p name typed (reads init inside)
  | .assign p target value, printable => by
    have ⟨onLeft, onRight⟩ : target.printable = true ∧ value.printable = true := by
      simpa [Statement.printable] using printable
    exact reads_assign p (reads target onLeft) (reads value onRight)
  | .ifThen p cond body, printable => by
    have ⟨ofCond, inside⟩ : cond.printable = true ∧ Statement.allPrintable body = true := by
      simpa [Statement.printable] using printable
    exact reads_ifThen p (reads cond ofCond) (reads_block (readsStatements body inside))
  | .ifThenElse p cond body otherwise, printable => by
    have ⟨⟨ofCond, inside⟩, others⟩ : (cond.printable = true ∧
        Statement.allPrintable body = true) ∧ Statement.allPrintable otherwise = true := by
      simpa [Statement.printable] using printable
    exact reads_ifThenElse p (reads cond ofCond) (reads_block (readsStatements body inside))
      (reads_block (readsStatements otherwise others)) (readsStatements otherwise others)
  | .loop p name first last body, printable => by
    have ⟨⟨ofFirst, ofLast⟩, inside⟩ : (first.printable = true ∧ last.printable = true) ∧
        Statement.allPrintable body = true := by
      simpa [Statement.printable] using printable
    exact reads_loop p name (reads first ofFirst) (reads last ofLast)
      (reads_block (readsStatements body inside))
  | .give p value, printable =>
    reads_give p fun e is => reads e ((Option.all_eq_true _ _).mp printable e is)
  | .eval p value, printable => reads_eval p (reads value printable)

theorem readsStatements : ∀ body : List Statement, Statement.allPrintable body = true →
    ∀ s ∈ body, ReadsStatement P s
  | [], _ => nofun
  | first :: rest, printable => by
    have ⟨own, others⟩ : first.printable = true ∧ Statement.allPrintable rest = true := by
      simpa [Statement.allPrintable] using printable
    exact List.forall_mem_cons.mpr ⟨readsStatement first own, readsStatements rest others⟩

end

/-! ## Units -/

theorem imports_read {paths : List Path}
    (printed : ts.map Token.kind =
      paths.flatMap fun p => .keyword .use :: p.tokens ++ [.symbol .semicolon])
    (fits : Fits P levels ts) (enough : ts.length ≤ rounds)
    (ends : (ahead P rest).kind ≠ .keyword .use) (found : List Path) :
    ∃ ps, ps.map Path.unplaced = paths.map Path.unplaced ∧
      imports rounds found P (ts ++ rest) = .ok (found.reverse ++ ps, rest) := by
  induction paths generalizing ts rounds found with
  | nil =>
    obtain rfl := List.map_eq_nil_iff.mp printed
    refine ⟨[], rfl, ?_⟩
    rw [List.append_nil]
    cases rounds with
    | zero => rfl
    | succ rounds =>
      rw [imports, List.nil_append, bind_ok (eatKeyword_left ends)]
      rfl
  | cons p paths ih =>
    rw [List.flatMap_cons, List.append_assoc, List.cons_append] at printed
    obtain ⟨t, us, rfl, is, printed⟩ := List.map_eq_cons_iff.mp printed
    obtain ⟨us, vs, rfl, named, printed⟩ := List.map_eq_append_iff.mp printed
    obtain ⟨semicolon, vs, rfl, closed, printed⟩ := List.map_eq_cons_iff.mp printed
    simp only [List.length_cons, List.length_append] at enough
    obtain ⟨rounds, rfl⟩ : ∃ n, rounds = n + 1 := ⟨rounds - 1, by omega⟩
    have fewer : vs.length ≤ rounds := by omega
    have noDot : (ahead P (semicolon :: (vs ++ rest))).kind ≠ .symbol .dot := by
      show semicolon.kind ≠ _
      rw [closed]
      decide
    obtain ⟨q, same, ran⟩ := path_reads named fits.tail.left noDot
    obtain ⟨ps, sames, rans⟩ := ih printed fits.tail.right.tail fewer (q :: found)
    refine ⟨q :: ps, by rw [List.map_cons, List.map_cons, same, sames], ?_⟩
    rw [List.cons_append, List.append_assoc, List.cons_append, imports, eatKeyword_cons is,
      if_pos rfl, bind_ok ran, expect_cons closed, rans, List.reverse_cons, List.append_assoc]
    rfl

theorem function_reads {f : Function} (ofParam : f.paramType.printable = true)
    (ofResult : f.resultType.printable = true) (ofBody : Statement.allPrintable f.body = true)
    (printed : ts.map Token.kind =
      .keyword .fn :: .word f.name :: .symbol .openParen :: .word f.param :: .symbol .colon ::
        (f.paramType.tokens ++ .symbol .closeParen :: .symbol .arrow ::
          (f.resultType.tokens ++ inBraces (Statement.tokensAll f.body))))
    (fits : Fits P P.maxDepth ts) (rest : List Token) :
    ∃ g : Function, g.name = f.name ∧ g.param = f.param ∧
      g.paramType.unplaced = f.paramType.unplaced ∧
      g.resultType.unplaced = f.resultType.unplaced ∧
      Statement.stripAll Expr.unplaced g.body = Statement.stripAll Expr.bare f.body ∧
      function P (ts ++ rest) = .ok (g, rest) := by
  obtain ⟨t, ts, rfl, is, printed⟩ := List.map_eq_cons_iff.mp printed
  obtain ⟨word, ts, rfl, named, printed⟩ := List.map_eq_cons_iff.mp printed
  obtain ⟨opening, ts, rfl, opens, printed⟩ := List.map_eq_cons_iff.mp printed
  obtain ⟨param, ts, rfl, called, printed⟩ := List.map_eq_cons_iff.mp printed
  obtain ⟨colon, ts, rfl, typed, printed⟩ := List.map_eq_cons_iff.mp printed
  have fits := fits.tail.tail.tail.tail.tail
  obtain ⟨us, ts, rfl, paramType, printed⟩ := List.map_eq_append_iff.mp printed
  obtain ⟨close, ts, rfl, closes, printed⟩ := List.map_eq_cons_iff.mp printed
  obtain ⟨arrow, ts, rfl, gives, printed⟩ := List.map_eq_cons_iff.mp printed
  obtain ⟨vs, ts, rfl, resultType, printed⟩ := List.map_eq_append_iff.mp printed
  -- Neither type is read past its end: a path goes on with a dot.
  have noDot : (ahead P (close :: arrow :: (vs ++ (ts ++ rest)))).kind ≠ .symbol .dot := by
    show close.kind ≠ _
    rw [closes]
    decide
  have noDot' : (ahead P (ts ++ rest)).kind ≠ .symbol .dot := by
    rw [ahead_of_tokens printed]
    nofun
  obtain ⟨paramType', sameParam, ran⟩ := typeName_reads ofParam paramType fits.left noDot
  have fits := fits.right.tail.tail
  obtain ⟨resultType', sameResult, ran'⟩ := typeName_reads ofResult resultType fits.left noDot'
  obtain ⟨body, sameBody, ran''⟩ :=
    reads_block (readsStatements f.body ofBody) printed fits.right rest
  refine ⟨⟨f.name, f.param, paramType', resultType', body, t.position⟩, rfl, rfl, sameParam,
    sameResult, sameBody, ?_⟩
  simp only [List.cons_append, List.append_assoc]
  rw [function, expectKeyword_cons is, identifier_cons named, expect_cons opens,
    identifier_cons called, expect_cons typed, bind_ok ran, expect_cons closes, expect_cons gives,
    bind_ok ran', read_bind_run]
  exact bind_ok ran'' _

theorem unit_reads {u : CompilationUnit} (printable : u.printable = true)
    (printed : ts.map Token.kind = u.tokens) (fits : Fits P P.maxDepth ts) :
    ∃ v : CompilationUnit, v.strip Expr.unplaced = u.strip Expr.bare ∧ unit P ts = .ok (v, []) := by
  have ⟨⟨ofParam, ofResult⟩, ofBody⟩ : (u.entry.paramType.printable = true ∧
      u.entry.resultType.printable = true) ∧ Statement.allPrintable u.entry.body = true := by
    simpa [CompilationUnit.printable] using printable
  simp only [CompilationUnit.tokens, List.append_assoc, List.cons_append, List.nil_append]
    at printed
  obtain ⟨t, ts, rfl, is, printed⟩ := List.map_eq_cons_iff.mp printed
  obtain ⟨us, ts, rfl, named, printed⟩ := List.map_eq_append_iff.mp printed
  obtain ⟨semicolon, ts, rfl, closed, printed⟩ := List.map_eq_cons_iff.mp printed
  obtain ⟨vs, ts, rfl, used, printed⟩ := List.map_eq_append_iff.mp printed
  have noDot : (ahead P (semicolon :: (vs ++ ts))).kind ≠ .symbol .dot := by
    show semicolon.kind ≠ _
    rw [closed]
    decide
  have noUse : (ahead P ts).kind ≠ .keyword .use := by
    rw [← List.append_nil ts, ahead_of_tokens printed]
    nofun
  have fits := fits.tail
  obtain ⟨moduleName, sameName, ran⟩ := path_reads named fits.left noDot
  have fits := fits.right.tail
  obtain ⟨ps, sames, ran'⟩ := imports_read used fits.left fits.left.rounds noUse []
  obtain ⟨f, sameF, sameP, sameParam, sameResult, sameBody, ran''⟩ :=
    function_reads ofParam ofResult ofBody printed fits.right []
  rw [List.append_nil] at ran''
  refine ⟨⟨moduleName, ps, f⟩, ?_, ?_⟩
  · simp only [CompilationUnit.strip, sameName, sames, sameF, sameP, sameParam, sameResult, sameBody]
  · rw [unit, expectKeyword_cons is, bind_ok ran, expect_cons closed, read_bind_run, bind_ok ran',
      bind_ok ran'']
    rfl

end Parser

end SceneScript.Source
