import SceneScript.Proofs.Source.RoundTrip

/-!
# Reading expressions

Every construct is read from its tokens if its parts are.
-/

namespace SceneScript.Source

open Number (isNegative isNegative_neg)
open Token (Kind)

namespace Parser

section

variable {P : Parsing} {nesting rounds : Nat} {r e : Expr} {ts rest : List Token}

theorem bounded_same (same : r.unplaced = e.bare) (short : e.tokens.length ≤ P.maxDepth) :
    bounded r P ts = .ok (r, ts) := by
  have height : r.height ≤ P.maxDepth := by
    rw [← r.height_unplaced, same]
    exact Nat.le_trans e.height_le short
  rw [bounded, read_bind_run, if_pos height]
  rfl

theorem length_tokens (tokens : ts.map Token.kind = e.tokens) : e.tokens.length = ts.length := by
  rw [← tokens, List.length_map]

theorem Fits.left {levels : Nat} {us : List Token} (fits : Fits P levels (ts ++ us)) :
    Fits P levels ts :=
  fits.mono (by simp only [List.length_append]; omega)

theorem Fits.right {levels : Nat} {us : List Token} (fits : Fits P levels (ts ++ us)) :
    Fits P levels us :=
  fits.mono (by simp only [List.length_append]; omega)

theorem Fits.tail {levels : Nat} {t : Token} (fits : Fits P levels (t :: ts)) : Fits P levels ts :=
  fits.mono (Nat.le_succ _)

/-! ## Single tokens -/

theorem reads_single {k : Kind} (tokens : e.tokens = [k]) (tight : e.level = 7)
    (reads : ∀ t : Token, t.kind = k → ∃ r, r.unplaced = e.bare ∧
      ∀ inner rest, primary inner P (t :: rest) = .ok (r, rest)) : Reads P e := by
  intro nesting ts printed _
  obtain ⟨t, rfl, is⟩ := List.map_eq_singleton_iff.mp (printed.trans tokens)
  obtain ⟨r, same, ran⟩ := reads t is
  rw [tight]
  refine fun rest _ => ⟨r, P.rounds, same, Nat.le_add_right _ _, ?_⟩
  rw [exprAt_seven, postfixed, List.singleton_append, bind_ok (ran _ _)]
  rfl

theorem reads_natural (p : Position) (n : Nat) : Reads P (.int p n) := by
  have natural : ¬ (n : Int) < 0 := by omega
  refine reads_single (k := .int n) ?_ ?_ fun t is =>
    ⟨.int t.position n, rfl, fun inner rest => ?_⟩
  · rw [Expr.tokens, if_neg natural, Int.natAbs_natCast]
  · rw [Expr.level, if_neg natural]
  · rw [primary, advance_cons, is]
    rfl

theorem reads_positive (p : Position) {x : Float} (positive : isNegative x = false) :
    Reads P (.float p x) := by
  refine reads_single (k := .float x) ?_ ?_ fun t is =>
    ⟨.float t.position x, rfl, fun inner rest => ?_⟩
  · rw [Expr.tokens, positive]
    rfl
  · rw [Expr.level, positive]
    rfl
  · rw [primary, advance_cons, is]
    rfl

theorem reads_string (p : Position) (s : String) : Reads P (.string p s) := by
  refine reads_single rfl rfl fun t is => ⟨.string t.position s, rfl, fun inner rest => ?_⟩
  rw [primary, advance_cons, is]
  rfl

theorem reads_bool (p : Position) (b : Bool) : Reads P (.bool p b) := by
  refine reads_single rfl rfl fun t is => ⟨.bool t.position b, rfl, fun inner rest => ?_⟩
  rw [primary, advance_cons, is]
  cases b <;> rfl

theorem reads_null (p : Position) : Reads P (.null p) := by
  refine reads_single rfl rfl fun t is => ⟨.null t.position, rfl, fun inner rest => ?_⟩
  rw [primary, advance_cons, is]
  rfl

theorem reads_var (p : Position) (name : String) : Reads P (.var p name) := by
  refine reads_single rfl rfl fun t is => ⟨.var t.position name, rfl, fun inner rest => ?_⟩
  rw [primary, advance_cons, is]
  rfl

/-! ## Operators -/

theorem reads_prefixed {op : UnaryOp} {operand : Expr}
    (tokens : e.tokens = .symbol op.symbol :: operand.tokensAt 6) (loose : e.level = 6)
    (reads : Reads P operand)
    (applies : e.tokens.length ≤ P.maxDepth → ∀ r position, r.unplaced = operand.bare →
      ∃ r', r'.unplaced = e.bare ∧ ∀ rest, applyUnary op position r P rest = .ok (r', rest)) :
    Reads P e := by
  intro nesting ts printed fits
  obtain ⟨t, others, rfl, is, behind⟩ := List.map_eq_cons_iff.mp (printed.trans tokens)
  obtain ⟨first, more, split, -⟩ := Expr.begins_tokensAt operand.begins_tokens 6
  have some : 0 < others.length := by
    rw [← List.length_map, behind, split]
    exact Nat.succ_pos _
  obtain ⟨inner, rfl, fewer⟩ := fits.inside (Nat.lt_succ_self others.length) some
  rw [loose]
  intro rest stops
  obtain ⟨r, rounds, same, -, ran⟩ := reads.parses (by decide) behind fewer rest stops
  obtain ⟨r', same', applied⟩ := applies (length_tokens printed ▸ fits.depth) r t.position same
  refine ⟨r', P.rounds, same', Nat.le_add_right _ _, ?_⟩
  have operand : under (inner + 1) t.position P (others ++ rest) = .ok (r, rest) := ran
  rw [exprAt_six, tailAt_six, unary_eq, List.cons_append, unaryOr, peek_cons, is]
  cases op <;>
  · dsimp only [UnaryOp.symbol]
    rw [advance_cons, bind_ok operand]
    exact applied rest

theorem reads_int (p : Position) (v : Int) : Reads P (.int p v) := by
  by_cases negative : v < 0
  · have natural : ¬ (v.natAbs : Int) < 0 := by omega
    have tokens : (Expr.int p v).tokens =
        .symbol UnaryOp.neg.symbol :: (Expr.int p v.natAbs).tokensAt 6 := by
      rw [Expr.tokens, if_pos negative, Expr.tokensAt, Expr.level, if_neg natural, Expr.tokens,
        if_neg natural]
      rfl
    refine reads_prefixed tokens ?_ (reads_natural p v.natAbs) ?_
    · rw [Expr.level, if_pos negative]
    · intro _ r position same
      cases r <;> cases same
      refine ⟨.int position (-v.natAbs), ?_, fun rest => rfl⟩
      rw [Expr.unplaced, Expr.bare, Int.ofNat_natAbs_of_nonpos (by omega), Int.neg_neg]
  · obtain ⟨n, rfl⟩ := Int.eq_ofNat_of_zero_le (Int.not_lt.mp negative)
    exact reads_natural p n

theorem reads_float (p : Position) (x : Float) : Reads P (.float p x) := by
  cases negative : isNegative x with
  | true =>
    have positive := isNegative_neg negative
    have tokens : (Expr.float p x).tokens =
        .symbol UnaryOp.neg.symbol :: (Expr.float p (-x)).tokensAt 6 := by
      rw [Expr.tokens, negative, Expr.tokensAt, Expr.level, positive, Expr.tokens, positive]
      rfl
    refine reads_prefixed tokens ?_ (reads_positive p positive) ?_
    · rw [Expr.level, negative]
      rfl
    · intro _ r position same
      cases r <;> cases same
      refine ⟨.float position (- -x), ?_, fun rest => rfl⟩
      rw [Number.neg_neg_float]
      rfl
  | false => exact reads_positive p negative

theorem reads_unary {h : Nat} (p : Position) (op : UnaryOp) {operand : Expr}
    (apart : op = .neg → operand.isNumber = false) (reads : Reads P operand) :
    Reads P (.unary p h op operand) := by
  refine reads_prefixed rfl rfl reads fun short r position same => ?_
  have same' : (Expr.unaryOf position op r).unplaced = (Expr.unary p h op operand).bare := by
    rw [Expr.unplaced_unaryOf, same, Expr.bare]
  refine ⟨_, same', fun rest => ?_⟩
  have bounds : bounded (.unaryOf position op r) P rest = .ok (_, rest) := bounded_same same' short
  cases op with
  | not => exact bounds
  | neg =>
    have apart := apart rfl
    cases operand with
    | int | float => cases apart
    | _ => cases r <;> first | exact bounds | cases same

theorem reads_binary {h : Nat} (p : Position) (op : BinaryOp) {left right : Expr}
    (ofLeft : Reads P left) (ofRight : Reads P right) : Reads P (.binary p h op left right) := by
  intro nesting ts printed fits rest stops
  have most : op.level ≤ 5 := by cases op <;> decide
  obtain ⟨ls, others, rfl, onLeft, behind⟩ := List.map_eq_append_iff.mp printed
  obtain ⟨t, rs, rfl, is, onRight⟩ := List.map_eq_cons_iff.mp behind
  have stopped : Stops (op.level + 1) (ahead P (t :: (rs ++ rest))).kind := is ▸ stops_operator op
  obtain ⟨l, rounds, sameLeft, left, ran⟩ := ofLeft.parses (by omega) onLeft fits.left _ stopped
  obtain ⟨r, sameRight, ended⟩ :=
    (ofRight.parses (by omega) onRight fits.right.tail).ends (by omega) stops
  have same := Expr.unplaced_binaryOf t.position op l r
  rw [sameLeft, sameRight] at same
  have short := length_tokens printed ▸ fits.depth
  have enough := fits.rounds
  simp only [List.length_append, List.length_cons] at enough ⊢
  obtain ⟨rounds, rfl⟩ : ∃ n, rounds = n + 1 := ⟨rounds - 1, by omega⟩
  refine ⟨_, rounds, same, by omega, ?_⟩
  obtain ⟨operator?, at_, reads⟩ := operators_level op
  show exprAt nesting op.level P _ = tailAt nesting op.level _ _ P rest
  rw [tailAt_binary _ _ _ at_] at ran ⊢
  rw [List.append_assoc, List.cons_append, ran, chainTail, peek_cons, is, reads]
  dsimp only
  rw [advance_cons, bind_ok ended, bind_ok (bounded_same same short)]

/-! ## Arguments -/

theorem Reads.ends {levels : Nat} (reads : Reads P e) (printed : ts.map Token.kind = e.tokens)
    (fits : Fits P levels ts) (stops : Stops 0 (ahead P rest).kind) :
    ∃ r, r.unplaced = e.bare ∧ expr levels P (ts ++ rest) = .ok (r, rest) := by
  have some := length_pos_of_tokens printed
  have entered := fits.levels
  obtain ⟨nesting, rfl⟩ : ∃ nesting, levels = nesting + 1 := ⟨levels - 1, by omega⟩
  exact (reads.parses (Nat.zero_le 7) printed fits).ends (Nat.zero_le 7) stops

section

variable {close : Token} {args : List Expr}

theorem argumentTail_reads (closing : close.kind = .symbol .closeParen) (reads : Reads P e)
    (others : ∀ arg ∈ args, Reads P arg)
    (printed : ts.map Token.kind = e.tokens ++ Expr.moreTokens args) (fits : Fits P nesting ts)
    (enough : ts.length ≤ rounds) (found : List Expr) :
    ∃ rs, Expr.unplacedAll rs = Expr.bareAll (e :: args) ∧
      argumentTail (expr nesting) rounds found P (ts ++ close :: rest) =
        .ok (found.reverse ++ rs, rest) := by
  induction args generalizing e ts rounds found with
  | nil =>
    rw [Expr.moreTokens, List.append_nil] at printed
    have some := length_pos_of_tokens printed
    obtain ⟨rounds, rfl⟩ : ∃ n, rounds = n + 1 := ⟨rounds - 1, by omega⟩
    have stopped : Stops 0 (ahead P (close :: rest)).kind := closing ▸ stops_symbol (by decide) 0
    obtain ⟨r, same, ran⟩ := reads.ends printed fits stopped
    refine ⟨[r], by rw [Expr.unplacedAll, same]; rfl, ?_⟩
    have noComma : (ahead P (close :: rest)).kind ≠ .symbol .comma := by
      show close.kind ≠ _
      rw [closing]
      decide
    rw [argumentTail, bind_ok ran, bind_ok (eat_left noComma), if_neg Bool.false_ne_true,
      expect_cons closing, List.reverse_cons]
    rfl
  | cons next args ih =>
    obtain ⟨es, more, rfl, own, behind⟩ := List.map_eq_append_iff.mp printed
    rw [Expr.moreTokens, List.cons_append] at behind
    obtain ⟨comma, us, rfl, is, behind⟩ := List.map_eq_cons_iff.mp behind
    -- The comma ends the argument, since no operator is spelt so.
    have stopped : Stops 0 (ahead P (comma :: (us ++ close :: rest))).kind :=
      is ▸ stops_symbol (by decide) 0
    have some := length_pos_of_tokens own
    simp only [List.length_append, List.length_cons] at enough
    obtain ⟨rounds, rfl⟩ : ∃ n, rounds = n + 1 := ⟨rounds - 1, by omega⟩
    have fewer : us.length ≤ rounds := by omega
    obtain ⟨r, same, ran⟩ := reads.ends own fits.left stopped
    obtain ⟨rs, sames, rans⟩ := ih (others next List.mem_cons_self)
      (fun arg mem => others arg (List.mem_cons_of_mem _ mem)) behind fits.right.tail fewer
      (r :: found)
    refine ⟨r :: rs, by rw [Expr.unplacedAll, same, sames]; rfl, ?_⟩
    rw [List.append_assoc, List.cons_append, argumentTail, bind_ok ran, eat_cons is, if_pos rfl,
      rans, List.reverse_cons, List.append_assoc]
    rfl

theorem arguments_reads {opening : Token} (opens : opening.kind = .symbol .openParen)
    (closing : close.kind = .symbol .closeParen) (reads : ∀ arg ∈ args, Reads P arg)
    (printed : ts.map Token.kind = Expr.argTokens args)
    (fits : Fits P (nesting + 1) (opening :: ts ++ [close])) :
    ∃ rs, Expr.unplacedAll rs = Expr.bareAll args ∧
      arguments (expr nesting) P (opening :: (ts ++ close :: rest)) = .ok (rs, rest) := by
  rw [arguments, expect_cons opens]
  cases args with
  | nil =>
    obtain rfl := List.map_eq_nil_iff.mp printed
    exact ⟨[], rfl, by rw [List.nil_append, eat_cons closing]; rfl⟩
  | cons e args =>
    have ⟨entered, rounds, depth⟩ := fits
    simp only [List.length_append, List.length_cons, List.length_nil] at entered rounds depth
    have fewer : Fits P nesting ts := ⟨by omega, by omega, by omega⟩
    have enough : ts.length ≤ P.rounds + 1 := by omega
    have noClose : (ahead P (ts ++ close :: rest)).kind ≠ .symbol .closeParen := by
      obtain ⟨first, more, split, is⟩ := e.begins_tokens
      rw [Expr.argTokens, split] at printed
      obtain ⟨t, us, rfl, rfl, -⟩ := List.map_eq_cons_iff.mp printed
      intro isClose
      have isClose : t.kind = .symbol .closeParen := isClose
      rw [isClose] at is
      simp [Source.opens] at is
    obtain ⟨rs, same, ran⟩ := argumentTail_reads closing (reads e List.mem_cons_self)
      (fun arg mem => reads arg (List.mem_cons_of_mem _ mem)) printed fewer enough []
    refine ⟨rs, same, ?_⟩
    rw [bind_ok (eat_left noClose), if_neg Bool.false_ne_true, read_bind_run]
    exact ran

end

/-! ## Members -/

section

variable {argument : Parser Expr} {t word : Token} {name : String} {args : List Expr}

theorem member_name (is : word.kind = .word name)
    (stops : (ahead P rest).kind ≠ .symbol .openParen) :
    member argument P (word :: rest) = .ok ((name, none), rest) := by
  rw [member, identifier_cons is, bind_ok peekKind_run, if_neg stops]
  rfl

theorem member_arguments (is : word.kind = .word name)
    (opens : (ahead P ts).kind = .symbol .openParen)
    (ran : arguments argument P ts = .ok (args, rest)) :
    member argument P (word :: ts) = .ok ((name, some args), rest) := by
  rw [member, identifier_cons is, bind_ok peekKind_run, if_pos opens, bind_ok ran]
  rfl

theorem postfixTail_dot {found : String × Option (List Expr)} (is : t.kind = .symbol .dot)
    (ran : member argument P ts = .ok (found, rest))
    (passes : bounded (match found with
      | (name, none) => .fieldOf t.position e name
      | (name, some args) => .callOf t.position e name args) P rest = .ok (r, rest)) :
    postfixTail argument (rounds + 1) e P (t :: ts) = postfixTail argument rounds r P rest := by
  obtain ⟨name, args⟩ := found
  rw [postfixTail, peek_cons, is]
  dsimp only
  rw [advance_cons, bind_ok ran]
  cases args with
  | none | some => exact bind_ok passes _

theorem postfixTail_doubleColon {type : Path} {found : String × Option (List Expr)}
    (is : t.kind = .symbol .doubleColon) (named : e.path? = some type)
    (ran : member argument P ts = .ok (found, rest))
    (passes : bounded (match found with
      | (name, none) => .staticField t.position type name
      | (name, some args) => .staticCallOf t.position type name args) P rest = .ok (r, rest)) :
    postfixTail argument (rounds + 1) e P (t :: ts) = postfixTail argument rounds r P rest := by
  obtain ⟨name, args⟩ := found
  rw [postfixTail, peek_cons, is]
  dsimp only
  rw [advance_cons, named]
  dsimp only
  rw [bind_ok ran]
  cases args with
  | none | some => exact bind_ok passes _

end

theorem reads_member {receiver : Expr} {s : Symbol} {more : List Kind}
    (tokens : e.tokens = receiver.tokensAt 7 ++ .symbol s :: more) (tight : e.level = 7)
    (stopped : Stops 8 (.symbol s)) (ofReceiver : Reads P receiver)
    (goes : ∀ {nesting r us} {t : Token}, r.unplaced = receiver.bare → t.kind = .symbol s →
      us.map Token.kind = more → Fits P (nesting + 1) (t :: us) → e.tokens.length ≤ P.maxDepth →
      ∀ rest, (ahead P rest).kind ≠ .symbol .openParen → ∃ r', r'.unplaced = e.bare ∧
        ∀ rounds, postfixTail (expr nesting) (rounds + 1) r P (t :: (us ++ rest)) =
          postfixTail (expr nesting) rounds r' P rest) :
    Reads P e := by
  intro nesting ts printed fits
  have short := length_tokens printed ▸ fits.depth
  obtain ⟨rs, others, rfl, own, behind⟩ := List.map_eq_append_iff.mp (printed.trans tokens)
  obtain ⟨t, us, rfl, is, behind⟩ := List.map_eq_cons_iff.mp behind
  rw [tight]
  intro rest stops
  have stopped : Stops 8 (ahead P (t :: (us ++ rest))).kind := is ▸ stopped
  obtain ⟨r, rounds, same, left, ran⟩ :=
    ofReceiver.parses (Nat.le_refl 7) own fits.left _ stopped
  obtain ⟨r', same', gone⟩ := goes same is behind fits.right short rest stops.openParen
  have enough := fits.rounds
  simp only [List.length_append, List.length_cons] at enough ⊢
  obtain ⟨rounds, rfl⟩ : ∃ n, rounds = n + 1 := ⟨rounds - 1, by omega⟩
  refine ⟨r', rounds, same', by omega, ?_⟩
  rw [List.append_assoc, List.cons_append, ran, tailAt_seven, gone]
  rfl

theorem stops_dot : Stops 8 (.symbol .dot) :=
  ⟨by decide, by omega, by omega, nofun⟩

theorem stops_doubleColon : Stops 8 (.symbol .doubleColon) :=
  ⟨by decide, by omega, by omega, nofun⟩

theorem reads_field {h : Nat} (p : Position) {receiver : Expr} (ofReceiver : Reads P receiver)
    (name : String) : Reads P (.field p h receiver name) := by
  refine reads_member rfl rfl stops_dot ofReceiver
    fun {_ r us t} same is printed _ short rest stops => ?_
  obtain ⟨word, rfl, named⟩ := List.map_eq_singleton_iff.mp printed
  have same' : (Expr.fieldOf t.position r name).unplaced = (Expr.field p h receiver name).bare := by
    rw [Expr.unplaced_fieldOf, same, Expr.bare]
  exact ⟨_, same', fun rounds =>
    postfixTail_dot is (member_name named stops) (bounded_same same' short)⟩

def calledTokens (name : String) (args : List Expr) : List Kind :=
  .word name :: .symbol .openParen :: (Expr.argTokens args ++ [.symbol .closeParen])

theorem member_called {t : Token} {name : String} {args : List Expr}
    (ofArgs : ∀ arg ∈ args, Reads P arg) (printed : ts.map Token.kind = calledTokens name args)
    (fits : Fits P (nesting + 1) (t :: ts)) (rest : List Token) :
    ∃ rs, Expr.unplacedAll rs = Expr.bareAll args ∧
      member (expr nesting) P (ts ++ rest) = .ok ((name, some rs), rest) := by
  obtain ⟨word, others, rfl, named, behind⟩ := List.map_eq_cons_iff.mp printed
  obtain ⟨opening, inside, rfl, opens, behind⟩ := List.map_eq_cons_iff.mp behind
  obtain ⟨us, last, rfl, own, ends⟩ := List.map_eq_append_iff.mp behind
  obtain ⟨close, rfl, closing⟩ := List.map_eq_singleton_iff.mp ends
  obtain ⟨rs, same, ran⟩ := arguments_reads opens closing ofArgs own fits.tail.tail
  refine ⟨rs, same, ?_⟩
  rw [List.cons_append, List.cons_append, List.append_assoc]
  exact member_arguments named opens ran

theorem reads_call {h : Nat} (p : Position) {receiver : Expr} (ofReceiver : Reads P receiver)
    (name : String) {args : List Expr} (ofArgs : ∀ arg ∈ args, Reads P arg) :
    Reads P (.call p h receiver name args) := by
  have tokens : (Expr.call p h receiver name args).tokens =
      receiver.tokensAt 7 ++ .symbol .dot :: calledTokens name args := by
    rw [Expr.tokens, List.append_assoc, List.append_assoc]
    rfl
  refine reads_member tokens rfl stops_dot ofReceiver
    fun {_ r us t} same is printed fits short rest _ => ?_
  obtain ⟨rs, sames, ran⟩ := member_called ofArgs printed fits rest
  have same' : (Expr.callOf t.position r name rs).unplaced =
      (Expr.call p h receiver name args).bare := by
    rw [Expr.unplaced_callOf, same, sames, Expr.bare]
  exact ⟨_, same', fun rounds => postfixTail_dot is ran (bounded_same same' short)⟩

end

end Parser

/-! ## Paths -/

namespace Expr

def dotted (e : Expr) (names : List String) : Expr :=
  names.foldl (fun e name => .field .start 0 e name) e

theorem tokens_dotted {e : Expr} (tight : e.level = 7) (names : List String) :
    (e.dotted names).level = 7 ∧ (e.dotted names).tokens =
      e.tokens ++ names.flatMap fun name => [.symbol .dot, .word name] := by
  induction names generalizing e with
  | nil => exact ⟨tight, (List.append_nil _).symm⟩
  | cons name names ih =>
    obtain ⟨tight', tokens'⟩ := ih (e := .field .start 0 e name) rfl
    refine ⟨tight', tokens'.trans ?_⟩
    rw [tokens, tight, List.flatMap_cons, List.append_assoc]
    rfl

theorem path?_dotted {e : Expr} {p : Path} (named : e.path? = some p) (names : List String) :
    (e.dotted names).path? = some { p with more := p.more ++ names } := by
  induction names generalizing e p with
  | nil => rw [List.append_nil]; exact named
  | cons name names ih =>
    have named' : (Expr.field .start 0 e name).path? = some (p.push name) := by
      rw [path?, named]
      rfl
    refine (ih named').trans ?_
    rw [Path.push, List.append_assoc]
    rfl

theorem path?_unplaced : ∀ e : Expr, e.unplaced.path? = e.path?.map Path.unplaced
  | var .. => rfl
  | field _ _ receiver name => by
    rw [unplaced, path?, path?, path?_unplaced receiver, Option.map_map, Option.map_map]
    rfl
  | int .. | float .. | string .. | bool .. | null .. | call .. | staticField .. | staticCall ..
  | unary .. | binary .. => rfl

theorem path?_bare : ∀ e : Expr, e.bare.path? = e.path?.map Path.unplaced
  | var .. => rfl
  | field _ _ receiver name => by
    rw [bare, fieldOf, path?, path?, path?_bare receiver, Option.map_map, Option.map_map]
    rfl
  | int .. | float .. | string .. | bool .. | null .. | call .. | staticField .. | staticCall ..
  | unary .. | binary .. => rfl

theorem path?_of_same {r e : Expr} {p : Path} (same : r.unplaced = e.bare)
    (named : e.path? = some p) : ∃ q, r.path? = some q ∧ q.unplaced = p.unplaced := by
  have paths := congrArg path? same
  rw [path?_unplaced, path?_bare, named] at paths
  exact Option.map_eq_some_iff.mp paths

end Expr

namespace Path

def expr (p : Path) : Expr :=
  (Expr.var .start p.first).dotted p.more

theorem tokensAt_expr (p : Path) : p.expr.tokensAt 7 = p.tokens := by
  obtain ⟨tight, tokens⟩ := Expr.tokens_dotted (e := .var .start p.first) rfl p.more
  rw [Expr.tokensAt, expr, tight, tokens]
  rfl

theorem path?_expr (p : Path) : p.expr.path? = some p.unplaced :=
  Expr.path?_dotted (p := ⟨p.first, [], .start⟩) rfl p.more

end Path

namespace Parser

variable {P : Parsing} {e : Expr}

theorem reads_dotted (reads : Reads P e) (names : List String) : Reads P (e.dotted names) := by
  induction names generalizing e with
  | nil => exact reads
  | cons name names ih => exact ih (reads_field .start reads name)

theorem reads_path (type : Path) : Reads P type.expr :=
  reads_dotted (reads_var .start type.first) type.more

theorem reads_staticField (p : Position) (type : Path) (name : String) :
    Reads P (.staticField p type name) := by
  have tokens : (Expr.staticField p type name).tokens =
      type.expr.tokensAt 7 ++ .symbol .doubleColon :: [.word name] := by
    rw [type.tokensAt_expr, Expr.tokens]
  refine reads_member tokens rfl stops_doubleColon (reads_path type)
    fun {_ r us t} same is printed _ short rest stops => ?_
  obtain ⟨word, rfl, named⟩ := List.map_eq_singleton_iff.mp printed
  obtain ⟨q, path, sameType⟩ := Expr.path?_of_same same type.path?_expr
  have same' : (Expr.staticField t.position q name).unplaced =
      (Expr.staticField p type name).bare := by
    rw [Expr.unplaced, sameType, Expr.bare]
    rfl
  exact ⟨_, same', fun rounds =>
    postfixTail_doubleColon is path (member_name named stops) (bounded_same same' short)⟩

theorem reads_staticCall {h : Nat} (p : Position) (type : Path) (name : String) {args : List Expr}
    (ofArgs : ∀ arg ∈ args, Reads P arg) : Reads P (.staticCall p h type name args) := by
  have tokens : (Expr.staticCall p h type name args).tokens =
      type.expr.tokensAt 7 ++ .symbol .doubleColon :: calledTokens name args := by
    rw [type.tokensAt_expr, Expr.tokens, List.append_assoc, List.append_assoc]
    rfl
  refine reads_member tokens rfl stops_doubleColon (reads_path type)
    fun {_ r us t} same is printed fits short rest _ => ?_
  obtain ⟨q, path, sameType⟩ := Expr.path?_of_same same type.path?_expr
  obtain ⟨rs, sames, ran⟩ := member_called ofArgs printed fits rest
  have same' : (Expr.staticCallOf t.position q name rs).unplaced =
      (Expr.staticCall p h type name args).bare := by
    rw [Expr.unplaced_staticCallOf, sameType, sames, Expr.bare]
    rfl
  exact ⟨_, same', fun rounds => postfixTail_doubleColon is path ran (bounded_same same' short)⟩

/-! ## All expressions -/

mutual

theorem reads : ∀ e : Expr, e.printable = true → Reads P e
  | .int p v, _ => reads_int p v
  | .float p x, _ => reads_float p x
  | .string p s, _ => reads_string p s
  | .bool p b, _ => reads_bool p b
  | .null p, _ => reads_null p
  | .var p name, _ => reads_var p name
  | .field p _ receiver name, printable => reads_field p (reads receiver printable) name
  | .call p _ receiver name args, printable => by
    have ⟨first, others⟩ : receiver.printable = true ∧ Expr.allPrintable args = true := by
      simpa [Expr.printable] using printable
    exact reads_call p (reads receiver first) name (readsAll args others)
  | .staticField p type name, _ => reads_staticField p type name
  | .staticCall p _ type name args, printable =>
    reads_staticCall p type name (readsAll args printable)
  | .unary p _ op operand, printable => by
    have ⟨apart, inside⟩ : (op = .neg → operand.isNumber = false) ∧ operand.printable = true := by
      simpa [Expr.printable, Decidable.imp_iff_not_or] using printable
    exact reads_unary p op apart (reads operand inside)
  | .binary p _ op left right, printable => by
    have ⟨onLeft, onRight⟩ : left.printable = true ∧ right.printable = true := by
      simpa [Expr.printable] using printable
    exact reads_binary p op (reads left onLeft) (reads right onRight)

theorem readsAll : ∀ es : List Expr, Expr.allPrintable es = true → ∀ e ∈ es, Reads P e
  | [], _ => nofun
  | first :: rest, printable => by
    have ⟨own, others⟩ : first.printable = true ∧ Expr.allPrintable rest = true := by
      simpa [Expr.allPrintable] using printable
    exact List.forall_mem_cons.mpr ⟨reads first own, readsAll rest others⟩

end

end Parser

end SceneScript.Source
