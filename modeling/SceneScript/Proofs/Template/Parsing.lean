import SceneScript.Proofs.Source.Statements
import SceneScript.Proofs.Template.Lexing

/-!
# The unit around a snippet as a tree

A unit around a snippet that can be parsed is the fixed module, imports and function, whose body are
the statements of the snippet alone and the `return` of the trailer (`parse_wrap`).
-/

namespace SceneScript

/-! ## Known tokens -/

namespace Source.Parser

variable {P : Parsing} {t : Token} {ts left : List Token}

theorem path_simple {s : Token} {name : String} (is : t.kind = .word name)
    (stops : s.kind ≠ .symbol .dot) :
    path P (t :: s :: ts) = .ok (⟨name, [], t.position⟩, s :: ts) := by
  rw [path, peekPosition_cons, identifier_cons is, read_bind_run]
  exact pathTail_stops stops

theorem path_dotted {d n s : Token} {package name : String} (is : t.kind = .word package)
    (isDot : d.kind = .symbol .dot) (isName : n.kind = .word name)
    (stops : s.kind ≠ .symbol .dot) (fits : 0 < P.rounds) :
    path P (t :: d :: n :: s :: ts) = .ok (⟨package, [name], t.position⟩, s :: ts) := by
  obtain ⟨rounds, is'⟩ := Nat.exists_eq_add_of_lt fits
  rw [path, peekPosition_cons, identifier_cons is, read_bind_run, is', pathTail, eat_cons isDot,
    if_pos rfl, identifier_cons isName]
  exact pathTail_stops stops

theorem chain_stops {operator? : Token.Kind → Option BinaryOp} {operand : Parser Expr} {e : Expr}
    (ran : operand P ts = .ok (e, left)) (stops : operator? (ahead P left).kind = none) :
    chain operator? operand P ts = .ok (e, left) := by
  rw [chain, bind_ok ran]
  exact chainTail_stops stops

theorem chain_fails {operator? : Token.Kind → Option BinaryOp} {operand : Parser Expr}
    (failed : ∃ f, operand P ts = .error f) : ∃ f, chain operator? operand P ts = .error f := by
  obtain ⟨f, failed⟩ := failed
  exact ⟨f, bind_error failed _⟩

theorem binaryLevels_stops {operand : Parser Expr} {e : Expr} (ran : operand P ts = .ok (e, left))
    (stops : (ahead P left).kind = .symbol .semicolon) :
    binaryLevels operand P ts = .ok (e, left) := by
  have ends {operator? : Token.Kind → Option BinaryOp} {operand : Parser Expr}
      (none : operator? (.symbol .semicolon) = none) (ran : operand P ts = .ok (e, left)) :
      chain operator? operand P ts = .ok (e, left) :=
    chain_stops ran (stops ▸ none)
  exact ends rfl (ends rfl (ends rfl (ends rfl (ends rfl (ends rfl ran)))))

theorem binaryLevels_fails {operand : Parser Expr} (failed : ∃ f, operand P ts = .error f) :
    ∃ f, binaryLevels operand P ts = .error f :=
  chain_fails (chain_fails (chain_fails (chain_fails (chain_fails (chain_fails failed)))))

theorem bounded_ok {e : Expr} (low : e.height ≤ P.maxDepth) : bounded e P ts = .ok (e, ts) := by
  rw [bounded, read_bind_run, if_pos low]
  rfl

theorem bounded_fails {e : Expr} (high : ¬e.height ≤ P.maxDepth) (ts : List Token) :
    ∃ f, bounded e P ts = .error f := by
  rw [bounded, read_bind_run, if_neg high]
  exact ⟨_, rfl⟩

theorem postfixed_call {inner : Parser Expr} {p q r p₁ p₂ p₃ : Position} {receiver name : String}
    (fits : 0 < P.rounds) :
    postfixed inner P (⟨.word receiver, p⟩ :: ⟨.symbol .dot, q⟩ :: ⟨.word name, r⟩ ::
        ⟨.symbol .openParen, p₁⟩ :: ⟨.symbol .closeParen, p₂⟩ :: ⟨.symbol .semicolon, p₃⟩ :: ts) =
      bounded (.callOf q (.var p receiver) name []) P (⟨.symbol .semicolon, p₃⟩ :: ts) := by
  obtain ⟨rounds, is⟩ := Nat.exists_eq_add_of_lt fits
  have member : member inner P (⟨.word name, r⟩ :: ⟨.symbol .openParen, p₁⟩ ::
      ⟨.symbol .closeParen, p₂⟩ :: ⟨.symbol .semicolon, p₃⟩ :: ts) =
        .ok ((name, some []), ⟨.symbol .semicolon, p₃⟩ :: ts) := rfl
  have primary : primary inner P (⟨.word receiver, p⟩ :: ⟨.symbol .dot, q⟩ :: ⟨.word name, r⟩ ::
      ⟨.symbol .openParen, p₁⟩ :: ⟨.symbol .closeParen, p₂⟩ :: ⟨.symbol .semicolon, p₃⟩ :: ts) =
        .ok (.var p receiver, ⟨.symbol .dot, q⟩ :: ⟨.word name, r⟩ :: ⟨.symbol .openParen, p₁⟩ ::
          ⟨.symbol .closeParen, p₂⟩ :: ⟨.symbol .semicolon, p₃⟩ :: ts) := rfl
  rw [postfixed, bind_ok primary, read_bind_run, is, postfixTail, peek_cons]
  dsimp only
  rw [advance_cons, bind_ok member]
  dsimp only
  by_cases low : (Expr.callOf q (.var p receiver) name []).height ≤ P.maxDepth
  · rw [bind_ok (bounded_ok low), bounded_ok low]
    exact postfixTail_stops (by simp [ahead]) (by simp [ahead])
  · obtain ⟨f, failed⟩ := bounded_fails low (⟨.symbol .semicolon, p₃⟩ :: ts)
    rw [bind_error failed, failed]

theorem unaryOr_word {operand : Position → Parser Expr} {inner : Parser Expr} {p : Position}
    {name : String} :
    unaryOr operand inner P (⟨.word name, p⟩ :: ts) = postfixed inner P (⟨.word name, p⟩ :: ts) :=
  rfl

theorem statement_return {levels : Nat} {p : Position} (more : t.kind ≠ .symbol .semicolon) :
    statement levels P (⟨.keyword .return, p⟩ :: t :: ts) =
      (do
        let e ← expr levels
        let _ ← expect .semicolon
        return .give p (some e) : Parser Statement) P (t :: ts) := by
  unfold statement statementOf
  rw [peekKind_cons]
  dsimp only
  rw [giveStatement, expectKeyword_cons rfl, peekKind_cons]
  dsimp only
  rw [if_neg more, map_eq_pure_bind, bind_assoc]
  simp only [pure_bind]

end Source.Parser

theorem cons_of_kinds {ts : List Token} {k : Token.Kind} {ks : List Token.Kind}
    (kinds : ts.map Token.kind = k :: ks) :
    ∃ p rest, ts = ⟨k, p⟩ :: rest ∧ rest.map Token.kind = ks := by
  obtain ⟨t, rest, rfl, rfl, more⟩ := List.map_eq_cons_iff.1 kinds
  exact ⟨t.position, rest, rfl, more⟩

/-! ## The trailer -/

namespace Template

open Source (Path TypeName Expr Statement Parsing Parser Seam CompilationUnit)
open Source.Parser

structure Place where
  start : Position
  builder : Position
  dot : Position
  name : Position
  openParen : Position
  closeParen : Position
  semicolon : Position
  brace : Position

def returnStatement (place : Place) : Statement :=
  .give place.start (some (.callOf place.dot (.var place.builder builderParam) "end" []))

def endTokens (place : Place) : List Token :=
  [⟨.word builderParam, place.builder⟩, ⟨.symbol .dot, place.dot⟩, ⟨.word "end", place.name⟩,
    ⟨.symbol .openParen, place.openParen⟩, ⟨.symbol .closeParen, place.closeParen⟩,
    ⟨.symbol .semicolon, place.semicolon⟩, ⟨.symbol .closeBrace, place.brace⟩]

def trailerTokens (place : Place) : List Token :=
  ⟨.keyword .return, place.start⟩ :: endTokens place

theorem eq_trailerTokens {ts : List Token} (kinds : ts.map Token.kind = trailerKinds) :
    ∃ place, ts = trailerTokens place := by
  obtain ⟨p₁, _, rfl, kinds₁⟩ := cons_of_kinds kinds
  obtain ⟨p₂, _, rfl, kinds₂⟩ := cons_of_kinds kinds₁
  obtain ⟨p₃, _, rfl, kinds₃⟩ := cons_of_kinds kinds₂
  obtain ⟨p₄, _, rfl, kinds₄⟩ := cons_of_kinds kinds₃
  obtain ⟨p₅, _, rfl, kinds₅⟩ := cons_of_kinds kinds₄
  obtain ⟨p₆, _, rfl, kinds₆⟩ := cons_of_kinds kinds₅
  obtain ⟨p₇, _, rfl, kinds₇⟩ := cons_of_kinds kinds₆
  obtain ⟨p₈, _, rfl, kinds₈⟩ := cons_of_kinds kinds₇
  obtain rfl := List.map_eq_nil_iff.1 kinds₈
  exact ⟨⟨p₁, p₂, p₃, p₄, p₅, p₆, p₇, p₈⟩, rfl⟩

variable {P : Parsing} {place : Place} {p : Position}

theorem expr_trailer (levels : Nat) (fits : 0 < P.rounds) (low : 2 ≤ P.maxDepth) :
    expr (levels + 1) P (endTokens place) =
      .ok (.callOf place.dot (.var place.builder builderParam) "end" [],
        [⟨.symbol .semicolon, place.semicolon⟩, ⟨.symbol .closeBrace, place.brace⟩]) := by
  have ran : unary levels P (endTokens place) =
      .ok (.callOf place.dot (.var place.builder builderParam) "end" [],
        [⟨.symbol .semicolon, place.semicolon⟩, ⟨.symbol .closeBrace, place.brace⟩]) := by
    cases levels <;> exact unaryOr_word.trans ((postfixed_call fits).trans (bounded_ok low))
  exact binaryLevels_stops ran rfl

theorem expr_trailer_fails (levels : Nat) (fits : 0 < P.rounds) (high : ¬2 ≤ P.maxDepth) :
    ∃ f, expr (levels + 1) P (endTokens place) = .error f := by
  refine binaryLevels_fails ?_
  have tooHigh : ¬(Expr.callOf place.dot (.var place.builder builderParam) "end" []).height ≤
      P.maxDepth := high
  obtain ⟨f, failed⟩ := bounded_fails tooHigh
    [⟨.symbol .semicolon, place.semicolon⟩, ⟨.symbol .closeBrace, place.brace⟩]
  refine ⟨f, ?_⟩
  cases levels <;> exact unaryOr_word.trans ((postfixed_call fits).trans failed)

theorem statement_trailer (levels : Nat) (fits : 0 < P.rounds) (low : 2 ≤ P.maxDepth) :
    statement (levels + 1) P (trailerTokens place) =
      .ok (returnStatement place, [⟨.symbol .closeBrace, place.brace⟩]) := by
  refine (statement_return Token.Kind.noConfusion).trans ?_
  refine (bind_ok (expr_trailer levels fits low) _).trans ?_
  rw [expect_cons rfl]
  rfl

theorem statement_trailer_fails (levels : Nat) (fits : 0 < P.rounds)
    (tight : levels = 0 ∨ ¬2 ≤ P.maxDepth) :
    ∃ f, statement levels P (trailerTokens place) = .error f := by
  have failed : ∃ f, expr levels P (endTokens place) = .error f := by
    cases levels with
    | zero => exact ⟨_, rfl⟩
    | succ levels => exact expr_trailer_fails levels fits (tight.resolve_left nofun)
  obtain ⟨f, failed⟩ := failed
  exact ⟨f, (statement_return Token.Kind.noConfusion).trans (bind_error failed _)⟩

theorem block_trailer (place : Place) (levels : Nat) (start : Position) (fits : 0 < P.rounds)
    (low : 2 ≤ P.maxDepth) :
    block (levels + 2) P (⟨.symbol .openBrace, start⟩ :: trailerTokens place) =
      .ok ([returnStatement place], []) := by
  obtain ⟨rounds, is⟩ := Nat.exists_eq_add_of_lt fits
  rw [block_succ, blockOf, expect_cons rfl, read_bind_run, is, Nat.zero_add]
  refine (statements_more Token.Kind.noConfusion Token.Kind.noConfusion).trans ?_
  refine (bind_ok (statement_trailer levels fits low) _).trans ?_
  exact statements_closed rfl

theorem closes_trailer {c : Seam} (is : c.start :: c.after = trailerTokens place)
    (fits : 0 < c.whole.rounds) (levels : Nat) :
    c.Closes (statement levels) (returnStatement place) := by
  unfold Seam.Closes Seam.glue
  rw [List.nil_append, is]
  by_cases tight : levels = 0 ∨ ¬2 ≤ c.whole.maxDepth
  · exact .inl (statement_trailer_fails levels fits tight)
  · obtain ⟨positive, low⟩ := not_or.1 tight
    obtain ⟨levels, rfl⟩ := Nat.exists_eq_succ_of_ne_zero positive
    exact .inr ⟨_, rfl, statement_trailer levels fits (not_not.1 low)⟩

/-! ## The header -/

structure Surrounds (u : CompilationUnit) (body : List Statement) : Prop where
  moduleName : u.moduleName.segments = ["modelsnip", "runtime"]
  imports : u.imports.map Path.segments =
    SymbolTable.standard.granted.map fun c => [c.package, c.simpleName]
  name : u.entry.name = entryPoint
  param : u.entry.param = builderParam
  paramType : ∃ p, u.entry.paramType = .named ⟨"ModelBuilder", [], p⟩
  resultType : ∃ p, u.entry.resultType = .named ⟨"Model", [], p⟩
  body : u.entry.body = body

theorem imports_run {classes : List HostClass} {lines rest : List Token} {rounds : Nat}
    (found : List Path) (kinds : lines.map Token.kind = classes.flatMap importKinds)
    (enough : classes.length ≤ rounds) (fits : 0 < P.rounds)
    (stops : (ahead P rest).kind ≠ .keyword .use) :
    ∃ paths, paths.map Path.segments = classes.map (fun c => [c.package, c.simpleName]) ∧
      imports rounds found P (lines ++ rest) = .ok (found.reverse ++ paths, rest) := by
  induction classes generalizing lines found rounds with
  | nil =>
    obtain rfl := List.map_eq_nil_iff.1 kinds
    refine ⟨[], rfl, ?_⟩
    rw [List.append_nil]
    cases rounds with
    | zero => rfl
    | succ rounds => exact bind_ok (eatKeyword_left stops) _
  | cons k classes ih =>
    cases rounds with
    | zero => exact absurd enough (Nat.not_succ_le_zero _)
    | succ rounds =>
      obtain ⟨p₁, _, rfl, kinds₁⟩ := cons_of_kinds kinds
      obtain ⟨p₂, _, rfl, kinds₂⟩ := cons_of_kinds kinds₁
      obtain ⟨p₃, _, rfl, kinds₃⟩ := cons_of_kinds kinds₂
      obtain ⟨p₄, _, rfl, kinds₄⟩ := cons_of_kinds kinds₃
      obtain ⟨p₅, more, rfl, kinds₅⟩ := cons_of_kinds kinds₄
      obtain ⟨paths, segments, ran⟩ :=
        ih (⟨k.package, [k.simpleName], p₂⟩ :: found) kinds₅ (Nat.le_of_succ_le_succ enough)
      refine ⟨⟨k.package, [k.simpleName], p₂⟩ :: paths, by simp [segments, Path.segments], ?_⟩
      simp only [List.cons_append]
      rw [imports, eatKeyword_cons rfl, if_pos rfl,
        bind_ok (path_dotted rfl rfl rfl (by simp) fits), expect_cons rfl, ran]
      simp

theorem typeName_cons {α : Type} {name : String} {s : Token} {ts : List Token}
    (stops : s.kind ≠ .symbol .dot) (k : TypeName → Parser α) :
    (typeName >>= k) P (⟨.word name, p⟩ :: s :: ts) =
      k (Path.toTypeName ⟨name, [], p⟩) P (s :: ts) := by
  rw [typeName, bind_assoc, bind_ok (path_simple rfl stops), pure_bind]

def functionKinds : List Token.Kind :=
  [.keyword .fn, .word entryPoint, .symbol .openParen, .word builderParam, .symbol .colon,
    .word "ModelBuilder", .symbol .closeParen, .symbol .arrow, .word "Model"]

theorem function_run (P : Parsing) (start : Position) (ts : List Token) {head : List Token}
    (kinds : head.map Token.kind = functionKinds) :
    ∃ p q r, function P (head ++ ⟨.symbol .openBrace, start⟩ :: ts) =
      (do
        let body ← block P.maxDepth
        return ⟨entryPoint, builderParam, .named ⟨"ModelBuilder", [], q⟩, .named ⟨"Model", [], r⟩,
          body, p⟩ : Parser Source.Function) P (⟨.symbol .openBrace, start⟩ :: ts) := by
  obtain ⟨p, _, rfl, kinds₁⟩ := cons_of_kinds kinds
  obtain ⟨p₁, _, rfl, kinds₂⟩ := cons_of_kinds kinds₁
  obtain ⟨p₂, _, rfl, kinds₃⟩ := cons_of_kinds kinds₂
  obtain ⟨p₃, _, rfl, kinds₄⟩ := cons_of_kinds kinds₃
  obtain ⟨p₄, _, rfl, kinds₅⟩ := cons_of_kinds kinds₄
  obtain ⟨q, _, rfl, kinds₆⟩ := cons_of_kinds kinds₅
  obtain ⟨p₅, _, rfl, kinds₇⟩ := cons_of_kinds kinds₆
  obtain ⟨p₆, _, rfl, kinds₈⟩ := cons_of_kinds kinds₇
  obtain ⟨r, _, rfl, kinds₉⟩ := cons_of_kinds kinds₈
  obtain rfl := List.map_eq_nil_iff.1 kinds₉
  refine ⟨p, q, r, ?_⟩
  simp only [List.cons_append, List.nil_append]
  rw [function, expectKeyword_cons rfl, identifier_cons rfl, expect_cons rfl, identifier_cons rfl,
    expect_cons rfl, typeName_cons (by simp), expect_cons rfl, expect_cons rfl,
    typeName_cons (by simp), read_bind_run]
  rfl

def moduleKinds : List Token.Kind :=
  [.keyword .module, .word "modelsnip", .symbol .dot, .word "runtime", .symbol .semicolon]

theorem header_long {opening ts all : List Token} (kinds : opening.map Token.kind = headerKinds)
    (is : all = opening ++ ts) : SymbolTable.standard.granted.length ≤ all.length := by
  have header : opening.length = headerKinds.length := by rw [← kinds, List.length_map]
  rw [is, List.length_append, header]
  exact Nat.le_trans (by decide) (Nat.le_add_right _ _)

theorem unit_run (P : Parsing) (ts : List Token) {opening : List Token}
    (kinds : opening.map Token.kind = headerKinds)
    (fits : SymbolTable.standard.granted.length ≤ P.rounds) :
    ∃ (around : List Statement → CompilationUnit) (start : Position),
      (∀ body, Surrounds (around body) body) ∧
      unit P (opening ++ ts) =
        (do
          let body ← block P.maxDepth
          if (← peekKind) = .finish then return around body
          else unexpected .finish : Parser CompilationUnit) P
            (⟨.symbol .openBrace, start⟩ :: ts) := by
  have split : headerKinds = moduleKinds ++ (SymbolTable.standard.granted.flatMap importKinds ++
    (functionKinds ++ [.symbol .openBrace])) := rfl
  rw [split] at kinds
  obtain ⟨first, _, rfl, kindsModule, kinds⟩ := List.map_eq_append_iff.1 kinds
  obtain ⟨lines, _, rfl, kindsImports, kinds⟩ := List.map_eq_append_iff.1 kinds
  obtain ⟨head, _, rfl, kindsFunction, kinds⟩ := List.map_eq_append_iff.1 kinds
  obtain ⟨start, _, rfl, kindsEnd⟩ := cons_of_kinds kinds
  obtain rfl := List.map_eq_nil_iff.1 kindsEnd
  obtain ⟨p₁, _, rfl, kinds₁⟩ := cons_of_kinds kindsModule
  obtain ⟨p₂, _, rfl, kinds₂⟩ := cons_of_kinds kinds₁
  obtain ⟨p₃, _, rfl, kinds₃⟩ := cons_of_kinds kinds₂
  obtain ⟨p₄, _, rfl, kinds₄⟩ := cons_of_kinds kinds₃
  obtain ⟨p₅, _, rfl, kinds₅⟩ := cons_of_kinds kinds₄
  obtain rfl := List.map_eq_nil_iff.1 kinds₅
  have positive : 0 < P.rounds := Nat.lt_of_lt_of_le (by decide) fits
  -- The function begins here, so the list of imports ends.
  have behind : (ahead P (head ++ ⟨.symbol .openBrace, start⟩ :: ts)).kind ≠ .keyword .use := by
    obtain ⟨p, _, rfl, -⟩ := cons_of_kinds kindsFunction
    nofun
  obtain ⟨paths, segments, ranImports⟩ := imports_run [] kindsImports fits positive behind
  obtain ⟨p, q, r, ranFunction⟩ := function_run P start ts kindsFunction
  refine ⟨fun body => ⟨⟨"modelsnip", ["runtime"], p₂⟩, paths, ⟨entryPoint, builderParam,
    .named ⟨"ModelBuilder", [], q⟩, .named ⟨"Model", [], r⟩, body, p⟩⟩, start, fun body => ?_, ?_⟩
  · exact ⟨rfl, segments, rfl, rfl, ⟨q, rfl⟩, ⟨r, rfl⟩, rfl⟩
  · simp only [List.append_assoc, List.cons_append, List.nil_append]
    rw [unit, expectKeyword_cons rfl, bind_ok (path_dotted rfl rfl rfl (by simp) positive),
      expect_cons rfl, read_bind_run, bind_ok ranImports, bind_run, ranFunction, bind_run, bind_run]
    cases block P.maxDepth P (⟨.symbol .openBrace, start⟩ :: ts) <;> rfl

/-! ## The whole unit -/

theorem onText_ok {α : Type} {parser : Parser α} {maxDepth : Nat} {text : String} {a : α}
    (parsed : parser.onText maxDepth text = .ok a) :
    ∃ stream left, Token.Stream.ofText text = .ok stream ∧
      parser ⟨stream.finish, maxDepth, stream.tokens.length⟩ stream.tokens = .ok (a, left) := by
  unfold onText at parsed
  split at parsed
  · cases parsed
  · next stream reads =>
    cases ran : parser ⟨stream.finish, maxDepth, stream.tokens.length⟩ stream.tokens with
    | error f =>
      rw [ran] at parsed
      cases parsed
    | ok r =>
      rw [ran] at parsed
      cases parsed
      exact ⟨stream, r.2, reads, ran⟩

theorem onText_run {α : Type} {parser : Parser α} {maxDepth : Nat} {text : String} {a : α}
    {stream : Token.Stream} {left : List Token} (reads : Token.Stream.ofText text = .ok stream)
    (ran : parser ⟨stream.finish, maxDepth, stream.tokens.length⟩ stream.tokens = .ok (a, left)) :
    parser.onText maxDepth text = .ok a := by
  unfold onText
  rw [reads]
  dsimp only
  rw [ran]
  rfl

def below (alone : Token.Stream) : Token.Stream :=
  alone.down (newlines header)

theorem map_kind_down (lines : Nat) (ts : List Token) :
    (ts.map (Token.down lines)).map Token.kind = ts.map Token.kind := by
  rw [List.map_map]
  rfl

theorem tokens_wrap {snippet : String} {alone : Token.Stream}
    (reads : Token.Stream.ofText snippet = .ok alone) :
    ∃ opening ending whole, Token.Stream.ofText (wrap snippet) = .ok whole ∧
      opening.map Token.kind = headerKinds ∧ ending.map Token.kind = trailerKinds ∧
      whole.tokens = opening ++ ((below alone).tokens ++ ending) := by
  obtain ⟨opening, ending, whole, readsHeader, readsTrailer, readsWhole, closed⟩ := ofText_wrap reads
  obtain ⟨opening', readsHeader', kindsHeader, -⟩ := ofText_header
  obtain ⟨ending', readsTrailer', kindsTrailer⟩ := ofText_trailer
  rw [readsHeader] at readsHeader'
  rw [readsTrailer] at readsTrailer'
  cases readsHeader'
  cases readsTrailer'
  refine ⟨opening.tokens, ending.tokens.map (Token.down (newlines header + newlines snippet)), whole,
    readsWhole, kindsHeader, ?_, ?_⟩
  · rw [map_kind_down, kindsTrailer]
  · have tokens := congrArg List.dropLast closed
    simpa [Token.Stream.closed, below, Token.Stream.down] using tokens

theorem unit_cases {c : Seam} {opening own left : List Token} {u : CompilationUnit}
    (kinds : opening.map Token.kind = headerKinds)
    (is : c.start :: c.after = trailerTokens place) (fits : c.Fits own)
    (enough : SymbolTable.standard.granted.length ≤ c.whole.rounds)
    (real : ∀ t ∈ own, t.kind ≠ .finish)
    (ran : unit c.whole (opening ++ c.glue own) = .ok (u, left)) :
    ∃ levels body, c.whole.maxDepth = levels + 1 ∧
      content levels c.alone own = .ok (body, []) ∧
      Surrounds u (body ++ [returnStatement place]) := by
  obtain ⟨around, start, surrounds, runs⟩ := unit_run c.whole (c.glue own) kinds enough
  rw [runs] at ran
  cases depth : c.whole.maxDepth with
  | zero =>
    rw [depth, bind_run, block, closedBlock, expect_cons rfl] at ran
    cases ran
  | succ levels =>
    have closes := closes_trailer is (Nat.lt_of_lt_of_le (by decide) enough)
    rw [depth] at ran
    rcases Seam.block_cases closes levels start fits real with
      ⟨f, failed⟩ | ⟨body, more, ended, goesOn⟩ | ⟨body, ranOwn, ended⟩
    · rw [bind_error failed] at ran
      cases ran
    · rw [bind_ok ended, bind_ok peekKind_run, if_neg goesOn, unexpected_run] at ran
      cases ran
    · rw [bind_ok ended] at ran
      cases ran
      exact ⟨levels, body, rfl, ranOwn, surrounds _⟩

def seam (maxDepth : Nat) (own whole : Token.Stream) (place : Place) : Seam where
  alone := ⟨own.finish, maxDepth, own.tokens.length⟩
  whole := ⟨whole.finish, maxDepth, whole.tokens.length⟩
  start := ⟨.keyword .return, place.start⟩
  after := endTokens place
  isReturn := rfl
  sameDepth := rfl

theorem real_below {snippet : String} {alone : Token.Stream}
    (reads : Token.Stream.ofText snippet = .ok alone) :
    ∀ t ∈ (below alone).tokens, t.kind ≠ .finish :=
  Token.Stream.down_real (newlines header)
    (Token.Stream.extend_real (fun _ mem => absurd mem List.not_mem_nil) reads)

/-- A unit that is parsed is the fixed one around the statements of the snippet alone and the
statement of the trailer. -/
theorem parse_wrap {snippet : String} {maxDepth : Nat} {u : CompilationUnit}
    (parsed : CompilationUnit.parse maxDepth (wrap snippet) = .ok u) :
    ∃ alone levels own place, Token.Stream.ofText snippet = .ok alone ∧ maxDepth = levels + 1 ∧
      content levels ⟨(below alone).finish, maxDepth, (below alone).tokens.length⟩
        (below alone).tokens = .ok (own, []) ∧
      Surrounds u (own ++ [returnStatement place]) := by
  obtain ⟨whole, left, readsWhole, ran⟩ := onText_ok parsed
  cases reads : Token.Stream.ofText snippet with
  | error f =>
    obtain ⟨e, failed, -⟩ := ofText_wrap_error reads
    rw [failed] at readsWhole
    cases readsWhole
  | ok alone =>
    obtain ⟨opening, ending, whole', readsWhole', kindsHeader, kindsTrailer, tokens⟩ :=
      tokens_wrap reads
    rw [readsWhole] at readsWhole'
    cases readsWhole'
    obtain ⟨place, rfl⟩ := eq_trailerTokens kindsTrailer
    have length := congrArg List.length tokens
    rw [List.length_append, List.length_append] at length
    have shorter : (below alone).tokens.length ≤ whole.tokens.length := by omega
    have enough := header_long kindsHeader tokens
    have ran : unit (seam maxDepth (below alone) whole place).whole
        (opening ++ ((below alone).tokens ++ trailerTokens place)) = .ok (u, left) :=
      tokens ▸ ran
    obtain ⟨levels, own, depth, ranOwn, surrounds⟩ :=
      unit_cases kindsHeader rfl ⟨Nat.le_refl _, shorter⟩ enough (real_below reads) ran
    exact ⟨alone, levels, own, place, rfl, depth, ranOwn, surrounds⟩

theorem parse_wrap_empty (levels : Nat) :
    ∃ u place, CompilationUnit.parse (levels + 2) (wrap "") = .ok u ∧
      Surrounds u [returnStatement place] := by
  have nothing : Token.Stream.ofText "" = .ok ⟨[], .start⟩ := Token.Stream.extend_nil [] .start
  obtain ⟨opening, ending, whole, reads, kindsHeader, kindsTrailer, tokens⟩ := tokens_wrap nothing
  obtain ⟨place, rfl⟩ := eq_trailerTokens kindsTrailer
  have own : ∀ lines, (Token.Stream.down lines ⟨[], .start⟩).tokens = [] := fun _ => rfl
  rw [below, own, List.nil_append] at tokens
  have enough := header_long kindsHeader tokens
  obtain ⟨around, start, surrounds, runs⟩ :=
    unit_run ⟨whole.finish, levels + 2, whole.tokens.length⟩ (trailerTokens place)
      kindsHeader enough
  have ran := block_trailer (P := ⟨whole.finish, levels + 2, whole.tokens.length⟩) place levels start
    (Nat.lt_of_lt_of_le (by decide) enough) (Nat.le_add_left 2 levels)
  refine ⟨around [returnStatement place], place, ?_, surrounds _⟩
  rw [← tokens, bind_ok ran] at runs
  exact onText_run reads runs

end Template

end SceneScript
