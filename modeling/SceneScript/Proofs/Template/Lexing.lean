import SceneScript.Proofs.Token.Streams
import SceneScript.Template

/-!
# Lexing the unit around a snippet

The header and the trailer are read as tokens of fixed kinds, and the unit around a snippet can be
read if the snippet alone can be read. Its tokens are those of the header, those of the snippet and
those of the trailer, and exactly those of the snippet are mapped back to it, each to the place it
has in the snippet alone (`wrap_lexing`).
-/

namespace SceneScript.Template

open Token (Kind Reads Stream LexicalFault LexicalError SeamError isWord)
open Token.Stream (extend downAll StandsIn)

/-! ## Header and trailer -/

def importKinds (c : HostClass) : List Kind :=
  [.keyword .use, .word c.package, .symbol .dot, .word c.simpleName, .symbol .semicolon]

def headerKinds : List Kind :=
  [.keyword .module, .word "modelsnip", .symbol .dot, .word "runtime", .symbol .semicolon] ++
    SymbolTable.standard.granted.flatMap importKinds ++
    [.keyword .fn, .word entryPoint, .symbol .openParen, .word builderParam, .symbol .colon,
      .word "ModelBuilder", .symbol .closeParen, .symbol .arrow, .word "Model",
      .symbol .openBrace]

def trailerKinds : List Kind :=
  [.keyword .return, .word builderParam, .symbol .dot, .word "end", .symbol .openParen,
    .symbol .closeParen, .symbol .semicolon, .symbol .closeBrace]

theorem isWord_package (c : HostClass) : isWord c.package.toList = true := by
  cases c <;> rfl

theorem isWord_simpleName (c : HostClass) : isWord c.simpleName.toList = true := by
  cases c <;> rfl

theorem ofWord_package (c : HostClass) : Kind.ofWord c.package = .word c.package := by
  cases c <;> rfl

theorem ofWord_simpleName (c : HostClass) : Kind.ofWord c.simpleName = .word c.simpleName := by
  cases c <;> rfl

theorem reads_importLine (c : HostClass) :
    Reads ("use " ++ c.qualifiedName ++ ";\n").toList (importKinds c) := by
  have spelt : ("use " ++ c.qualifiedName ++ ";\n").toList =
      "use".toList ++ ' ' :: (c.package.toList ++ '.' :: (c.simpleName.toList ++ [';', '\n'])) := by
    simp [HostClass.qualifiedName]
  rw [spelt]
  have point (u : List Char) : Token.Piece.next '.' (c.simpleName.toList ++ [';', '\n'] ++ u) =
      .ok ⟨['.'], some (.symbol .dot), c.simpleName.toList ++ [';', '\n'] ++ u⟩ := by
    cases c <;> rfl
  unfold importKinds
  rw [← ofWord_package, ← ofWord_simpleName]
  refine .word rfl rfl (.blank rfl ?_)
  refine .word (isWord_package c) rfl (.symbol point (.word (isWord_simpleName c) rfl ?_))
  exact .symbol (fun _ => rfl) (.blank rfl .nil)

theorem reads_importLines (classes : List HostClass) :
    Reads (String.join (classes.map fun c => "use " ++ c.qualifiedName ++ ";\n")).toList
      (classes.flatMap importKinds) := by
  induction classes with
  | nil => exact .nil
  | cons c rest ih =>
    rw [List.map_cons, String.join_cons, String.toList_append, List.flatMap_cons]
    exact (reads_importLine c).append ih

theorem reads_header : Reads header.toList headerKinds := by
  have first : Reads "module modelsnip.runtime;\n\n".toList
      [.keyword .module, .word "modelsnip", .symbol .dot, .word "runtime", .symbol .semicolon] := by
    have spelt : "module modelsnip.runtime;\n\n".toList = "module".toList ++ ' ' ::
        ("modelsnip".toList ++ '.' :: ("runtime".toList ++ [';', '\n', '\n'])) := rfl
    rw [spelt]
    refine .word rfl rfl (.blank rfl (.word rfl rfl (.symbol (fun _ => rfl) (.word rfl rfl ?_))))
    exact .symbol (fun _ => rfl) (.blank rfl (.blank rfl .nil))
  have last : Reads ("\nfn " ++ entryPoint ++ "(" ++ builderParam ++
      ": ModelBuilder) -> Model \x7b\n    // snippet begins\n").toList
      [.keyword .fn, .word entryPoint, .symbol .openParen, .word builderParam, .symbol .colon,
        .word "ModelBuilder", .symbol .closeParen, .symbol .arrow, .word "Model",
        .symbol .openBrace] := by
    have spelt : ("\nfn " ++ entryPoint ++ "(" ++ builderParam ++
        ": ModelBuilder) -> Model \x7b\n    // snippet begins\n").toList =
        '\n' :: ("fn".toList ++ ' ' :: (entryPoint.toList ++ '(' :: (builderParam.toList ++ ':' ::
          ' ' :: ("ModelBuilder".toList ++ ')' :: ' ' :: '-' :: '>' :: ' ' :: ("Model".toList ++
            ' ' :: '\x7b' :: '\n' :: ' ' :: ' ' :: ' ' :: ' ' :: '/' :: '/' ::
              (" snippet begins".toList ++ ['\n'])))))) := rfl
    rw [spelt]
    refine .blank rfl (.word rfl rfl (.blank rfl (.word rfl rfl (.symbol (fun _ => rfl) ?_))))
    refine .word rfl rfl (.symbol (fun _ => rfl) (.blank rfl (.word rfl rfl ?_)))
    refine .symbol (fun _ => rfl) (.blank rfl (.token ['>'] (fun _ => rfl) (.blank rfl ?_)))
    refine .word rfl rfl (.blank rfl (.symbol (fun _ => rfl) (.blank rfl ?_)))
    refine .blank rfl (.blank rfl (.blank rfl (.blank rfl (.comment ?_ (.blank rfl .nil)))))
    decide
  have all := (first.append (reads_importLines SymbolTable.standard.granted)).append last
  simp only [← String.toList_append] at all
  unfold header importLines headerKinds
  simpa only [String.append_assoc] using all

def closing : List Char := trailer.toList.tail

theorem trailer_toList : trailer.toList = '\n' :: closing := rfl

theorem reads_closing : Reads closing trailerKinds := by
  have spelt : closing = ' ' :: ' ' :: ' ' :: ' ' :: '/' :: '/' :: (" snippet ends".toList ++
      '\n' :: ' ' :: ' ' :: ' ' :: ' ' :: ("return".toList ++ ' ' :: (builderParam.toList ++ '.' ::
        ("end".toList ++ ['(', ')', ';', '\n', '\x7d', '\n'])))) := rfl
  rw [spelt]
  refine .blank rfl (.blank rfl (.blank rfl (.blank rfl (.comment (by decide) ?_))))
  refine .blank rfl (.blank rfl (.blank rfl (.blank rfl (.blank rfl (.word rfl rfl ?_)))))
  refine .blank rfl (.word rfl rfl (.symbol (fun _ => rfl) (.word rfl rfl ?_)))
  refine .symbol (fun _ => rfl) (.symbol (fun _ => rfl) (.symbol (fun _ => rfl) (.blank rfl ?_)))
  exact .symbol (fun _ => rfl) (.blank rfl .nil)

theorem closing_open : Token.splitComment closing = none := rfl

/-! ## Lines -/

theorem firstLine_eq : firstLine = newlines header + 1 := by
  rw [firstLine, lineCount]

theorem after_newline (p : Position) (s : List Char) :
    p.after (s ++ ['\n']) = ⟨p.line + (s.count '\n' + 1), 1⟩ := by
  rw [Position.after_append, Position.after_cons, Position.after_nil, Position.next]
  simp [Position.line_after, Nat.add_assoc]

theorem header_toList : ∃ s, header.toList = s ++ ['\n'] := by
  have last : ": ModelBuilder) -> Model \x7b\n    // snippet begins\n".toList =
      ": ModelBuilder) -> Model \x7b\n    // snippet begins".toList ++ ['\n'] := by simp
  unfold header
  rw [String.toList_append, last, ← List.append_assoc]
  exact ⟨_, rfl⟩

theorem after_header :
    Position.start.after header.toList = Position.start.down (newlines header) := by
  obtain ⟨s, is⟩ := header_toList
  unfold newlines
  rw [is, after_newline, List.count_append]
  rfl

theorem header_line {q : Position} (stands : StandsIn .start header.toList q) :
    q.line < firstLine := by
  obtain ⟨s, is⟩ := header_toList
  obtain ⟨front, back, split, nonempty, rfl⟩ := stands
  obtain ⟨more, c, rfl⟩ := (List.eq_nil_or_concat back).resolve_left nonempty
  rw [is, List.concat_eq_append, ← List.append_assoc] at split
  obtain ⟨rfl, -⟩ := List.append_inj' split rfl
  have lines : newlines header = (front ++ more).count '\n' + 1 := by
    unfold newlines
    rw [is, List.count_append, List.count_singleton_self]
  rw [firstLine_eq, lines, Position.line_after, List.count_append]
  simp only [Position.start]
  omega

theorem line_down (above : Nat) {lines : Nat} {p : Position} (first : 1 ≤ p.line)
    (last : p.line ≤ lines) :
    above + 1 ≤ (p.down above).line ∧ (p.down above).line < above + 1 + lines ∧
      (p.down above).line - (above + 1) + 1 = p.line := by
  simp only [Position.down]
  omega

theorem locationWithin?_down {lines : Nat} {p : Position} (first : 1 ≤ p.line)
    (last : p.line ≤ lines) : locationWithin? lines (p.down (newlines header)) = some p := by
  obtain ⟨behind, within, same⟩ := line_down (newlines header) first last
  rw [← firstLine_eq] at behind within same
  have column (lines : Nat) : (p.down lines).column = p.column := rfl
  rw [locationWithin?, if_pos ⟨behind, within⟩, same, column]

theorem locationWithin?_eq_none {lines : Nat} {p : Position}
    (outside : p.line < firstLine ∨ firstLine + lines ≤ p.line) :
    locationWithin? lines p = none := by
  unfold locationWithin?
  rw [if_neg (by omega)]

theorem location?_of_standsIn {snippet : String} {q : Position}
    (stands : StandsIn .start snippet.toList q) :
    location? snippet (q.down (newlines header)) = some q := by
  have lines := stands.line
  refine locationWithin?_down lines.1 ?_
  unfold lineCount newlines
  simp only [Position.start] at lines
  omega

theorem location?_below {snippet : String} {q : Position} (below : 2 ≤ q.line) :
    location? snippet (q.down (newlines header + newlines snippet)) = none := by
  refine locationWithin?_eq_none (.inr ?_)
  rw [firstLine_eq, lineCount]
  generalize newlines header = above
  simp only [Position.down]
  omega

/-! ## Tokens -/

theorem ofText_header : ∃ opening, Stream.ofText header = .ok opening ∧
    opening.tokens.map Token.kind = headerKinds ∧
    ∀ rest, extend [] .start (header.toList ++ rest) =
      extend opening.tokens.reverse (Position.start.down (newlines header)) rest := by
  obtain ⟨tokens, kinds, reads⟩ := reads_header .start
  refine ⟨⟨tokens, Position.start.after header.toList⟩, ?_, kinds, fun rest => ?_⟩
  · have alone := reads [] []
    rw [List.append_nil, List.append_nil, Stream.extend_nil, List.reverse_reverse] at alone
    exact alone
  · rw [reads [] rest, List.append_nil, after_header]

theorem ofText_trailer : ∃ ending, Stream.ofText trailer = .ok ending ∧
    ending.tokens.map Token.kind = trailerKinds := by
  obtain ⟨tokens, kinds, reads⟩ := reads_closing (Position.start.next '\n')
  refine ⟨⟨tokens, (Position.start.next '\n').after closing⟩, ?_, kinds⟩
  have alone := reads [] []
  rw [List.append_nil, List.append_nil, Stream.extend_nil, List.reverse_reverse] at alone
  unfold Stream.ofText
  rw [trailer_toList, Stream.extend_newline]
  exact alone

theorem trailer_line {ending : Stream} (reads : Stream.ofText trailer = .ok ending) :
    ∀ t ∈ ending.closed, 2 ≤ t.position.line := by
  unfold Stream.ofText at reads
  rw [trailer_toList, Stream.extend_newline] at reads
  intro t mem
  rcases List.mem_append.1 mem with mem | mem
  · rcases Stream.extend_stands reads t mem with before | stands
    · exact absurd before List.not_mem_nil
    · exact stands.line.1
  · rw [List.mem_singleton.1 mem]
    dsimp only
    rw [Stream.extend_finish reads, Position.line_after]
    exact Nat.le_add_right _ _

theorem extend_wrap {opening : Stream} (snippet : String)
    (reads : ∀ rest, extend [] .start (header.toList ++ rest) =
      extend opening.tokens.reverse (Position.start.down (newlines header)) rest) :
    Stream.ofText (wrap snippet) =
      (downAll (newlines header) (extend [] .start (snippet.toList ++ '\n' :: closing))).map
        (Stream.behind opening.tokens.reverse) := by
  unfold Stream.ofText wrap
  rw [String.toList_append, String.toList_append, List.append_assoc, trailer_toList, reads,
    Stream.extend_behind, ← Stream.extend_down, List.map_nil]

theorem ofText_wrap {snippet : String} {alone : Stream} (reads : Stream.ofText snippet = .ok alone) :
    ∃ opening ending whole, Stream.ofText header = .ok opening ∧ Stream.ofText trailer = .ok ending ∧
      Stream.ofText (wrap snippet) = .ok whole ∧
      whole.closed = opening.tokens ++ alone.tokens.map (Token.down (newlines header)) ++
        ending.closed.map (Token.down (newlines header + newlines snippet)) := by
  obtain ⟨opening, readsHeader, -, continues⟩ := ofText_header
  obtain ⟨ending, readsTrailer, -⟩ := ofText_trailer
  have finish : alone.finish.next '\n' = (Position.start.next '\n').down (newlines snippet) := by
    have line : alone.finish.line = 1 + newlines snippet := by
      rw [Stream.extend_finish reads, Position.line_after]
      rfl
    rw [Position.next_newline _ (by omega), line, Nat.add_sub_cancel_left]
  have behind : extend [] alone.finish ('\n' :: closing) = .ok (ending.down (newlines snippet)) := by
    have further := Stream.extend_down (newlines snippet) [] (Position.start.next '\n') closing
    rw [List.map_nil, ← finish, ← Stream.extend_newline, ← Stream.extend_newline] at further
    rw [further, ← trailer_toList]
    exact congrArg (downAll (newlines snippet)) readsTrailer
  have whole : Stream.ofText (wrap snippet) = .ok (((((ending.down (newlines snippet)).behind
      alone.tokens.reverse).down (newlines header)).behind opening.tokens.reverse)) := by
    rw [extend_wrap snippet continues, Stream.extend_seam closing reads, Stream.extend_behind, behind]
    rfl
  refine ⟨opening, ending, _, readsHeader, readsTrailer, whole, ?_⟩
  have further : Token.down (newlines header) ∘ Token.down (newlines snippet) =
      Token.down (newlines header + newlines snippet) := by
    funext t
    simp [Token.down, Position.down, Nat.add_assoc, Nat.add_comm]
  simp [Stream.closed, Stream.behind, Stream.down, further, Token.down, Position.down,
    Nat.add_assoc, Nat.add_comm]

theorem ofText_wrap_error {snippet : String} {f : LexicalFault}
    (failed : Stream.ofText snippet = .error f) :
    ∃ e, Stream.ofText (wrap snippet) = .error ⟨e, f.position.down (newlines header)⟩ ∧
      SeamError snippet.toList f.error e := by
  obtain ⟨opening, -, -, continues⟩ := ofText_header
  obtain ⟨e, failed', seam⟩ := Stream.extend_error_seam closing_open failed
  refine ⟨e, ?_, seam⟩
  rw [extend_wrap snippet continues, failed']
  rfl

/-- Reading the unit around a snippet against reading the snippet alone. The error is the same in
both, but for a string literal that ends in a backslash at the end of the snippet: the line break
behind the snippet is taken for the escaped character. -/
theorem wrap_lexing (snippet : String) :
    match Stream.ofText snippet with
    | .ok alone => ∃ opening ending whole,
      Stream.ofText header = .ok opening ∧ Stream.ofText trailer = .ok ending ∧
      Stream.ofText (wrap snippet) = .ok whole ∧
      whole.closed = opening.tokens ++ alone.tokens.map (Token.down (newlines header)) ++
        ending.closed.map (Token.down (newlines header + newlines snippet)) ∧
      (∀ t ∈ alone.tokens,
        location? snippet (t.down (newlines header)).position = some t.position) ∧
      (∀ t ∈ opening.tokens, location? snippet t.position = none) ∧
      ∀ t ∈ ending.closed,
        location? snippet (t.down (newlines header + newlines snippet)).position = none
    | .error f => ∃ f', Stream.ofText (wrap snippet) = .error f' ∧
      location? snippet f'.position = some f.position ∧
      (f'.error = f.error ∨ snippet.toList.getLast? = some '\\' ∧
        f.error = .unterminatedString ∧ f'.error = .unknownEscape '\n') := by
  split
  · next alone reads =>
    obtain ⟨opening, ending, whole, readsHeader, readsTrailer, readsWhole, tokens⟩ :=
      ofText_wrap reads
    refine ⟨opening, ending, whole, readsHeader, readsTrailer, readsWhole, tokens, ?_, ?_, ?_⟩
    · intro t mem
      rcases Stream.extend_stands reads t mem with before | stands
      · exact absurd before List.not_mem_nil
      · exact location?_of_standsIn stands
    · intro t mem
      rcases Stream.extend_stands readsHeader t mem with before | stands
      · exact absurd before List.not_mem_nil
      · exact locationWithin?_eq_none (.inl (header_line stands))
    · exact fun t mem => location?_below (trailer_line readsTrailer t mem)
  · next f failed =>
    obtain ⟨e, failed', seam⟩ := ofText_wrap_error failed
    refine ⟨_, failed', location?_of_standsIn (Stream.extend_error_stands failed), ?_⟩
    rcases f with ⟨error, position⟩
    -- A snippet that ends in a lone backslash escapes the line break behind it.
    cases seam with
    | same => exact .inl rfl
    | dangling last => exact .inr ⟨last, rfl, rfl⟩

/-- A string literal that ends in a backslash is not reported as the snippet alone would be. -/
theorem wrap_error_differs :
    ¬∀ snippet f, Stream.ofText snippet = .error f →
      ∃ p, Stream.ofText (wrap snippet) = .error ⟨f.error, p⟩ ∧
        location? snippet p = some f.position := by
  intro same
  have alone : Stream.ofText "\"\\" = .error ⟨.unterminatedString, .start⟩ :=
    Stream.extend_error rfl
  obtain ⟨opening, -, -, continues⟩ := ofText_header
  have whole : Stream.ofText (wrap "\"\\") =
      .error ⟨.unknownEscape '\n', Position.start.down (newlines header)⟩ := by
    have failed : extend [] .start ("\"\\".toList ++ '\n' :: closing) =
        .error ⟨.unknownEscape '\n', .start⟩ :=
      Stream.extend_error rfl
    rw [extend_wrap _ continues, failed]
    rfl
  obtain ⟨p, failed, -⟩ := same _ _ alone
  rw [whole] at failed
  cases failed

end SceneScript.Template
