import SceneScript.Proofs.Token.Numerals
import Mathlib.Data.List.TakeWhile

/-!
# What lexemes spell

A token that is cut off a text is spelt by its lexeme (`Piece.token_spells`), and no longer front of
the text spells any token (`Spells.front`). Conversely a lexeme read alone gives the token that it
spells (`Spells.read`), so it spells no other one. A text that no token can be cut off is stuck for
the reason the error gives (`Piece.token_stuck`).
-/

namespace SceneScript.Token

variable {c d : Char} {s t lexeme : List Char} {kind : Kind}

/-! ## How lexemes begin -/

theorem opensWord_plain (opens : Text.opensWord c = true) : c.isDigit = false ∧ c ≠ '"' := by
  constructor
  · by_contra digit
    rw [Bool.not_eq_false] at digit
    have range : 48 ≤ c.toNat ∧ c.toNat ≤ 57 := by
      simpa [Char.isDigit, UInt32.le_iff_toNat_le] using digit
    have ascii : c.val < 128 := UInt32.lt_iff_toNat_lt.2 (Nat.lt_of_le_of_lt range.2 (by decide))
    have value : c.val.toNat = c.toNat := rfl
    have notLetter : c.isAlpha = false := by
      delta Char.isAlpha Char.isUpper Char.isLower
      simp [UInt32.le_iff_toNat_le]
      omega
    have notUnderscore : c ≠ '_' := by
      rintro rfl
      exact absurd range.2 (by decide)
    simp [Text.opensWord, Text.isLetter, ascii, notLetter, notUnderscore] at opens
  · rintro rfl
    exact absurd opens (by decide)

theorem DigitRun.cons {s : List Char} (run : DigitRun s) :
    ∃ c rest, s = c :: rest ∧ c.isDigit = true := by
  cases run with
  | last digit | digit digit | underscore digit => exact ⟨_, _, rfl, digit⟩

theorem Numeral.Written.cons {n : Numeral} (written : n.Written) :
    ∃ c rest, n.lexeme = c :: rest ∧ c.isDigit = true := by
  obtain ⟨c, rest, whole, digit⟩ := written.whole.cons
  exact ⟨c, rest ++ n.fraction ++ n.exponent ++ n.suffix, by simp [Numeral.lexeme, whole], digit⟩

theorem symbol_spelt (k : Symbol) :
    (∃ c, k.text.toList = [c] ∧ oneCharSymbol? c = some k) ∨
      ∃ c d, k.text.toList = [c, d] ∧ twoCharSymbol? c d = some k := by
  cases k
  all_goals first
    | exact .inl ⟨_, rfl, rfl⟩
    | exact .inr ⟨_, _, rfl, rfl⟩

theorem oneCharSymbol?_text {k : Symbol} (is : oneCharSymbol? c = some k) :
    k.text.toList = [c] := by
  unfold oneCharSymbol? at is
  split at is <;> cases is <;> rfl

theorem twoCharSymbol?_text {k : Symbol} (is : twoCharSymbol? c d = some k) :
    k.text.toList = [c, d] := by
  unfold twoCharSymbol? at is
  split at is <;> cases is <;> rfl

theorem oneCharSymbol?_plain {k : Symbol} (is : oneCharSymbol? c = some k) :
    c.isDigit = false ∧ c ≠ '"' ∧ Text.opensWord c = false := by
  unfold oneCharSymbol? at is
  split at is <;> first | decide | cases is

theorem twoCharSymbol?_plain {k : Symbol} (is : twoCharSymbol? c d = some k) :
    c.isDigit = false ∧ c ≠ '"' ∧ Text.opensWord c = false := by
  unfold twoCharSymbol? at is
  split at is <;> first | decide | cases is

namespace Piece

theorem token_number (digit : c.isDigit = true) (s : List Char) : token c s = number (c :: s) := by
  rw [token, if_pos digit]

theorem token_string (s : List Char) : token '"' s = string s :=
  rfl

theorem token_word (opens : Text.opensWord c = true) (s : List Char) :
    token c s = .ok (word (c :: s)) := by
  obtain ⟨notDigit, notQuote⟩ := opensWord_plain opens
  rw [token, if_neg (by simp [notDigit]), if_neg (by simpa using notQuote), if_pos opens]

theorem token_symbol (plain : c.isDigit = false ∧ c ≠ '"' ∧ Text.opensWord c = false)
    (s : List Char) : token c s = symbol c s := by
  obtain ⟨notDigit, notQuote, notWord⟩ := plain
  rw [token, if_neg (by simp [notDigit]), if_neg (by simpa using notQuote),
    if_neg (by simp [notWord])]

theorem token_cases (c : Char) (s : List Char) :
    (c.isDigit = true ∧ token c s = number (c :: s)) ∨
      (c = '"' ∧ token c s = string s) ∨
      (Text.opensWord c = true ∧ token c s = .ok (word (c :: s))) ∨
      ((c.isDigit = false ∧ c ≠ '"' ∧ Text.opensWord c = false) ∧ token c s = symbol c s) := by
  by_cases digit : c.isDigit = true
  · exact .inl ⟨digit, token_number digit s⟩
  · by_cases quote : c = '"'
    · exact .inr (.inl ⟨quote, by rw [quote, token_string]⟩)
    · by_cases opens : Text.opensWord c = true
      · exact .inr (.inr (.inl ⟨opens, token_word opens s⟩))
      · rw [Bool.not_eq_true] at digit opens
        exact .inr (.inr (.inr ⟨⟨digit, quote, opens⟩, token_symbol ⟨digit, quote, opens⟩ s⟩))

end Piece

/-! ## String literals -/

theorem Escaped.next {content written : List Char} (escaped : Escaped content written)
    (t : List Char) :
    Quoted.next (written ++ '"' :: t) = .ok ⟨content, written ++ ['"'], t⟩ := by
  induction escaped with
  | nil => simp [Quoted.next]
  | plain notQuote notEscape notBreak _ ih =>
    rw [List.cons_append, Quoted.next_plain notQuote notEscape notBreak, ih]
    rfl
  | escape is _ ih => simp [Quoted.next, is, ih, Except.map]

theorem Quoted.notBackslash {rest : List Char} (notLone : c = '\\' → rest = [] → False)
    (notEscape : ∀ d more, c = '\\' → rest = d :: more → False) : c ≠ '\\' := by
  rintro rfl
  cases rest with
  | nil => exact notLone rfl rfl
  | cons d more => exact notEscape d more rfl rfl

theorem Quoted.next_escaped {q : Quoted} (found : Quoted.next s = .ok q) :
    ∃ written, Escaped q.content written ∧ q.lexeme = written ++ ['"'] := by
  fun_induction Quoted.next s generalizing q with
  | case1 | case3 | case4 | case6 => cases found
  | case2 rest =>
    cases found
    exact ⟨[], .nil, rfl⟩
  | case5 c rest e isEscape ih =>
    obtain ⟨r, inner, rfl⟩ := map_eq_ok found
    obtain ⟨written, escaped, is⟩ := ih inner
    exact ⟨'\\' :: c :: written, .escape isEscape escaped, by simp [is]⟩
  | case7 c rest notQuote notLone notEscape notBreak ih =>
    obtain ⟨r, inner, rfl⟩ := map_eq_ok found
    obtain ⟨written, escaped, is⟩ := ih inner
    have plain := Quoted.notBackslash notLone notEscape
    exact ⟨c :: written, .plain notQuote plain (by simpa using notBreak) escaped, by simp [is]⟩

inductive Quoted.Broken : LexicalError → List Char → Prop
  | open {content written s : List Char} : Escaped content written → LiteralBreaks s →
      Broken .unterminatedString (written ++ s)
  | escape {content written s : List Char} {c : Char} : Escaped content written →
      escaped? c = none → Broken (.unknownEscape c) (written ++ '\\' :: c :: s)

theorem Quoted.next_broken {e : LexicalError} (failed : Quoted.next s = .error e) :
    Broken e s := by
  fun_induction Quoted.next s with
  | case1 =>
    cases failed
    exact .open .nil (.inl rfl)
  | case2 => cases failed
  | case3 =>
    cases failed
    exact .open .nil (.inr (.inl rfl))
  | case4 c rest noEscape =>
    cases failed
    exact .escape .nil noEscape
  | case5 c rest e isEscape ih =>
    cases ih (map_eq_error failed) with
    | «open» escaped breaks => exact .open (.escape isEscape escaped) breaks
    | escape escaped noEscape => exact .escape (.escape isEscape escaped) noEscape
  | case6 c rest notQuote notLone notEscape isBreak =>
    cases failed
    exact .open .nil (.inr (.inr ⟨rest, by rw [eq_of_beq isBreak]⟩))
  | case7 c rest notQuote notLone notEscape notBreak ih =>
    have plain := Quoted.notBackslash notLone notEscape
    have more {content written : List Char} (escaped : Escaped content written) :=
      escaped.plain notQuote plain (by simpa using notBreak)
    cases ih (map_eq_error failed) with
    | «open» escaped breaks => exact .open (more escaped) breaks
    | escape escaped noEscape => exact .escape (more escaped) noEscape

/-! ## A token is spelt by its lexeme -/

theorem spells_ofWord (opens : Text.opensWord c = true)
    (inside : ∀ d ∈ s, Text.inWord d = true) :
    Spells (c :: s) (.ofWord (String.ofList (c :: s))) := by
  unfold Kind.ofWord
  split
  · next k found =>
    unfold Keyword.ofText? at found
    have is : k.text = String.ofList (c :: s) := by simpa using List.find?_some found
    have spelt : k.text.toList = c :: s := by rw [is, String.toList_ofList]
    exact spelt ▸ .keyword k
  · next notFound =>
    refine .word opens inside fun k spelt => ?_
    have known : k ∈ Keyword.all := by cases k <;> decide
    unfold Keyword.ofText? at notFound
    refine List.find?_eq_none.1 notFound k known (beq_iff_eq.2 ?_)
    rw [← spelt, String.ofList_toList]

namespace Piece

theorem symbol_spells {p : Piece} (found : symbol c s = .ok p) :
    ∃ k : Symbol, p.kind = some (.symbol k) ∧ p.lexeme = k.text.toList := by
  unfold symbol at found
  split at found <;> split at found <;> (try split at found) <;> cases found
  · next is => exact ⟨_, rfl, (twoCharSymbol?_text is).symm⟩
  · next is => exact ⟨_, rfl, (oneCharSymbol?_text is).symm⟩
  · next is => exact ⟨_, rfl, (oneCharSymbol?_text is).symm⟩

theorem number_spells {p : Piece} (digit : c.isDigit = true) (found : number (c :: s) = .ok p) :
    ∃ kind, p.kind = some kind ∧ Spells p.lexeme kind := by
  have written := Numeral.split_written (s := c :: s) digit
  unfold number at found
  dsimp only at found
  split at found
  · cases found
  · obtain ⟨kind, numeral, rfl⟩ := map_eq_ok found
    refine ⟨kind, rfl, ?_⟩
    unfold Kind.ofNumeral at numeral
    dsimp only at numeral
    split at numeral
    · next float =>
      cases numeral
      exact .float written float
    · next whole =>
      split at numeral
      · next inRange =>
        cases numeral
        exact .int written (Bool.not_eq_true _ ▸ whole) inRange
      · cases numeral

theorem token_spells {p : Piece} (found : token c s = .ok p) :
    ∃ kind, p.kind = some kind ∧ Spells p.lexeme kind := by
  rcases token_cases c s with ⟨digit, is⟩ | ⟨rfl, is⟩ | ⟨opens, is⟩ | ⟨-, is⟩ <;> rw [is] at found
  · exact number_spells digit found
  · obtain ⟨q, inner, rfl⟩ := map_eq_ok found
    obtain ⟨written, escaped, spelt⟩ := Quoted.next_escaped inner
    exact ⟨_, rfl, by rw [spelt]; exact .string escaped⟩
  · cases found
    refine ⟨_, rfl, ?_⟩
    simp only [word, List.takeWhile_cons, Text.inWord_of_opensWord opens, if_true]
    exact spells_ofWord opens (List.all_eq_true.1 List.all_takeWhile)
  · obtain ⟨k, is, spelt⟩ := symbol_spells found
    exact ⟨_, is, spelt ▸ .symbol k⟩

/-! ## A lexeme read alone -/

theorem word_all (opens : Text.opensWord c = true) (inside : ∀ d ∈ s, Text.inWord d = true) :
    token c s = .ok ⟨c :: s, some (.ofWord (String.ofList (c :: s))), []⟩ := by
  have all : ∀ d ∈ c :: s, Text.inWord d = true :=
    List.forall_mem_cons.2 ⟨Text.inWord_of_opensWord opens, inside⟩
  rw [token_word opens, word, List.takeWhile_eq_self_iff.2 all, List.dropWhile_eq_nil_iff.2 all]

theorem number_all {n : Numeral} (written : n.Written) (numeral : Kind.ofNumeral n = .ok kind) :
    number n.lexeme = .ok ⟨n.lexeme, some kind, []⟩ := by
  simp [number, Numeral.split_alone written, numeral, Except.map]

end Piece

theorem ofWord_keyword (k : Keyword) : Kind.ofWord k.text = .keyword k := by
  cases k <;> rfl

theorem keyword_word (k : Keyword) : ∃ c s, k.text.toList = c :: s ∧ Text.opensWord c = true ∧
    ∀ d ∈ s, Text.inWord d = true := by
  have inside {s : List Char} (all : s.all Text.inWord = true) : ∀ d ∈ s, Text.inWord d = true :=
    List.all_eq_true.1 all
  cases k <;> exact ⟨_, _, rfl, rfl, inside rfl⟩

theorem Spells.read (spells : Spells lexeme kind) :
    ∃ c s, lexeme = c :: s ∧ Piece.token c s = .ok ⟨lexeme, some kind, []⟩ := by
  cases spells with
  | keyword k =>
    obtain ⟨c, s, spelt, opens, inside⟩ := keyword_word k
    refine ⟨c, s, spelt, ?_⟩
    rw [Piece.word_all opens inside, ← spelt, String.ofList_toList, ofWord_keyword]
  | @word c s opens inside other =>
    refine ⟨c, s, rfl, ?_⟩
    have unknown : Keyword.ofText? (String.ofList (c :: s)) = none := by
      refine List.find?_eq_none.2 fun k _ is => other k ?_
      rw [eq_of_beq is, String.toList_ofList]
    rw [Piece.word_all opens inside, Kind.ofWord, unknown]
  | symbol k =>
    rcases symbol_spelt k with ⟨c, spelt, is⟩ | ⟨c, d, spelt, is⟩
    · refine ⟨c, [], spelt, ?_⟩
      rw [Piece.token_symbol (oneCharSymbol?_plain is), Piece.symbol, spelt]
      simp [is]
    · refine ⟨c, [d], spelt, ?_⟩
      rw [Piece.token_symbol (twoCharSymbol?_plain is), Piece.symbol, spelt]
      simp [is]
  | @int n written whole inRange =>
    obtain ⟨c, s, spelt, digit⟩ := written.cons
    refine ⟨c, s, spelt, ?_⟩
    rw [Piece.token_number digit, ← spelt]
    refine Piece.number_all written ?_
    rw [Kind.ofNumeral, if_neg (by simp [whole])]
    exact if_pos inRange
  | @float n written float =>
    obtain ⟨c, s, spelt, digit⟩ := written.cons
    refine ⟨c, s, spelt, ?_⟩
    rw [Piece.token_number digit, ← spelt]
    refine Piece.number_all written ?_
    rw [Kind.ofNumeral, if_pos float]
  | @string content written escaped =>
    refine ⟨'"', written ++ ['"'], rfl, ?_⟩
    rw [Piece.token_string, Piece.string, escaped.next []]
    rfl

theorem Spells.unique {kind' : Kind} (spells : Spells lexeme kind)
    (spells' : Spells lexeme kind') : kind' = kind := by
  obtain ⟨c, s, rfl, read⟩ := spells.read
  obtain ⟨c', s', same, read'⟩ := spells'.read
  cases same
  rw [read] at read'
  simpa using read'.symm

/-! ## The longest lexeme -/

theorem Piece.word_front (opens : Text.opensWord c = true)
    (inside : ∀ d ∈ s, Text.inWord d = true) (t : List Char) :
    c :: s <+: (word (c :: (s ++ t))).lexeme := by
  have all : ∀ d ∈ c :: s, Text.inWord d = true :=
    List.forall_mem_cons.2 ⟨Text.inWord_of_opensWord opens, inside⟩
  rw [word, ← List.cons_append, List.takeWhile_append_of_pos all]
  exact List.prefix_append _ _

theorem Piece.number_lexeme {p : Piece} (found : number s = .ok p) :
    p.lexeme = (Numeral.split s).1.lexeme := by
  unfold number at found
  dsimp only at found
  split at found
  · cases found
  · obtain ⟨kind, -, rfl⟩ := map_eq_ok found
    rfl

theorem Piece.Begins.head {p : Piece} (begins : p.Begins (c :: s)) : [c] <+: p.lexeme := by
  obtain ⟨all, nonempty⟩ := begins
  cases is : p.lexeme with
  | nil => exact absurd is nonempty
  | cons d rest =>
    rw [is] at all
    cases all
    exact List.prefix_append _ _

theorem Piece.number_front {n : Numeral} {p : Piece} (written : n.Written)
    (front : n.lexeme <+: c :: s) (found : token c s = .ok p) : n.lexeme <+: p.lexeme := by
  obtain ⟨t, spelt⟩ := front
  obtain ⟨d, rest, is, digit⟩ := written.cons
  obtain rfl : d = c := by
    rw [is] at spelt
    exact (List.cons.inj spelt).1
  rw [token_number digit, ← spelt] at found
  rw [number_lexeme found]
  exact Numeral.split_front written t

theorem Spells.front {p : Piece} (spells : Spells lexeme kind) (front : lexeme <+: c :: s)
    (found : Piece.token c s = .ok p) : lexeme <+: p.lexeme := by
  cases spells with
  | keyword k =>
    obtain ⟨d, rest, is, opens, inside⟩ := keyword_word k
    obtain ⟨t, spelt⟩ := front
    rw [is] at spelt
    cases spelt
    cases (Piece.token_word opens _).symm.trans found
    rw [is]
    exact Piece.word_front opens inside t
  | @word d rest opens inside other =>
    obtain ⟨t, spelt⟩ := front
    cases spelt
    cases (Piece.token_word opens _).symm.trans found
    exact Piece.word_front opens inside t
  | symbol k =>
    obtain ⟨t, spelt⟩ := front
    rcases symbol_spelt k with ⟨d, is, one⟩ | ⟨d, e, is, two⟩
    · rw [is] at spelt
      cases spelt
      rw [is]
      exact (Piece.token_begins found).head
    · simp only [is, List.cons_append, List.nil_append, List.cons.injEq] at spelt
      obtain ⟨rfl, rfl⟩ := spelt
      rw [Piece.token_symbol (twoCharSymbol?_plain two)] at found
      simp only [Piece.symbol, two] at found
      cases found
      exact is ▸ List.prefix_rfl
  | int written => exact Piece.number_front written front found
  | float written => exact Piece.number_front written front found
  | @string content written escaped =>
    obtain ⟨t, spelt⟩ := front
    simp only [List.cons_append, List.append_assoc, List.nil_append, List.cons.injEq] at spelt
    obtain ⟨rfl, rfl⟩ := spelt
    rw [Piece.token_string, Piece.string, escaped.next t] at found
    cases found
    exact List.prefix_rfl

/-! ## Texts that no token can be cut off -/

theorem Piece.symbol_error {e : LexicalError} (failed : symbol c s = .error e) :
    e = .unexpectedCharacter c := by
  unfold symbol at failed
  split at failed <;> split at failed <;> (try split at failed) <;> cases failed <;> rfl

theorem Piece.symbol_ok {k : Symbol} (front : k.text.toList <+: c :: s) {e : LexicalError} :
    symbol c s ≠ .error e := by
  obtain ⟨t, spelt⟩ := front
  intro failed
  rcases symbol_spelt k with ⟨d, is, one⟩ | ⟨d, e, is, two⟩
  · rw [is] at spelt
    cases spelt
    unfold symbol at failed
    simp only [one] at failed
    split at failed <;> (try split at failed) <;> cases failed
  · rw [is] at spelt
    cases spelt
    simp [symbol, two] at failed

theorem Spells.symbol_of_plain (spells : Spells (c :: lexeme) kind)
    (plain : c.isDigit = false ∧ c ≠ '"' ∧ Text.opensWord c = false) :
    ∃ k : Symbol, k.text.toList = c :: lexeme := by
  obtain ⟨d, rest, same, read⟩ := spells.read
  cases same
  rw [Piece.token_symbol plain] at read
  obtain ⟨k, -, spelt⟩ := Piece.symbol_spells read
  exact ⟨k, spelt.symm⟩

theorem Piece.token_stuck {e : LexicalError} (notBlank : Text.isBlank c = false)
    (failed : token c s = .error e) : Stuck e (c :: s) := by
  -- A number, a string, a word or a symbol; a word is always read.
  rcases token_cases c s with ⟨digit, is⟩ | ⟨rfl, is⟩ | ⟨opens, is⟩ | ⟨plain, is⟩ <;>
    rw [is] at failed
  · have longest := Numeral.split_longest (s := c :: s) digit
    have whole := Numeral.split_append (c :: s)
    obtain ⟨n, rest, is⟩ : ∃ n rest, Numeral.split (c :: s) = (n, rest) := ⟨_, _, rfl⟩
    simp only [number, is] at longest whole failed
    rw [← whole] at longest ⊢
    split at failed
    · next d inWord =>
      cases failed
      obtain ⟨first, inside⟩ := Option.filter_eq_some_iff.1 inWord
      obtain ⟨more, rfl⟩ := List.head?_eq_some_iff.1 first
      exact .numeral longest inside
    · have failed := map_eq_error failed
      unfold Kind.ofNumeral at failed
      dsimp only at failed
      split at failed
      · cases failed
      · next whole =>
        split at failed
        · cases failed
        · next outside =>
          cases failed
          exact .range longest (Bool.not_eq_true _ ▸ whole) (Nat.le_of_not_lt outside)
  · cases Quoted.next_broken (map_eq_error failed) with
    | «open» escaped breaks => exact .string escaped breaks
    | escape escaped noEscape => exact .escape escaped noEscape
  · cases failed
  · cases symbol_error failed
    refine .character notBlank plain.2.1 fun lexeme kind front spells => ?_
    obtain ⟨d, rest, rfl, -⟩ := spells.read
    obtain rfl : d = c := (List.cons_prefix_cons.1 front).1
    obtain ⟨k, spelt⟩ := spells.symbol_of_plain plain
    exact symbol_ok (spelt ▸ front) failed

end SceneScript.Token
