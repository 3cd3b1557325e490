import SceneScript.Token.Lexer
import Mathlib.Tactic.Common

/-!
# Pieces before a line break

No piece but a block comment goes on over a line break. So a piece of a text is the same if the text
is followed by a line break and more text, and where a text has no further piece, neither has the
longer one, as long as the text behind the line break does not close a comment. The error is the
same as well, but for a string literal that ends in a backslash: there the line break is taken for
the escaped character (`Piece.next_error_seam`).
-/

namespace SceneScript.Token

variable {s t : List Char}

/-! ## Numeric literals -/

theorem startsWithDigit_seam (s t : List Char) :
    startsWithDigit (s ++ '\n' :: t) = startsWithDigit s := by
  cases s <;> rfl

theorem splitDigits_seam (s t : List Char) :
    splitDigits (s ++ '\n' :: t) = ((splitDigits s).1, (splitDigits s).2 ++ '\n' :: t) := by
  induction s with
  | nil => rfl
  | cons c rest ih =>
    rw [List.cons_append, splitDigits, splitDigits, startsWithDigit_seam, ih]
    split <;> rfl

theorem splitFraction_seam (s t : List Char) :
    splitFraction (s ++ '\n' :: t) = ((splitFraction s).1, (splitFraction s).2 ++ '\n' :: t) := by
  cases s with
  | nil => rfl
  | cons c rest =>
    by_cases point : c = '.'
    · subst point
      rw [List.cons_append, splitFraction, splitFraction, startsWithDigit_seam, splitDigits_seam]
      split <;> rfl
    · simp [splitFraction, point]

theorem splitSign_seam (s t : List Char) :
    splitSign (s ++ '\n' :: t) = ((splitSign s).1, (splitSign s).2 ++ '\n' :: t) := by
  cases s with
  | nil => rfl
  | cons c rest =>
    rw [List.cons_append]
    unfold splitSign
    split <;> simp_all

theorem splitExponent_seam (s t : List Char) :
    splitExponent (s ++ '\n' :: t) = ((splitExponent s).1, (splitExponent s).2 ++ '\n' :: t) := by
  cases s with
  | nil => rfl
  | cons mark rest =>
    simp only [List.cons_append, splitExponent, splitSign_seam, startsWithDigit_seam,
      splitDigits_seam]
    split <;> rfl

theorem splitSuffix_seam (s t : List Char) :
    splitSuffix (s ++ '\n' :: t) = ((splitSuffix s).1, (splitSuffix s).2 ++ '\n' :: t) := by
  cases s with
  | nil => rfl
  | cons c rest =>
    rw [List.cons_append]
    unfold splitSuffix
    split <;> simp_all

theorem Numeral.split_seam (s t : List Char) :
    Numeral.split (s ++ '\n' :: t) = ((Numeral.split s).1, (Numeral.split s).2 ++ '\n' :: t) := by
  simp only [Numeral.split, splitDigits_seam, splitFraction_seam, splitExponent_seam,
    splitSuffix_seam]

/-! ## String literals and comments -/

theorem splitComment_seam (s t : List Char) :
    splitComment (s ++ '\n' :: t) =
      match splitComment s with
      | some (front, rest) => some (front, rest ++ '\n' :: t)
      | none => (splitComment t).map fun (front, rest) => (s ++ '\n' :: front, rest) := by
  fun_induction splitComment s with
  | case1 => simp [splitComment]
  | case2 rest => simp [splitComment]
  | case3 c rest notEnd ih =>
    have notEnd' : ∀ after, c = '*' → rest ++ '\n' :: t = '/' :: after → False := by
      intro after star slash
      cases rest with
      | nil => simp at slash
      | cons d rest => exact notEnd rest star (by simp_all)
    rw [List.cons_append, splitComment, ih]
    · cases splitComment rest <;> simp [Function.comp_def]
    · exact notEnd'

/-- How an error of a piece is reported if a line break follows the text. -/
inductive SeamError (s : List Char) : LexicalError → LexicalError → Prop
  | same {e} : SeamError s e e
  | dangling : s.getLast? = some '\\' → SeamError s .unterminatedString (.unknownEscape '\n')

theorem SeamError.cons {e e' : LexicalError} (c : Char) (seam : SeamError s e e') :
    SeamError (c :: s) e e' := by
  cases seam with
  | same => exact .same
  | dangling last => exact .dangling (by simp [List.getLast?_cons, last])

theorem map_eq_error {ε α β : Type} {f : α → β} {x : Except ε α} {e : ε}
    (failed : x.map f = .error e) : x = .error e := by
  cases x with
  | error e' => simpa [Except.map] using failed
  | ok a => cases failed

theorem Quoted.next_plain {c : Char} {s : List Char} (notQuote : c ≠ '"') (notEscape : c ≠ '\\')
    (notBreak : c ≠ '\n') : Quoted.next (c :: s) =
      (Quoted.next s).map fun q => ⟨c :: q.content, c :: q.lexeme, q.rest⟩ := by
  rw [Quoted.next, if_neg (by simpa using notBreak)]
  all_goals simp_all

theorem Quoted.next_seam {q : Quoted} (found : Quoted.next s = .ok q) :
    Quoted.next (s ++ '\n' :: t) = .ok { q with rest := q.rest ++ '\n' :: t } := by
  fun_induction Quoted.next s generalizing q with
  | case1 | case3 | case4 | case6 => cases found
  | case2 rest =>
    cases found
    simp [Quoted.next]
  | case5 c rest e isEscape ih =>
    obtain ⟨r, inner, rfl⟩ := map_eq_ok found
    simp [Quoted.next, isEscape, ih inner, Except.map]
  | case7 c rest notQuote notLone notEscape notBreak ih =>
    obtain ⟨r, inner, rfl⟩ := map_eq_ok found
    have plain : c ≠ '\\' := by
      rintro rfl
      cases rest with
      | nil => exact notLone rfl rfl
      | cons d rest => exact notEscape d rest rfl rfl
    rw [List.cons_append, next_plain notQuote plain (by simpa using notBreak), ih inner]
    rfl

theorem Quoted.next_error_seam {e : LexicalError} (failed : Quoted.next s = .error e) :
    ∃ e', Quoted.next (s ++ '\n' :: t) = .error e' ∧ SeamError s e e' := by
  fun_induction Quoted.next s with
  | case1 =>
    cases failed
    exact ⟨_, by simp [Quoted.next], .same⟩
  | case2 => cases failed
  -- The backslash at the end of the text now escapes the line break.
  | case3 =>
    cases failed
    exact ⟨_, by simp [Quoted.next, escaped?], .dangling rfl⟩
  | case4 c rest noEscape =>
    cases failed
    exact ⟨_, by simp [Quoted.next, noEscape], .same⟩
  | case5 c rest _ isEscape ih =>
    obtain ⟨e', inner, seam⟩ := ih (map_eq_error failed)
    refine ⟨e', ?_, (seam.cons c).cons _⟩
    simp [Quoted.next, isEscape, inner, Except.map]
  | case6 c rest notQuote notLone notEscape isBreak =>
    cases failed
    obtain rfl := eq_of_beq isBreak
    exact ⟨_, by simp [Quoted.next], .same⟩
  | case7 c rest notQuote notLone notEscape notBreak ih =>
    obtain ⟨e', inner, seam⟩ := ih (map_eq_error failed)
    have plain : c ≠ '\\' := by
      rintro rfl
      cases rest with
      | nil => exact notLone rfl rfl
      | cons d rest => exact notEscape d rest rfl rfl
    refine ⟨e', ?_, seam.cons c⟩
    rw [List.cons_append, next_plain notQuote plain (by simpa using notBreak), inner]
    rfl

/-! ## Pieces -/

theorem inWord_newline : Text.inWord '\n' = false := by
  decide

theorem takeWhile_seam (p : Char → Bool) (stops : p '\n' = false) (s t : List Char) :
    (s ++ '\n' :: t).takeWhile p = s.takeWhile p := by
  induction s with
  | nil => simp [stops]
  | cons c rest ih =>
    rw [List.cons_append, List.takeWhile_cons, List.takeWhile_cons, ih]

theorem dropWhile_seam (p : Char → Bool) (stops : p '\n' = false) (s t : List Char) :
    (s ++ '\n' :: t).dropWhile p = s.dropWhile p ++ '\n' :: t := by
  induction s with
  | nil => simp [stops]
  | cons c rest ih =>
    rw [List.cons_append, List.dropWhile_cons, List.dropWhile_cons, ih]
    split <;> rfl

def Piece.append (p : Piece) (t : List Char) : Piece :=
  { p with rest := p.rest ++ t }

namespace Piece

theorem number_seam (s t : List Char) :
    number (s ++ '\n' :: t) = (number s).map fun p => p.append ('\n' :: t) := by
  unfold number
  simp only [Numeral.split_seam]
  have head : ((Numeral.split s).2 ++ '\n' :: t).head?.filter Text.inWord =
      (Numeral.split s).2.head?.filter Text.inWord := by
    cases (Numeral.split s).2 with
    | nil => simp [inWord_newline]
    | cons c rest => rfl
  rw [head]
  split
  · rfl
  · cases Kind.ofNumeral (Numeral.split s).1 <;> rfl

theorem word_seam (s t : List Char) : word (s ++ '\n' :: t) = (word s).append ('\n' :: t) := by
  simp only [word, takeWhile_seam _ inWord_newline, dropWhile_seam _ inWord_newline, append]

theorem twoCharSymbol?_newline (c : Char) : twoCharSymbol? c '\n' = none := by
  unfold twoCharSymbol?
  split <;> simp_all

theorem symbol_seam (c : Char) (s t : List Char) :
    symbol c (s ++ '\n' :: t) = (symbol c s).map fun p => p.append ('\n' :: t) := by
  cases s with
  | nil =>
    simp only [List.nil_append, symbol, twoCharSymbol?_newline]
    split <;> rfl
  | cons d rest =>
    simp only [List.cons_append, symbol]
    split
    · rfl
    · split <;> rfl

theorem lineComment_seam (s t : List Char) :
    lineComment (s ++ '\n' :: t) = (lineComment s).append ('\n' :: t) := by
  have stops : ('\n' != '\n') = false := rfl
  simp only [lineComment, append, takeWhile_seam (· != '\n') stops,
    dropWhile_seam (· != '\n') stops]

theorem token_seam {c : Char} (notQuote : c ≠ '"') (s t : List Char) :
    token c (s ++ '\n' :: t) = (token c s).map fun p => p.append ('\n' :: t) := by
  have notQuote : ¬(c == '"') = true := by simpa using notQuote
  unfold token
  rw [if_neg notQuote, if_neg notQuote, ← List.cons_append, number_seam, word_seam, symbol_seam]
  split
  · rfl
  · split <;> rfl

theorem string_error_seam {e : LexicalError} (failed : string s = .error e) :
    ∃ e', string (s ++ '\n' :: t) = .error e' ∧ SeamError s e e' := by
  obtain ⟨e', inner, seam⟩ := Quoted.next_error_seam (map_eq_error failed)
  exact ⟨e', by rw [string, inner]; rfl, seam⟩

theorem string_seam {p : Piece} (found : string s = .ok p) :
    string (s ++ '\n' :: t) = .ok (p.append ('\n' :: t)) := by
  obtain ⟨q, inner, rfl⟩ := map_eq_ok found
  rw [string, Quoted.next_seam inner]
  rfl

theorem next_of_not_comment {c : Char} {s : List Char} (notBlank : ¬Text.isBlank c = true)
    (notLine : ∀ rest, c = '/' → s = '/' :: rest → False)
    (notBlock : ∀ rest, c = '/' → s = '*' :: rest → False) : next c s = token c s := by
  unfold next
  rw [if_neg notBlank]
  split
  · next rest => exact (notLine rest rfl rfl).elim
  · next rest => exact (notBlock rest rfl rfl).elim
  · rfl

theorem next_cases (c : Char) (s : List Char) :
    (∀ u, next c u = .ok ⟨[c], none, u⟩) ∨
      (∃ rest, s = '/' :: rest ∧ ∀ u, next c ('/' :: u) = .ok (lineComment u)) ∨
      (∃ rest, s = '*' :: rest ∧ ∀ u, next c ('*' :: u) = blockComment u) ∨
      (next c s = token c s ∧ ∀ t, next c (s ++ '\n' :: t) = token c (s ++ '\n' :: t)) := by
  by_cases blank : Text.isBlank c = true
  · refine .inl fun u => ?_
    unfold next
    rw [if_pos blank]
  · have other {u : List Char} := next_of_not_comment (s := u) blank
    by_cases slash : c = '/'
    · subst slash
      cases s with
      | nil => exact .inr (.inr (.inr ⟨rfl, fun t => rfl⟩))
      | cons d rest =>
        by_cases line : d = '/'
        · exact .inr (.inl ⟨rest, by rw [line], fun u => rfl⟩)
        · by_cases block : d = '*'
          · exact .inr (.inr (.inl ⟨rest, by rw [block], fun u => rfl⟩))
          · refine .inr (.inr (.inr ⟨other ?_ ?_, fun t => other ?_ ?_⟩))
            all_goals simp_all
    · exact .inr (.inr (.inr ⟨other (fun _ is => absurd is slash) fun _ is => absurd is slash,
        fun t => other (fun _ is => absurd is slash) fun _ is => absurd is slash⟩))

theorem next_seam {c : Char} {p : Piece} (t : List Char) (found : next c s = .ok p) :
    next c (s ++ '\n' :: t) = .ok (p.append ('\n' :: t)) := by
  rcases next_cases c s with blank | ⟨rest, rfl, line⟩ | ⟨rest, rfl, block⟩ | ⟨alone, seam⟩
  · rw [blank] at found ⊢
    cases found
    rfl
  · rw [line] at found
    cases found
    rw [List.cons_append, line, lineComment_seam]
  · rw [block] at found
    rw [List.cons_append, block]
    unfold blockComment at found ⊢
    rw [splitComment_seam]
    cases closed : splitComment rest with
    | none =>
      rw [closed] at found
      cases found
    | some parts =>
      rw [closed] at found
      cases found
      rfl
  · rw [alone] at found
    rw [seam]
    by_cases quote : c = '"'
    · subst quote
      exact string_seam found
    · rw [token_seam quote, found]
      rfl

theorem next_error_seam {c : Char} {e : LexicalError} (notClosed : splitComment t = none)
    (failed : next c s = .error e) :
    ∃ e', next c (s ++ '\n' :: t) = .error e' ∧ SeamError s e e' := by
  rcases next_cases c s with blank | ⟨rest, rfl, line⟩ | ⟨rest, rfl, block⟩ | ⟨alone, seam⟩
  · rw [blank] at failed
    cases failed
  · rw [line] at failed
    cases failed
  · rw [block] at failed
    unfold blockComment at failed
    split at failed
    · cases failed
    · next never =>
      cases failed
      refine ⟨_, ?_, .same⟩
      rw [List.cons_append, block, blockComment, splitComment_seam, never, notClosed]
      rfl
  · rw [alone] at failed
    rw [seam]
    by_cases quote : c = '"'
    · subst quote
      exact string_error_seam failed
    · exact ⟨e, by rw [token_seam quote, failed]; rfl, .same⟩

/-! ## Kinds -/

theorem token_kind {c : Char} {s : List Char} {p : Piece} (found : token c s = .ok p) :
    p.kind ≠ some .finish := by
  unfold token at found
  split at found
  · unfold number at found
    dsimp only at found
    split at found
    · cases found
    · obtain ⟨kind, numeral, rfl⟩ := map_eq_ok found
      unfold Kind.ofNumeral at numeral
      dsimp only at numeral
      split at numeral
      · cases numeral
        nofun
      · split at numeral <;> cases numeral
        nofun
  · split at found
    · obtain ⟨q, -, rfl⟩ := map_eq_ok found
      nofun
    · split at found
      · cases found
        unfold word Kind.ofWord
        dsimp only
        split <;> nofun
      · unfold symbol at found
        split at found <;> split at found <;> (try split at found) <;> cases found <;> nofun

theorem next_kind {c : Char} {s : List Char} {p : Piece} (found : next c s = .ok p) :
    p.kind ≠ some .finish := by
  unfold next at found
  split at found
  · cases found
    nofun
  · split at found
    · cases found
      nofun
    · unfold blockComment at found
      split at found <;> cases found
      nofun
    · exact token_kind found

end Piece

end SceneScript.Token
