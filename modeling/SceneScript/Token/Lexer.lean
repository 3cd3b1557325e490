import SceneScript.Token.Kind
import SceneScript.Token.Numeral

/-!
# Splitting a text into tokens

A text is cut from the front into pieces: blanks, comments and lexemes. Each piece takes at least
one character and the pieces concatenate to the text (`Piece.next_begins`), so a token stands where
the pieces before it end. Every error is reported where the offending piece begins.
-/

namespace SceneScript.Token

inductive LexicalError where
  | unterminatedComment
  | unterminatedString
  | unknownEscape (c : Char)
  | invalidNumeral (text : String)
  | integerOutOfRange (text : String)
  | unexpectedCharacter (c : Char)
deriving Repr, DecidableEq

def LexicalError.message : LexicalError → String
  | .unterminatedComment => "unterminated block comment"
  | .unterminatedString => "unterminated string literal"
  | .unknownEscape c => s!"unknown escape sequence '\\{c}'"
  | .invalidNumeral text => s!"invalid numeric literal '{text}'"
  | .integerOutOfRange text => s!"integer literal '{text}' is out of range"
  | .unexpectedCharacter c => s!"unexpected character '{c}'"

/-- A piece of the text, what token it is if it is one, and the text behind it. -/
structure Piece where
  lexeme : List Char
  kind : Option Kind
  rest : List Char

/-! ## Comments -/

/-- Splits behind the first `*/`. -/
def splitComment : List Char → Option (List Char × List Char)
  | [] => none
  | '*' :: '/' :: rest => some (['*', '/'], rest)
  | c :: rest => (splitComment rest).map fun (front, after) => (c :: front, after)

theorem splitComment_append {s front rest : List Char} (h : splitComment s = some (front, rest)) :
    front ++ rest = s := by
  fun_induction splitComment s generalizing front rest with
  | case1 => simp at h
  | case2 => grind
  | case3 c s _ ih =>
    obtain ⟨⟨f, r⟩, hf, heq⟩ := Option.map_eq_some_iff.1 h
    grind

/-! ## String literals -/

/-- The character that an escape sequence stands for. -/
def escaped? : Char → Option Char
  | 'n' => some '\n'
  | 't' => some '\t'
  | 'r' => some '\r'
  | '0' => some '\x00'
  | '"' => some '"'
  | '\\' => some '\\'
  | _ => none

/-- A string literal behind its opening quote: its content, how it is written up to and with the
closing quote, and the text behind. -/
structure Quoted where
  content : List Char
  lexeme : List Char
  rest : List Char

def Quoted.next : List Char → Except LexicalError Quoted
  | [] => .error .unterminatedString
  | '"' :: rest => .ok ⟨[], ['"'], rest⟩
  | ['\\'] => .error .unterminatedString
  | '\\' :: c :: rest =>
    match escaped? c with
    | none => .error (.unknownEscape c)
    | some e => (next rest).map fun q => ⟨e :: q.content, '\\' :: c :: q.lexeme, q.rest⟩
  | c :: rest =>
    if c == '\n' then .error .unterminatedString
    else (next rest).map fun q => ⟨c :: q.content, c :: q.lexeme, q.rest⟩

theorem map_eq_ok {ε α β : Type} {f : α → β} {x : Except ε α} {b : β} (h : x.map f = .ok b) :
    ∃ a, x = .ok a ∧ f a = b := by
  cases x with
  | error => simp [Except.map] at h
  | ok a => exact ⟨a, rfl, by simpa [Except.map] using h⟩

theorem Quoted.next_append {s : List Char} {q : Quoted} (h : Quoted.next s = .ok q) :
    q.lexeme ++ q.rest = s := by
  fun_induction Quoted.next s generalizing q with
  | case1 => simp at h
  | case2 => grind
  | case3 => simp at h
  | case4 => simp at h
  | case5 c rest e _ ih =>
    obtain ⟨r, hr, rfl⟩ := map_eq_ok h
    simp [ih hr]
  | case6 => simp at h
  | case7 c rest _ _ _ _ ih =>
    obtain ⟨r, hr, rfl⟩ := map_eq_ok h
    simp [ih hr]

/-! ## Words and symbols -/

def Kind.ofWord (name : String) : Kind :=
  match Keyword.ofText? name with
  | some k => .keyword k
  | none => .word name

def twoCharSymbol? : Char → Char → Option Symbol
  | ':', ':' => some .doubleColon
  | '.', '.' => some .range
  | '-', '>' => some .arrow
  | '=', '=' => some .equal
  | '!', '=' => some .notEqual
  | '<', '=' => some .lessEqual
  | '>', '=' => some .greaterEqual
  | '&', '&' => some .and
  | '|', '|' => some .or
  | _, _ => none

def oneCharSymbol? : Char → Option Symbol
  | '(' => some .openParen
  | ')' => some .closeParen
  | '{' => some .openBrace
  | '}' => some .closeBrace
  | ',' => some .comma
  | ';' => some .semicolon
  | ':' => some .colon
  | '.' => some .dot
  | '=' => some .assign
  | '!' => some .bang
  | '<' => some .less
  | '>' => some .greater
  | '+' => some .plus
  | '-' => some .minus
  | '*' => some .star
  | '/' => some .slash
  | '%' => some .percent
  | _ => none

/-! ## Pieces -/

def Kind.ofNumeral (n : Numeral) : Except LexicalError Kind :=
  if n.isFloat then .ok (.float n.value.toFloat)
  else
    let value := Decimal.natOfDigits n.wholeDigits
    if value < Nat.pow 2 63 then .ok (.int value) else .error (.integerOutOfRange n.text)

namespace Piece

/-- A numeric literal; a word may not follow it directly. -/
def number (s : List Char) : Except LexicalError Piece :=
  let n := (Numeral.split s).1
  let rest := (Numeral.split s).2
  match rest.head?.filter Text.inWord with
  | some c => .error (.invalidNumeral (n.text.push c))
  | none => (Kind.ofNumeral n).map fun kind => ⟨n.lexeme, some kind, rest⟩

def string (s : List Char) : Except LexicalError Piece :=
  (Quoted.next s).map fun q => ⟨'"' :: q.lexeme, some (.string (String.ofList q.content)), q.rest⟩

def word (s : List Char) : Piece :=
  let name := s.takeWhile Text.inWord
  ⟨name, some (.ofWord (String.ofList name)), s.dropWhile Text.inWord⟩

/-- A symbol, of two characters if it can be. -/
def symbol (c : Char) (s : List Char) : Except LexicalError Piece :=
  match s with
  | d :: rest =>
    match twoCharSymbol? c d with
    | some k => .ok ⟨[c, d], some (.symbol k), rest⟩
    | none =>
      match oneCharSymbol? c with
      | some k => .ok ⟨[c], some (.symbol k), s⟩
      | none => .error (.unexpectedCharacter c)
  | [] =>
    match oneCharSymbol? c with
    | some k => .ok ⟨[c], some (.symbol k), []⟩
    | none => .error (.unexpectedCharacter c)

def lineComment (s : List Char) : Piece :=
  ⟨'/' :: '/' :: s.takeWhile (· != '\n'), none, s.dropWhile (· != '\n')⟩

def blockComment (s : List Char) : Except LexicalError Piece :=
  match splitComment s with
  | some (front, rest) => .ok ⟨'/' :: '*' :: front, none, rest⟩
  | none => .error .unterminatedComment

/-- A piece that is neither blank nor comment. -/
def token (c : Char) (s : List Char) : Except LexicalError Piece :=
  if c.isDigit then number (c :: s)
  else if c == '"' then string s
  else if Text.opensWord c then .ok (word (c :: s))
  else symbol c s

/-- The first piece of a text that begins with the character `c`. -/
def next (c : Char) (s : List Char) : Except LexicalError Piece :=
  if Text.isBlank c then .ok ⟨[c], none, s⟩
  else match c, s with
    | '/', '/' :: rest => .ok (lineComment rest)
    | '/', '*' :: rest => blockComment rest
    | c, s => token c s

end Piece

def Piece.Begins (p : Piece) (s : List Char) : Prop :=
  p.lexeme ++ p.rest = s ∧ p.lexeme ≠ []

theorem Piece.number_begins {c : Char} {s : List Char} {p : Piece} (hc : c.isDigit = true)
    (h : number (c :: s) = .ok p) : p.Begins (c :: s) := by
  unfold number at h
  dsimp only at h
  split at h
  · cases h
  · obtain ⟨kind, _, rfl⟩ := map_eq_ok h
    refine ⟨Numeral.split_append _, ?_⟩
    simp [Numeral.lexeme, Numeral.split, splitDigits, hc]

theorem Piece.string_begins {s : List Char} {p : Piece} (h : string s = .ok p) :
    p.Begins ('"' :: s) := by
  obtain ⟨q, hq, rfl⟩ := map_eq_ok h
  exact ⟨by simp [Quoted.next_append hq], by simp⟩

theorem Piece.word_begins {c : Char} {s : List Char} (hc : Text.opensWord c = true) :
    (word (c :: s)).Begins (c :: s) :=
  ⟨List.takeWhile_append_dropWhile, by simp [word, Text.inWord_of_opensWord hc]⟩

theorem Piece.symbol_begins {c : Char} {s : List Char} {p : Piece} (h : symbol c s = .ok p) :
    p.Begins (c :: s) := by
  unfold symbol at h
  split at h <;> split at h <;> (try split at h) <;> cases h <;> exact ⟨rfl, by simp⟩

theorem Piece.token_begins {c : Char} {s : List Char} {p : Piece} (h : token c s = .ok p) :
    p.Begins (c :: s) := by
  unfold token at h
  split at h
  · exact number_begins ‹_› h
  · split at h
    · next hq => exact eq_of_beq hq ▸ string_begins h
    · split at h
      · cases h
        exact word_begins ‹_›
      · exact symbol_begins h

theorem Piece.next_begins {c : Char} {s : List Char} {p : Piece} (h : next c s = .ok p) :
    p.Begins (c :: s) := by
  unfold next at h
  split at h
  · cases h
    exact ⟨rfl, by simp⟩
  · split at h
    · cases h
      exact ⟨by simp [lineComment, List.takeWhile_append_dropWhile], by simp [lineComment]⟩
    · unfold blockComment at h
      split at h
      · cases h
        exact ⟨by simp [splitComment_append ‹_›], by simp⟩
      · cases h
    · exact token_begins h

theorem Piece.Begins.length_lt {p : Piece} {s : List Char} (h : p.Begins s) :
    p.rest.length < s.length := by
  have := List.length_pos_iff.2 h.2
  have := congrArg List.length h.1
  simp at this
  omega

/-! ## The whole text -/

/-- The tokens of a text, and the position behind its last character. -/
structure Stream where
  tokens : List Token
  finish : Position

/-- A lexical error and where the piece at fault begins. -/
structure LexicalFault where
  error : LexicalError
  position : Position
deriving Repr, DecidableEq

/-- Cuts the text `s`, which begins at `p`, behind the tokens found so far, the last one first. -/
def Stream.extend (found : List Token) (p : Position) (s : List Char) :
    Except LexicalFault Stream :=
  match s with
  | [] => .ok ⟨found.reverse, p⟩
  | c :: rest =>
    match _ : Piece.next c rest with
    | .error e => .error ⟨e, p⟩
    | .ok piece =>
      let found := match piece.kind with
        | some kind => ⟨kind, p⟩ :: found
        | none => found
      extend found (p.after piece.lexeme) piece.rest
termination_by s.length
decreasing_by exact (Piece.next_begins (by assumption)).length_lt

def Stream.ofText (text : String) : Except LexicalFault Stream :=
  extend [] .start text.toList

/-- The tokens with the end of input as the last one. -/
def Stream.closed (s : Stream) : List Token :=
  s.tokens ++ [⟨.finish, s.finish⟩]

end SceneScript.Token
