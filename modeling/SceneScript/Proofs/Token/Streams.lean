import SceneScript.Proofs.Token.Seam

/-!
# Token streams of texts put together

The tokens of a text that goes on behind a line break are the tokens of its first part followed by
those of its second part, the latter as many lines further down as the first part has line breaks
(`Stream.extend_seam`). An error in the first part is an error of the whole text, in the same
place (`Stream.extend_error_seam`). Every token, and every error, stands where some front of the text
ends (`Stream.extend_positions`).
-/

namespace SceneScript

/-! ## Lines further down -/

namespace Position

def down (lines : Nat) (p : Position) : Position :=
  ⟨p.line + lines, p.column⟩

theorem next_down (lines : Nat) (p : Position) (c : Char) :
    (p.down lines).next c = (p.next c).down lines := by
  unfold next down
  split
  · rw [Nat.add_right_comm]
  · rfl

theorem after_down (lines : Nat) (p : Position) (s : List Char) :
    (p.down lines).after s = (p.after s).down lines := by
  induction s generalizing p with
  | nil => rfl
  | cons c rest ih => rw [after_cons, after_cons, next_down, ih]

theorem line_after (p : Position) (s : List Char) :
    (p.after s).line = p.line + s.count '\n' := by
  induction s generalizing p with
  | nil => rfl
  | cons c rest ih =>
    rw [after_cons, ih, List.count_cons, next]
    split
    · simp only []
      omega
    · rfl

theorem next_newline (p : Position) (h : 0 < p.line) :
    p.next '\n' = (start.next '\n').down (p.line - 1) := by
  simp only [next, down, start, beq_self_eq_true, if_true, Position.mk.injEq, and_true]
  omega

end Position

def Token.down (lines : Nat) (t : Token) : Token :=
  { t with position := t.position.down lines }

namespace Token

def Stream.down (lines : Nat) (s : Stream) : Stream :=
  ⟨s.tokens.map (Token.down lines), s.finish.down lines⟩

def Stream.behind (found : List Token) (s : Stream) : Stream :=
  ⟨found.reverse ++ s.tokens, s.finish⟩

def LexicalFault.down (lines : Nat) (f : LexicalFault) : LexicalFault :=
  { f with position := f.position.down lines }

namespace Stream

variable {found : List Token} {p : Position} {s t : List Char}

theorem extend_nil (found : List Token) (p : Position) :
    extend found p [] = .ok ⟨found.reverse, p⟩ := by
  unfold extend
  rfl

theorem extend_error {c : Char} {e : LexicalError} (failed : Piece.next c s = .error e) :
    extend found p (c :: s) = .error ⟨e, p⟩ := by
  unfold extend
  split
  · next e' failed' =>
    rw [failed] at failed'
    cases failed'
    rfl
  · next found' =>
    rw [failed] at found'
    cases found'

def add (found : List Token) (p : Position) (piece : Piece) : List Token :=
  match piece.kind with
  | some kind => ⟨kind, p⟩ :: found
  | none => found

theorem extend_ok {c : Char} {piece : Piece} (next : Piece.next c s = .ok piece) :
    extend found p (c :: s) = extend (add found p piece) (p.after piece.lexeme) piece.rest := by
  conv_lhs => unfold extend
  split
  · next e' failed =>
    rw [next] at failed
    cases failed
  · next piece' next' =>
    rw [next] at next'
    cases next'
    rfl

theorem induction {motive : List Token → Position → List Char → Prop}
    (nil : ∀ found p, motive found p [])
    (error : ∀ found p c s e, Piece.next c s = .error e → motive found p (c :: s))
    (ok : ∀ found p c s piece, Piece.next c s = .ok piece →
      motive (add found p piece) (p.after piece.lexeme) piece.rest → motive found p (c :: s))
    (found : List Token) (p : Position) (s : List Char) : motive found p s := by
  match s with
  | [] => exact nil found p
  | c :: s =>
    match h : Piece.next c s with
    | .error e => exact error found p c s e h
    | .ok piece => exact ok found p c s piece h (induction nil error ok _ _ _)
termination_by s.length
decreasing_by exact (Piece.next_begins h).length_lt

/-! ## Texts behind a line break -/

theorem add_append (piece : Piece) (t : List Char) :
    add found p (piece.append t) = add found p piece :=
  rfl

theorem extend_newline (found : List Token) (p : Position) (t : List Char) :
    extend found p ('\n' :: t) = extend found (p.next '\n') t := by
  have blank : Piece.next '\n' t = .ok ⟨['\n'], none, t⟩ := rfl
  exact extend_ok blank

theorem extend_seam {stream : Stream} (t : List Char) (ends : extend found p s = .ok stream) :
    extend found p (s ++ '\n' :: t) = extend stream.tokens.reverse stream.finish ('\n' :: t) := by
  induction found, p, s using Stream.induction with
  | nil found p =>
    rw [extend_nil] at ends
    cases ends
    rw [List.nil_append, List.reverse_reverse]
  | error found p c s e failed =>
    rw [extend_error failed] at ends
    cases ends
  | ok found p c s piece next ih =>
    rw [extend_ok next] at ends
    rw [List.cons_append, extend_ok (Piece.next_seam t next), add_append]
    exact ih ends

theorem SeamError.append {e e' : LexicalError} (front : List Char) (seam : SeamError s e e') :
    SeamError (front ++ s) e e' := by
  induction front with
  | nil => exact seam
  | cons c front ih => exact ih.cons c

theorem extend_error_seam {f : LexicalFault} (notClosed : splitComment t = none)
    (failed : extend found p s = .error f) :
    ∃ e, extend found p (s ++ '\n' :: t) = .error ⟨e, f.position⟩ ∧ SeamError s f.error e := by
  induction found, p, s using Stream.induction with
  | nil found p =>
    rw [extend_nil] at failed
    cases failed
  | error found p c s e failed' =>
    rw [extend_error failed'] at failed
    cases failed
    obtain ⟨e', failed', seam⟩ := Piece.next_error_seam notClosed failed'
    exact ⟨e', by rw [List.cons_append, extend_error failed'], seam.cons c⟩
  | ok found p c s piece next ih =>
    rw [extend_ok next] at failed
    obtain ⟨e, failed', seam⟩ := ih failed
    refine ⟨e, ?_, ?_⟩
    · rw [List.cons_append, extend_ok (Piece.next_seam t next), add_append]
      exact failed'
    · rw [← (Piece.next_begins next).1]
      exact SeamError.append _ seam

/-! ## Tokens found before, and lines further down -/

theorem add_behind (before : List Token) (piece : Piece) :
    add (found ++ before) p piece = add found p piece ++ before := by
  unfold add
  split <;> rfl

theorem extend_append (before found : List Token) (p : Position) (s : List Char) :
    extend (found ++ before) p s = (extend found p s).map (behind before) := by
  induction found, p, s using Stream.induction with
  | nil found p => simp [extend_nil, Except.map, behind]
  | error found p c s e failed =>
    rw [extend_error failed, extend_error failed]
    rfl
  | ok found p c s piece next ih =>
    rw [extend_ok next, extend_ok next, add_behind, ih]

theorem extend_behind (found : List Token) (p : Position) (s : List Char) :
    extend found p s = (extend [] p s).map (behind found) :=
  extend_append found [] p s

def downAll (lines : Nat) : Except LexicalFault Stream → Except LexicalFault Stream
  | .ok stream => .ok (stream.down lines)
  | .error f => .error (f.down lines)

theorem add_down (lines : Nat) (piece : Piece) :
    add (found.map (Token.down lines)) (p.down lines) piece =
      (add found p piece).map (Token.down lines) := by
  unfold add
  split <;> rfl

theorem extend_down (lines : Nat) (found : List Token) (p : Position) (s : List Char) :
    extend (found.map (Token.down lines)) (p.down lines) s = downAll lines (extend found p s) := by
  induction found, p, s using Stream.induction with
  | nil found p => simp [extend_nil, downAll, down]
  | error found p c s e failed =>
    rw [extend_error failed, extend_error failed]
    rfl
  | ok found p c s piece next ih =>
    rw [extend_ok next, extend_ok next, Position.after_down, add_down, ih]

/-! ## Where tokens stand -/

/-- A position where some front of a text ends. The text goes on there. -/
def StandsIn (p : Position) (s : List Char) (q : Position) : Prop :=
  ∃ front back, s = front ++ back ∧ back ≠ [] ∧ q = p.after front

theorem StandsIn.start (p : Position) (c : Char) (s : List Char) : StandsIn p (c :: s) p :=
  ⟨[], c :: s, rfl, List.cons_ne_nil _ _, rfl⟩

theorem StandsIn.behind {front : List Char} {q : Position} (stands : StandsIn (p.after front) s q) :
    StandsIn p (front ++ s) q := by
  obtain ⟨more, back, rfl, nonempty, rfl⟩ := stands
  exact ⟨front ++ more, back, (List.append_assoc _ _ _).symm, nonempty,
    (Position.after_append _ _ _).symm⟩

theorem StandsIn.line {q : Position} (stands : StandsIn p s q) :
    p.line ≤ q.line ∧ q.line ≤ p.line + s.count '\n' := by
  obtain ⟨front, back, rfl, -, rfl⟩ := stands
  rw [Position.line_after, List.count_append]
  omega

theorem extend_finish {stream : Stream} (ends : extend found p s = .ok stream) :
    stream.finish = p.after s := by
  induction found, p, s using Stream.induction with
  | nil found p =>
    rw [extend_nil] at ends
    cases ends
    rfl
  | error found p c s e failed =>
    rw [extend_error failed] at ends
    cases ends
  | ok found p c s piece next ih =>
    rw [extend_ok next] at ends
    rw [ih ends, ← Position.after_append, (Piece.next_begins next).1]

theorem extend_stands {stream : Stream} (ends : extend found p s = .ok stream) :
    ∀ t ∈ stream.tokens, t ∈ found ∨ StandsIn p s t.position := by
  induction found, p, s using Stream.induction with
  | nil found p =>
    rw [extend_nil] at ends
    cases ends
    exact fun t mem => .inl (List.mem_reverse.1 mem)
  | error found p c s e failed =>
    rw [extend_error failed] at ends
    cases ends
  | ok found p c s piece next ih =>
    rw [extend_ok next] at ends
    intro t mem
    rcases ih ends t mem with before | stands
    · unfold add at before
      split at before
      · rcases List.mem_cons.1 before with rfl | before
        · exact .inr (.start p c s)
        · exact .inl before
      · exact .inl before
    · rw [← (Piece.next_begins next).1]
      exact .inr stands.behind

theorem extend_real {stream : Stream} (real : ∀ t ∈ found, t.kind ≠ .finish)
    (ends : extend found p s = .ok stream) : ∀ t ∈ stream.tokens, t.kind ≠ .finish := by
  induction found, p, s using Stream.induction with
  | nil found p =>
    rw [extend_nil] at ends
    cases ends
    exact fun t mem => real t (List.mem_reverse.1 mem)
  | error found p c s e failed =>
    rw [extend_error failed] at ends
    cases ends
  | ok found p c s piece next ih =>
    rw [extend_ok next] at ends
    refine ih (fun t mem => ?_) ends
    have kind := Piece.next_kind next
    unfold add at mem
    split at mem
    · next k is =>
      rcases List.mem_cons.1 mem with rfl | mem
      · exact fun isFinish => kind (is.trans (congrArg some isFinish))
      · exact real t mem
    · exact real t mem

theorem down_real {stream : Stream} (lines : Nat) (real : ∀ t ∈ stream.tokens, t.kind ≠ .finish) :
    ∀ t ∈ (stream.down lines).tokens, t.kind ≠ .finish := by
  intro t mem
  obtain ⟨before, among, rfl⟩ := List.mem_map.1 mem
  exact real before among

theorem extend_error_stands {f : LexicalFault} (failed : extend found p s = .error f) :
    StandsIn p s f.position := by
  induction found, p, s using Stream.induction with
  | nil found p =>
    rw [extend_nil] at failed
    cases failed
  | error found p c s e failed' =>
    rw [extend_error failed'] at failed
    cases failed
    exact .start p c s
  | ok found p c s piece next ih =>
    rw [extend_ok next] at failed
    rw [← (Piece.next_begins next).1]
    exact (ih failed).behind

end Stream

end Token

end SceneScript

/-!
## Texts written as tokens

Some texts are read as tokens of known kinds wherever they stand and whatever follows them
(`Reads`). Such texts are put together from words, symbols, blanks and comments, each with the text
behind it.
-/

namespace SceneScript.Token

variable {c d : Char} {front text : List Char} {kind : Kind} {kinds : List Kind}

def Reads (text : List Char) (kinds : List Kind) : Prop :=
  ∀ p, ∃ tokens : List Token, tokens.map Token.kind = kinds ∧ ∀ found rest,
    Stream.extend found p (text ++ rest) =
      Stream.extend (tokens.reverse ++ found) (p.after text) rest

namespace Reads

theorem nil : Reads [] [] :=
  fun _ => ⟨[], rfl, fun _ _ => rfl⟩

theorem append {text' : List Char} {kinds' : List Kind} (first : Reads text kinds)
    (second : Reads text' kinds') : Reads (text ++ text') (kinds ++ kinds') := by
  intro p
  obtain ⟨tokens, rfl, reads⟩ := first p
  obtain ⟨tokens', rfl, reads'⟩ := second (p.after text)
  refine ⟨tokens ++ tokens', List.map_append, fun found rest => ?_⟩
  rw [List.append_assoc, reads, reads', Position.after_append, List.reverse_append,
    List.append_assoc]

theorem token (front : List Char)
    (is : ∀ u, Piece.next c (front ++ text ++ u) = .ok ⟨c :: front, some kind, text ++ u⟩)
    (behind : Reads text kinds) : Reads (c :: (front ++ text)) (kind :: kinds) := by
  intro p
  obtain ⟨tokens, rfl, reads⟩ := behind (p.after (c :: front))
  refine ⟨⟨kind, p⟩ :: tokens, rfl, fun found rest => ?_⟩
  rw [List.cons_append, Stream.extend_ok (is rest), reads, ← List.cons_append, Position.after_append]
  simp [Stream.add]

theorem gap (front : List Char)
    (is : ∀ u, Piece.next c (front ++ text ++ u) = .ok ⟨c :: front, none, text ++ u⟩)
    (behind : Reads text kinds) : Reads (c :: (front ++ text)) kinds := by
  intro p
  obtain ⟨tokens, rfl, reads⟩ := behind (p.after (c :: front))
  refine ⟨tokens, rfl, fun found rest => ?_⟩
  rw [List.cons_append, Stream.extend_ok (is rest), reads, ← List.cons_append, Position.after_append]
  simp [Stream.add]

theorem symbol {k : Symbol}
    (is : ∀ u, Piece.next c (text ++ u) = .ok ⟨[c], some (.symbol k), text ++ u⟩)
    (behind : Reads text kinds) : Reads (c :: text) (.symbol k :: kinds) :=
  token [] is behind

theorem blank (isBlank : Text.isBlank c = true) (behind : Reads text kinds) :
    Reads (c :: text) kinds := by
  refine gap [] (fun u => ?_) behind
  unfold Piece.next
  rw [if_pos isBlank]
  rfl

theorem comment {content : List Char} (oneLine : '\n' ∉ content)
    (behind : Reads ('\n' :: text) kinds) :
    Reads ('/' :: '/' :: (content ++ '\n' :: text)) kinds := by
  refine gap ('/' :: content) (fun u => ?_) behind
  have all : ∀ c ∈ content, (c != '\n') = true := fun c mem => by
    simpa using ne_of_mem_of_not_mem mem oneLine
  change Except.ok (Piece.lineComment (content ++ '\n' :: text ++ u)) = _
  unfold Piece.lineComment
  rw [List.append_assoc, List.takeWhile_append_of_pos all, List.dropWhile_append_of_pos all]
  simp

end Reads

def isWord : List Char → Bool
  | [] => false
  | c :: rest => !Text.isBlank c && c != '/' && !c.isDigit && c != '"' && Text.opensWord c &&
      rest.all Text.inWord

theorem next_word {s u : List Char} (word : isWord (c :: s) = true)
    (stops : Text.inWord d = false) :
    Piece.next c (s ++ d :: u) =
      .ok ⟨c :: s, some (.ofWord (String.ofList (c :: s))), d :: u⟩ := by
  simp only [isWord, Bool.and_eq_true, Bool.not_eq_true', bne_iff_ne, ne_eq] at word
  obtain ⟨⟨⟨⟨⟨notBlank, notSlash⟩, notDigit⟩, notQuote⟩, opens⟩, all⟩ := word
  have inWord : ∀ a ∈ c :: s, Text.inWord a = true := by
    simpa [Text.inWord_of_opensWord opens] using all
  have isToken : Piece.next c (s ++ d :: u) = Piece.token c (s ++ d :: u) :=
    Piece.next_of_not_comment (by simp [notBlank]) (fun _ is => absurd is notSlash)
      fun _ is => absurd is notSlash
  rw [isToken, Piece.token, if_neg (by simp [notDigit]), if_neg (by simpa using notQuote),
    if_pos opens, ← List.cons_append]
  unfold Piece.word
  rw [List.takeWhile_append_of_pos inWord, List.dropWhile_append_of_pos inWord]
  simp [stops]

theorem Reads.word {name : String} (word : isWord name.toList = true)
    (stops : Text.inWord d = false) (behind : Reads (d :: text) kinds) :
    Reads (name.toList ++ d :: text) (.ofWord name :: kinds) := by
  cases spelt : name.toList with
  | nil => simp [spelt, isWord] at word
  | cons c s =>
    rw [spelt] at word
    have named : name = String.ofList (c :: s) := by rw [← spelt, String.ofList_toList]
    rw [named]
    refine token s (fun u => ?_) behind
    rw [List.append_assoc]
    exact next_word word stops

end SceneScript.Token
