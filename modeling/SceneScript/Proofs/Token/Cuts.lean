import SceneScript.Proofs.Token.Lexemes
import SceneScript.Proofs.Token.Streams
import Mathlib.Data.List.DropRight

/-!
# A text cut into gaps and lexemes

Reading a text cuts it into gaps and lexemes that make up the text again, each lexeme the longest
one where it stands and each token at the place where its lexeme begins (`Stream.ofText_cuts`).
Where no further piece can be cut off, the text behind is stuck for the reason that the error gives.
-/

namespace SceneScript

/-- Where the text behind `before` begins: one line for each line break, one column for each
character since the last one. -/
def Position.place (before : List Char) : Position :=
  ⟨1 + before.count '\n', 1 + (before.rtakeWhile (· != '\n')).length⟩

theorem Position.next_place (before : List Char) (c : Char) :
    (place before).next c = place (before ++ [c]) := by
  unfold next place
  rw [List.count_append, List.rtakeWhile_concat]
  by_cases line : c = '\n'
  · subst line
    rfl
  · simp [line, Nat.add_assoc]

theorem Position.after_place (before s : List Char) :
    (place before).after s = place (before ++ s) := by
  induction s generalizing before with
  | nil => rw [after_nil, List.append_nil]
  | cons c rest ih => rw [after_cons, next_place, ih, List.append_assoc, List.singleton_append]

theorem Position.start_after (s : List Char) : start.after s = place s :=
  after_place [] s

namespace Token

variable {c : Char} {s before after gap rest lexeme : List Char} {kind : Kind}

/-! ## Comments -/

theorem splitComment_content {front : List Char} (found : splitComment s = some (front, rest)) :
    ∃ content, front = content ++ ['*', '/'] ∧ ¬['*', '/'] <:+: content := by
  fun_induction splitComment s generalizing front rest with
  | case1 => cases found
  | case2 =>
    cases found
    exact ⟨[], rfl, by simp⟩
  | case3 c s notEnd ih =>
    obtain ⟨⟨inner, behind⟩, closed, is⟩ := Option.map_eq_some_iff.1 found
    cases is
    obtain ⟨content, rfl, never⟩ := ih closed
    refine ⟨c :: content, rfl, fun among => ?_⟩
    rcases List.infix_cons_iff.1 among with begins | later
    · obtain ⟨more, is⟩ := begins
      cases is
      rw [← splitComment_append closed] at notEnd
      exact notEnd _ rfl rfl
    · exact never later

theorem splitComment_none (open' : splitComment s = none) : ¬['*', '/'] <:+: s := by
  fun_induction splitComment s with
  | case1 => simp
  | case2 => cases open'
  | case3 c s notEnd ih =>
    intro among
    rcases List.infix_cons_iff.1 among with begins | later
    · obtain ⟨more, is⟩ := begins
      cases is
      exact notEnd _ rfl rfl
    · exact ih (Option.map_eq_none_iff.1 open') later

theorem lineEnds_dropWhile (s : List Char) : LineEnds (s.dropWhile (· != '\n')) := by
  cases ends : s.dropWhile (· != '\n') with
  | nil => exact .inl rfl
  | cons c rest =>
    have stops := List.head_dropWhile_not (p := (· != '\n')) (l := s) (by simp [ends])
    simp only [ends, List.head_cons, bne_eq_false_iff_eq] at stops
    exact .inr ⟨rest, by rw [stops]⟩

def CommentOpens (s : List Char) : Prop :=
  ['/', '/'] <+: s ∨ ['/', '*'] <+: s

namespace Piece

theorem next_blank (blank : Text.isBlank c = true) (s : List Char) :
    next c s = .ok ⟨[c], none, s⟩ := by
  unfold next
  exact if_pos blank

theorem next_begin (c : Char) (s : List Char) :
    (Text.isBlank c = true) ∨
      (∃ rest, c :: s = '/' :: '/' :: rest) ∨
      (∃ rest, c :: s = '/' :: '*' :: rest) ∨
      (Text.isBlank c = false ∧ ¬CommentOpens (c :: s) ∧ next c s = token c s) := by
  by_cases blank : Text.isBlank c = true
  · exact .inl blank
  · by_cases line : ['/', '/'] <+: c :: s
    · exact .inr (.inl (line.imp fun _ is => is.symm))
    · by_cases block : ['/', '*'] <+: c :: s
      · exact .inr (.inr (.inl (block.imp fun _ is => is.symm)))
      · refine .inr (.inr (.inr ⟨Bool.not_eq_true _ ▸ blank, not_or.2 ⟨line, block⟩, ?_⟩))
        refine next_of_not_comment blank (fun rest slash is => line ?_) fun rest slash is => block ?_
        · exact ⟨rest, by rw [slash, is]; rfl⟩
        · exact ⟨rest, by rw [slash, is]; rfl⟩

theorem next_gap {p : Piece} (found : next c s = .ok p) (noToken : p.kind = none)
    (behind : p.rest = gap ++ rest) (more : Gap gap rest) : Gap (p.lexeme ++ gap) rest := by
  rcases next_begin c s with blank | ⟨t, is⟩ | ⟨t, is⟩ | ⟨-, -, is⟩
  · rw [next_blank blank] at found
    cases found
    exact .blank blank more
  · cases is
    cases found
    refine .line ?_ ?_ more
    · exact fun mem => absurd (List.all_eq_true.1 List.all_takeWhile _ mem) (by decide)
    · rw [← behind]
      exact lineEnds_dropWhile t
  · cases is
    change blockComment t = _ at found
    unfold blockComment at found
    split at found
    · next front behind' closed =>
      cases found
      obtain ⟨content, rfl, never⟩ := splitComment_content closed
      simpa using Gap.block never more
    · cases found
  · rw [is] at found
    obtain ⟨kind, isToken, -⟩ := token_spells found
    rw [noToken] at isToken
    cases isToken

theorem next_token {p : Piece} (found : next c s = .ok p) (isToken : p.kind = some kind) :
    Text.isBlank c = false ∧ ¬CommentOpens (c :: s) ∧ token c s = .ok p := by
  rcases next_begin c s with blank | ⟨t, is⟩ | ⟨t, is⟩ | ⟨notBlank, noComment, is⟩
  · rw [next_blank blank] at found
    cases found
    cases isToken
  · cases is
    cases found
    cases isToken
  · cases is
    change blockComment t = _ at found
    unfold blockComment at found
    split at found <;> cases found
    cases isToken
  · exact ⟨notBlank, noComment, is ▸ found⟩

theorem next_stuck {e : LexicalError} (failed : next c s = .error e) : Stuck e (c :: s) := by
  rcases next_begin c s with blank | ⟨t, is⟩ | ⟨t, is⟩ | ⟨notBlank, -, is⟩
  · rw [next_blank blank] at failed
    cases failed
  · cases is
    cases failed
  · cases is
    change blockComment t = _ at failed
    unfold blockComment at failed
    split at failed
    · cases failed
    · next open' =>
      cases failed
      exact .comment (splitComment_none open')
  · exact token_stuck notBlank (is ▸ failed)

end Piece

/-! ## Cuts -/

/-- A gap, the lexeme behind it and the token that the lexeme is read as. -/
structure Cut where
  gap : List Char
  lexeme : List Char
  token : Token

/-- A cut in its text: what is before it is not read any more, and what is after it is not needed to
tell the token. -/
structure Cut.Stands (cut : Cut) (before after : List Char) : Prop where
  gap : Gap cut.gap (cut.lexeme ++ after)
  noBlank : ∀ c ∈ cut.lexeme.head?, Text.isBlank c = false
  noComment : ¬CommentOpens (cut.lexeme ++ after)
  nonempty : cut.lexeme ≠ []
  spells : ∀ kind, Spells cut.lexeme kind ↔ kind = cut.token.kind
  longest : ∀ lexeme kind, Spells lexeme kind → lexeme <+: cut.lexeme ++ after →
    lexeme <+: cut.lexeme
  position : cut.token.position = .place (before ++ cut.gap)

def Cut.text : List Cut → List Char
  | [] => []
  | cut :: more => cut.gap ++ cut.lexeme ++ text more

theorem Cut.text_append (cuts more : List Cut) : text (cuts ++ more) = text cuts ++ text more := by
  induction cuts with
  | nil => rfl
  | cons cut cuts ih => simp [text, ih]

/-- The text `s` behind `before` falls into cuts, a last gap and a rest that is not cut. -/
inductive Splits : List Char → List Char → List Cut → List Char → List Char → Prop
  | done {before gap rest : List Char} : Gap gap rest → Splits before (gap ++ rest) [] gap rest
  | cut {before s gap rest : List Char} {cut : Cut} {cuts : List Cut} : cut.Stands before s →
      Splits (before ++ cut.gap ++ cut.lexeme) s cuts gap rest →
      Splits before (cut.gap ++ cut.lexeme ++ s) (cut :: cuts) gap rest

namespace Splits

variable {cuts : List Cut} {tail : List Char}

theorem whole (splits : Splits before s cuts gap tail) : s = Cut.text cuts ++ (gap ++ tail) := by
  induction splits with
  | done => rfl
  | cut _ _ ih => rw [Cut.text, List.append_assoc, List.append_assoc, List.append_assoc, ← ih]

theorem last (splits : Splits before s cuts gap tail) : Gap gap tail := by
  induction splits with
  | done last => exact last
  | cut _ _ ih => exact ih

theorem stands (splits : Splits before s cuts gap tail) {front back : List Cut} {cut : Cut}
    (is : cuts = front ++ cut :: back) :
    cut.Stands (before ++ Cut.text front) (Cut.text back ++ (gap ++ tail)) := by
  induction splits generalizing front with
  | done => simp at is
  | cut first more ih =>
    cases front with
    | nil =>
      cases is
      rw [Cut.text, List.append_nil, ← more.whole]
      exact first
    | cons _ front =>
      obtain ⟨rfl, rfl⟩ := List.cons.inj is
      simpa [Cut.text] using ih rfl

theorem gap_first {p : Piece} (found : Piece.next c s = .ok p) (noToken : p.kind = none)
    (splits : Splits (before ++ p.lexeme) p.rest cuts gap tail) :
    ∃ cuts' gap', Splits before (p.lexeme ++ p.rest) cuts' gap' tail ∧
      cuts'.map Cut.token = cuts.map Cut.token := by
  generalize behind : p.rest = s' at splits
  cases splits with
  | done last =>
    have wider := Piece.next_gap found noToken behind last
    refine ⟨[], p.lexeme ++ gap, ?_, rfl⟩
    rw [← List.append_assoc]
    exact .done wider
  | @cut _ s' _ _ cut cuts stands more =>
    -- The gap of the first cut grows by what was skipped.
    let first : Cut := { cut with gap := p.lexeme ++ cut.gap }
    have stands' : first.Stands before s' := {
      gap := Piece.next_gap found noToken (behind.trans (List.append_assoc _ _ _)) stands.gap
      noBlank := stands.noBlank
      noComment := stands.noComment
      nonempty := stands.nonempty
      spells := stands.spells
      longest := stands.longest
      position := by rw [stands.position, List.append_assoc] }
    refine ⟨first :: cuts, gap, ?_, rfl⟩
    have joined : p.lexeme ++ (cut.gap ++ cut.lexeme ++ s') = first.gap ++ first.lexeme ++ s' := by
      simp [first]
    rw [joined]
    refine .cut stands' ?_
    simpa [first] using more

theorem token_first {p : Piece} (found : Piece.next c s = .ok p) (isToken : p.kind = some kind)
    (splits : Splits (before ++ p.lexeme) p.rest cuts gap tail) :
    Splits before (p.lexeme ++ p.rest) (⟨[], p.lexeme, kind, .place before⟩ :: cuts) gap tail := by
  obtain ⟨notBlank, noComment, found⟩ := Piece.next_token found isToken
  obtain ⟨whole, nonempty⟩ := Piece.token_begins found
  obtain ⟨kind', is, spells⟩ := Piece.token_spells found
  cases isToken.symm.trans is
  have stands : Cut.Stands ⟨[], p.lexeme, kind, .place before⟩ before p.rest := {
    gap := .nil
    noBlank := by
      obtain ⟨d, more, is⟩ := List.exists_cons_of_ne_nil nonempty
      rw [is, List.cons_append] at whole
      rw [is]
      simp [(List.cons.inj whole).1, notBlank]
    noComment := whole ▸ noComment
    nonempty := nonempty
    spells := fun kind' => ⟨fun other => spells.unique other, fun same => same ▸ spells⟩
    longest := fun lexeme kind' other front => other.front (whole ▸ front) found
    position := by rw [List.append_nil] }
  exact .cut stands (by simpa using splits)

end Splits

/-- How reading ends: with the given tokens if the whole text is cut, else with the error that says
why the rest is stuck, in the place where it begins. -/
def Stream.Ends (tokens : List Token) (whole tail : List Char) :
    Except LexicalFault Stream → Prop
  | .ok stream => tail = [] ∧ stream = ⟨tokens, .place whole⟩
  | .error fault => ∃ front, whole = front ++ tail ∧ fault.position = .place front ∧
      Stuck fault.error tail

theorem Stream.extend_cuts (found : List Token) (p : Position) (s : List Char)
    (before : List Char) (here : p = .place before) :
    ∃ cuts gap tail, Splits before s cuts gap tail ∧
      Ends (found.reverse ++ cuts.map Cut.token) (before ++ s) tail (extend found p s) := by
  induction found, p, s using Stream.induction generalizing before with
  | nil found p =>
    refine ⟨[], [], [], .done .nil, ?_⟩
    rw [extend_nil, here]
    exact ⟨rfl, by simp⟩
  | error found p c s e failed =>
    refine ⟨[], [], c :: s, .done .nil, ?_⟩
    rw [extend_error failed]
    exact ⟨before, rfl, here, Piece.next_stuck failed⟩
  | ok found p c s piece next ih =>
    have whole := (Piece.next_begins next).1
    have there : p.after piece.lexeme = .place (before ++ piece.lexeme) := by
      rw [here, Position.after_place]
    obtain ⟨cuts, gap, tail, splits, ends⟩ := ih _ there
    rw [List.append_assoc, whole] at ends
    rw [extend_ok next]
    cases isKind : piece.kind with
    | none =>
      obtain ⟨cuts', gap', splits', same⟩ := splits.gap_first next isKind
      refine ⟨cuts', gap', tail, whole ▸ splits', ?_⟩
      simpa [add, isKind, same] using ends
    | some kind =>
      refine ⟨_, gap, tail, whole ▸ splits.token_first next isKind, ?_⟩
      simpa [add, isKind, here] using ends

theorem Stream.ofText_cuts (text : String) :
    ∃ cuts gap tail, Splits [] text.toList cuts gap tail ∧
      Ends (cuts.map Cut.token) text.toList tail (ofText text) :=
  extend_cuts [] .start text.toList [] rfl

end Token

end SceneScript
