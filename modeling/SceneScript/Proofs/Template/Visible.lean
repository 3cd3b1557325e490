import SceneScript.Proofs.Template.Lexing
import SceneScript.Proofs.Token.Cuts

/-!
# What is visible in the unit around a snippet

Every token of the unit begins with a character that is not blank, and so does what cannot be read.
Such a character stands in the header, in the snippet or in the trailer: one in the snippet is
mapped back to where it stands there, the others to nothing (`Visible.location`), and so is the end
of the unit.
-/

namespace SceneScript

/-! ## What a text is stuck at -/

namespace Token

theorem not_blank_of_isDigit {c : Char} (digit : c.isDigit = true) : Text.isBlank c = false := by
  have range : 48 ≤ c.toNat ∧ c.toNat ≤ 57 := by
    simpa [Char.isDigit, UInt32.le_iff_toNat_le] using digit
  unfold Text.isBlank
  generalize c.toNat = code at range
  grind

theorem Stuck.visible {e : LexicalError} {s : List Char} (stuck : Stuck e s) :
    ∃ c rest, s = c :: rest ∧ Text.isBlank c = false := by
  have numeral {n : Numeral} (written : n.Written) (behind : List Char) :
      ∃ c rest, n.lexeme ++ behind = c :: rest ∧ Text.isBlank c = false := by
    obtain ⟨c, rest, is, digit⟩ := written.cons
    exact ⟨c, rest ++ behind, by rw [is, List.cons_append], not_blank_of_isDigit digit⟩
  cases stuck with
  | comment => exact ⟨_, _, rfl, rfl⟩
  | string => exact ⟨_, _, rfl, rfl⟩
  | escape => exact ⟨_, _, rfl, rfl⟩
  | numeral longest => exact numeral longest.written _
  | range longest => exact numeral longest.written _
  | character notBlank => exact ⟨_, _, rfl, notBlank⟩

end Token

namespace Template

/-- A position in the fixed text: of a character of the header, or behind the line break that the
trailer begins with. -/
inductive Fixed (snippet : String) : Position → Prop
  | header {front back : List Char} : header.toList = front ++ back → back ≠ [] →
      Fixed snippet (.place front)
  | trailer {front back : List Char} : trailer.toList = front ++ back → front ≠ [] →
      Fixed snippet (.place (header.toList ++ snippet.toList ++ front))

/-- Where something visible stands in the unit around a snippet, with its place in the snippet. -/
inductive Visible (snippet : String) : Position → Option Position → Prop
  | fixed {p : Position} : Fixed snippet p → Visible snippet p none
  | own {front back : List Char} {c : Char} : snippet.toList = front ++ c :: back →
      Text.isBlank c = false →
      Visible snippet (.place (header.toList ++ front)) (some (.place front))

theorem wrap_toList (snippet : String) :
    (wrap snippet).toList = header.toList ++ snippet.toList ++ trailer.toList := by
  rw [wrap, String.toList_append, String.toList_append]

variable {snippet : String} {front back : List Char} {c : Char}

theorem append_at {first second : List Char} (is : first ++ second = front ++ c :: back) :
    (∃ more, first = front ++ c :: more) ∨
      ∃ front', front = first ++ front' ∧ second = front' ++ c :: back := by
  rcases List.append_eq_append_iff.1 is with ⟨front', is', at'⟩ | ⟨more, is', at'⟩
  · exact .inr ⟨front', is', at'⟩
  · cases more with
    | nil => exact .inr ⟨[], by rw [is', List.append_nil, List.append_nil], at'.symm⟩
    | cons d more =>
      cases at'
      exact .inl ⟨more, is'⟩

theorem visible_of_wrap (is : (wrap snippet).toList = front ++ c :: back)
    (notBlank : Text.isBlank c = false) : ∃ l, Visible snippet (.place front) l := by
  rw [wrap_toList] at is
  obtain ⟨more, is⟩ | ⟨front', behind, is⟩ := append_at is
  · obtain ⟨more, is⟩ | ⟨front', behind, is⟩ := append_at is
    · exact ⟨_, .fixed (.header is (List.cons_ne_nil _ _))⟩
    · rw [behind]
      exact ⟨_, .own is notBlank⟩
  · rw [behind]
    refine ⟨_, .fixed (.trailer is ?_)⟩
    -- The trailer begins with a line break, which is blank.
    rintro rfl
    rw [trailer_toList] at is
    obtain ⟨rfl, -⟩ := List.cons.inj is
    cases notBlank

theorem visible_finish (snippet : String) : Visible snippet (.place (wrap snippet).toList) none := by
  rw [wrap_toList]
  exact .fixed (.trailer (List.append_nil _).symm (trailer_toList ▸ List.cons_ne_nil _ _))

theorem Fixed.location {p : Position} (fixed : Fixed snippet p) : location? snippet p = none := by
  cases fixed with
  | @header front back is more =>
    refine locationWithin?_eq_none (.inl (header_line ?_))
    exact ⟨front, back, is, more, (Position.start_after front).symm⟩
  | @trailer front back is begun =>
    obtain ⟨c, front, rfl⟩ := List.exists_cons_of_ne_nil begun
    rw [trailer_toList] at is
    obtain ⟨rfl, -⟩ := List.cons.inj is
    refine locationWithin?_eq_none (.inr ?_)
    rw [firstLine_eq, lineCount, newlines, newlines, Position.place]
    simp only [List.count_append, List.count_cons_self]
    omega

theorem Visible.location {p : Position} {l : Option Position} (visible : Visible snippet p l) :
    location? snippet p = l := by
  cases visible with
  | fixed fixed => exact fixed.location
  | @own front back c is notBlank =>
    rw [← Position.start_after, Position.after_append, after_header, Position.after_down,
      Position.start_after]
    exact location?_of_standsIn
      ⟨front, c :: back, is, List.cons_ne_nil _ _, (Position.start_after front).symm⟩

/-! ## Reading -/

theorem visible_tokens {stream : Token.Stream}
    (reads : Token.Stream.ofText (wrap snippet) = .ok stream) :
    ∀ t ∈ stream.closed, ∃ l, Visible snippet t.position l := by
  obtain ⟨cuts, gap, tail, splits, ends⟩ := Token.Stream.ofText_cuts (wrap snippet)
  rw [reads] at ends
  obtain ⟨-, rfl⟩ := ends
  rw [Token.Stream.closed, List.forall_mem_append, List.forall_mem_singleton, List.forall_mem_map]
  refine ⟨fun cut mem => ?_, none, visible_finish snippet⟩
  obtain ⟨front, back, rfl⟩ := List.append_of_mem mem
  have stands := splits.stands rfl
  obtain ⟨c, rest, is⟩ := List.exists_cons_of_ne_nil stands.nonempty
  have notBlank : Text.isBlank c = false := stands.noBlank c (by simp [is])
  have whole := splits.whole
  rw [Token.Cut.text_append, Token.Cut.text, is] at whole
  rw [stands.position]
  have split : (wrap snippet).toList =
      Token.Cut.text front ++ cut.gap ++ c :: (rest ++ (Token.Cut.text back ++ (gap ++ tail))) := by
    simpa using whole
  exact visible_of_wrap split notBlank

theorem visible_fault {f : Token.LexicalFault}
    (failed : Token.Stream.ofText (wrap snippet) = .error f) :
    ∃ l, Visible snippet f.position l := by
  obtain ⟨cuts, gap, tail, splits, ends⟩ := Token.Stream.ofText_cuts (wrap snippet)
  rw [failed] at ends
  obtain ⟨front, whole, position, stuck⟩ := ends
  obtain ⟨c, back, rfl, notBlank⟩ := stuck.visible
  rw [position]
  exact visible_of_wrap whole notBlank

end Template

end SceneScript
