import FacetSearch.Proofs.Expression.Lexeme
import FacetSearch.Proofs.Text.Offsets

/-!
Where tokens stand in a text. A token is taken the same way whatever follows it is cut off
(`Token.exists_lexeme`), so the text before a token falls apart into the tokens before it
(`Token.Splits.exists_front`), and the offset of a token is the length of that text. No token begins
where a quote is not closed or an operator is not complete (`Token.broken_of_take`).
-/

set_option autoImplicit false

namespace FacetSearch

namespace Text.Quoted

/-- What may stand between quotes: a quote or a backslash only behind a backslash. -/
inductive Within (quote : Char) : List Char → Prop
  | nil : Within quote []
  | plain {c : Char} {rest : List Char} (unlike : c ≠ quote ∧ c ≠ '\\')
      (onward : Within quote rest) :
    Within quote (c :: rest)
  | escaped (c : Char) {rest : List Char} (onward : Within quote rest) :
      Within quote ('\\' :: c :: rest)

/-- What stands between quotes, and what it stands for: a backslash takes the character behind it as
it is. -/
inductive Resolves (quote : Char) : (inner contents : List Char) → Prop
  | nil : Resolves quote [] []
  | plain {c : Char} {inner contents : List Char} (unlike : c ≠ quote ∧ c ≠ '\\')
    (onward : Resolves quote inner contents) : Resolves quote (c :: inner) (c :: contents)
  | escaped (c : Char) {inner contents : List Char} (onward : Resolves quote inner contents) :
    Resolves quote ('\\' :: c :: inner) (c :: contents)

theorem read_of_resolves {quote : Char} (sign : quote ≠ '\\') {inner contents : List Char}
    (resolves : Resolves quote inner contents) (after : List Char) :
    read quote (inner ++ quote :: after) = some (contents, after) := by
  induction resolves with
  | nil => simp [read]
  | plain unlike _ ih => simp [read, unlike.1, unlike.2, ih]
  | escaped c _ ih => simp [read, ih]

theorem exists_resolves_of_read {quote : Char} {text contents after : List Char}
    (success : read quote text = some (contents, after)) :
    ∃ inner, Resolves quote inner contents ∧ text = inner ++ quote :: after := by
  fun_induction read quote text generalizing contents after with
  | case1 => cases success
  | case2 => cases success
  | case3 c rest ih =>
      obtain ⟨⟨found, tail⟩, again, same⟩ := Option.map_eq_some_iff.mp success
      cases same
      obtain ⟨inner, resolves, rfl⟩ := ih again
      exact ⟨'\\' :: c :: inner, .escaped c resolves, rfl⟩
  | case4 rest =>
      cases success
      exact ⟨[], .nil, rfl⟩
  | case5 c rest backslash unlike ih =>
      obtain ⟨⟨found, tail⟩, again, same⟩ := Option.map_eq_some_iff.mp success
      cases same
      obtain ⟨inner, resolves, rfl⟩ := ih again
      exact ⟨c :: inner, .plain ⟨unlike, fun sign => backslash sign⟩ resolves, rfl⟩

theorem Resolves.within {quote : Char} {inner contents : List Char}
    (resolves : Resolves quote inner contents) : Within quote inner := by
  induction resolves with
  | nil => exact .nil
  | plain unlike _ ih => exact .plain unlike ih
  | escaped c _ ih => exact .escaped c ih

theorem Within.exists_resolves {quote : Char} {inner : List Char} (within : Within quote inner) :
    ∃ contents, Resolves quote inner contents := by
  induction within with
  | nil => exact ⟨[], .nil⟩
  | @plain c _ unlike _ ih =>
      obtain ⟨contents, resolves⟩ := ih
      exact ⟨c :: contents, .plain unlike resolves⟩
  | escaped c _ ih =>
      obtain ⟨contents, resolves⟩ := ih
      exact ⟨c :: contents, .escaped c resolves⟩

/-- What stands between quotes is read up to the closing one, whatever follows. -/
theorem read_of_within {quote : Char}
    (sign : quote ≠ '\\') {inner : List Char} (within : Within quote inner) :
    ∃ contents, ∀ after, read quote (inner ++ quote :: after) = some (contents, after) := by
  obtain ⟨contents, resolves⟩ := within.exists_resolves
  exact ⟨contents, read_of_resolves sign resolves⟩

theorem exists_within_of_read {quote : Char} {text contents after : List Char}
    (success : read quote text = some (contents, after)) :
    ∃ inner, Within quote inner ∧ text = inner ++ quote :: after := by
  obtain ⟨inner, resolves, split⟩ := exists_resolves_of_read success
  exact ⟨inner, resolves.within, split⟩

end Text.Quoted

namespace Token

open Text.Quoted (Within)

/-- No token begins like this: nothing closes the quote, or no operator goes on from the sign. -/
inductive Broken : List Char → Prop
  | quote {quote : Char} {rest : List Char} (opens : quote = '"' ∨ quote = '\'')
      (unclosed : ∀ inner after, Within quote inner → rest ≠ inner ++ quote :: after) :
      Broken (quote :: rest)
  | exclamation {rest : List Char} (unfinished : ∀ after, rest ≠ '=' :: after) :
      Broken ('!' :: rest)
  | equals {rest : List Char}
      (unfinished : ∀ letters after, (∀ c ∈ letters, c.isAlpha = true) →
      rest ≠ letters ++ '=' :: after) : Broken ('=' :: rest)

theorem eq_of_isReserved {c : Char} (reserved : isReserved c = true) :
    c ∈ ['"', '\'', '(', ')', ';', ',', '=', '!', '<', '>'] := by
  simpa [isReserved] using reserved

theorem broken_of_takeOperator {first : Char} {rest : List Char} {flaw : Flaw}
    (sign : first = '=' ∨ first = '!' ∨ first = '<' ∨ first = '>')
    (failed : takeOperator first rest = .error flaw) : Broken (first :: rest) := by
  unfold takeOperator at failed
  split at failed
  · split at failed <;> cases failed
  · rename_i angle
    split at failed
    · rename_i exclamation
      split at failed
      · cases failed
      · rename_i unfinished
        rw [exclamation]
        exact .exclamation fun after same => unfinished after same
    · rename_i exclamation
      have equals : first = '=' := by
        rcases sign with equals | other | less | greater
        · exact equals
        · exact absurd other exclamation
        · exact absurd (.inl less) angle
        · exact absurd (.inr greater) angle
      dsimp only at failed
      split at failed
      · cases failed
      · rename_i unfinished
        rw [equals]
        apply Broken.equals
        intro letters after alphabetic same
        apply unfinished after
        have ends : ∀ c more, '=' :: after = c :: more → c.isAlpha = false := by
          intro c more same
          rw [← (List.cons.inj same).1]
          rfl
        rw [same, dropWhile_append_eq alphabetic ends]

/-- Where no token can be taken, a quote is not closed or an operator is not complete. -/
theorem broken_of_take {first : Char} {rest : List Char} {flaw : Flaw}
    (failed : take first rest = .error flaw) : Broken (first :: rest) := by
  unfold take at failed
  split at failed
  · cases failed
  split at failed
  · cases failed
  split at failed
  · cases failed
  split at failed
  · cases failed
  rename_i opening closing semicolon comma
  split at failed
  · rename_i opens
    have sign : first ≠ '\\' := by
      rcases opens with rfl | rfl <;> decide
    split at failed
    · cases failed
    · rename_i unread
      apply Broken.quote opens
      intro inner after within same
      obtain ⟨contents, reads⟩ := Text.Quoted.read_of_within sign within
      rw [same, reads after] at unread
      cases unread
  · rename_i quotes
    split at failed
    · rename_i reserved
      refine broken_of_takeOperator ?_ failed
      have among := eq_of_isReserved reserved
      simp only [List.mem_cons, List.not_mem_nil, or_false] at among
      grind
    · cases failed

/-- An operator is taken the same way if what follows it is cut off. -/
theorem exists_operatorLexeme {first : Char} {rest after : List Char} {token : Token}
    (taken : takeOperator first rest = .ok (token, after)) :
    ∃ lexeme, rest = lexeme ++ after ∧
      ∀ front, front <+: after → takeOperator first (lexeme ++ front) = .ok (token, front) := by
  unfold takeOperator at taken
  split at taken
  · rename_i angle
    split at taken
    · cases taken
      refine ⟨['='], rfl, fun front _ => ?_⟩
      simp [takeOperator, angle]
    · rename_i unlike
      cases taken
      refine ⟨[], rfl, fun front begins => ?_⟩
      cases front with
      | nil => simp [takeOperator, angle]
      | cons c more =>
          obtain ⟨others, rfl⟩ := begins
          have different : c ≠ '=' := fun same => unlike (more ++ others) (by rw [same]; rfl)
          simp [takeOperator, angle, different]
  · rename_i angle
    split at taken
    · rename_i exclamation
      split at taken
      · cases taken
        refine ⟨['='], rfl, fun front _ => ?_⟩
        simp [takeOperator, exclamation]
      · cases taken
    · rename_i exclamation
      dsimp only at taken
      split at taken
      · rename_i tail found
        cases taken
        refine ⟨rest.takeWhile Char.isAlpha ++ ['='], ?_, fun front _ => ?_⟩
        · rw [List.append_assoc, List.singleton_append, ← found, List.takeWhile_append_dropWhile]
        · have alphabetic : ∀ c ∈ rest.takeWhile Char.isAlpha, c.isAlpha = true :=
            List.all_eq_true.mp List.all_takeWhile
          have ends : ∀ c more, '=' :: front = c :: more → c.isAlpha = false := by
            intro c more same
            rw [← (List.cons.inj same).1]
            rfl
          rw [List.append_assoc, List.singleton_append]
          simp [takeOperator, angle, exclamation, takeWhile_append_eq alphabetic ends,
            dropWhile_append_eq alphabetic ends]
      · cases taken

/-- A token is taken the same way if what follows it is cut off. -/
theorem exists_lexeme {first : Char} {rest after : List Char} {token : Token}
    (taken : take first rest = .ok (token, after)) :
    ∃ lexeme, rest = lexeme ++ after ∧
      ∀ front, front <+: after → take first (lexeme ++ front) = .ok (token, front) := by
  unfold take at taken
  split at taken
  · rename_i opening
    cases taken
    exact ⟨[], rfl, fun front _ => by rw [opening]; rfl⟩
  split at taken
  · rename_i closing
    cases taken
    exact ⟨[], rfl, fun front _ => by rw [closing]; rfl⟩
  split at taken
  · rename_i semicolon
    cases taken
    exact ⟨[], rfl, fun front _ => by rw [semicolon]; rfl⟩
  split at taken
  · rename_i comma
    cases taken
    exact ⟨[], rfl, fun front _ => by rw [comma]; rfl⟩
  rename_i opening closing semicolon comma
  split at taken
  · rename_i opens
    have sign : first ≠ '\\' := by
      rcases opens with rfl | rfl <;> decide
    split at taken
    · rename_i contents tail found
      cases taken
      obtain ⟨inner, within, rfl⟩ := Text.Quoted.exists_within_of_read found
      obtain ⟨others, reads⟩ := Text.Quoted.read_of_within sign within
      have same : contents = others := by
        rw [reads after] at found
        exact (Prod.mk.inj (Option.some.inj found)).1.symm
      refine ⟨inner ++ [first], by rw [List.append_assoc, List.singleton_append],
        fun front _ => ?_⟩
      rw [List.append_assoc, List.singleton_append, same]
      simp only [take, opening, closing, semicolon, comma, opens, reads front, if_true, if_false]
    · cases taken
  · rename_i quotes
    split at taken
    · rename_i reserved
      obtain ⟨lexeme, split, again⟩ := exists_operatorLexeme taken
      refine ⟨lexeme, split, fun front begins => ?_⟩
      simp only [take, opening, closing, semicolon, comma, quotes, reserved, if_true, if_false,
        again front begins]
    · rename_i plain
      cases taken
      refine ⟨rest.takeWhile isWordChar, List.takeWhile_append_dropWhile.symm,
        fun front begins => ?_⟩
      have kept : ∀ c ∈ rest.takeWhile isWordChar, isWordChar c = true :=
        List.all_eq_true.mp List.all_takeWhile
      have ends : Delimited front := by
        intro c more same
        obtain ⟨others, whole⟩ := begins
        have stopped := List.head?_dropWhile_not isWordChar rest
        rw [← whole, same] at stopped
        exact stopped
      simp only [take, opening, closing, semicolon, comma, quotes, plain, if_false,
        takeWhile_append_eq kept ends, dropWhile_append_eq kept ends]
      rfl

/-- A text falls apart into tokens up to a place. -/
inductive Splits : (text : List Char) → (tokens : List Token) → (back : List Char) → Prop
  | here (text : List Char) : Splits text [] text
  | blank {c : Char} {rest back : List Char} {tokens : List Token} (blank : Text.isBlank c = true)
      (onward : Splits rest tokens back) : Splits (c :: rest) tokens back
  | token {first : Char} {rest after back : List Char} {token : Token} {tokens : List Token}
      (visible : Text.isBlank first = false) (taken : take first rest = .ok (token, after))
      (onward : Splits after tokens back) : Splits (first :: rest) (token :: tokens) back

theorem Scans.blank {c : Char} {rest : List Char} {tokens : List Token}
    (blank : Text.isBlank c = true) (onward : Scans rest tokens) : Scans (c :: rest) tokens := by
  intro position
  rw [scan, if_pos blank]
  exact onward _

/-- The text up to the place has these tokens, and no others. -/
theorem Splits.exists_front {text back : List Char} {tokens : List Token}
    (splits : Splits text tokens back) :
    ∃ front, text = front ++ back ∧ Scans front tokens := by
  induction splits with
  | here text => exact ⟨[], rfl, scans_nil⟩
  | @blank c rest back tokens blank _ ih =>
      obtain ⟨front, rfl, scans⟩ := ih
      exact ⟨c :: front, rfl, scans.blank blank⟩
  | @token first rest after back token tokens visible taken _ ih =>
      obtain ⟨front, rfl, scans⟩ := ih
      obtain ⟨lexeme, rfl, again⟩ := exists_lexeme taken
      refine ⟨first :: (lexeme ++ front), by simp, ?_⟩
      exact Scans.cons visible (again front (List.prefix_append front back)) scans

theorem byteLength_after_le {first : Char} {rest after : List Char} {token : Token}
    (taken : take first rest = .ok (token, after)) :
    Text.byteLength after ≤ Text.byteLength (first :: rest) := by
  obtain ⟨lexeme, rfl, -⟩ := exists_lexeme taken
  simp only [Text.byteLength_cons, Text.byteLength_append]
  omega

/-- A text whose first token is taken has the tokens behind it, too. -/
theorem exists_tail_of_scan {position place : Nat} {after : List Char} {token : Token}
    {located : List Located}
    (scanned : (scan position after).map (⟨token, place⟩ :: ·) = .ok located) :
    ∃ tail, scan position after = .ok tail ∧ located = ⟨token, place⟩ :: tail := by
  cases result : scan position after with
  | error failure =>
      rw [result] at scanned
      cases scanned
  | ok tail =>
      rw [result] at scanned
      exact ⟨tail, rfl, (Except.ok.inj scanned).symm⟩

/-- Tokens that have been found in a text are those of the text. -/
theorem scans_of_scan {position : Nat} {text : List Char} {located : List Located}
    (scanned : scan position text = .ok located) : Scans text (located.map Located.token) := by
  fun_induction scan position text generalizing located with
  | case1 =>
      cases scanned
      exact scans_nil
  | case2 position first rest blank ih => exact (ih scanned).blank blank
  | case3 => cases scanned
  | case4 position first rest visible token after taken length =>
      rename_i ih
      obtain ⟨tail, later, rfl⟩ := exists_tail_of_scan scanned
      exact Scans.cons (Bool.not_eq_true _ ▸ visible) taken (ih later)

/-- Before the place of a token the text falls apart into the tokens before it. -/
theorem splits_of_scan {position : Nat} {text : List Char} {before after : List Located}
    {found : Located} (scanned : scan position text = .ok (before ++ found :: after)) :
    ∃ first rest, Splits text (before.map Located.token) (first :: rest) ∧
      Text.isBlank first = false ∧
      Scans (first :: rest) (found.token :: after.map Located.token) ∧
      found.position + Text.byteLength (first :: rest) = position + Text.byteLength text := by
  generalize whole : before ++ found :: after = located at scanned
  fun_induction scan position text generalizing located before with
  | case1 =>
      cases scanned
      simp at whole
  | case2 position first rest blank ih =>
      obtain ⟨head, back, splits, visible, scans, place⟩ := ih located whole scanned
      refine ⟨head, back, splits.blank blank, visible, scans, ?_⟩
      rw [place, Text.byteLength_cons]
      omega
  | case3 => cases scanned
  | case4 position first rest visible token after taken length =>
      rename_i ih
      have seen : Text.isBlank first = false := Bool.not_eq_true _ ▸ visible
      obtain ⟨tail, later, rfl⟩ := exists_tail_of_scan scanned
      cases before with
      | nil =>
          obtain ⟨rfl, rfl⟩ := List.cons.inj whole
          exact ⟨first, rest, .here _, seen, Scans.cons seen taken (scans_of_scan later), rfl⟩
      | cons earlier others =>
          obtain ⟨rfl, same⟩ := List.cons.inj whole
          obtain ⟨head, back, splits, found, scans, place⟩ := ih tail same later
          refine ⟨head, back, .token seen taken splits, found, scans, ?_⟩
          have shorter := byteLength_after_le taken
          rw [place]
          omega

/-- Before the place of a flaw the text falls apart into tokens. -/
theorem splits_of_scan_error {position place : Nat} {text : List Char} {flaw : Flaw}
    (scanned : scan position text = .error (flaw, place)) :
    ∃ tokens first rest, Splits text tokens (first :: rest) ∧ take first rest = .error flaw ∧
      place + Text.byteLength (first :: rest) = position + Text.byteLength text := by
  fun_induction scan position text with
  | case1 => cases scanned
  | case2 position first rest blank ih =>
      obtain ⟨tokens, head, back, splits, failed, same⟩ := ih scanned
      refine ⟨tokens, head, back, splits.blank blank, failed, ?_⟩
      rw [same, Text.byteLength_cons]
      omega
  | case3 position first rest visible other failed =>
      cases scanned
      exact ⟨[], first, rest, .here _, failed, rfl⟩
  | case4 position first rest visible token after taken length ih =>
      have later : scan (position + length) after = .error (flaw, place) := by
        generalize result : scan (position + length) after = scanning at scanned
        cases scanning with
        | error failure => exact scanned
        | ok tail => cases scanned
      obtain ⟨tokens, head, back, splits, failed, same⟩ := ih later
      refine ⟨token :: tokens, head, back, .token (Bool.not_eq_true _ ▸ visible) taken splits,
        failed, ?_⟩
      have shorter := byteLength_after_le taken
      rw [same]
      omega

end Token

end FacetSearch
