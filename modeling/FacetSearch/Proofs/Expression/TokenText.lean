import FacetSearch.Proofs.Expression.Places
import FacetSearch.Proofs.Text.Words

/-!
Texts as tokens with blanks around them. Taking a text apart finds exactly the tokens whose lexemes
it is made of, each at the offset where its lexeme starts (`Token.scan_iff_spread`). Only two things
keep a lexeme from ending where it does: a word goes on with every word character, and a lone
comparison sign with an equals sign.
-/

set_option autoImplicit false

namespace FacetSearch

/-- Backslashes before the quotes and backslashes of a text are resolved to the text. -/
theorem Text.Quoted.resolves_flatMap (quote : Char) (text : List Char) :
    Resolves quote (text.flatMap fun c => if c = quote ∨ c = '\\' then ['\\', c] else [c])
      text := by
  induction text with
  | nil => exact .nil
  | cons c rest ih =>
      rw [List.flatMap_cons]
      by_cases special : c = quote ∨ c = '\\'
      · rw [if_pos special]
        exact .escaped c ih
      · rw [if_neg special]
        exact .plain (not_or.mp special) ih

namespace Token

open Text (isBlank allBlank byteLength)

/-- A token as it is written, a value between the given quotes with a backslash before each such
quote and each backslash in it. -/
def lexeme (quote : Char) : Token → List Char
  | word text => text.toList
  | quoted text =>
    quote :: ((text.toList.flatMap fun c => if c = quote ∨ c = '\\' then ['\\', c] else [c])
      ++ [quote])
  | operator symbol => symbol.toList
  | opening => ['(']
  | closing => [')']
  | semicolon => [';']
  | comma => [',']

/-- A text that is a token. A value stands between quotes of one of two kinds, with its escapes. -/
def IsLexeme (token : Token) (text : List Char) : Prop :=
  match token with
  | quoted contents => ∃ quote inner, (quote = '"' ∨ quote = '\'') ∧
      Text.Quoted.Resolves quote inner contents.toList ∧ text = quote :: (inner ++ [quote])
  | other => other.WellFormed ∧ text = other.lexeme '"'

/-- What follows a token is no part of it. -/
def EndsBefore (token : Token) (rest : List Char) : Prop :=
  match token with
  | word _ => Delimited rest
  | operator symbol => symbol = "<" ∨ symbol = ">" → rest.head? ≠ some '='
  | _ => True

/-- A text from an offset on, as tokens at their offsets with blanks around them. -/
inductive Spread : (position : Nat) → (text : List Char) → (located : List Located) → Prop
  | nil {position : Nat} {blanks : List Char} (blank : allBlank blanks = true) :
      Spread position blanks []
  | cons {position : Nat} {blanks text rest : List Char} {first : Located} {located : List Located}
    (blank : allBlank blanks = true) (place : first.position = position + byteLength blanks)
    (is : IsLexeme first.token text) (ends : EndsBefore first.token rest)
    (onward : Spread (first.position + byteLength text) rest located) :
    Spread position (blanks ++ (text ++ rest)) (first :: located)

/-- Tokens that must be kept apart by a blank. -/
def Joins : Token → Token → Prop
  | word _, word _ | operator _, operator _ => True
  | _, _ => False

/-- Tokens as they are written, with blanks around them as one likes. -/
inductive IsWritten : (tokens : List Token) → (text : List Char) → Prop
  | nil {blanks : List Char} (blank : allBlank blanks = true) : IsWritten [] blanks
  | cons {quote : Char} {blanks rest : List Char} {token : Token} {tokens : List Token}
    (blank : allBlank blanks = true) (formed : token.WellFormed) (sign : quote = '"' ∨
      quote = '\'')
    (apart : ∀ next ∈ tokens.head?, token.Joins next → ∃ c ∈ rest.head?, isBlank c = true)
    (onward : IsWritten tokens rest) :
      IsWritten (token :: tokens) (blanks ++ (token.lexeme quote ++ rest))

theorem isLexeme_lexeme {token : Token} {quote : Char} (formed : token.WellFormed)
    (sign : quote = '"' ∨ quote = '\'') : IsLexeme token (token.lexeme quote) := by
  cases token with
  | quoted contents => exact ⟨quote, _, sign, Text.Quoted.resolves_flatMap quote _, rfl⟩
  | _ => exact ⟨formed, rfl⟩

/-- An angle is an operator by itself unless an equals sign follows. -/
theorem take_angle {first : Char} (angle : first = '<' ∨ first = '>') {rest : List Char}
    (alone : rest.head? ≠ some '=') :
    take first rest = .ok (operator (String.ofList [first]), rest) := by
  have reserved : isReserved first = true := by rcases angle with rfl | rfl <;> rfl
  have others : first ≠ '(' ∧ first ≠ ')' ∧ first ≠ ';' ∧ first ≠ ',' ∧
      ¬ (first = '"' ∨ first = '\'') := by
    rcases angle with rfl | rfl <;> decide
  simp only [take, others, reserved, if_true, if_false, takeOperator, angle]
  split
  · rename_i after
    exact absurd rfl alone
  · rfl

theorem take_angleEquals {first : Char} (angle : first = '<' ∨ first = '>') (rest : List Char) :
    take first ('=' :: rest) = .ok (operator (String.ofList [first, '=']), rest) := by
  rcases angle with rfl | rfl <;> rfl

theorem take_operator {symbol : String} (formed : (operator symbol).WellFormed) {rest : List Char}
    (ends : EndsBefore (operator symbol) rest) :
    ∃ first others, symbol.toList = first :: others ∧ isBlank first = false ∧
      take first (others ++ rest) = .ok (operator symbol, rest) := by
  rcases formed with known | ⟨letters, spelled, alphabetic⟩
  · simp only [List.mem_cons, List.not_mem_nil, or_false] at known
    rcases known with rfl | rfl | rfl | rfl | rfl
    · exact ⟨'<', [], rfl, by decide, take_angle (.inl rfl) (ends (.inl rfl))⟩
    · exact ⟨'<', ['='], rfl, by decide, take_angleEquals (.inl rfl) rest⟩
    · exact ⟨'>', [], rfl, by decide, take_angle (.inr rfl) (ends (.inr rfl))⟩
    · exact ⟨'>', ['='], rfl, by decide, take_angleEquals (.inr rfl) rest⟩
    · exact ⟨'!', ['='], rfl, by decide, rfl⟩
  · refine ⟨'=', letters ++ ['='], spelled, by decide, ?_⟩
    have stops : ∀ c more, '=' :: rest = c :: more → c.isAlpha = false := by
      rintro c more equal
      cases equal
      rfl
    have reserved : isReserved '=' = true := by decide
    rw [← String.ofList_toList (s := symbol), spelled, List.append_assoc, List.singleton_append]
    simp [take, reserved, takeOperator, takeWhile_append_eq alphabetic stops,
      dropWhile_append_eq alphabetic stops]

theorem take_of_isLexeme {token : Token} {text rest : List Char} (is : IsLexeme token text)
    (ends : EndsBefore token rest) :
    ∃ first others, text = first :: others ∧ isBlank first = false ∧
      take first (others ++ rest) = .ok (token, rest) := by
  cases token with
  | word text =>
      obtain ⟨⟨named, plain⟩, rfl⟩ := is
      obtain ⟨first, others, spelled⟩ := List.exists_cons_of_ne_nil named
      rw [spelled] at plain
      have kept : ∀ c ∈ others, isWordChar c = true := fun c member =>
        plain c (List.mem_cons_of_mem first member)
      have taken := take_of_isWordChar (plain first List.mem_cons_self) (others ++ rest)
      rw [takeWhile_append_eq kept ends, dropWhile_append_eq kept ends, ← spelled,
        String.ofList_toList] at taken
      exact ⟨first, others, spelled, (isWordChar_iff.mp (plain first List.mem_cons_self)).1,
        taken⟩
  | quoted contents =>
      obtain ⟨quote, inner, sign, resolves, rfl⟩ := is
      have plain : quote ≠ '\\' := by rcases sign with rfl | rfl <;> decide
      have visible : isBlank quote = false := by rcases sign with rfl | rfl <;> decide
      have others : quote ≠ '(' ∧ quote ≠ ')' ∧ quote ≠ ';' ∧ quote ≠ ',' := by
        rcases sign with rfl | rfl <;> decide
      have reads := Text.Quoted.read_of_resolves plain resolves rest
      refine ⟨quote, inner ++ [quote], rfl, visible, ?_⟩
      rw [List.append_assoc, List.singleton_append]
      simp only [take, others, sign, reads, if_true, if_false, String.ofList_toList]
  | operator symbol =>
      obtain ⟨formed, rfl⟩ := is
      exact take_operator formed ends
  | opening => exact ⟨'(', [], is.2, by decide, rfl⟩
  | closing => exact ⟨')', [], is.2, by decide, rfl⟩
  | semicolon => exact ⟨';', [], is.2, by decide, rfl⟩
  | comma => exact ⟨',', [], is.2, by decide, rfl⟩

theorem exists_isLexeme_operator {first : Char} {rest after : List Char} {token : Token}
    (sign : first = '<' ∨ first = '>' ∨ first = '!' ∨ first = '=')
    (taken : takeOperator first rest = .ok (token, after)) :
    ∃ symbol, token = operator symbol ∧ first :: rest = symbol.toList ++ after ∧
      EndsBefore (operator symbol) after := by
  unfold takeOperator at taken
  split at taken
  · rename_i angle
    split at taken
    · cases taken
      refine ⟨_, rfl, by simp, fun lone => ?_⟩
      rcases angle with rfl | rfl <;> exact absurd lone (by decide)
    · rename_i unlike
      cases taken
      refine ⟨_, rfl, by simp, fun _ equals => ?_⟩
      obtain ⟨others, same⟩ := List.head?_eq_some_iff.mp equals
      exact unlike others same
  · rename_i angle
    split at taken
    · rename_i exclamation
      split at taken
      · cases taken
        exact ⟨"!=", rfl, by rw [exclamation]; rfl, fun lone => absurd lone (by decide)⟩
      · cases taken
    · rename_i exclamation
      dsimp only at taken
      split at taken
      · rename_i tail found
        cases taken
        refine ⟨_, rfl, ?_, fun lone => ?_⟩
        · rw [String.toList_ofList, List.cons_append, List.append_assoc,
            List.singleton_append, ← found, List.takeWhile_append_dropWhile]
        · exfalso
          rcases lone with lone | lone
          all_goals
            have letters := congrArg String.toList lone
            rw [String.toList_ofList] at letters
            have length := congrArg List.length letters
            simp at length
      · cases taken

/-- A token that is taken from a text has a lexeme there. -/
theorem exists_isLexeme {first : Char} {rest after : List Char} {token : Token}
    (visible : isBlank first = false) (taken : take first rest = .ok (token, after)) :
    ∃ text, first :: rest = text ++ after ∧ IsLexeme token text ∧ EndsBefore token after := by
  have formed := wellFormed_of_take visible taken
  unfold take at taken
  split at taken
  · rename_i opening
    cases taken
    exact ⟨['('], by rw [opening]; rfl, ⟨trivial, rfl⟩, trivial⟩
  split at taken
  · rename_i closing
    cases taken
    exact ⟨[')'], by rw [closing]; rfl, ⟨trivial, rfl⟩, trivial⟩
  split at taken
  · rename_i semicolon
    cases taken
    exact ⟨[';'], by rw [semicolon]; rfl, ⟨trivial, rfl⟩, trivial⟩
  split at taken
  · rename_i comma
    cases taken
    exact ⟨[','], by rw [comma]; rfl, ⟨trivial, rfl⟩, trivial⟩
  split at taken
  · rename_i sign
    split at taken
    · rename_i contents tail found
      cases taken
      obtain ⟨inner, resolves, rfl⟩ := Text.Quoted.exists_resolves_of_read found
      refine ⟨first :: (inner ++ [first]), by simp, ⟨first, inner, sign, ?_, rfl⟩, trivial⟩
      rwa [String.toList_ofList]
    · cases taken
  · rename_i quotes
    split at taken
    · rename_i reserved
      have sign : first = '<' ∨ first = '>' ∨ first = '!' ∨ first = '=' := by
        have among := eq_of_isReserved reserved
        simp only [List.mem_cons, List.not_mem_nil, or_false] at among
        grind
      obtain ⟨symbol, rfl, whole, ends⟩ := exists_isLexeme_operator sign taken
      exact ⟨_, whole, ⟨formed, rfl⟩, ends⟩
    · cases taken
      refine ⟨first :: rest.takeWhile isWordChar, ?_, ⟨formed, ?_⟩, ?_⟩
      · rw [List.cons_append, List.takeWhile_append_dropWhile]
      · exact (String.toList_ofList).symm
      · intro c more same
        have stopped := List.head?_dropWhile_not isWordChar rest
        rw [same] at stopped
        exact stopped

theorem scan_blanks {blanks : List Char} (blank : allBlank blanks = true) (position : Nat)
    (text : List Char) :
    scan position (blanks ++ text) = scan (position + byteLength blanks) text := by
  induction blanks generalizing position with
  | nil => rfl
  | cons c rest ih =>
      rw [Text.allBlank_cons, Bool.and_eq_true] at blank
      rw [List.cons_append, scan, if_pos blank.1, ih blank.2, Text.byteLength_cons, Nat.add_assoc]

theorem scan_token {first : Char} {rest after : List Char} {token : Token}
    (visible : isBlank first = false) (taken : take first rest = .ok (token, after))
    (position : Nat) : scan position (first :: rest) =
      (scan (position + (byteLength (first :: rest) - byteLength after)) after).map
        (⟨token, position⟩ :: ·) := by
  rw [scan, if_neg (by simp [visible])]
  split
  · rename_i failed
    cases taken.symm.trans failed
  · rename_i found
    cases taken.symm.trans found
    rfl

/-- Behind blanks, a lexeme that ends before the rest is taken at its offset. -/
theorem scan_lexeme {blanks text rest : List Char} {token : Token} (blank : allBlank blanks = true)
    (is : IsLexeme token text) (ends : EndsBefore token rest) (position : Nat) :
    scan position (blanks ++ (text ++ rest)) =
      (scan (position + byteLength blanks + byteLength text) rest).map
        (⟨token, position + byteLength blanks⟩ :: ·) := by
  obtain ⟨c, others, rfl, visible, taken⟩ := take_of_isLexeme is ends
  have size : byteLength (c :: (others ++ rest)) - byteLength rest = byteLength (c :: others) := by
    rw [← List.cons_append, Text.byteLength_append]
    omega
  rw [scan_blanks blank, List.cons_append, scan_token visible taken, size]

theorem scan_of_spread {position : Nat} {text : List Char} {located : List Located}
    (spread : Spread position text located) : scan position text = .ok located := by
  induction spread with
  | @nil position blanks blank =>
      have whole := scan_blanks blank position []
      rw [List.append_nil] at whole
      rw [whole, scan]
  | @cons position blanks text rest first located blank place is ends _ ih =>
      rw [scan_lexeme blank is ends, ← place, ih]
      rfl

theorem Spread.blank {position : Nat} {c : Char} {text : List Char} {located : List Located}
    (blank : isBlank c = true) (spread : Spread (position + c.utf8Size) text located) :
    Spread position (c :: text) located := by
  cases spread with
  | nil blanks => exact .nil (by rw [Text.allBlank_cons, blank, blanks]; rfl)
  | @cons _ front _ _ _ _ blanks place is ends onward =>
      have whole : allBlank (c :: front) = true := by rw [Text.allBlank_cons, blank, blanks]; rfl
      refine @Spread.cons _ (c :: front) _ _ _ _ whole ?_ is ends onward
      rw [place, Text.byteLength_cons, Nat.add_assoc]

theorem spread_of_scan {position : Nat} {text : List Char} {located : List Located}
    (scanned : scan position text = .ok located) : Spread position text located := by
  fun_induction scan position text generalizing located with
  | case1 =>
      cases scanned
      exact .nil rfl
  | case2 position first rest blank ih => exact (ih scanned).blank blank
  | case3 => cases scanned
  | case4 position first rest visible token after taken length =>
      rename_i ih
      obtain ⟨tail, later, rfl⟩ := exists_tail_of_scan scanned
      obtain ⟨text, whole, is, ends⟩ := exists_isLexeme (Bool.not_eq_true _ ▸ visible) taken
      have size : length = byteLength text := by
        dsimp only [length]
        rw [whole, Text.byteLength_append]
        omega
      have onward := ih later
      rw [size] at onward
      rw [whole]
      exact @Spread.cons _ [] _ _ _ _ rfl rfl is ends onward

theorem exists_reserved_of_operator {symbol : String} (formed : (operator symbol).WellFormed) :
    ∃ first others, symbol.toList = first :: others ∧ isReserved first = true := by
  rcases formed with known | ⟨letters, spelled, -⟩
  · simp only [List.mem_cons, List.not_mem_nil, or_false] at known
    rcases known with rfl | rfl | rfl | rfl | rfl <;> exact ⟨_, _, rfl, by decide⟩
  · exact ⟨'=', letters ++ ['='], spelled, by decide⟩

/-- A lexeme that begins as a word does is a word, and one that begins with an equals sign an
operator. -/
theorem IsLexeme.head {token : Token} {text : List Char} (is : IsLexeme token text) :
    ∃ first others, text = first :: others ∧
      (isWordChar first = true → ∃ spelling, token = word spelling) ∧
      (first = '=' → ∃ symbol, token = operator symbol) := by
  cases token with
  | word spelling =>
      obtain ⟨⟨named, plain⟩, rfl⟩ := is
      obtain ⟨first, others, spelled⟩ := List.exists_cons_of_ne_nil named
      refine ⟨first, others, spelled, fun _ => ⟨spelling, rfl⟩, ?_⟩
      rintro rfl
      have wordChar := plain '=' (spelled ▸ List.mem_cons_self)
      exact absurd wordChar (by decide)
  | quoted contents =>
      obtain ⟨quote, inner, sign, -, rfl⟩ := is
      refine ⟨quote, inner ++ [quote], rfl, ?_, ?_⟩
      · rcases sign with rfl | rfl <;> exact fun wordChar => absurd wordChar (by decide)
      · rcases sign with rfl | rfl <;> exact fun equals => absurd equals (by decide)
  | operator symbol =>
      obtain ⟨formed, rfl⟩ := is
      obtain ⟨first, others, spelled, reserved⟩ := exists_reserved_of_operator formed
      refine ⟨first, others, spelled, fun wordChar => ?_, fun _ => ⟨symbol, rfl⟩⟩
      rw [(isWordChar_iff.mp wordChar).2] at reserved
      cases reserved
  | _ =>
      exact ⟨_, [], is.2, fun wordChar => absurd wordChar (by decide),
        fun equals => absurd equals (by decide)⟩

/-- A character that starts a written text and is not blank starts the first token. -/
theorem IsWritten.head {tokens : List Token} {c : Char} {more : List Char}
    (isWritten : IsWritten tokens (c :: more)) (visible : isBlank c = false) :
    ∃ next ∈ tokens.head?, (isWordChar c = true → ∃ spelling, next = word spelling) ∧
      (c = '=' → ∃ symbol, next = operator symbol) := by
  generalize whole : c :: more = text at isWritten
  cases isWritten with
  | nil blank =>
      rw [← whole, Text.allBlank_cons, visible] at blank
      cases blank
  | @cons quote blanks rest next tokens blank formed sign apart onward =>
      obtain ⟨first, others, spelled, starts⟩ := (isLexeme_lexeme formed sign).head
      cases blanks with
      | nil =>
          rw [spelled] at whole
          cases whole
          exact ⟨next, rfl, starts⟩
      | cons front blanks =>
          cases whole
          rw [Text.allBlank_cons, visible] at blank
          cases blank

/-- What is kept apart from the next token ends where its lexeme does. -/
theorem IsWritten.endsBefore {token : Token} {tokens : List Token} {rest : List Char}
    (isWritten : IsWritten tokens rest)
    (apart : ∀ next ∈ tokens.head?, token.Joins next →
      ∃ c ∈ rest.head?, isBlank c = true) :
    EndsBefore token rest := by
  cases token with
  | word spelling =>
      rintro c more rfl
      by_contra wordChar
      rw [Bool.not_eq_false] at wordChar
      obtain ⟨visible, -⟩ := isWordChar_iff.mp wordChar
      obtain ⟨next, member, asWord, -⟩ := isWritten.head visible
      obtain ⟨other, rfl⟩ := asWord wordChar
      obtain ⟨first, starts, blank⟩ := apart _ member trivial
      cases starts
      rw [visible] at blank
      cases blank
  | operator symbol =>
      intro _ equals
      obtain ⟨more, rfl⟩ := List.head?_eq_some_iff.mp equals
      obtain ⟨next, member, -, asOperator⟩ := isWritten.head (by decide)
      obtain ⟨other, rfl⟩ := asOperator rfl
      obtain ⟨first, starts, blank⟩ := apart _ member trivial
      cases starts
      exact absurd blank (by decide)
  | _ => trivial

theorem exists_spread {tokens : List Token} {text : List Char} (isWritten : IsWritten tokens text)
    (position : Nat) : ∃ located, Spread position text located ∧
      located.map Located.token = tokens := by
  induction isWritten generalizing position with
  | nil blank => exact ⟨[], .nil blank, rfl⟩
  | @cons quote blanks rest token tokens blank formed sign apart onward ih =>
      obtain ⟨located, spread, same⟩ :=
        ih (position + byteLength blanks + byteLength (token.lexeme quote))
      refine ⟨⟨token, position + byteLength blanks⟩ :: located, ?_,
        by rw [List.map_cons, same]⟩
      exact .cons blank rfl (isLexeme_lexeme formed sign) (onward.endsBefore apart) spread

/-- All tokens can be written, each behind a blank. -/
theorem exists_tokenize {tokens : List Token} (formed : ∀ token ∈ tokens, token.WellFormed) :
    ∃ input, tokenize input = .ok tokens := by
  have isWritten : IsWritten tokens (tokens.flatMap fun token => ' ' :: token.lexeme '"') := by
    induction tokens with
    | nil => exact .nil rfl
    | cons token rest ih =>
        rw [List.forall_mem_cons] at formed
        refine @IsWritten.cons '"' [' '] _ _ _ (by decide) formed.1 (.inl rfl) ?_ (ih formed.2)
        intro next first _
        obtain ⟨others, rfl⟩ := List.head?_eq_some_iff.mp first
        exact ⟨' ', rfl, by decide⟩
  obtain ⟨located, spread, same⟩ := exists_spread isWritten 0
  refine ⟨String.ofList (tokens.flatMap fun token => ' ' :: token.lexeme '"'), ?_⟩
  rw [tokenize, String.toList_ofList, scan_of_spread spread, ← same]

/-- Taking an input apart is the inverse of writing tokens down: it finds some tokens exactly if the
input is their lexemes, each at its offset, with blanks around them, and it finds the tokens that
were written, however they were. -/
theorem scan_iff_spread (input : String) :
    (∀ located, scan 0 input.toList = .ok located ↔ Spread 0 input.toList located) ∧
      ∀ tokens, IsWritten tokens input.toList → tokenize input = .ok tokens := by
  refine ⟨fun located => ⟨spread_of_scan, scan_of_spread⟩, fun tokens isWritten => ?_⟩
  obtain ⟨located, spread, rfl⟩ := exists_spread isWritten 0
  rw [tokenize, scan_of_spread spread]

/-- Two words kept apart by a blank, an operator, and a value between single quotes with such a
quote in it. -/
theorem scan_iff_spread_apart :
    IsWritten [word "ö", word "b", operator "<=", quoted "'"] "ö b<='\\''".toList ∧
      tokenize "ö b<='\\''" = .ok [word "ö", word "b", operator "<=", quoted "'"] := by
  have spelled : "ö b<='\\''".toList = ['ö', ' ', 'b', '<', '=', '\'', '\\', '\'', '\''] := by
    decide +kernel
  have plain (c : Char) (wordChar : isWordChar c = true) :
      (word (String.ofList [c])).WellFormed := by
    rw [WellFormed, String.toList_ofList]
    exact ⟨List.cons_ne_nil c [], fun other member => List.mem_singleton.mp member ▸ wordChar⟩
  have value : IsWritten [quoted "'"] ['\'', '\\', '\'', '\''] :=
    @IsWritten.cons '\'' [] [] (quoted "'") [] rfl trivial (.inr rfl) nofun (.nil rfl)
  have compared : IsWritten [operator "<=", quoted "'"] ['<', '=', '\'', '\\', '\'', '\''] :=
    @IsWritten.cons '"' [] _ (operator "<=") _ rfl (.inl (by decide)) (.inl rfl)
      (by rintro _ ⟨⟩ joins; exact joins.elim) value
  have second : IsWritten [word "b", operator "<=", quoted "'"]
      [' ', 'b', '<', '=', '\'', '\\', '\'', '\''] :=
    @IsWritten.cons '"' [' '] _ (word "b") _ (by decide) (plain 'b' (by decide)) (.inl rfl)
      (by rintro _ ⟨⟩ joins; exact joins.elim) compared
  have isWritten : IsWritten [word "ö", word "b", operator "<=",
      quoted "'"] "ö b<='\\''".toList := by
    rw [spelled]
    exact @IsWritten.cons '"' [] _ (word "ö") _ rfl (plain 'ö' (by decide)) (.inl rfl)
      (fun _ _ _ => ⟨' ', rfl, by decide⟩) second
  exact ⟨isWritten, (scan_iff_spread _).2 _ isWritten⟩

/-- An operator that is not complete shows no blank. -/
theorem not_isBlank_of_isAlpha {c : Char} (letter : c.isAlpha = true) : Text.isBlank c = false := by
  simp only [Char.isAlpha, Char.isUpper, Char.isLower, Bool.or_eq_true, Bool.and_eq_true,
    decide_eq_true_eq, ge_iff_le, UInt32.le_iff_toNat_le] at letter
  simp only [Text.isBlank, Bool.or_eq_false_iff, Bool.and_eq_false_iff, decide_eq_false_iff_not,
    List.contains_eq_mem, List.mem_cons, List.not_mem_nil, or_false]
  change (65 ≤ c.toNat ∧ c.toNat ≤ 90) ∨ 97 ≤ c.toNat ∧ c.toNat ≤ 122 at letter
  omega

theorem exists_brokenOperator {first : Char} {rest : List Char} {flaw : Flaw}
    (visible : Text.isBlank first = false) (failed : takeOperator first rest = .error flaw) :
    ∃ symbol, flaw = .brokenOperator symbol ∧ ∀ c ∈ symbol.toList,
      Text.isBlank c = false := by
  unfold takeOperator at failed
  split at failed
  · split at failed <;> cases failed
  split at failed
  · split at failed
    · cases failed
    · cases failed
      refine ⟨"!", rfl, fun c member => ?_⟩
      obtain rfl : c = '!' := by simpa using member
      decide
  · dsimp only at failed
    split at failed
    · cases failed
    · cases failed
      refine ⟨_, rfl, fun c member => ?_⟩
      rw [String.toList_ofList] at member
      rcases List.mem_cons.mp member with rfl | letter
      · exact visible
      · exact not_isBlank_of_isAlpha (List.all_eq_true.mp List.all_takeWhile c letter)

theorem take_quote {quote : Char} {rest : List Char} (sign : quote = '"' ∨ quote = '\'')
    (unclosed : ∀ inner after, Text.Quoted.Within quote inner →
      rest ≠ inner ++ quote :: after) :
    take quote rest = .error .unclosedQuote := by
  have others : quote ≠ '(' ∧ quote ≠ ')' ∧ quote ≠ ';' ∧ quote ≠ ',' := by
    rcases sign with rfl | rfl <;> decide
  simp only [take, others, sign, if_true, if_false]
  split
  · rename_i contents after found
    obtain ⟨inner, within, split⟩ := Text.Quoted.exists_within_of_read found
    exact absurd split (unclosed inner after within)
  · rfl

/-- Where no token can be taken, nothing closes a quote, or an operator is not complete. -/
theorem unclosed_or_broken_of_take {first : Char} {rest : List Char} {flaw : Flaw}
    (failed : take first rest = .error flaw) :
    flaw = .unclosedQuote ∧ (first = '"' ∨ first = '\'') ∧
        (∀ inner after, Text.Quoted.Within first inner → rest ≠ inner ++ first :: after) ∨
      ∃ symbol, flaw = .brokenOperator symbol ∧
        ∀ c ∈ symbol.toList, Text.isBlank c = false := by
  cases broken_of_take failed with
  | quote opens unclosed =>
      rw [take_quote opens unclosed] at failed
      cases failed
      exact .inl ⟨rfl, opens, unclosed⟩
  | @exclamation rest =>
      have operator : takeOperator '!' rest = .error flaw := failed
      exact .inr (exists_brokenOperator (by decide) operator)
  | @equals rest =>
      have operator : takeOperator '=' rest = .error flaw := failed
      exact .inr (exists_brokenOperator (by decide) operator)

theorem EndsBefore.append_quote {token : Token} {front : List Char} (ends : EndsBefore token front)
    {quote : Char} (sign : quote = '"' ∨ quote = '\'') (rest : List Char) :
    EndsBefore token (front ++ quote :: rest) := by
  cases front with
  | nil =>
      cases token with
      | word text => exact delimited_cons (by rcases sign with rfl | rfl <;> decide) rest
      | operator symbol => rcases sign with rfl | rfl <;> exact fun _ => by simp
      | _ => trivial
  | cons c others =>
      cases token with
      | word text => exact delimited_cons (ends c others rfl) _
      | operator symbol => exact ends
      | _ => trivial

/-- Behind tokens, a quote that nothing closes breaks the text. -/
theorem scan_append_quote {quote : Char} {front rest : List Char} {position : Nat}
    {located : List Located} (sign : quote = '"' ∨ quote = '\'')
    (unclosed : ∀ inner after, Text.Quoted.Within quote inner →
      rest ≠ inner ++ quote :: after)
    (scanned : scan position front = .ok located) :
    ∃ place, scan position (front ++ quote :: rest) = .error (.unclosedQuote, place) := by
  have visible : isBlank quote = false := by rcases sign with rfl | rfl <;> decide
  induction spread_of_scan scanned with
  | @nil position blanks blank =>
      refine ⟨position + byteLength blanks, ?_⟩
      rw [scan_blanks blank, scan, if_neg (by simp [visible])]
      split
      · rename_i found
        cases (take_quote sign unclosed).symm.trans found
        rfl
      · rename_i found
        cases (take_quote sign unclosed).symm.trans found
  | cons blank place is ends onward ih =>
      obtain ⟨stop, broken⟩ := ih (scan_of_spread onward)
      refine ⟨stop, ?_⟩
      rw [List.append_assoc, List.append_assoc, scan_lexeme blank is (ends.append_quote sign rest),
        ← place, broken]
      rfl

end Token

end FacetSearch
