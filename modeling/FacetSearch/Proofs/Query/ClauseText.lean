import FacetSearch.Proofs.Decimal.Numeral
import FacetSearch.Proofs.Expression.Lexeme
import FacetSearch.Proofs.Query.Outline
import FacetSearch.Text.Alphanumeric

/-!
What a reader makes of the text of a clause. Names are letters, digits, hyphens and underscores;
values are quoted or bare, and the words of a search phrase are escaped, so that nothing in them is
taken for structure. Only the arguments of an operator of its own stand unprotected.

`fits_clause` gives the pieces of every clause, and `isPart_clause` its tree.
-/

set_option autoImplicit false

namespace FacetSearch

open Piece

/-- Letters, digits, hyphens and underscores. -/
def IsNameChar (c : Char) : Prop := Text.isAlphanumeric c = true ∨ c = '-' ∨ c = '_'

instance : DecidablePred IsNameChar := fun c =>
  inferInstanceAs (Decidable (Text.isAlphanumeric c = true ∨ c = '-' ∨ c = '_'))

/-- A name of such characters. -/
def IsName (name : String) : Prop := ∀ c ∈ name.toList, IsNameChar c

instance : DecidablePred IsName := fun name =>
  List.decidableBAll IsNameChar name.toList

theorem not_structural_of_isNameChar {c : Char} (formed : IsNameChar c) : c ∉ structural := by
  intro member
  have none : ∀ d ∈ structural, Text.isAlphanumeric d = false ∧ d ≠ '-' ∧ d ≠ '_' :=
    Text.forall_of_all (by decide)
  obtain ⟨symbol, hyphen, underscore⟩ := none c member
  rcases formed with letter | same | same
  · rw [symbol] at letter
    cases letter
  · exact hyphen same
  · exact underscore same

theorem not_structural_of_isDigit {c : Char} (digit : c.isDigit = true) : c ∉ structural := by
  intro member
  have none : ∀ d ∈ structural, d.isDigit = false := Text.forall_of_all (by decide)
  rw [none c member] at digit
  cases digit

theorem not_structural_of_isNumeral {c : Char} (numeral : IsNumeral c) : c ∉ structural := by
  rcases numeral with digit | letter
  · exact not_structural_of_isDigit digit
  · have none : ∀ d ∈ ['-', '.', 'i', 'n', 'f', 'N', 'a'], d ∉ structural :=
      Text.forall_of_all (by decide)
    exact none c letter

theorem isBoost_suffix (field : FieldDescriptor) : Outline.IsBoost field.suffix.toList := by
  unfold FieldDescriptor.suffix
  split
  · rw [String.toList_append]
    exact .inr ⟨_, rfl⟩
  · exact .inl rfl

theorem not_structural_of_mem_suffix (field : FieldDescriptor) :
    ∀ c ∈ field.suffix.toList, c ∉ structural := by
  unfold FieldDescriptor.suffix
  split
  · rename_i boost _
    intro c member
    rw [String.toList_append] at member
    rcases List.mem_append.mp member with member | member
    · have caret : c = '^' := by simpa using member
      rw [caret]
      decide
    · exact not_structural_of_isNumeral (Binary.allNumerals_exactWithPlaces _ boost c member)
  · exact nofun

theorem forms_suffix (field : FieldDescriptor) :
    Forms field.suffix.toList (single field.suffix.toList) :=
  forms_plain (not_structural_of_mem_suffix field)

theorem single_append (front back : List Char) :
    single (front ++ back) = single front ++ single back := List.map_append

namespace Engine

/-- The pieces of a value. -/
def valuePieces (value : String) : List Piece :=
  if isBare value then single value.toList else [.text (quote value).toList]

theorem forms_quote (value : String) : Forms (quote value).toList [.text (quote value).toList] := by
  have within := Text.after_escape value.toList
  rw [quote, Text.Quoted.enclose, String.toList_ofList]
  exact forms_quoted within

theorem forms_quoteValue (value : String) :
    Forms (quoteValue value).toList (valuePieces value) := by
  unfold quoteValue valuePieces
  by_cases bare : isBare value = true
  · rw [if_pos bare, if_pos bare]
    apply forms_plain
    intro c member
    simp only [isBare, Bool.or_eq_true, Bool.and_eq_true, List.all_eq_true, beq_iff_eq] at bare
    rcases bare with ⟨_, digits⟩ | star
    · exact not_structural_of_isDigit (digits c member)
    · rw [star] at member
      have only : c = '*' := by simpa using member
      rw [only]
      decide
  · rw [if_neg bare, if_neg bare]
    exact forms_quote value

/-- The pieces of a word, where a backslash and the character behind it are one. -/
def wordPieces (word : List Char) : List Piece :=
  word.map fun c => if escapedChars.contains c then .text ['\\', c] else .text [c]

/-- Escaping leaves nothing in a word that has a meaning for the reader. -/
theorem forms_escapeWord {word : List Char} (visible : ∀ c ∈ word, Text.isBlank c = false) :
    Forms (escapeWord word) (wordPieces word) := by
  induction word with
  | nil => exact forms_nil
  | cons c rest ih =>
      have tail := ih fun d member => visible d (List.mem_cons_of_mem _ member)
      have head : Forms (if escapedChars.contains c then ['\\', c] else [c])
          [if escapedChars.contains c then .text ['\\', c] else .text [c]] := by
        by_cases special : escapedChars.contains c = true
        · rw [if_pos special, if_pos special]
          exact forms_escaped c
        · rw [if_neg special, if_neg special]
          apply forms_plain
          intro d same
          rw [List.mem_singleton.mp same]
          intro member
          have blankOrSpecial : ∀ e ∈ structural, Text.isBlank e = true ∨
              e ∈ escapedChars :=
            Text.forall_of_all (by decide)
          rcases blankOrSpecial c member with blank | held
          · rw [visible c List.mem_cons_self] at blank
            cases blank
          · exact special (List.contains_iff_mem.mpr held)
      exact head.append tail

theorem jointless_valuePieces (value : String) : Outline.Jointless (valuePieces value) := by
  unfold valuePieces
  split
  · exact Outline.jointless_single _
  · exact fun kind member => nomatch List.mem_singleton.mp member

theorem jointless_wordPieces (word : List Char) : Outline.Jointless (wordPieces word) := by
  intro kind member
  obtain ⟨c, _, same⟩ := List.mem_map.mp member
  split at same <;> cases same

end Engine

theorem forms_name {name : String} (named : IsName name) :
    Forms name.toList (single name.toList) :=
  forms_plain fun c member => not_structural_of_isNameChar (named c member)

theorem forms_sign (negated : Bool) :
    Forms (Clause.sign negated).toList (single (Clause.sign negated).toList) := by
  apply forms_plain
  cases negated
  · exact nofun
  · exact Text.forall_of_all (by decide)

theorem forms_colon : Forms [':'] [.text [':']] := by
  have plain : ∀ c ∈ [':'], c ∉ structural := Text.forall_of_all (by decide)
  exact forms_plain plain

namespace FreeTerm

/-- A term as `ofPhrase` makes it, on a variant with a proper name. -/
def Legible : FreeTerm → Prop
  | word variant letters => IsName variant ∧ ∀ c ∈ letters, Text.isBlank c = false
  | phrase variant contents => IsName variant ∧ QuoteState.after contents ≠ .closed

/-- The name of the variant. -/
def variant : FreeTerm → String
  | word variant _ | phrase variant _ => variant

/-- The pieces of what is said about the variant. -/
def bodyPieces : FreeTerm → List Piece
  | word _ letters => Engine.wordPieces letters
  | phrase _ contents => [.text ('"' :: (Engine.closeEscapes contents ++ ['"']))]

/-- The pieces of a term. -/
def pieces (term : FreeTerm) : List Piece :=
  single term.variant.toList ++ .text [':'] :: term.bodyPieces

theorem forms_term {term : FreeTerm} (legible : term.Legible) :
    Forms term.write.toList term.pieces := by
  cases term with
  | word variant letters =>
      obtain ⟨named, visible⟩ := legible
      have whole := ((forms_name named).append forms_colon).append (Engine.forms_escapeWord visible)
      rw [List.append_assoc (single _)] at whole
      simp only [write, String.toList_append, String.toList_ofList]
      exact whole
  | phrase variant contents =>
      obtain ⟨named, within⟩ := legible
      have run := forms_quoted (Segment.after_closeEscapes within)
      have whole := (forms_name named).append (forms_colon.append run)
      simp only [write, String.toList_append, String.toList_ofList, List.append_assoc]
      exact whole

theorem isPart_term {term : FreeTerm} (legible : term.Legible) :
    Outline.IsPart term.pieces (.leaf term.write.toList) := by
  have lone : Outline.Jointless term.bodyPieces := by
    cases term with
    | word variant letters => exact Engine.jointless_wordPieces letters
    | phrase variant contents => exact fun kind member => nomatch List.mem_singleton.mp member
  have fits : Fits false term.write.toList term.pieces := (forms_term legible).fits
  rw [← fits.charsOf_eq]
  exact Outline.isPart_leaf _ (by decide) lone

end FreeTerm

/-- A word is read as it stands unless a blank on both sides makes it a joint. -/
theorem read?_word {word rest : List Char} (plain : ∀ c ∈ word, c ∉ structural)
    (ends : ∀ c more, rest = c :: more → c ∈ structural)
    (apart : ∀ more, rest = ' ' :: more → word ≠ ['A', 'N', 'D'] ∧ word ≠ ['O', 'R'])
    (level : List Piece) (outer : List (List Piece × Char)) :
    read? level outer (' ' :: (word ++ rest))
      = read? (level ++ single (' ' :: word)) outer rest := by
  let keep : Char → Bool := fun c => !structural.contains c
  have kept : ∀ c ∈ word, keep c = true := by
    intro c member
    simpa [keep] using plain c member
  have ended : rest.takeWhile keep = [] ∧ rest.dropWhile keep = rest := by
    cases rest with
    | nil => exact ⟨rfl, rfl⟩
    | cons c more =>
        have held := ends c more rfl
        have dropped : ¬ keep c = true := by simpa [keep] using held
        exact ⟨List.takeWhile_cons_of_neg dropped, List.dropWhile_cons_of_neg dropped⟩
  have stops : (word ++ rest).takeWhile keep = word ∧ (word ++ rest).dropWhile keep = rest := by
    rw [List.takeWhile_append_of_pos kept, List.dropWhile_append_of_pos kept, ended.1, ended.2,
      List.append_nil]
    exact ⟨rfl, rfl⟩
  have noJoint : ∀ letters more, (∀ c ∈ letters, keep c = true) →
      word ++ rest = letters ++ ' ' :: more → word = letters ∧ rest = ' ' :: more := by
    intro letters more lettersKept same
    rw [same, List.takeWhile_append_of_pos lettersKept, List.dropWhile_append_of_pos lettersKept,
      List.takeWhile_cons_of_neg (by decide), List.dropWhile_cons_of_neg (by decide),
      List.append_nil] at stops
    exact ⟨stops.1.symm, stops.2.symm⟩
  have noAll : ∀ more, word ++ rest ≠ 'A' :: 'N' :: 'D' :: ' ' :: more := by
    intro more same
    obtain ⟨joint, blank⟩ := noJoint ['A', 'N', 'D'] more (Text.forall_of_all (by decide)) same
    exact (apart more blank).1 joint
  have noAny : ∀ more, word ++ rest ≠ 'O' :: 'R' :: ' ' :: more := by
    intro more same
    obtain ⟨joint, blank⟩ := noJoint ['O', 'R'] more (Text.forall_of_all (by decide)) same
    exact (apart more blank).2 joint
  rw [read?_space noAll noAny, forms_plain plain, List.append_assoc]
  rfl

/-- A word behind a blank. Only where a joint follows, it must not be one of the words of joints. -/
theorem fits_lastWord {followed : Bool} {word : List Char}
    (plain : ∀ c ∈ word, c ∉ structural)
    (apart : followed = true → word ≠ ['A', 'N', 'D'] ∧ word ≠ ['O', 'R']) :
    Fits followed (' ' :: word) (single (' ' :: word)) := by
  intro level outer rest ends
  have bounded : ∀ c more, rest = c :: more → c ∈ structural := by
    intro c more same
    rcases ends with rfl | ⟨tail, rfl⟩ | ⟨_, tail, rfl⟩
    · cases same
    · rw [← (List.cons.inj same).1]
      decide
    · rw [← (List.cons.inj same).1]
      decide
  have behind : ∀ more, rest = ' ' :: more → followed = true := by
    intro more blank
    rcases ends with rfl | ⟨tail, rfl⟩ | ⟨yes, _⟩
    · cases blank
    · exact absurd (List.cons.inj blank).1 (by decide)
    · exact yes
  exact read?_word plain bounded (fun more blank => apart (behind more blank)) level outer

theorem mem_intercalate_comma {words : List (List Char)} {c : Char}
    (member : c ∈ [','].intercalate words) : c = ',' ∨ ∃ word ∈ words, c ∈ word := by
  induction words with
  | nil => cases member
  | cons first words ih =>
      cases words with
      | nil =>
          rw [List.intercalate_singleton] at member
          exact .inr ⟨first, List.mem_cons_self, member⟩
      | cons second words =>
          rw [List.intercalate_cons_cons] at member
          rcases List.mem_append.mp member with member | member
          · rcases List.mem_append.mp member with member | member
            · exact .inr ⟨first, List.mem_cons_self, member⟩
            · exact .inl (List.mem_singleton.mp member)
          · rcases ih member with comma | ⟨word, held, inside⟩
            · exact .inl comma
            · exact .inr ⟨word, List.mem_cons_of_mem _ held, inside⟩

namespace Clause

/-- A clause whose names and symbol have no meaning for a reader. -/
def Legible (field : FieldDescriptor) : Clause → Prop
  | value _ _ | oneOf _ => IsName field.name
  | freeText _ terms => terms ≠ [] ∧ ∀ term ∈ terms, term.Legible
  | range _ limit => IsName field.name ∧ IsName limit
  | custom symbol arguments =>
    IsName field.name
      ∧ (∃ letters, symbol.toList = '=' :: letters ∧ ∀ c ∈ letters, c ∉ structural)
      ∧ (∀ argument ∈ arguments, IsName argument)

/-- Whether the text of a clause ends in a word that joins clauses. This word is the only argument
of an operator of its own, and there is no boost behind it. -/
def endsInJoint (field : FieldDescriptor) : Clause → Bool
  | custom _ arguments => field.suffix == "" && (arguments == ["AND"] || arguments == ["OR"])
  | _ => false

/-- The pieces of a range in its brackets. -/
def rangePieces (limit : String) : RangeBound → List Piece
  | .atLeast => [.bracketed '[' (single (limit ++ " TO *").toList)]
  | .above => [.bracketed '\x7b' (single (limit ++ " TO *").toList)]
  | .atMost => [.bracketed '[' (single ("* TO " ++ limit).toList)]
  | .below => [.bracketed '\x7b' (single ("* TO " ++ limit).toList)]

theorem forms_from {limit : String} (named : IsName limit) :
    Forms (limit ++ " TO *").toList (single (limit ++ " TO *").toList) := by
  have plain : ∀ c ∈ limit.toList, c ∉ structural :=
    fun c member => not_structural_of_isNameChar (named c member)
  have star : Forms ['*'] (single ['*']) := forms_plain (Text.forall_of_all (by decide))
  have word : Forms ['T', 'O'] (single ['T', 'O']) := forms_plain (Text.forall_of_all (by decide))
  have tail : Forms (' ' :: 'T' :: 'O' :: ' ' :: '*' :: []) (single " TO *".toList) :=
    Forms.space (by decide) (by decide) (word.append (star.space (by decide) (by decide)))
  rw [String.toList_append, single_append]
  exact (forms_plain plain).append tail

/-- A limit before a closing bracket is never a joint, also where it reads like one. -/
theorem forms_upTo {limit : String} (named : IsName limit) {opening closing : Char}
    (pair : closing? opening = some closing) (bracket : closing ∈ structural)
    (visible : closing ≠ ' ') :
    Forms (opening :: (("* TO " ++ limit).toList ++ [closing]))
      [.bracketed opening (single ("* TO " ++ limit).toList)] := by
  intro level outer rest
  have plain : ∀ c ∈ limit.toList, c ∉ structural :=
    fun c member => not_structural_of_isNameChar (named c member)
  have star : Forms ['*'] (single ['*']) := forms_plain (Text.forall_of_all (by decide))
  have word : Forms ['T', 'O'] (single ['T', 'O']) := forms_plain (Text.forall_of_all (by decide))
  have front : Forms ['*', ' ', 'T', 'O'] (single ['*', ' ', 'T', 'O']) :=
    star.append (word.space (by decide) (by decide))
  have whole : ("* TO " ++ limit).toList = ['*', ' ', 'T', 'O'] ++ ' ' :: limit.toList := by
    rw [String.toList_append]
    rfl
  have bounded : ∀ c more, closing :: rest = c :: more → c ∈ structural := by
    intro c more same
    rw [← (List.cons.inj same).1]
    exact bracket
  have apart : ∀ more, closing :: rest = ' ' :: more →
      limit.toList ≠ ['A', 'N', 'D'] ∧ limit.toList ≠ ['O', 'R'] :=
    fun more same => absurd (List.cons.inj same).1 visible
  rw [whole, List.cons_append, List.append_assoc, List.append_assoc, read?_opening pair, front,
    List.cons_append, List.singleton_append, read?_word plain bounded apart, read?_closing pair,
    single_append]
  rfl

theorem forms_range {limit : String} (named : IsName limit) (bound : RangeBound) :
    Forms (writeRange limit bound).toList (rangePieces limit bound) := by
  have square : closing? '[' = some ']' := rfl
  have curly : closing? '\x7b' = some '\x7d' := rfl
  cases bound with
  | atLeast =>
      have whole := (forms_from named).bracketed square
      rw [rangePieces]
      simpa [writeRange] using whole
  | above =>
      have whole := (forms_from named).bracketed curly
      rw [rangePieces]
      simpa [writeRange] using whole
  | atMost =>
      have whole := forms_upTo named square (by decide) (by decide)
      rw [rangePieces]
      simpa [writeRange] using whole
  | below =>
      have whole := forms_upTo named curly (by decide) (by decide)
      rw [rangePieces]
      simpa [writeRange] using whole

/-- The pieces of a clause on a field. -/
def pieces (field : FieldDescriptor) : Clause → List Piece
  | value negated contents =>
    single ((sign negated).toList ++ field.name.toList) ++
      .text [':'] :: (Engine.valuePieces contents ++ single field.suffix.toList)
  | freeText negated terms =>
    single (sign negated).toList ++
      .bracketed '(' (joined .all (terms.map FreeTerm.pieces)) :: single field.suffix.toList
  | oneOf values =>
    single field.name.toList ++
      .text [':'] :: .bracketed '(' (joined .any (values.map Engine.valuePieces)) ::
        single field.suffix.toList
  | range bound limit =>
    single field.name.toList ++
      .text [':'] :: (rangePieces limit bound ++ single field.suffix.toList)
  | custom symbol arguments =>
    single field.name.toList ++
      .text [' '] :: (single symbol.toList ++
        single (' ' :: ((",".intercalate arguments) ++ field.suffix).toList))

/-- The tree of a clause: the terms of a search phrase, or the clause as it stands. -/
def outline (field : FieldDescriptor) : Clause → Outline
  | freeText negated terms =>
    .mark negated field.suffix.toList (.gather .all (terms.map fun term => .leaf term.write.toList))
  | clause => .leaf (clause.write field).toList

/-- A word without commas and carets that the arguments and a boost spell together is the only
argument, and there is no boost. -/
theorem eq_singleton_of_spelled (field : FieldDescriptor) {arguments : List String} {word : String}
    (named : ∀ argument ∈ arguments, IsName argument) (noComma : ',' ∉ word.toList)
    (noCaret : '^' ∉ word.toList) (inhabited : word ≠ "")
    (same : (",".intercalate arguments ++ field.suffix).toList = word.toList) :
    field.suffix = "" ∧ arguments = [word] := by
  rw [String.toList_append, String.toList_intercalate] at same
  have noSuffix : field.suffix.toList = [] := by
    rcases isBoost_suffix field with empty | ⟨digits, boosted⟩
    · exact empty
    · rw [boosted] at same
      exact absurd (same ▸ List.mem_append_right _ List.mem_cons_self) noCaret
  rw [noSuffix, List.append_nil] at same
  have some : arguments.map String.toList ≠ [] := by
    intro empty
    rw [empty] at same
    exact inhabited (String.toList_eq_nil_iff.mp same.symm)
  have separate : ∀ letters ∈ arguments.map String.toList, ',' ∉ letters := by
    intro letters held comma
    obtain ⟨argument, given, rfl⟩ := List.mem_map.mp held
    rcases named argument given ',' comma with letter | hyphen | underscore
    · exact absurd letter (by decide)
    · exact absurd hyphen (by decide)
    · exact absurd underscore (by decide)
  have cut : (List.intercalate [','] (arguments.map String.toList)).splitOn ',' =
      arguments.map String.toList :=
    List.splitOn_intercalate ',' separate some
  have whole : word.toList.splitOn ',' = [word.toList] := by
    have lone : ∀ letters ∈ [word.toList], ',' ∉ letters := by simpa using noComma
    have back := List.splitOn_intercalate ',' lone (List.cons_ne_nil _ _)
    rwa [List.intercalate_singleton] at back
  have both : arguments.map String.toList = [word].map String.toList :=
    calc arguments.map String.toList
        = (List.intercalate [','] (arguments.map String.toList)).splitOn ',' := cut.symm
      _ = word.toList.splitOn ',' := congrArg (List.splitOn ',') same
      _ = [word].map String.toList := whole
  exact ⟨String.toList_eq_nil_iff.mp noSuffix,
    List.map_injective_iff.mpr (fun _ _ => String.toList_inj.mp) both⟩

theorem fits_customArguments {followed : Bool} {field : FieldDescriptor} {symbol : String}
    {arguments : List String} (named : ∀ argument ∈ arguments, IsName argument)
    (apart : followed = true → (custom symbol arguments).endsInJoint field = false) :
    Fits followed (' ' :: (",".intercalate arguments ++ field.suffix).toList)
      (single (' ' :: (",".intercalate arguments ++ field.suffix).toList)) := by
  have plain : ∀ c ∈ (",".intercalate arguments ++ field.suffix).toList, c ∉ structural := by
    intro c member
    rw [String.toList_append, String.toList_intercalate] at member
    rcases List.mem_append.mp member with member | member
    · rcases mem_intercalate_comma member with rfl | ⟨word, held, inside⟩
      · decide
      · obtain ⟨argument, given, rfl⟩ := List.mem_map.mp held
        exact not_structural_of_isNameChar (named argument given c inside)
    · exact not_structural_of_mem_suffix field c member
  have never : ∀ word ∈ ["AND", "OR"], followed = true →
      (",".intercalate arguments ++ field.suffix).toList ≠ word.toList := by
    intro word joint behind same
    have letters : ∀ word ∈ ["AND", "OR"],
        ',' ∉ word.toList ∧ '^' ∉ word.toList ∧ word ≠ "" := by
      decide
    obtain ⟨noComma, noCaret, inhabited⟩ := letters word joint
    obtain ⟨noBoost, only⟩ := eq_singleton_of_spelled field named noComma noCaret inhabited same
    have ends : (custom symbol arguments).endsInJoint field = true := by
      simpa [endsInJoint, noBoost, only] using joint
    rw [apart behind] at ends
    cases ends
  exact fits_lastWord plain fun behind =>
    ⟨never "AND" (by decide) behind, never "OR" (by decide) behind⟩

theorem fits_clause {followed : Bool} {field : FieldDescriptor} {clause : Clause}
    (legible : clause.Legible field)
    (apart : followed = true → clause.endsInJoint field = false) :
    Fits followed (clause.write field).toList (clause.pieces field) := by
  cases clause with
  | value negated contents =>
      have head := (forms_sign negated).append (forms_name legible)
      have tail := (Engine.forms_quoteValue contents).append (forms_suffix field)
      have whole := head.append (forms_colon.append tail)
      rw [← single_append] at whole
      simp only [write, String.toList_append, List.append_assoc] at whole ⊢
      exact whole.fits
  | freeText negated terms =>
      have inside := forms_enclosed_intercalate .all terms fun term member =>
        FreeTerm.forms_term (legible.2 term member)
      have whole := (forms_sign negated).append (inside.append (forms_suffix field))
      simp only [write, String.toList_append, String.toList_intercalate, List.map_map,
        List.append_assoc, List.cons_append] at whole ⊢
      exact whole.fits
  | oneOf values =>
      have inside := forms_enclosed_intercalate .any values fun value _ =>
        Engine.forms_quoteValue value
      have whole := (forms_name legible).append
        (forms_colon.append (inside.append (forms_suffix field)))
      simp only [write, String.toList_append, String.toList_intercalate, List.map_map,
        List.append_assoc, List.cons_append] at whole ⊢
      exact whole.fits
  | range bound limit =>
      have whole := (forms_name legible.1).append
        (forms_colon.append ((forms_range legible.2 bound).append (forms_suffix field)))
      simp only [write, String.toList_append, List.append_assoc] at whole ⊢
      exact whole.fits
  | custom symbol arguments =>
      obtain ⟨named, ⟨letters, spelled, plain⟩, given⟩ := legible
      have word : Forms ('=' :: letters) (single ('=' :: letters)) := by
        apply forms_plain
        intro c member
        rcases List.mem_cons.mp member with rfl | member
        · decide
        · exact plain c member
      have middle := word.space (by decide) (by decide)
      have last := fits_customArguments given apart
      have whole := (forms_name named).append_fits (middle.append_fits last)
      rw [pieces, spelled]
      simp only [write, String.toList_append, List.append_assoc, spelled] at whole ⊢
      exact whole

/-- A clause is one part of its level, and its tree is what it says. -/
theorem isPart_clause {field : FieldDescriptor} {clause : Clause}
    (legible : clause.Legible field) :
    Outline.IsPart (clause.pieces field) (clause.outline field) := by
  have alone : Fits false (clause.write field).toList (clause.pieces field) :=
    fits_clause legible nofun
  have asWritten := alone.charsOf_eq
  have suffix := Outline.jointless_single field.suffix.toList
  have bracket : ∀ opening inside, Outline.Jointless [.bracketed opening inside] :=
    fun opening inside kind member => nomatch List.mem_singleton.mp member
  cases clause with
  | value negated contents =>
      show Outline.IsPart _ (.leaf (write field _).toList)
      rw [← asWritten]
      exact Outline.isPart_leaf _ (by decide)
        ((Engine.jointless_valuePieces contents).append suffix)
  | freeText negated terms =>
      have tree := Outline.ofPieces?_joined .all legible.1 fun term member =>
        FreeTerm.isPart_term (legible.2 term member)
      exact Outline.isPart_enclosed tree negated (isBoost_suffix field)
  | oneOf values =>
      show Outline.IsPart _ (.leaf (write field _).toList)
      rw [← asWritten]
      exact Outline.isPart_leaf _ (by decide) ((bracket _ _).append suffix)
  | range bound limit =>
      have limits : Outline.Jointless (rangePieces limit bound) := by
        cases bound <;> exact bracket _ _
      show Outline.IsPart _ (.leaf (write field _).toList)
      rw [← asWritten]
      exact Outline.isPart_leaf _ (by decide) (limits.append suffix)
  | custom symbol arguments =>
      show Outline.IsPart _ (.leaf (write field _).toList)
      rw [← asWritten]
      exact Outline.isPart_leaf _ (by decide)
        ((Outline.jointless_single _).append (Outline.jointless_single _))

end Clause

end FacetSearch
