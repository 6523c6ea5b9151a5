import FacetSearch.Proofs.Expression.Hints

/-!
The mark under a text that is refused. The wording of an error never breaks a line, so the text and
the mark stand in lines of their own (`Grammar.lines_report`). As many blanks stand before the mark
as bytes before the place of the error, and so the mark stands below the place exactly if each
character before it takes one byte (`Grammar.caretFits_iff`).
-/

set_option autoImplicit false

namespace FacetSearch

namespace Text

theorem length_le_byteLength (text : List Char) : text.length ≤ byteLength text := by
  induction text with
  | nil => exact Nat.le_refl 0
  | cons c rest ih =>
      have size := c.utf8Size_pos
      rw [List.length_cons, byteLength_cons]
      omega

/-- A text of ASCII characters, and no other one, has as many bytes as characters. -/
theorem byteLength_eq_length_iff {text : List Char} :
    byteLength text = text.length ↔ ∀ c ∈ text, c.toNat < 128 := by
  induction text with
  | nil => simp
  | cons c rest ih =>
      have size := c.utf8Size_pos
      have longer := length_le_byteLength rest
      have narrow : c.utf8Size = 1 ↔ c.toNat < 128 := by
        rw [Char.utf8Size_eq_one_iff, UInt32.le_iff_toNat_le]
        exact Nat.lt_succ_iff.symm
      rw [byteLength_cons, List.length_cons, List.forall_mem_cons, ← ih, ← narrow]
      omega

theorem notMem_toList_ofList {c : Char} {chars : List Char} (absent : c ∉ chars) :
    c ∉ (String.ofList chars).toList := by
  rwa [String.toList_ofList]

theorem notMem_toList_append {c : Char} {front back : String} (first : c ∉ front.toList)
    (second : c ∉ back.toList) : c ∉ (front ++ back).toList := by
  rw [String.toList_append, List.mem_append, not_or]
  exact ⟨first, second⟩

theorem notMem_toList_between {c : Char} {front text back : String} (first : c ∉ front.toList)
    (inside : c ∉ text.toList) (second : c ∉ back.toList) :
    c ∉ (front ++ text ++ back).toList :=
  notMem_toList_append (notMem_toList_append first inside) second

/-- A literal shows a line break by an escape. -/
theorem newline_notMem_literalChar (c : Char) : '\n' ∉ literalChar c := by
  have other : ∀ d < 16, '\n' ≠ Nat.digitChar d := by decide
  unfold literalChar
  split
  case h_7 unlike _ _ _ =>
    split
    · rw [List.mem_singleton]
      exact fun same => unlike same.symm
    · simp [notMem_toDigits other]
  all_goals decide

theorem newline_notMem_literal (text : String) : '\n' ∉ (literal text).toList := by
  simp [literal, newline_notMem_literalChar]

end Text

theorem Token.newline_notMem_label (token : Token) : '\n' ∉ token.label.toList := by
  cases token with
  | word text | quoted text | operator text => simp [label, Text.newline_notMem_literal]
  | _ => decide

theorem Hint.newline_notMem_text (hint : Hint) : '\n' ∉ hint.text.toList := by
  cases hint <;> exact Text.notMem_toList_ofList (by decide)

namespace QueryError

theorem toList_markLine (query : String) (position : Nat) : (markLine query position).toList =
    "  ".toList ++ (List.replicate (min position (Text.byteLength query.toList)) ' ' ++ ['^']) := by
  rw [markLine, String.toList_append, String.toList_append, List.append_assoc, indentation]
  congr 2
  exact String.toList_ofList

/-- An error that knows its text and its place is shown as its wording, the text, the mark and a
hint. -/
theorem exists_display {error : QueryError} {query : String} {position : Nat}
    (shown : error.query = some query) (located : error.position = some position) :
    ∃ hint, '\n' ∉ hint ∧ error.display.toList = ['\n'].intercalate
      [(syntaxErrorTitle ++ error.message).toList, "  ".toList ++ query.toList,
        (markLine query position).toList, hint] := by
  have newline : "\n".toList = ['\n'] := rfl
  obtain ⟨hint, line, written⟩ : ∃ hint : String, '\n' ∉ hint.toList ∧
      error.display = syntaxErrorTitle ++ error.message ++ "\n" ++
        ("  " ++ query ++ "\n" ++ (markLine query position ++ "\n")) ++ hint := by
    unfold display
    rw [shown, located]
    cases error.suggestion with
    | none => exact ⟨"", Text.notMem_toList_ofList (by decide), rfl⟩
    | some hint =>
        have opening : '\n' ∉ "hint: ".toList := Text.notMem_toList_ofList (by decide)
        exact ⟨"hint: " ++ hint.text, Text.notMem_toList_append opening hint.newline_notMem_text,
          rfl⟩
  refine ⟨hint.toList, line, ?_⟩
  rw [written]
  generalize syntaxErrorTitle ++ error.message = title
  generalize "  " = indent
  generalize markLine query position = mark
  simp [newline, List.intercalate]

/-- The lines in which an error is shown. -/
def lines (error : QueryError) : List (List Char) := error.display.toList.splitOn '\n'

/-- The third line of an error has a caret, which stands below the place of the error in the text
that the second line shows: as many characters stand before the caret as before the place. -/
def CaretFits (error : QueryError) (input : String) (place : Nat) : Prop :=
  ∃ title front back caret hint,
    error.lines = [title, "  ".toList ++ (front ++ back), caret, hint] ∧
    front ++ back = input.toList ∧ Text.byteLength front = place ∧ '^' ∈ caret ∧
    (caret.takeWhile (· != '^')).length = ("  ".toList ++ front).length

end QueryError

namespace Grammar

open Expression.State (Refusal)

variable {input : String} {flaw : SyntaxFlaw} {place : Nat}

/-- What a state has against a token or the end is worded in one line. -/
theorem newline_notMem_of_refusal {before : List Token} {next : Option Token}
    {reached : Expression.State} (stuck : Stuck input before next)
    (leads : Expression.State.start.Leads before reached) (refusal : Refusal reached next flaw) :
    '\n' ∉ flaw.message.toList := by
  cases refusal with
  | closing | separator | constraint | arguments | listArgument | listEnd | group =>
      exact Text.notMem_toList_ofList (by decide)
  | quoted | symbol | argument | listed | beyond =>
      exact Text.notMem_toList_append (Text.notMem_toList_ofList (by decide))
        (Token.newline_notMem_label _)
  | operator level outer field =>
      obtain ⟨earlier, rfl⟩ := Expression.State.exists_field leads
      have word : (Token.word field).WellFormed := stuck.wellFormed _ (by simp)
      have plain : '\n' ∉ field.toList := fun member => absurd (word.2 _ member) (by decide)
      exact Text.notMem_toList_between (Text.notMem_toList_ofList (by decide)) plain
        (Text.notMem_toList_ofList (by decide))
  | list level outer field single =>
      rename_i operator
      cases operator with
      | oneOf | custom => cases single
      | _ =>
          exact Text.notMem_toList_between (Text.notMem_toList_ofList (by decide))
            (Text.notMem_toList_ofList (by decide)) (Text.notMem_toList_ofList (by decide))

/-- The wording of an error is one line. -/
theorem newline_notMem_message (refused : Expression.read input = .error (flaw, place)) :
    '\n' ∉ flaw.message.toList := by
  rcases exists_stuck refused with
    ⟨broken, rfl, scanned⟩ | ⟨before, next, reached, stuck, leads, refuses⟩
  · obtain ⟨front, first, rest, tokens, -, -, failed⟩ := exists_unread scanned
    rcases Token.unclosed_or_broken_of_take failed with ⟨rfl, -⟩ | ⟨symbol, rfl, visible⟩
    · exact Text.notMem_toList_ofList (by decide)
    · have plain : '\n' ∉ symbol.toList := fun member => absurd (visible _ member) (by decide)
      exact Text.notMem_toList_between (Text.notMem_toList_ofList (by decide)) plain
        (Text.notMem_toList_ofList (by decide))
  · exact newline_notMem_of_refusal stuck leads (Expression.State.refusal_of_refuses refuses)

/-- The place of an error lies between two characters of the text. -/
theorem exists_front_of_refused (refused : Expression.read input = .error (flaw, place)) :
    ∃ front back, input.toList = front ++ back ∧ Text.byteLength front = place := by
  rcases read_eq_error refused with ⟨broken, scanned⟩ | ⟨located, scanned, stuck⟩
  · obtain ⟨front, back, whole, size, -⟩ := broken_of_scan_error scanned
    exact ⟨front, back, whole, size⟩
  · rcases place_of_run_error scanned stuck with ⟨index, -, starts, -⟩ | ⟨last, -⟩
    · exact Text.isBoundary_iff.mp starts.isBoundary
    · exact ⟨input.toList, [], (List.append_nil _).symm, by rw [last, Text.byteLength_toList]⟩

theorem message_report (input : String) (flaw : SyntaxFlaw) (place : Nat) :
    (Expression.report input flaw place).message = flaw.message := by
  cases flaw <;> rfl

/-- An error is shown in four lines: the wording, the text, the mark under it and the hint. -/
theorem lines_report
    (single : '\n' ∉ input.toList) (refused : Expression.read input = .error (flaw, place)) :
    ∃ title hint, (Expression.report input flaw place).lines =
      [title, "  ".toList ++ input.toList, (QueryError.markLine input place).toList, hint] := by
  obtain ⟨shown, located⟩ := query_report input flaw place
  obtain ⟨hint, line, written⟩ := QueryError.exists_display shown located
  have title :
      '\n' ∉ (syntaxErrorTitle ++ (Expression.report input flaw place).message).toList := by
    rw [message_report]
    exact Text.notMem_toList_append (Text.notMem_toList_ofList (by decide))
      (newline_notMem_message refused)
  have blanks : '\n' ∉ "  ".toList := Text.notMem_toList_ofList (by decide)
  refine ⟨(syntaxErrorTitle ++ (Expression.report input flaw place).message).toList, hint, ?_⟩
  rw [QueryError.lines, written, List.splitOn_intercalate]
  · simp only [List.forall_mem_cons]
    refine ⟨title, ?_, ?_, line, nofun⟩
    · rw [List.mem_append, not_or]
      exact ⟨blanks, single⟩
    · rw [QueryError.toList_markLine, List.mem_append, not_or]
      exact ⟨blanks, by simp⟩
  · exact List.cons_ne_nil _ _

/-- The blanks before the mark are as many as the bytes before the place. -/
theorem takeWhile_markLine {front back : List Char} (whole : input.toList = front ++ back) :
    ((QueryError.markLine input (Text.byteLength front)).toList.takeWhile (· != '^')).length =
      ("  ".toList).length + Text.byteLength front := by
  have inside : min (Text.byteLength front) (Text.byteLength input.toList)
      = Text.byteLength front := by
    rw [whole, Text.byteLength_append]
    omega
  have blank : ∀ c ∈ "  ".toList ++ List.replicate (Text.byteLength front) ' ',
      (c != '^') = true := by
    intro c member
    obtain rfl : c = ' ' := by
      rcases List.mem_append.mp member with indent | mark
      · simpa using indent
      · exact List.eq_of_mem_replicate mark
    decide
  have stops : ['^'].takeWhile (· != '^') = [] := rfl
  rw [QueryError.toList_markLine, inside, ← List.append_assoc,
    List.takeWhile_append_of_pos blank, stops, List.append_nil, List.length_append,
    List.length_replicate]

/-- Where a text is refused, the mark stands below the character that it is about exactly if all
characters before that one are ASCII characters. -/
theorem caretFits_iff {error : QueryError} (single : '\n' ∉ input.toList)
    (refused : Expression.parse input = .error error) :
    ∃ place front back, error.position = some place ∧ input.toList = front ++ back ∧
      Text.byteLength front = place ∧
      (error.CaretFits input place ↔ ∀ c ∈ front, c.toNat < 128) := by
  obtain ⟨flaw, place, unread, rfl⟩ := exists_report refused
  obtain ⟨front, back, whole, rfl⟩ := exists_front_of_refused unread
  obtain ⟨title, hint, lines⟩ := lines_report single unread
  have blanks := takeWhile_markLine whole
  refine ⟨_, front, back, (query_report _ _ _).2, whole, rfl, ?_⟩
  rw [← Text.byteLength_eq_length_iff]
  constructor
  · rintro ⟨_, other, rest, caret, _, shown, halves, size, -, aligned⟩
    obtain rfl : (QueryError.markLine input (Text.byteLength front)).toList = caret := by
      rw [lines] at shown
      simpa using (List.cons.inj (List.cons.inj (List.cons.inj shown).2).2).1
    obtain rfl : other = front := by
      have first := Text.cut_byteLength front back
      rw [← whole, ← halves, ← size, Text.cut_byteLength] at first
      exact (Prod.mk.inj first).1
    rw [blanks, List.length_append] at aligned
    omega
  · intro narrow
    refine ⟨title, front, back, _, hint, by rw [lines, whole], whole.symm, rfl, ?_, ?_⟩
    · rw [QueryError.toList_markLine]
      simp
    · rw [blanks, narrow, List.length_append]

/-- A quote that is not closed, in front of a character of two bytes. -/
theorem caretFits_iff_unclosed :
    let error := Expression.report "a==\"ř" (.lexical .unclosedQuote) 3
    '\n' ∉ "a==\"ř".toList ∧ Expression.parse "a==\"ř" = .error error ∧
      error.CaretFits "a==\"ř" 3 := by
  intro error
  have single : '\n' ∉ "a==\"ř".toList := Text.notMem_toList_ofList (by decide)
  have refused : Expression.parse "a==\"ř" = .error error := by decide +kernel
  obtain ⟨place, front, back, located, whole, size, fits⟩ := caretFits_iff single refused
  obtain rfl : 3 = place := Option.some.inj located
  have before : front = "a==".toList := by
    have cut := Text.cut_byteLength front back
    rw [← whole, size] at cut
    exact (congrArg Prod.fst cut).symm.trans (by decide +kernel)
  exact ⟨single, refused, fits.mpr (by rw [before]; simp)⟩

/-- Behind a character of two bytes the mark stands too far right: an argument is missing at the end
of the text, and the mark stands below the second place behind its last character. -/
theorem caretFits_fails :
    let error := Expression.report "ř==" .missingArgument 4
    '\n' ∉ "ř==".toList ∧ Expression.parse "ř==" = .error error ∧
      error.position = some 4 ∧
      error.lines[1]? = some "  ř==".toList ∧ error.lines[2]? = some "      ^".toList ∧
      ¬ error.CaretFits "ř==" 4 := by
  intro error
  have lines :
      error.lines = ["expression syntax error: expected argument value at end of expression".toList,
      "  ř==".toList, "      ^".toList, []] := by
    decide +kernel
  refine ⟨Text.notMem_toList_ofList (by decide), by decide +kernel, rfl, by rw [lines]; rfl,
    by rw [lines]; rfl, ?_⟩
  rintro ⟨_, front, back, caret, _, shown, whole, size, -, aligned⟩
  obtain rfl : "      ^".toList = caret := by
    rw [lines] at shown
    simpa using (List.cons.inj (List.cons.inj (List.cons.inj shown).2).2).1
  have before : front = "ř==".toList := by
    have cut := Text.cut_byteLength front back
    rw [whole, size] at cut
    exact (congrArg Prod.fst cut).symm.trans (by decide +kernel)
  rw [before] at aligned
  exact absurd aligned (by decide +kernel)

end Grammar

end FacetSearch
