import FacetSearch.Proofs.Expression.Stuck

/-!
Tokens with other fields and values. The reader gets through them in lockstep with the original ones
(`Expression.State.Alike.progress`) and is stuck at the same token for the same reason, unless the
reason shows a text that the user has written (`Grammar.sameButField_of_reworded`).
-/

set_option autoImplicit false

namespace FacetSearch

/-- Tokens that differ in what a word or a value says at most. -/
def Token.Alike : Token → Token → Prop
  | .word _, .word _ | .quoted _, .quoted _ => True
  | token, twin => token = twin

namespace Token

theorem Alike.refl (token : Token) : token.Alike token := by
  cases token <;> trivial

theorem Alike.eq {token twin : Token} (alike : token.Alike twin)
    (other : ∀ text, token ≠ .word text ∧ token ≠ .quoted text) : twin = token := by
  cases token with
  | word text => exact absurd rfl (other text).1
  | quoted text => exact absurd rfl (other text).2
  | _ => exact Eq.symm alike

theorem Alike.exists_word {text : String} {twin : Token} (alike : Alike (.word text) twin) :
    ∃ reworded, twin = .word reworded := by
  cases twin with
  | word reworded => exact ⟨reworded, rfl⟩
  | _ => cases alike

theorem Alike.exists_quoted {text : String} {twin : Token} (alike : Alike (.quoted text) twin) :
    ∃ reworded, twin = .quoted reworded := by
  cases twin with
  | quoted reworded => exact ⟨reworded, rfl⟩
  | _ => cases alike

theorem Alike.exists_value {text : String} {token twin : Token} (alike : token.Alike twin)
    (value : token = .word text ∨ token = .quoted text) :
    ∃ reworded, twin = .word reworded ∨ twin = .quoted reworded := by
  rcases value with rfl | rfl
  · obtain ⟨reworded, rfl⟩ := alike.exists_word
    exact ⟨reworded, .inl rfl⟩
  · obtain ⟨reworded, rfl⟩ := alike.exists_quoted
    exact ⟨reworded, .inr rfl⟩

end Token

namespace Expression.State

/-- States that expect the same and are as deep in parentheses. -/
inductive Alike : State → State → Prop
  | constraint {level twin : Level} {outer around : List Level}
      (depth : outer.length = around.length) :
    Alike ⟨.constraint, level, outer⟩ ⟨.constraint, twin, around⟩
  | operator {level twin : Level} {outer around : List Level} (depth : outer.length = around.length)
    (field reworded : String) : Alike ⟨.operator field, level, outer⟩ ⟨.operator reworded,
      twin, around⟩
  | arguments {level twin : Level} {outer around : List Level}
      (depth : outer.length = around.length)
    (field reworded : String) (operator : Operator) :
    Alike ⟨.arguments field operator, level, outer⟩ ⟨.arguments reworded operator,
      twin, around⟩
  | listArgument {level twin : Level} {outer around : List Level}
      (depth : outer.length = around.length)
    (field reworded : String) (operator : Operator) (given taken : List String) :
    Alike ⟨.listArgument field operator given, level, outer⟩
      ⟨.listArgument reworded operator taken, twin, around⟩
  | listEnd {level twin : Level} {outer around : List Level} (depth : outer.length = around.length)
    (field reworded : String) (operator : Operator) (given taken : List String) :
    Alike ⟨.listEnd field operator given, level, outer⟩ ⟨.listEnd reworded operator taken,
      twin, around⟩
  | junction {level twin : Level} {outer around : List Level}
      (depth : outer.length = around.length) :
    Alike ⟨.junction, level, outer⟩ ⟨.junction, twin, around⟩

/-- Two tokens join constraints in the same way, if constraints may be joined here. -/
def JoinAlike (state : State) (token twin : Token) : Prop :=
  state.expected = .junction →
    token.isConjunction = twin.isConjunction ∧ token.isDisjunction = twin.isDisjunction

variable {state other next : State} {token twin : Token}

/-- What one state takes, a state like it takes in other words. -/
theorem Alike.progress (states : state.Alike other) (tokens : token.Alike twin)
    (join : state.JoinAlike token twin) (progress : Progress state token next) :
    ∃ again, Progress other twin again ∧ next.Alike again := by
  cases progress with
  | opening level outer =>
      cases states with
      | constraint depth =>
          cases tokens.eq fun _ => ⟨nofun, nofun⟩
          exact ⟨_, .opening _ _, .constraint (congrArg (· + 1) depth)⟩
  | field level outer field =>
      cases states with
      | constraint depth =>
          obtain ⟨reworded, rfl⟩ := tokens.exists_word
          exact ⟨_, .field _ _ reworded, .operator depth field reworded⟩
  | operator level outer field symbol =>
      cases states with
      | operator depth _ reworded =>
          cases tokens.eq fun _ => ⟨nofun, nofun⟩
          exact ⟨_, .operator _ _ reworded symbol, .arguments depth field reworded _⟩
  | value level outer field operator value =>
      cases states with
      | arguments depth _ reworded =>
          obtain ⟨text, twins⟩ := tokens.exists_value value
          exact ⟨_, .value _ _ reworded operator twins, .junction depth⟩
  | list level outer field takesList =>
      cases states with
      | arguments depth _ reworded =>
          cases tokens.eq fun _ => ⟨nofun, nofun⟩
          exact ⟨_, .list _ _ reworded takesList, .listArgument depth field reworded _ [] []⟩
  | listed level outer field operator given value =>
      cases states with
      | listArgument depth _ reworded _ _ taken =>
          obtain ⟨text, twins⟩ := tokens.exists_value value
          exact ⟨_, .listed _ _ reworded operator taken twins,
            .listEnd depth field reworded operator _ _⟩
  | comma level outer field operator given =>
      cases states with
      | listEnd depth _ reworded _ _ taken =>
          cases tokens.eq fun _ => ⟨nofun, nofun⟩
          exact ⟨_, .comma _ _ reworded operator taken,
            .listArgument depth field reworded operator given taken⟩
  | listEnd level outer field operator given =>
      cases states with
      | listEnd depth _ reworded _ _ taken =>
          cases tokens.eq fun _ => ⟨nofun, nofun⟩
          exact ⟨_, .listEnd _ _ reworded operator taken, .junction depth⟩
  | conjunction level outer all =>
      cases states with
      | junction depth =>
          rw [(join rfl).1] at all
          exact ⟨_, .conjunction _ _ all, .constraint depth⟩
  | disjunction level outer all any =>
      cases states with
      | junction depth =>
          rw [(join rfl).1] at all
          rw [(join rfl).2] at any
          exact ⟨_, .disjunction _ _ all any, .constraint depth⟩
  | closing level around outer =>
      cases states with
      | @junction _ _ _ twins depth =>
          cases tokens.eq fun _ => ⟨nofun, nofun⟩
          cases twins with
          | nil => cases depth
          | cons first others => exact ⟨_, .closing _ _ _, .junction (Nat.succ.inj depth)⟩

/-- The same flaw, or an operator that is missing behind another field. -/
inductive SameButField : SyntaxFlaw → SyntaxFlaw → Prop
  | same (flaw : SyntaxFlaw) : SameButField flaw flaw
  | field (field reworded : String) : SameButField (.missingOperator field)
      (.missingOperator reworded)

variable {following again : Option Token} {flaw : SyntaxFlaw}

/-- What one state refuses, a state like it refuses for the same reason. -/
theorem Alike.refusal_same (states : state.Alike other) (refusal : Refusal state following flaw) :
    ∃ found, Refusal other following found ∧ SameButField flaw found := by
  cases refusal with
  | closing =>
      cases states
      exact ⟨_, .closing _ _, .same _⟩
  | separator _ _ joins =>
      cases states
      exact ⟨_, .separator _ _ joins, .same _⟩
  | quoted =>
      cases states
      exact ⟨_, .quoted _ _ _, .same _⟩
  | symbol =>
      cases states
      exact ⟨_, .symbol _ _ _, .same _⟩
  | constraint =>
      cases states
      exact ⟨_, .constraint _ _, .same _⟩
  | operator _ _ _ different =>
      cases states
      exact ⟨_, .operator _ _ _ different, .field _ _⟩
  | list _ _ _ single =>
      cases states
      exact ⟨_, .list _ _ _ single, .same _⟩
  | argument _ _ _ _ different =>
      cases states
      exact ⟨_, .argument _ _ _ _ different, .same _⟩
  | arguments =>
      cases states
      exact ⟨_, .arguments _ _ _ _, .same _⟩
  | listed _ _ _ _ _ different =>
      cases states
      exact ⟨_, .listed _ _ _ _ _ different, .same _⟩
  | listArgument =>
      cases states
      exact ⟨_, .listArgument _ _ _ _ _, .same _⟩
  | listEnd _ _ _ _ _ different =>
      cases states
      exact ⟨_, .listEnd _ _ _ _ _ different, .same _⟩
  | group _ _ _ different =>
      cases states with
      | @junction _ _ _ twins depth =>
          cases twins with
          | nil => cases depth
          | cons first others => exact ⟨_, .group _ _ _ different, .same _⟩
  | beyond _ different =>
      cases states with
      | junction depth =>
          cases List.length_eq_zero_iff.mp depth.symm
          exact ⟨_, .beyond _ different, .same _⟩

/-- A word or value that is refused, but not shown, is refused whatever it says. -/
theorem Alike.refusal_reworded {text : String} (states : state.Alike other)
    (tokens : token.Alike twin) (join : state.JoinAlike token twin)
    (value : token = .word text ∨ token = .quoted text)
    (refusal : Refusal state (some token) flaw) (texts : ∀ text, ¬ Grammar.Shows text flaw) :
    ∃ found, Refusal other (some twin) found ∧ SameButField flaw found := by
  obtain ⟨reworded, twins⟩ := tokens.exists_value value
  have unlike {mark : Token} (plain : ∀ text, mark ≠ .word text ∧ mark ≠ .quoted text) :
      some twin ≠ some mark := by
    rintro ⟨⟩
    exact twins.elim (plain reworded).1 (plain reworded).2
  cases refusal with
  | closing | symbol | list => exact value.elim nofun nofun
  | separator _ _ joins =>
      rcases joins with rfl | rfl
      · exact value.elim nofun nofun
      · exact value.elim nofun nofun
  | quoted => exact absurd .selector (texts _)
  | operator _ _ _ different =>
      cases states
      exact ⟨_, .operator _ _ _ fun symbol => unlike fun _ => ⟨nofun, nofun⟩, .field _ _⟩
  | argument _ _ _ _ different => exact absurd value (not_or.mpr (different.2 text))
  | listed _ _ _ _ _ different => exact absurd value (not_or.mpr (different text))
  | listEnd _ _ _ _ _ different =>
      cases states
      exact ⟨_, .listEnd _ _ _ _ _ ⟨unlike fun _ => ⟨nofun, nofun⟩, unlike fun _ =>
        ⟨nofun, nofun⟩⟩, .same _⟩
  | group _ _ _ different =>
      obtain ⟨all, any⟩ := different.2 token rfl
      rw [(join rfl).1] at all
      rw [(join rfl).2] at any
      cases states with
      | @junction _ _ _ around depth =>
          cases around with
          | nil => cases depth
          | cons first others =>
              refine ⟨_, .group _ _ _ ⟨unlike fun _ => ⟨nofun, nofun⟩, ?_⟩, .same _⟩
              rintro found ⟨⟩
              exact ⟨all, any⟩
  | beyond =>
      rcases value with rfl | rfl
      · exact absurd .word (texts text)
      · exact absurd .quoted (texts text)

/-- What one state refuses, a state like it refuses in other words for the same reason. -/
theorem Alike.refusal (states : state.Alike other) (tokens : Option.Rel Token.Alike following again)
    (join : ∀ token ∈ following, ∀ twin ∈ again, state.JoinAlike token twin)
    (refusal : Refusal state following flaw) (texts : ∀ text, ¬ Grammar.Shows text flaw) :
    ∃ found, Refusal other again found ∧ SameButField flaw found := by
  cases tokens with
  | none => exact states.refusal_same refusal
  | @some token twin alike =>
      by_cases value : ∃ text, token = .word text ∨ token = .quoted text
      · obtain ⟨text, value⟩ := value
        exact states.refusal_reworded alike (join token rfl twin rfl) value refusal texts
      · cases alike.eq fun text => not_or.mp (not_exists.mp value text)
        exact states.refusal_same refusal

end Expression.State

namespace Grammar

open Expression (State)
open Expression.State (Refuses SameButField)

/-- Behind some tokens, tokens that differ in fields and values only: words that join constraints
stay what they are. -/
inductive Reworded : (before tokens twins : List Token) → Prop
  | nil (before : List Token) : Reworded before [] []
  | cons {before tokens twins : List Token} {token twin : Token} (alike : token.Alike twin)
    (joins : Viable (before ++ [.semicolon]) →
      token.isConjunction = twin.isConjunction ∧ token.isDisjunction = twin.isDisjunction)
    (onward : Reworded (before ++ [token]) tokens twins) :
    Reworded before (token :: tokens) (twin :: twins)

namespace Reworded

variable {front before after tokens twins : List Token} {token twin : Token}

theorem refl (before tokens : List Token) : Reworded before tokens tokens := by
  induction tokens generalizing before with
  | nil => exact .nil before
  | cons token rest ih => exact .cons (.refl token) (fun _ => ⟨rfl, rfl⟩) (ih _)

/-- One token in other words. -/
theorem replace (after : List Token) (alike : token.Alike twin)
    (joins : Viable (front ++ before ++ [.semicolon]) →
      token.isConjunction = twin.isConjunction ∧ token.isDisjunction = twin.isDisjunction) :
    Reworded front (before ++ token :: after) (before ++ twin :: after) := by
  induction before generalizing front with
  | nil =>
      rw [List.append_nil] at joins
      exact .cons alike joins (.refl _ after)
  | cons first rest ih =>
      refine .cons (.refl first) (fun _ => ⟨rfl, rfl⟩) (ih ?_)
      rwa [List.append_assoc front]

end Reworded

theorem viable_semicolon_iff {before : List Token} {reached : State}
    (leads : State.start.Leads before reached) :
    Viable (before ++ [.semicolon]) ↔ reached.expected = .junction := by
  rw [viable_token_iff leads]
  constructor
  · rintro ⟨final, stepped⟩
    generalize which : Token.semicolon = token at stepped
    cases State.progress_of_step stepped with
    | value _ _ _ _ value => rcases value with rfl | rfl <;> cases which
    | listed _ _ _ _ _ value => rcases value with rfl | rfl <;> cases which
    | conjunction | disjunction => rfl
    | _ => cases which
  · intro expects
    obtain ⟨expected, level, outer⟩ := reached
    cases expects
    exact ⟨_, step_conjunction .semicolon⟩

/-- The reader gets as far in other words. -/
theorem Reworded.exists_leads {front before after twins : List Token} {state other reached : State}
    (reworded : Reworded front (before ++ after) twins) (behind : State.start.Leads front state)
    (states : state.Alike other) (leads : state.Leads before reached) :
    ∃ earlier later again, twins = earlier ++ later ∧ other.Leads earlier again ∧
      reached.Alike again ∧ Reworded (front ++ before) after later := by
  induction before generalizing front twins state other with
  | nil =>
      cases leads
      rw [List.append_nil]
      exact ⟨[], twins, other, rfl, .refl other, states, reworded⟩
  | cons token rest ih =>
      cases leads with
      | step next stepped onward =>
          cases reworded with
          | @cons _ _ others _ twin alike joins later =>
              have join : state.JoinAlike token twin := fun expects =>
                joins ((viable_semicolon_iff behind).mpr expects)
              obtain ⟨again, progress, same⟩ :=
                states.progress alike join (State.progress_of_step stepped)
              obtain ⟨earlier, remaining, final, rfl, through, reached, rest⟩ :=
                ih later (behind.trans (.single stepped)) same onward
              rw [List.append_assoc] at rest
              have steps : other.Leads (twin :: earlier) final :=
                .step again progress.step_eq through
              exact ⟨twin :: earlier, remaining, final, rfl, steps, reached, rest⟩

/-- A text in other words has the same flaw, unless the flaw shows the words. -/
theorem sameButField_of_reworded {input other : String} {tokens twins : List Token}
    {flaw found : SyntaxFlaw} {place stop : Nat}
    (refused : Expression.read input = .error (flaw, place))
    (again : Expression.read other = .error (found, stop))
    (tokenized : Token.tokenize input = .ok tokens) (reread : Token.tokenize other = .ok twins)
    (reworded : Reworded [] tokens twins) (texts : ∀ text, ¬ Shows text flaw) :
    SameButField flaw found := by
  rcases exists_stuck refused with
    ⟨broken, -, scanned⟩ | ⟨before, next, reached, stuck, leads, refuses⟩
  · obtain ⟨located, scans, -⟩ := (Expression.tokenize_eq_ok_iff _ _).mp tokenized
    cases scanned.symm.trans scans
  obtain ⟨after, whole, ends⟩ := stuck.exists_tokens
  cases tokenized.symm.trans whole
  have begins : State.start.Alike State.start := .constraint rfl
  obtain ⟨earlier, later, state, rfl, through, states, rest⟩ :=
    reworded.exists_leads (.refl State.start) begins leads
  have refusal := State.refusal_of_refuses refuses
  cases next with
  | none =>
      cases ends rfl
      cases rest
      obtain ⟨same, against, related⟩ := states.refusal .none nofun refusal texts
      have stuck' : Stuck other earlier none :=
        stuck_of_refuses reread (fun _ => rfl) through against.refuses
      rw [stuck'.flaw_eq through against.refuses again]
      exact related
  | some token =>
      cases rest with
      | @cons _ _ others _ twin alike joins _ =>
          have join : ∀ token' ∈ some token, ∀ twin' ∈ some twin,
              reached.JoinAlike token' twin' := by
            rintro _ ⟨⟩ _ ⟨⟩ expects
            exact joins ((viable_semicolon_iff leads).mpr expects)
          obtain ⟨same, against, related⟩ := states.refusal (.some alike) join refusal texts
          have stuck' : Stuck other earlier (some twin) :=
            stuck_of_refuses reread nofun through against.refuses
          rw [stuck'.flaw_eq through against.refuses again]
          exact related

end Grammar

end FacetSearch
