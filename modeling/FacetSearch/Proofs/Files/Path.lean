import FacetSearch.Files.Path

/-!
Components of paths that are made from other paths. A path one step up has one component less
(`components_parent`), a joined name is one more (`components_join`), so the paths above a path are
told apart by their length.
-/

set_option autoImplicit false

namespace FacetSearch.Path

/-- What the names between the slashes of a text stand for. -/
def names (text : List Char) : List Component := (splitSlashes text).filterMap component?

/-- What the start of a path stands for. -/
def anchor (path : List Char) : List Component :=
  match path with
  | '/' :: _ => [.root]
  | ['.'] | '.' :: '/' :: _ => [.here]
  | _ => []

theorem head?_splitSlashes (text : List Char) :
    (splitSlashes text).head? = some (text.takeWhile (· != '/')) := by
  induction text with
  | nil => rfl
  | cons c rest ih =>
      by_cases slash : c = '/'
      · simp [splitSlashes, slash]
      · simp [splitSlashes, slash, ih, List.headD_eq_head?_getD]

theorem splitSlashes_append_slash (front back : List Char) :
    splitSlashes (front ++ '/' :: back) = splitSlashes front ++ splitSlashes back := by
  induction front with
  | nil => simp [splitSlashes]
  | cons c rest ih =>
      by_cases slash : c = '/'
      · simp [splitSlashes, slash, ih]
      · obtain ⟨first, others, split⟩ : ∃ first others,
          splitSlashes rest = first :: others := by
          have first := head?_splitSlashes rest
          obtain ⟨others, same⟩ := List.head?_eq_some_iff.mp first
          exact ⟨_, others, same⟩
        simp [splitSlashes, slash, ih, split]

theorem names_append_slash (front back : List Char) :
    names (front ++ '/' :: back) = names front ++ names back := by
  rw [names, splitSlashes_append_slash, List.filterMap_append]
  rfl

theorem names_cons_slash (text : List Char) : names ('/' :: text) = names text :=
  names_append_slash [] text

theorem names_of_plain {name : List Char} (plain : '/' ∉ name) :
    names name = (component? name).toList := by
  have split : splitSlashes name = [name] := by
    induction name with
    | nil => rfl
    | cons c rest ih =>
        rw [List.mem_cons, not_or] at plain
        rw [splitSlashes, ih plain.2, if_neg (Ne.symm plain.1)]
        rfl
  rw [names, split]
  cases found : component? name <;> simp [found]

/-- How a path starts: with a slash, with a dot that is all of it or stands before a slash, or with
a name. -/
inductive Start : List Char → Prop
  | absolute (rest : List Char) : Start ('/' :: rest)
  | here {rest : List Char} (ends : rest = [] ∨ ∃ more, rest = '/' :: more) :
      Start ('.' :: rest)
  | named {text : List Char} (relative : text.head? ≠ some '/')
    (named : text.takeWhile (· != '/') ≠ ['.']) (none : startLength text = 0)
      (free : anchor text = []) :
    Start text

theorem start (text : List Char) : Start text := by
  cases text with
  | nil => exact .named nofun nofun rfl rfl
  | cons c rest =>
      by_cases slash : c = '/'
      · rw [slash]
        exact .absolute rest
      by_cases dot : c = '.'
      · cases rest with
        | nil =>
            rw [dot]
            exact .here (.inl rfl)
        | cons second more =>
            by_cases slash' : second = '/'
            · rw [dot, slash']
              exact .here (.inr ⟨more, rfl⟩)
            · refine .named (by simp [slash]) (by simp [slash, slash']) ?_ ?_
              · simp [startLength, dot, slash']
              · simp [anchor, dot, slash']
      · refine .named (by simp [slash]) (by simp [slash, dot]) ?_ ?_
        · simp [startLength, slash, dot]
        · simp [anchor, slash, dot]

theorem names_here {rest : List Char} (ends : rest = [] ∨ ∃ more, rest = '/' :: more) :
    names ('.' :: rest) = names rest := by
  rcases ends with rfl | ⟨more, rfl⟩
  · rfl
  · rw [names_cons_slash]
    exact names_append_slash ['.'] more

theorem components_eq (path : String) :
    components path = anchor path.toList ++ names path.toList := by
  have front (text : List Char) :
      (if text.head? == some '/' then [Component.root]
        else if (splitSlashes text).head? = some ['.'] then [.here] else []) = anchor text := by
    simp only [head?_splitSlashes]
    cases start text with
    | absolute rest => rfl
    | here ends =>
        rcases ends with rfl | ⟨more, rfl⟩
        · rfl
        · simp [anchor]
    | named relative named _ free => simp [relative, named, free]
  exact congrArg (· ++ names path.toList) (front path.toList)

theorem names_drop_startLength (text : List Char) :
    names (text.drop (startLength text)) = names text := by
  cases start text with
  | absolute rest => exact (names_cons_slash rest).symm
  | here ends =>
      rcases ends with rfl | ⟨more, rfl⟩
      · rfl
      · exact (names_here (.inr ⟨more, rfl⟩)).symm
  | named _ _ none _ => rw [none, List.drop_zero]

theorem names_dropIdle (reversed : List Char) :
    names (dropIdle reversed).reverse = names reversed.reverse := by
  fun_induction dropIdle reversed with
  | case1 => rfl
  | case2 rest ih => rw [ih, List.reverse_cons, names_append_slash]; exact (List.append_nil _).symm
  | case3 => rfl
  | case4 rest ih =>
      rw [ih, List.reverse_cons, List.reverse_cons, List.append_assoc, List.singleton_append,
        names_append_slash]
      exact (List.append_nil _).symm
  | case5 => rfl

theorem dropIdle_suffix (reversed : List Char) : dropIdle reversed <:+ reversed := by
  fun_induction dropIdle reversed with
  | case1 => exact List.suffix_rfl
  | case2 rest ih => exact ih.trans (List.suffix_cons '/' rest)
  | case3 => exact List.nil_suffix
  | case4 rest ih => exact ih.trans ((List.suffix_cons '/' rest).trans (List.suffix_cons '.' _))
  | case5 => exact List.suffix_rfl

/-- Behind a slash, idle names go with the slashes before them. -/
theorem slash_dropIdle_suffix (reversed : List Char) :
    dropIdle reversed = [] ∨ '/' :: dropIdle reversed <:+ '/' :: reversed := by
  fun_induction dropIdle reversed with
  | case1 => exact .inl rfl
  | case2 rest ih => exact ih.imp_right fun suffix => suffix.trans (List.suffix_cons '/' _)
  | case3 => exact .inl rfl
  | case4 rest ih =>
      exact ih.imp_right fun suffix =>
        suffix.trans ((List.suffix_cons '.' _).trans (List.suffix_cons '/' _))
  | case5 => exact .inr List.suffix_rfl

/-- A text without idle names at its end ends in a name that is a component. -/
theorem exists_component {body : List Char} (stable : dropIdle body = body)
    (nonempty : body ≠ []) :
    ∃ last, component? (body.takeWhile (· != '/')).reverse = some last := by
  rw [← Option.isSome_iff_exists, Option.isSome_iff_ne_none]
  intro idle
  have shape : body.takeWhile (· != '/') = [] ∨ body.takeWhile (· != '/') = ['.'] := by
    unfold component? at idle
    split at idle
    · rename_i blank
      simpa [List.reverse_eq_iff] using blank
    · split at idle <;> cases idle
  have shorter := congrArg List.length stable
  cases start body with
  | absolute rest =>
      have bound := length_dropIdle_le rest
      rw [dropIdle, List.length_cons] at shorter
      omega
  | here ends =>
      rcases ends with rfl | ⟨more, rfl⟩
      · cases stable
      · have bound := length_dropIdle_le more
        rw [dropIdle, List.length_cons, List.length_cons] at shorter
        omega
  | named relative named _ _ =>
      refine shape.elim (fun none => ?_) named
      cases body with
      | nil => exact nonempty rfl
      | cons c rest =>
          rw [List.takeWhile_cons] at none
          split at none
          · cases none
          · rename_i slash
            exact relative (by simpa using slash)

theorem dropIdle_dropIdle (reversed : List Char) :
    dropIdle (dropIdle reversed) = dropIdle reversed := by
  fun_induction dropIdle reversed with
  | case1 => rfl
  | case2 rest ih => exact ih
  | case3 => rfl
  | case4 rest ih => exact ih
  | case5 other => simp only [dropIdle]

theorem dropWhile_slash (body : List Char) :
    body.dropWhile (· != '/') = [] ∧ dropName body = [] ∨
      body.dropWhile (· != '/') = '/' :: dropName body := by
  unfold dropName
  cases rest : body.dropWhile (· != '/') with
  | nil => exact .inl ⟨rfl, rfl⟩
  | cons c more =>
      have stops := List.head?_dropWhile_not (· != '/') body
      rw [rest] at stops
      exact .inr (congrArg (· :: more) (by simpa using stops))

/-- The last name of a text goes with the slash before it. -/
theorem exists_names_dropName {body : List Char} (stable : dropIdle body = body)
    (nonempty : body ≠ []) :
    ∃ last, names body.reverse = names (dropName body).reverse ++ [last] := by
  obtain ⟨last, found⟩ := exists_component stable nonempty
  have plain : '/' ∉ (body.takeWhile (· != '/')).reverse := by
    intro member
    have kept := List.all_eq_true.mp List.all_takeWhile _ (List.mem_reverse.mp member)
    simp at kept
  have tail : names (body.takeWhile (· != '/')).reverse = [last] := by
    rw [names_of_plain plain, found]
    rfl
  refine ⟨last, ?_⟩
  have whole := List.takeWhile_append_dropWhile (p := (· != '/')) (l := body)
  rcases dropWhile_slash body with ⟨none, dropped⟩ | slash
  · rw [none, List.append_nil] at whole
    rw [whole] at tail
    rw [dropped, tail]
    rfl
  · rw [← tail, ← names_append_slash, ← List.singleton_append, ← List.append_assoc,
      ← List.reverse_cons, ← slash, ← List.reverse_append, whole]

/-- What is left of a text without its last name stood before a slash. -/
theorem dropName_kept (body : List Char) :
    dropIdle (dropName body) = [] ∨
      ∃ more, body.reverse = (dropIdle (dropName body)).reverse ++ '/' :: more := by
  rcases dropWhile_slash body with ⟨-, none⟩ | slash
  · exact .inl (by rw [none]; rfl)
  · refine (slash_dropIdle_suffix (dropName body)).imp_right fun suffix => ?_
    rw [← slash] at suffix
    obtain ⟨removed, same⟩ := suffix.trans (List.dropWhile_suffix _)
    refine ⟨removed.reverse, ?_⟩
    have whole := congrArg List.reverse same
    rw [List.reverse_append, List.reverse_cons, List.append_assoc, List.singleton_append] at whole
    exact whole.symm

/-- What a path begins with, cut before a slash behind its start, starts as the path does. -/
theorem anchor_kept {text rest : List Char}
    (kept : rest = [] ∨ ∃ more, text.drop (startLength text) = rest ++ '/' :: more) :
    anchor (text.take (startLength text) ++ rest) = anchor text ∧
      names (text.take (startLength text) ++ rest) = names rest := by
  cases start text with
  | absolute tail => exact ⟨rfl, names_cons_slash rest⟩
  | @here tail ends =>
      have one (tail : List Char) (ends : tail = [] ∨ ∃ more, tail = '/' :: more) :
          startLength ('.' :: tail) = 1 ∧ anchor ('.' :: tail) = [.here] := by
        rcases ends with rfl | ⟨more, rfl⟩ <;> exact ⟨rfl, rfl⟩
      have follows : rest = [] ∨ ∃ more, rest = '/' :: more := by
        rw [(one tail ends).1, List.drop_one, List.tail_cons] at kept
        refine kept.elim .inl ?_
        rintro ⟨more, cut⟩
        rcases ends with rfl | ⟨others, rfl⟩
        · cases rest <;> cases cut
        · cases rest with
          | nil => exact .inl rfl
          | cons c later =>
              cases cut
              exact .inr ⟨later, rfl⟩
      rw [(one tail ends).1, (one tail ends).2]
      exact ⟨(one rest follows).2, names_here follows⟩
  | named relative named none free =>
      rw [none, List.drop_zero] at kept
      rw [none, free]
      refine ⟨?_, rfl⟩
      rw [List.take_zero, List.nil_append]
      cases start rest with
      | absolute others =>
          obtain ⟨more, rfl⟩ := kept.resolve_left (List.cons_ne_nil _ _)
          exact absurd rfl relative
      | here ends =>
          obtain ⟨more, rfl⟩ := kept.resolve_left (List.cons_ne_nil _ _)
          rcases ends with rfl | ⟨others, rfl⟩ <;> exact absurd rfl named
      | named _ _ _ free => exact free

/-- The path one step up has all components but the last one. -/
theorem components_parent {path parent : String} (found : parent? path = some parent) :
    ∃ last, components path = components parent ++ [last] := by
  have parts := components_eq path
  dsimp only [parent?] at found
  generalize path.toList = text at found parts
  rw [← names_drop_startLength, ← List.reverse_reverse (text.drop (startLength text)),
    ← names_dropIdle] at parts
  have cut := dropIdle_suffix (text.drop (startLength text)).reverse
  have stable := dropIdle_dropIdle (text.drop (startLength text)).reverse
  generalize dropIdle (text.drop (startLength text)).reverse = body at found parts cut stable
  split at found
  · rename_i none
    split at found
    · rename_i dot
      cases found
      have here : anchor text = [.here] := by
        cases start text with
        | absolute rest => cases dot
        | here ends => rcases ends with rfl | ⟨more, rfl⟩ <;> rfl
        | named _ _ none _ => rw [none] at dot; cases dot
      rw [parts, here, List.isEmpty_iff.mp none]
      exact ⟨.here, rfl⟩
    · cases found
  · rename_i nonempty
    rw [List.isEmpty_iff] at nonempty
    cases found
    obtain ⟨last, before⟩ := exists_names_dropName stable nonempty
    have kept := @anchor_kept text (dropIdle (dropName body)).reverse ?_
    · refine ⟨last, ?_⟩
      rw [components_eq (String.ofList _), String.toList_ofList, kept.1, kept.2,
        names_dropIdle, parts, before, List.append_assoc]
    · refine (dropName_kept body).imp (fun none => by rw [none]; rfl) ?_
      rintro ⟨more, same⟩
      obtain ⟨idle, whole⟩ := cut
      refine ⟨more ++ idle.reverse, ?_⟩
      rw [← List.reverse_reverse (text.drop (startLength text)), ← whole,
        List.reverse_append, same, List.append_assoc, List.cons_append]

theorem anchor_append_slash {front : List Char} (nonempty : front ≠ []) (back : List Char) :
    anchor (front ++ '/' :: back) = anchor front := by
  obtain ⟨c, rest, rfl⟩ := List.exists_cons_of_ne_nil nonempty
  generalize whole : c :: rest = front
  cases start front with
  | absolute => rfl
  | here ends => rcases ends with rfl | ⟨more, rfl⟩ <;> rfl
  | named relative named _ free =>
      rw [free, ← whole, List.cons_append]
      generalize same : c :: (rest ++ '/' :: back) = text
      cases start text with
      | absolute =>
          cases same
          exact absurd (whole ▸ rfl) relative
      | here ends =>
          cases same
          obtain ⟨more, follows⟩ := ends.resolve_left (by simp)
          rw [← whole] at named
          cases rest with
          | nil => exact absurd rfl named
          | cons second others =>
              cases follows
              exact absurd rfl named
      | named _ _ _ free => exact free

theorem anchor_of_plain {name : List Char} {last : Component} (plain : '/' ∉ name)
    (found : component? name = some last) : anchor name = [] := by
  cases start name with
  | absolute => exact absurd List.mem_cons_self plain
  | here ends =>
      rcases ends with rfl | ⟨more, rfl⟩
      · cases found
      · exact absurd (by simp) plain
  | named _ _ _ free => exact free

/-- A path with a name behind it has the name as a further component. -/
theorem components_join (base : String) {name : String} {last : Component}
    (plain : '/' ∉ name.toList) (found : component? name.toList = some last) :
    components (join base name) = components base ++ [last] := by
  have tail : names name.toList = [last] := by
    rw [names_of_plain plain, found]
    rfl
  have relative : isAbsolute name = false := by
    rw [isAbsolute, beq_eq_false_iff_ne]
    exact fun slash => plain (List.mem_of_head? slash)
  rw [join, relative, Bool.false_or]
  split
  · rename_i empty
    rw [String.isEmpty_iff.mp empty, components_eq, anchor_of_plain plain found, tail]
    rfl
  rename_i nonempty
  have named : base.toList ≠ [] := by simpa using nonempty
  split
  · rename_i slash
    obtain ⟨front, whole⟩ := List.getLast?_eq_some_iff.mp slash
    have same : anchor (front ++ '/' :: name.toList) = anchor (front ++ ['/']) := by
      by_cases root : front = []
      · rw [root]
        rfl
      · rw [anchor_append_slash root, anchor_append_slash root]
    rw [components_eq, components_eq base, String.toList_append, whole, List.append_assoc,
      List.singleton_append, names_append_slash, names_append_slash, tail, same]
    simp [names, splitSlashes, component?]
  · rw [components_eq, components_eq base, String.toList_append, String.toList_append,
      List.append_assoc]
    have joined : "/".toList ++ name.toList = '/' :: name.toList := rfl
    rw [joined, anchor_append_slash named, names_append_slash, tail, List.append_assoc]

theorem length_components_parent {path parent : String} (found : parent? path = some parent) :
    (components parent).length < (components path).length := by
  obtain ⟨last, same⟩ := components_parent found
  rw [same, List.length_append]
  exact Nat.lt_succ_self _

theorem length_components_le {path far : String} (above : far ∈ ancestors path) :
    (components far).length ≤ (components path).length := by
  fun_induction ancestors path with
  | case1 path => exact Nat.le_of_eq (congrArg _ (List.mem_singleton.mp above ▸ rfl))
  | case2 path parent found ih =>
      rcases List.mem_cons.mp above with rfl | further
      · exact Nat.le_refl _
      · exact Nat.le_trans (ih further) (Nat.le_of_lt (length_components_parent found))

/-- Of the paths above a path, those further up have fewer components. -/
theorem pairwise_ancestors (path : String) :
    (ancestors path).Pairwise fun near far =>
      (components far).length < (components near).length := by
  fun_induction ancestors path with
  | case1 path => exact List.pairwise_singleton _ _
  | case2 path parent found ih =>
      refine List.pairwise_cons.mpr ⟨fun far above => ?_, ih⟩
      exact Nat.lt_of_le_of_lt (length_components_le above) (length_components_parent found)

end FacetSearch.Path
