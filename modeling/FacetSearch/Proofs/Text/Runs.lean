import FacetSearch.Proofs.Text.Offsets
import FacetSearch.Proofs.Text.Words

/-!
Runs of a text. A run is as long as it can be: no character next to it could belong to it (`IsRun`).
Cutting a text into runs finds all of them (`mem_runsAt_iff`), and their order is the order in which
they stand in the text, with other characters between them (`readsAs_iff`). Where no run goes on
across an edge, the runs of a text are those of its two parts (`runsAt_append`).
-/

set_option autoImplicit false

namespace FacetSearch.Text

variable {keep : Char → Bool} {text front back : List Char} {offset start : Nat}
    {run : List Char} {c : Char}

/-- No kept character ends at an offset. -/
def NoneEnds (keep : Char → Bool) (text : List Char) (offset : Nat) : Prop :=
  ∀ place c, Stands text place c → place + c.utf8Size = offset → keep c = false

/-- No kept character stands at an offset. -/
def NoneStands (keep : Char → Bool) (text : List Char) (offset : Nat) : Prop :=
  ∀ c, Stands text offset c → keep c = false

theorem noneStands_append_iff :
    NoneStands keep (front ++ back) (byteLength front) ↔
    ∀ c ∈ back.head?, keep c = false := by
  constructor
  · intro stands c first
    obtain ⟨rest, rfl⟩ := List.head?_eq_some_iff.mp first
    exact stands c ⟨front, rest, rfl, rfl⟩
  · rintro fails c ⟨before, after, whole, size⟩
    have here := cut_byteLength front back
    have there := cut_byteLength before (c :: after)
    rw [← whole, size, here] at there
    exact fails c (by rw [(Prod.mk.inj there).2]; rfl)

theorem noneEnds_append_iff :
    NoneEnds keep (front ++ back) (byteLength front) ↔
    ∀ c ∈ front.getLast?, keep c = false := by
  constructor
  · intro ends c last
    obtain ⟨before, rfl⟩ := List.getLast?_eq_some_iff.mp last
    refine ends (byteLength before) c ⟨before, back, by simp, rfl⟩ ?_
    rw [byteLength_append, byteLength_cons, byteLength_nil, Nat.add_zero]
  · rintro fails place c ⟨before, after, whole, rfl⟩ next
    have here := cut_byteLength front back
    have there := cut_byteLength (before ++ [c]) after
    have size : byteLength (before ++ [c]) = byteLength front := by
      rw [byteLength_append, byteLength_cons, byteLength_nil, Nat.add_zero, next]
    rw [← List.append_cons, ← whole, size, here] at there
    exact fails c (by rw [(Prod.mk.inj there).1, List.getLast?_concat]; rfl)

theorem runsAt_cons_keep (kept : keep c = true) (offset : Nat) (rest : List Char) :
    runsAt keep offset (c :: rest) = (offset, c :: rest.takeWhile keep) ::
      runsAt keep (offset + byteLength (c :: rest.takeWhile keep)) (rest.dropWhile keep) := by
  rw [runsAt, if_pos kept]

theorem runsAt_cons_skip (skipped : keep c = false) (offset : Nat) (rest : List Char) :
    runsAt keep offset (c :: rest) = runsAt keep (offset + c.utf8Size) rest := by
  rw [runsAt, if_neg (by simp [skipped])]

theorem runsAt_of_kept (inhabited : run ≠ []) (kept : ∀ c ∈ run, keep c = true)
    (offset : Nat) : runsAt keep offset run = [(offset, run)] := by
  obtain ⟨c, rest, rfl⟩ := List.exists_cons_of_ne_nil inhabited
  have more : ∀ d ∈ rest, keep d = true :=
    fun d member => kept d (List.mem_cons_of_mem c member)
  rw [runsAt_cons_keep (kept c List.mem_cons_self), List.takeWhile_eq_self_iff.mpr more,
    List.dropWhile_eq_nil_iff.mpr more]
  simp [runsAt]

/-- No run goes on across the edge between two parts. -/
def Apart (keep : Char → Bool) (front back : List Char) : Prop :=
  ∀ c ∈ front.getLast?, ∀ d ∈ back.head?, keep c = true → keep d = false

/-- A run in the first part ends there. -/
theorem halves_append {rest : List Char} (kept : keep c = true)
    (apart : Apart keep (c :: rest) back) : (rest ++ back).takeWhile keep = rest.takeWhile keep ∧
      (rest ++ back).dropWhile keep = rest.dropWhile keep ++ back := by
  induction rest generalizing c with
  | nil =>
      cases back with
      | nil => simp
      | cons d more =>
          have stops : keep d = false := apart c rfl d rfl kept
          simp [stops]
  | cons d rest ih =>
      by_cases more : keep d = true
      · obtain ⟨taken, dropped⟩ := ih more (by simpa [Apart] using apart)
        simp only [List.cons_append, List.takeWhile_cons_of_pos more,
          List.dropWhile_cons_of_pos more, taken, dropped, and_self]
      · simp only [List.cons_append, List.takeWhile_cons_of_neg more,
          List.dropWhile_cons_of_neg more, and_self]

theorem Apart.of_suffix {rest : List Char} (apart : Apart keep front back) (ends : rest <:+ front) :
    Apart keep rest back := by
  obtain ⟨before, rfl⟩ := ends
  intro c last
  exact apart c (by rw [List.getLast?_append, Option.mem_def.mp last]; rfl)

/-- Where no run goes on across an edge, each run belongs to one of the two parts. -/
theorem runsAt_append (apart : Apart keep front back) (offset : Nat) :
    runsAt keep offset (front ++ back)
      = runsAt keep offset front ++ runsAt keep (offset + byteLength front) back := by
  induction front using inductionOnRuns keep generalizing offset with
  | nil => simp [runsAt]
  | run c rest kept ih =>
      obtain ⟨taken, dropped⟩ := halves_append kept apart
      have remains := apart.of_suffix ((List.dropWhile_suffix keep).trans (List.suffix_cons c rest))
      have size : byteLength (c :: rest)
          = byteLength (c :: rest.takeWhile keep) + byteLength (rest.dropWhile keep) := by
        rw [← byteLength_append, List.cons_append, List.takeWhile_append_dropWhile]
      rw [List.cons_append, runsAt_cons_keep kept, runsAt_cons_keep kept, taken, dropped,
        ih remains, size, Nat.add_assoc, List.cons_append]
  | skip c rest skipped ih =>
      have remains := apart.of_suffix (List.suffix_cons c rest)
      rw [List.cons_append, runsAt_cons_skip skipped, runsAt_cons_skip skipped, ih remains,
        byteLength_cons, Nat.add_assoc]

theorem runs_append (apart : Apart keep front back) :
    runs keep (front ++ back) = runs keep front ++ runs keep back := by
  rw [runs, runsAt_append apart, List.map_append, map_snd_runsAt, map_snd_runsAt]

theorem runs_of_kept (inhabited : run ≠ []) (kept : ∀ c ∈ run, keep c = true) :
    runs keep run = [run] := by
  rw [runs, runsAt_of_kept inhabited kept, List.map_singleton]

theorem apart_of_getLast? (fails : ∀ c ∈ front.getLast?, keep c = false) :
    Apart keep front back := by
  intro c last d _ kept
  rw [fails c last] at kept
  cases kept

theorem apart_of_head? (fails : ∀ c ∈ back.head?, keep c = false) : Apart keep front back :=
  fun _ _ d first _ => fails d first

/-- A run of kept characters: at least one, and none next to them. -/
structure IsRun (keep : Char → Bool) (text : List Char) (start : Nat) (run : List Char) :
    Prop where
  placed : ∃ front back, text = front ++ run ++ back ∧ byteLength front = start
  inhabited : run ≠ []
  kept : ∀ c ∈ run, keep c = true
  opens : NoneEnds keep text start
  closes : NoneStands keep text (start + byteLength run)

/-- A run that is cut from a text stands between two parts that do not continue it. -/
theorem exists_parts_of_mem_runsAt {found : Nat × List Char}
    (member : found ∈ runsAt keep offset text) :
    ∃ front back, text = front ++ found.2 ++ back ∧ found.1 = offset + byteLength front ∧
      found.2 ≠ [] ∧
      (∀ c ∈ found.2, keep c = true) ∧ (∀ c ∈ front.getLast?, keep c = false) ∧
      ∀ c ∈ back.head?, keep c = false := by
  induction text using inductionOnRuns keep generalizing offset with
  | nil => simp [runsAt] at member
  | run c rest kept ih =>
      have stops := List.head?_dropWhile_not keep rest
      rw [runsAt_cons_keep kept, List.mem_cons] at member
      rcases member with rfl | later
      · refine ⟨[], rest.dropWhile keep, ?_, rfl, List.cons_ne_nil _ _, ?_, by simp, ?_⟩
        · simp
        · rw [List.forall_mem_cons]
          exact ⟨kept, fun d inside => List.mem_takeWhile_imp inside⟩
        · intro d first
          rw [Option.mem_def.mp first] at stops
          exact stops
      · obtain ⟨front, back, whole, size, inhabited, all, opens, closes⟩ := ih later
        -- What follows a run does not begin with a kept character, so it does not begin with this
        -- run.
        have between : front ≠ [] := by
          rintro rfl
          obtain ⟨d, more, same⟩ := List.exists_cons_of_ne_nil inhabited
          rw [whole, same] at stops
          simp [all d (by simp [same])] at stops
        refine ⟨c :: rest.takeWhile keep ++ front, back, ?_, ?_, inhabited, all, ?_, closes⟩
        · rw [List.append_assoc, List.append_assoc, ← List.append_assoc front, ← whole]
          simp
        · rw [size, byteLength_append, Nat.add_assoc]
        · rwa [List.getLast?_append_of_ne_nil _ between]
  | skip c rest skipped ih =>
      rw [runsAt_cons_skip skipped] at member
      obtain ⟨front, back, rfl, size, inhabited, all, opens, closes⟩ := ih member
      refine ⟨c :: front, back, rfl, ?_, inhabited, all, ?_, closes⟩
      · rw [size, byteLength_cons, Nat.add_assoc]
      · intro d last
        cases front with
        | nil =>
            obtain rfl : c = d := by simpa using last
            exact skipped
        | cons e front => exact opens d (by simpa using last)

/-- Runs follow each other. -/
theorem pairwise_runsAt (offset : Nat) (text : List Char) :
    (runsAt keep offset text).Pairwise (fun run next => run.1 + byteLength run.2 ≤ next.1) := by
  fun_induction runsAt keep offset text with
  | case1 => exact .nil
  | case2 offset c rest kept word ih =>
      refine .cons (fun next later => ?_) ih
      obtain ⟨front, _, _, size, _⟩ := exists_parts_of_mem_runsAt later
      rw [size]
      exact Nat.le_add_right _ _
  | case3 offset c rest skipped ih => exact ih

/-- The runs that are cut from a text are its runs. -/
theorem mem_runsAt_iff : (start, run) ∈ runsAt keep 0 text ↔ IsRun keep text start run := by
  constructor
  · intro member
    obtain ⟨front, back, rfl, size, inhabited, kept, opens, closes⟩ :=
      exists_parts_of_mem_runsAt member
    obtain rfl : start = byteLength front := size.trans (Nat.zero_add _)
    refine ⟨⟨front, back, rfl, rfl⟩, inhabited, kept, ?_, ?_⟩
    · rw [List.append_assoc]
      exact noneEnds_append_iff.mpr opens
    · rw [← byteLength_append]
      exact noneStands_append_iff.mpr closes
  · rintro ⟨⟨front, back, rfl, rfl⟩, inhabited, kept, opens, closes⟩
    rw [← byteLength_append] at closes
    rw [List.append_assoc] at opens
    have behind := noneStands_append_iff.mp closes
    have before := noneEnds_append_iff.mp opens
    rw [List.append_assoc, runsAt_append (apart_of_getLast? before),
      runsAt_append (apart_of_head? behind), runsAt_of_kept inhabited kept, Nat.zero_add]
    simp

theorem IsRun.isBoundary_start (is : IsRun keep text start run) : isBoundary text start = true := by
  obtain ⟨front, back, rfl, rfl⟩ := is.placed
  exact isBoundary_iff.mpr ⟨front, run ++ back, List.append_assoc _ _ _, rfl⟩

theorem IsRun.isBoundary_stop (is : IsRun keep text start run) :
    isBoundary text (start + byteLength run) = true := by
  obtain ⟨front, back, rfl, rfl⟩ := is.placed
  exact isBoundary_iff.mpr ⟨front ++ run, back, rfl, byteLength_append _ _⟩

/-- A run begins with a kept character. -/
theorem IsRun.not_noneStands (is : IsRun keep text start run) : ¬ NoneStands keep text start := by
  intro none
  obtain ⟨front, back, whole, size⟩ := is.placed
  obtain ⟨c, rest, rfl⟩ := List.exists_cons_of_ne_nil is.inhabited
  have fails := none c ⟨front, rest ++ back, by rw [whole]; simp, size⟩
  rw [is.kept c List.mem_cons_self] at fails
  cases fails

theorem bounds_of_mem_runsAt {found : Nat × List Char}
    (member : found ∈ runsAt keep offset text) :
    offset ≤ found.1 ∧ 0 < byteLength found.2 ∧
    found.1 + byteLength found.2 ≤ offset + byteLength text := by
  obtain ⟨front, back, rfl, size, inhabited, -⟩ := exists_parts_of_mem_runsAt member
  have bytes := byteLength_pos inhabited
  rw [byteLength_append, byteLength_append]
  omega

/-- Stretches that lie apart and overlap are the same. -/
theorem eq_of_overlap {Item : Type} {start stop : Item → Nat} {items : List Item}
    {item other : Item} (apart : items.Pairwise (fun item next => stop item ≤ start next))
    (here : item ∈ items) (there : other ∈ items) (before : start item < stop other)
    (after : start other < stop item) : item = other := by
  by_contra different
  have : Std.Symm (fun item next => stop item ≤ start next ∨ stop next ≤ start item) :=
    ⟨fun _ _ => Or.symm⟩
  have either : items.Pairwise (fun item next => stop item ≤ start next ∨
      stop next ≤ start item) :=
    apart.imp Or.inl
  rcases either.forall here there different with ends | begins
  · exact absurd after (Nat.not_lt.mpr ends)
  · exact absurd before (Nat.not_lt.mpr begins)

/-- Two runs that share a place are the same. -/
theorem IsRun.eq_of_overlap {other : Nat} {again : List Char} (here : IsRun keep text start run)
    (there : IsRun keep text other again) (before : start < other + byteLength again)
    (after : other < start + byteLength run) : start = other ∧ run = again :=
  Prod.mk.inj (Text.eq_of_overlap (pairwise_runsAt 0 text) (mem_runsAt_iff.mpr here)
    (mem_runsAt_iff.mpr there) before after)

/-- Runs that begin in front of a stretch, in it and behind it. -/
structure Surround (start stop : Nat) (before middle behind : List (Nat × List Char)) : Prop where
  before : ∀ run ∈ before, run.1 < start
  inside : ∀ run ∈ middle, start ≤ run.1 ∧ run.1 < stop
  behind : ∀ run ∈ behind, stop ≤ run.1

/-- The runs that begin in a stretch are those between the others. -/
theorem Surround.filter_eq {stop : Nat} {before middle behind : List (Nat × List Char)}
    (surround : Surround start stop before middle behind) :
    (before ++ middle ++ behind).filter
    (fun run => decide (start ≤ run.1) && decide (run.1 < stop))
      = middle := by
  have test : ∀ run : Nat × List Char,
      (decide (start ≤ run.1) && decide (run.1 < stop)) = true ↔ start ≤ run.1 ∧
      run.1 < stop := by simp
  have outside : ∀ {runs : List (Nat × List Char)},
      (∀ run ∈ runs, run.1 < start ∨ stop ≤ run.1) →
      runs.filter (fun run => decide (start ≤ run.1) && decide (run.1 < stop)) = [] := by
    intro runs bounds
    refine List.filter_eq_nil_iff.mpr fun run member => ?_
    have bound := bounds run member
    rw [test]
    omega
  rw [List.filter_append, List.filter_append, outside fun run member =>
    .inl (surround.before run member), outside fun run member => .inr (surround.behind run member),
      List.nil_append, List.append_nil]
  exact List.filter_eq_self.mpr fun run member => (test run).mpr (surround.inside run member)

/-- Where no run goes on across the edges of a slice, its runs stand among the runs of the text. -/
theorem exists_runsAt_slice {stop : Nat} (first : isBoundary text start = true)
    (last : isBoundary text stop = true) (ordered : start ≤ stop)
    (opens : NoneEnds keep text start) (closes : NoneStands keep text stop) :
    ∃ before behind, runsAt keep 0 text = before ++
      runsAt keep start (slice text start stop) ++ behind ∧
      Surround start stop before (runsAt keep start (slice text start stop)) behind := by
  obtain ⟨front, middle, back, rfl, rfl, rfl, sliced⟩ := exists_middle first last ordered
  rw [List.append_assoc] at opens
  have before : Apart keep front (middle ++ back) :=
    apart_of_getLast? (noneEnds_append_iff.mp opens)
  have behind : Apart keep middle back := apart_of_head? (noneStands_append_iff.mp closes)
  rw [sliced, List.append_assoc, runsAt_append before, runsAt_append behind, Nat.zero_add]
  refine ⟨_, _, (List.append_assoc _ _ _).symm, ⟨?_, ?_, ?_⟩⟩ <;> intro run member
  · have bounds := bounds_of_mem_runsAt member
    omega
  · have bounds := bounds_of_mem_runsAt member
    rw [byteLength_append]
    omega
  · have bounds := bounds_of_mem_runsAt member
    rw [byteLength_append]
    omega

/-- A text read as runs: kept characters side by side, and other characters between them. -/
inductive ReadsAs (keep : Char → Bool) : List Char → List (List Char) → Prop
  | gap {gap : List Char} (skipped : ∀ c ∈ gap, keep c = false) : ReadsAs keep gap []
  | run {gap run rest : List Char} {runs : List (List Char)}
      (skipped : ∀ c ∈ gap, keep c = false) (inhabited : run ≠ []) (kept : ∀ c ∈ run,
        keep c = true) (ends : ∀ c ∈ rest.head?, keep c = false)
      (more : ReadsAs keep rest runs) : ReadsAs keep (gap ++ (run ++ rest)) (run :: runs)

theorem readsAs_iff {found : List (List Char)} :
    ReadsAs keep text found ↔ runs keep text = found := by
  constructor
  · intro reads
    induction reads with
    | gap skipped => exact runs_eq_nil_iff.mpr skipped
    | @run gap run rest runs skipped inhabited kept ends more ih =>
        have before : ∀ c ∈ gap.getLast?, keep c = false :=
          fun c last => skipped c (List.mem_of_getLast? last)
        rw [runs_append (apart_of_getLast? before), runs_append (apart_of_head? ends),
          runs_eq_nil_iff.mpr skipped, runs_of_kept inhabited kept, ih, List.nil_append,
          List.singleton_append]
  · rintro rfl
    induction text using inductionOnRuns keep with
    | nil =>
        rw [runs_nil]
        exact .gap (by simp)
    | run c rest kept ih =>
        have stops := List.head?_dropWhile_not keep rest
        rw [runs_cons_keep kept]
        have whole : c :: rest = [] ++ (c :: rest.takeWhile keep ++ rest.dropWhile keep) := by simp
        rw [whole]
        refine .run (by simp) (List.cons_ne_nil _ _) ?_ ?_ ih
        · rw [List.forall_mem_cons]
          exact ⟨kept, fun d inside => List.mem_takeWhile_imp inside⟩
        · intro d first
          rw [Option.mem_def.mp first] at stops
          exact stops
    | skip c rest skipped ih =>
        rw [runs_cons_skip skipped]
        generalize runs keep rest = found at ih
        cases ih with
        | gap none => exact .gap (by simpa [skipped] using none)
        | run none inhabited kept ends more =>
            rw [← List.cons_append]
            exact .run (by simpa [skipped] using none) inhabited kept ends more

end FacetSearch.Text
