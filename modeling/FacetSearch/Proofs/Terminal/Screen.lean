import FacetSearch.Proofs.Text.Offsets
import FacetSearch.Terminal.Style

/-!
What a terminal shows. Each control code sets a style, up to the one that ends all of them;
everything else is text, shown in the styles that are set. `Shows` says of an output that a text is
all that it shows, that the given ranges of it are in the given styles and the rest is plain, and
that no style stays set behind it.
-/

set_option autoImplicit false

namespace FacetSearch.Terminal

open Text (byteLength)

/-- The character that a control code begins with. -/
def escape : Char := '\x1b'

/-- A control code without its first and its last character. -/
def sequence (code : String) : List Char := '[' :: code.toList

/-- A stretch of shown text, from `start` to `stop`, and the codes it is shown in. -/
structure Stretch where
  start : Nat
  stop : Nat
  codes : List (List Char)
  deriving DecidableEq, Repr

/-- A terminal: the text that it shows, the codes that are set and where they were set, the
stretches before that, and the control code that it is reading. -/
structure Screen where
  shown : List Char
  codes : List (List Char)
  since : Nat
  done : List Stretch
  pending : Option (List Char)
  deriving DecidableEq, Repr

namespace Screen

/-- A terminal that has read nothing. -/
def blank : Screen := ⟨[], [], 0, [], none⟩

/-- Shows more text. -/
def print (screen : Screen) (text : List Char) : Screen :=
  { screen with shown := screen.shown ++ text }

/-- Sets one more code, or none where the code ends all of them. -/
def obey (screen : Screen) (code : List Char) : Screen :=
  { screen with
    codes := if code = sequence "0" then [] else screen.codes ++ [code]
    since := byteLength screen.shown
    done := screen.done ++ [⟨screen.since, byteLength screen.shown, screen.codes⟩]
    pending := none }

/-- Reads one character. -/
def step (screen : Screen) (c : Char) : Screen :=
  match screen.pending with
  | none => if c = escape then { screen with pending := some [] } else screen.print [c]
  | some code => if c = 'm' then screen.obey code else { screen with pending := some (code ++ [c]) }

/-- Reads an output. -/
def read (screen : Screen) (output : List Char) : Screen := output.foldl step screen

variable {screen : Screen} {text output code : List Char}

@[simp] theorem read_nil (screen : Screen) : screen.read [] = screen := rfl

@[simp] theorem read_cons (screen : Screen) (c : Char) (output : List Char) :
    screen.read (c :: output) = (screen.step c).read output := rfl

theorem read_append (screen : Screen) (front back : List Char) :
    screen.read (front ++ back) = (screen.read front).read back := List.foldl_append

/-- Between control codes everything is shown. -/
theorem read_text (idle : screen.pending = none) (unescaped : escape ∉ text) :
    screen.read text = screen.print text := by
  induction text generalizing screen with
  | nil => rw [read_nil, print, List.append_nil]
  | cons c rest ih =>
      rw [List.mem_cons, not_or] at unescaped
      have next : screen.step c = screen.print [c] := by
        rw [step, idle]
        exact if_neg (Ne.symm unescaped.1)
      have later : (screen.print [c]).read rest = (screen.print [c]).print rest :=
        ih idle unescaped.2
      rw [read_cons, next, later, print, print, print, List.append_assoc, List.singleton_append]

/-- A control code goes up to its last character. -/
theorem read_pending {front : List Char} (reading : screen.pending = some front)
    (unended : 'm' ∉ code) : screen.read (code ++ ['m']) = screen.obey (front ++ code) := by
  induction code generalizing screen front with
  | nil =>
      rw [List.nil_append, read_cons, read_nil, step, reading, List.append_nil]
      exact if_pos rfl
  | cons c rest ih =>
      rw [List.mem_cons, not_or] at unended
      have next : screen.step c = { screen with pending := some (front ++ [c]) } := by
        rw [step, reading]
        exact if_neg (Ne.symm unended.1)
      rw [List.cons_append, read_cons, next, ih rfl unended.2, List.append_assoc,
        List.singleton_append]
      rfl

theorem read_control (idle : screen.pending = none) {code : String}
    (unended : 'm' ∉ code.toList) : screen.read (control code) = screen.obey (sequence code) := by
  have opened : screen.step escape = { screen with pending := some [] } := by
    rw [step, idle]
    exact if_pos rfl
  have bracket : '[' :: code.toList ++ ['m'] = sequence code ++ ['m'] := rfl
  have within : 'm' ∉ sequence code := by
    rw [sequence, List.mem_cons, not_or]
    exact ⟨by decide, unended⟩
  rw [control]
  change (screen.step escape).read ('[' :: code.toList ++ ['m']) = _
  rw [opened, bracket, read_pending rfl within, List.nil_append]
  rfl

end Screen

/-- What a style sets. -/
def Style.sequence (style : Style) : List Char := Terminal.sequence style.code

theorem Style.sequence_ne (style : Style) : style.sequence ≠ Terminal.sequence "0" := by
  cases style <;> decide

/-- A terminal on which some styles are set. It shows a text, of which the given ranges are in the
styles looked for. What else was in any style is empty. -/
structure Screen.Shows (screen : Screen) (styles active : List Style) (text : List Char)
    (ranges : List (Nat × Nat)) : Prop where
  idle : screen.pending = none
  codes : screen.codes = active.map Style.sequence
  shown : screen.shown = text
  stretches : (screen.done.filter (·.codes = styles.map Style.sequence)).map (fun stretch =>
    (stretch.start, stretch.stop)) = ranges
  others : ∀ stretch ∈ screen.done, stretch.codes = [] ∨
    stretch.codes = styles.map Style.sequence ∨
    stretch.start = stretch.stop

namespace Screen.Shows

variable {screen : Screen} {styles active more : List Style} {style : Style} {text : List Char}
  {ranges : List (Nat × Nat)}

theorem blank (styles : List Style) : Screen.blank.Shows styles [] [] [] :=
  ⟨rfl, rfl, rfl, rfl, nofun⟩

theorem print (shows : screen.Shows styles active text ranges) {behind : List Char}
    (unescaped : escape ∉ behind) :
    (screen.read behind).Shows styles active (text ++ behind) ranges := by
  rw [Screen.read_text shows.idle unescaped]
  exact ⟨shows.idle, shows.codes, by rw [Screen.print, shows.shown], shows.stretches,
    shows.others⟩

/-- One more style is set where the text in front of it is plain or there is none. -/
theorem setStyle (shows : screen.Shows styles active text ranges)
    (fewer : active.length < styles.length) (bare : active = [] ∨ screen.since = byteLength text)
    (style : Style) :
    (screen.read (control style.code)).Shows styles (active ++ [style]) text ranges ∧
      (screen.read (control style.code)).since = byteLength text := by
  have unended : 'm' ∉ style.code.toList := by cases style <;> decide
  have read := Screen.read_control shows.idle unended
  have different : ¬ screen.codes = styles.map Style.sequence := by
    intro same
    have lengths := congrArg List.length same
    rw [shows.codes, List.length_map, List.length_map] at lengths
    omega
  rw [read]
  refine ⟨⟨rfl, ?_, shows.shown, ?_, ?_⟩, by rw [Screen.obey, shows.shown]⟩
  · have plain := style.sequence_ne
    rw [Style.sequence] at plain
    rw [Screen.obey, if_neg plain, shows.codes, List.map_append]
    rfl
  · rw [Screen.obey, List.filter_append, List.filter_cons_of_neg (by simpa using different),
      List.filter_nil, List.append_nil, shows.stretches]
  · intro stretch member
    rcases List.mem_append.mp member with before | last
    · exact shows.others stretch before
    · rw [List.mem_singleton.mp last]
      rcases bare with rfl | same
      · exact .inl (by rw [shows.codes]; rfl)
      · exact .inr (.inr (by rw [same, shows.shown]))

/-- Where all styles are set, ending them gives one more range. -/
theorem reset (shows : screen.Shows styles styles text ranges) :
    (screen.read Terminal.reset).Shows styles [] text
    (ranges ++ [(screen.since, byteLength text)]) := by
  have unended : 'm' ∉ ("0" : String).toList := by decide
  rw [Terminal.reset, Screen.read_control shows.idle unended]
  refine ⟨rfl, by rw [Screen.obey, if_pos rfl]; rfl, shows.shown, ?_, ?_⟩
  · rw [Screen.obey, List.filter_append, List.filter_cons_of_pos (by simpa using shows.codes),
      List.filter_nil, List.map_append, shows.stretches, shows.shown]
    rfl
  · intro stretch member
    rcases List.mem_append.mp member with before | last
    · exact shows.others stretch before
    · rw [List.mem_singleton.mp last]
      exact .inr (.inl shows.codes)

/-- Setting the styles that are left sets all of them. -/
theorem setAll (shows : screen.Shows styles active text ranges) (whole : active ++ more = styles)
    (some : active ≠ [] ∨ more ≠ []) (bare : active = [] ∨ screen.since = byteLength text) :
    (screen.read (more.flatMap fun style => control style.code)).Shows styles styles text ranges ∧
      (screen.read (more.flatMap fun style => control style.code)).since = byteLength text := by
  induction more generalizing screen active with
  | nil =>
      rw [List.append_nil] at whole
      subst whole
      have inhabited := some.resolve_right (fun nothing => nothing rfl)
      exact ⟨shows, bare.resolve_left inhabited⟩
  | cons style rest ih =>
      have fewer : active.length < styles.length := by
        rw [← whole, List.length_append, List.length_cons]
        omega
      obtain ⟨next, since⟩ := shows.setStyle fewer bare style
      rw [List.flatMap_cons, Screen.read_append]
      exact ih next (by rw [← whole, List.append_assoc]; rfl) (.inl (by simp)) (.inr since)

/-- A text in all the styles is one more range. -/
theorem styled (shows : screen.Shows styles [] text ranges) (some : styles ≠ [])
    {behind : List Char} (unescaped : escape ∉ behind) :
    (screen.read (Terminal.styled styles behind)).Shows styles [] (text ++ behind)
      (ranges ++ [(byteLength text, byteLength (text ++ behind))]) := by
  obtain ⟨ready, since⟩ := shows.setAll (List.nil_append styles) (.inr some) (.inl rfl)
  have finished := (ready.print unescaped).reset
  have kept : ∀ screen : Screen, screen.pending = none →
      (screen.read behind).since = screen.since := by
    intro screen idle
    rw [Screen.read_text idle unescaped]
    rfl
  rwa [kept _ ready.idle, since, ← Screen.read_append, ← Screen.read_append,
    ← List.append_assoc] at finished

end Screen.Shows

/-- An output shows a text, with the given ranges of it in some styles and the rest plain. No style
stays set behind it. -/
def Shows (output : List Char) (styles : List Style) (text : List Char)
    (ranges : List (Nat × Nat)) : Prop :=
  (Screen.blank.read output).Shows styles [] text ranges

end FacetSearch.Terminal
