import Chatbox.Ui.Glyphs

/-!
Text broken into lines. A line is broken at its last blank, if what is before it fills half of
the width, and else where it is full.
-/

namespace Chatbox.Ui

open Text Utf8

/-- A line that has been broken off, and whether the break has taken a blank. -/
structure BrokenLine where
  text : Bytes
  blank : Bool
deriving DecidableEq, Repr

/-- The line as it was, up to what follows. -/
def BrokenLine.rejoined (broken : BrokenLine) : Bytes :=
  broken.text ++ if broken.blank then ascii " " else []

/-- `lines`, `line` and `used` of the loop. -/
structure Wrap where
  lines : List BrokenLine := []
  line : Bytes := []
  used : Int := 0
deriving DecidableEq, Repr

section

variable (wcwidth : Char → Int) (width : Int)

namespace Wrap

def breakLine (wrap : Wrap) : Wrap :=
  let space := (rfind wrap.line 32).filter fun space =>
    textWidth wcwidth (wrap.line.take space) ≥ width / 2
  match space with
  | some space =>
      let line := wrap.line.drop (space + 1)
      { lines := wrap.lines ++ [{ text := wrap.line.take space, blank := true }]
        line
        used := textWidth wcwidth line }
  | none => { lines := wrap.lines ++ [{ text := wrap.line, blank := false }] }

def add (wrap : Wrap) (glyph : Glyph) : Wrap :=
  let wrap :=
    if wrap.used + glyph.width > width && !wrap.line.isEmpty then wrap.breakLine wcwidth width
    else wrap
  if glyph.width > width then { wrap with line := wrap.line ++ ascii "?", used := wrap.used + 1 }
  else { wrap with line := wrap.line ++ glyph.text, used := wrap.used + glyph.width }

end Wrap

def wrap (text : Bytes) : Wrap := (glyphs wcwidth text).foldl (Wrap.add wcwidth width) {}

def wrapText (text : Bytes) : List Bytes :=
  if width < 1 then []
  else
    let wrap := wrap wcwidth width text
    let lines := wrap.lines.map BrokenLine.text
    if !wrap.line.isEmpty || lines.isEmpty then lines ++ [wrap.line] else lines

end

theorem wrapText_ne_nil {wcwidth : Char → Int} {width : Int} (some_ : 1 ≤ width) (text : Bytes) :
    wrapText wcwidth width text ≠ [] := by
  rw [wrapText, if_neg (by omega)]
  dsimp only
  split
  · exact List.append_ne_nil_of_right_ne_nil _ (List.cons_ne_nil _ _)
  · next full =>
      intro none
      rw [none] at full
      simp at full

section Printable

variable {wcwidth : Char → Int} {width : Int} {wrap : Wrap}

/-- The line and the lines before it are printable. -/
structure Wrap.Printed (wrap : Wrap) : Prop where
  line : Printable wrap.line
  lines : ∀ broken ∈ wrap.lines, Printable broken.text

theorem Printable.rfind {line : Bytes} {space : Nat} (printable : Printable line)
    (found : rfind line 32 = some space) :
    ∃ before after, encode before = line.take space ∧ encode after = line.drop (space + 1) ∧
      line = encode before ++ encode (' ' :: after) ∧
      Printable (encode before) ∧ Printable (encode after) := by
  obtain ⟨chars, rfl, clean⟩ := printable
  obtain ⟨whole, -⟩ := rfind_eq_some found
  obtain ⟨before, after, rfl, front, back⟩ := encode_ascii (a := ' ') rfl whole
  rw [List.forall_mem_append, List.forall_mem_cons] at clean
  exact ⟨before, after, front, back, encode_append before _,
    ⟨before, rfl, clean.1⟩, ⟨after, rfl, clean.2.2⟩⟩

theorem Wrap.Printed.breakLine (printed : wrap.Printed) :
    (wrap.breakLine wcwidth width).Printed := by
  unfold Wrap.breakLine
  dsimp only
  split
  · next found =>
      obtain ⟨found, -⟩ := Option.filter_eq_some_iff.mp found
      obtain ⟨before, after, front, back, -, first, rest⟩ := printed.line.rfind found
      refine ⟨back ▸ rest, ?_⟩
      exact List.forall_mem_append.mpr ⟨printed.lines, List.forall_mem_singleton.mpr (front ▸ first)⟩
  · refine ⟨printable_nil, ?_⟩
    exact List.forall_mem_append.mpr ⟨printed.lines, List.forall_mem_singleton.mpr printed.line⟩

theorem Wrap.Printed.add {glyph : Glyph} (printed : wrap.Printed)
    (shows_ : ∃ c, glyph.Shows wcwidth c) : (wrap.add wcwidth width glyph).Printed := by
  have broken : (if wrap.used + glyph.width > width && !wrap.line.isEmpty
      then wrap.breakLine wcwidth width else wrap).Printed := by
    split
    · exact printed.breakLine
    · exact printed
  obtain ⟨c, shows_⟩ := shows_
  unfold Wrap.add
  dsimp only
  split
  · exact ⟨broken.line.append ⟨['?'], rfl, List.forall_mem_singleton.mpr rfl⟩, broken.lines⟩
  · refine ⟨broken.line.append ⟨[c], ?_, ?_⟩, broken.lines⟩
    · rw [encode_singleton, shows_.text]
    · exact List.forall_mem_singleton.mpr shows_.printable

theorem printed_wrap (text : Bytes) : (Ui.wrap wcwidth width text).Printed := by
  refine List.foldlRecOn _ _ ⟨printable_nil, nofun⟩ fun wrap printed glyph mem => ?_
  exact printed.add (glyphs_show mem)

theorem printable_wrapText {text line : Bytes} (mem : line ∈ wrapText wcwidth width text) :
    Printable line := by
  have printed : (Ui.wrap wcwidth width text).Printed := printed_wrap text
  have lines : ∀ line ∈ (Ui.wrap wcwidth width text).lines.map BrokenLine.text, Printable line :=
    List.forall_mem_map.mpr printed.lines
  unfold wrapText at mem
  dsimp only at mem
  split at mem
  · cases mem
  · split at mem
    · obtain mem | mem := List.mem_append.mp mem
      · exact lines line mem
      · obtain rfl := List.mem_singleton.mp mem
        exact printed.line
    · exact lines line mem

end Printable

section Width

variable {wcwidth : Char → Int} {width : Int} {wrap : Wrap} {done : Bytes}

/-- The characters that stand for others take the one cell that is counted for them. A blank of
negative width does so as a question mark. -/
structure Replaces (wcwidth : Char → Int) : Prop where
  space : wcwidth ' ' = 1 ∨ wcwidth ' ' < 0
  question : wcwidth '?' ≤ 1

theorem Replaces.blank (replaces : Replaces wcwidth) : (glyph wcwidth ' ').width = 1 := by
  rw [glyph, if_neg (by decide)]
  split
  · rfl
  · exact replaces.space.resolve_right ‹_›

/-- The lines fit, `used` is at least the width of the line, and the lines joined again are what
has been read so far. -/
structure Wrap.Sound (wcwidth : Char → Int) (width : Int) (wrap : Wrap) (done : Bytes) : Prop where
  printed : wrap.Printed
  lines : ∀ broken ∈ wrap.lines, textWidth wcwidth broken.text ≤ width
  cells : textWidth wcwidth wrap.line ≤ wrap.used
  used : wrap.used ≤ width
  rejoined : wrap.lines.flatMap BrokenLine.rejoined ++ wrap.line = done

theorem Wrap.Sound.used_nonneg (sound : wrap.Sound wcwidth width done) : 0 ≤ wrap.used :=
  (textWidth_nonneg _).trans sound.cells

/-- After a break there is room for any glyph, or for its question mark. -/
theorem Wrap.Sound.breakLine (sound : wrap.Sound wcwidth width done) (replaces : Replaces wcwidth)
    (some_ : 1 ≤ width) :
    (wrap.breakLine wcwidth width).Sound wcwidth width done ∧
      (wrap.breakLine wcwidth width).used + min 2 width ≤ width := by
  have printed : (wrap.breakLine wcwidth width).Printed := sound.printed.breakLine
  have cells := sound.cells
  have used := sound.used
  unfold Wrap.breakLine at printed ⊢
  dsimp only at printed ⊢
  split at printed
  · next found =>
      obtain ⟨found, half⟩ := Option.filter_eq_some_iff.mp found
      obtain ⟨before, after, front, back, whole, -⟩ := sound.printed.line.rfind found
      simp only [decide_eq_true_eq, ← front, ← back] at half printed ⊢
      -- The three parts of the line: what is broken off, the blank and the rest.
      rw [whole, textWidth_append, encode_cons, ← encode_singleton, textWidth_append,
        encode_singleton, textWidth_char, replaces.blank] at cells
      have rest : 0 ≤ textWidth wcwidth (encode after) := textWidth_nonneg _
      refine ⟨⟨printed, ?_, Int.le_refl _, ?_, ?_⟩, ?_⟩
      · exact List.forall_mem_append.mpr
          ⟨sound.lines, List.forall_mem_singleton.mpr (by dsimp only; omega)⟩
      · dsimp only
        omega
      · rw [← sound.rejoined, whole, List.flatMap_append, encode_cons]
        simp [BrokenLine.rejoined]
        rfl
      · omega
  · refine ⟨⟨printed, ?_, Int.le_refl 0, ?_, ?_⟩, ?_⟩
    · exact List.forall_mem_append.mpr
        ⟨sound.lines, List.forall_mem_singleton.mpr (cells.trans used)⟩
    · dsimp only
      omega
    · rw [← sound.rejoined, List.flatMap_append]
      simp [BrokenLine.rejoined]
    · dsimp only
      omega

/-- Where the loop adds a glyph there is room for it, for a break has come before where there has
been none. -/
theorem Wrap.Sound.room {glyph : Glyph} (sound : wrap.Sound wcwidth width done)
    (start : wrap.line = [] → wrap.used = 0) (replaces : Replaces wcwidth) (some_ : 1 ≤ width)
    (wide : glyph.width ≤ 2) {next : Wrap}
    (broken : (if wrap.used + glyph.width > width && !wrap.line.isEmpty
      then wrap.breakLine wcwidth width else wrap) = next) :
    next.Sound wcwidth width done ∧
      next.used + (if glyph.width > width then 1 else glyph.width) ≤ width := by
  have nonneg := sound.used_nonneg
  rw [← broken]
  split
  · obtain ⟨kept, fits⟩ := sound.breakLine replaces some_
    exact ⟨kept, by split <;> omega⟩
  · next whole =>
      simp only [Bool.and_eq_true, decide_eq_true_eq, Bool.not_eq_true', List.isEmpty_eq_false_iff,
        not_and, not_not] at whole
      refine ⟨sound, ?_⟩
      by_cases fits : wrap.used + glyph.width ≤ width
      · rw [if_neg (by omega)]
        exact fits
      · have := start (whole (by omega))
        split <;> omega

/-- What the loop adds for a glyph. -/
def narrowed (width : Int) (glyph : Glyph) : Bytes :=
  if glyph.width > width then ascii "?" else glyph.text

theorem Wrap.Sound.add {glyph : Glyph} (sound : wrap.Sound wcwidth width done)
    (start : wrap.line = [] → wrap.used = 0) (replaces : Replaces wcwidth)
    (range : ∀ c, wcwidth c ≤ 2) (some_ : 1 ≤ width) (shows_ : ∃ c, glyph.Shows wcwidth c) :
    (wrap.add wcwidth width glyph).Sound wcwidth width (done ++ narrowed width glyph) ∧
      (wrap.add wcwidth width glyph).line ≠ [] := by
  have printed : (wrap.add wcwidth width glyph).Printed := sound.printed.add shows_
  obtain ⟨c, shows_⟩ := shows_
  unfold Wrap.add at printed ⊢
  dsimp only at printed ⊢
  generalize broken : (if wrap.used + glyph.width > width && !wrap.line.isEmpty
    then wrap.breakLine wcwidth width else wrap) = next at printed ⊢
  obtain ⟨kept, fits⟩ := sound.room start replaces some_ (shows_.width_le_two range) broken
  have cells := kept.cells
  unfold narrowed
  split at fits
  · next tooWide =>
      rw [if_pos tooWide] at printed ⊢
      have question : (Ui.glyph wcwidth '?').width ≤ 1 := width_le_one rfl replaces.question
      refine ⟨⟨printed, kept.lines, ?_, fits, ?_⟩, by simp [ascii]⟩
      · have mark : ascii "?" = String.utf8EncodeChar '?' := rfl
        dsimp only
        rw [kept.printed.line.textWidth_append, mark, textWidth_char]
        omega
      · rw [if_pos tooWide, ← kept.rejoined, List.append_assoc]
  · next narrow =>
      rw [if_neg narrow] at printed ⊢
      have space : wcwidth ' ' ≤ 1 := by
        have := replaces.space
        omega
      have again := shows_.width_again_le space replaces.question
      refine ⟨⟨printed, kept.lines, ?_, fits, ?_⟩, ?_⟩
      · dsimp only
        rw [kept.printed.line.textWidth_append, shows_.text, textWidth_char]
        omega
      · rw [if_neg narrow, ← kept.rejoined, List.append_assoc]
      · rw [shows_.text]
        have := length_utf8EncodeChar_pos c
        exact List.append_ne_nil_of_right_ne_nil _ (List.length_pos_iff.mp this)

/-- The whole loop, over any glyphs. -/
theorem Wrap.Sound.foldl {shown : List Glyph} (sound : wrap.Sound wcwidth width done)
    (start : wrap.line = [] → wrap.used = 0 ∧ wrap.lines = []) (replaces : Replaces wcwidth)
    (range : ∀ c, wcwidth c ≤ 2) (some_ : 1 ≤ width)
    (shows_ : ∀ glyph ∈ shown, ∃ c, glyph.Shows wcwidth c) :
    (shown.foldl (Wrap.add wcwidth width) wrap).Sound wcwidth width
        (done ++ shown.flatMap (narrowed width)) ∧
      ((shown.foldl (Wrap.add wcwidth width) wrap).line = [] →
        (shown.foldl (Wrap.add wcwidth width) wrap).lines = []) := by
  induction shown generalizing wrap done with
  | nil => exact ⟨by rwa [List.flatMap_nil, List.append_nil], fun empty => (start empty).2⟩
  | cons glyph shown ih =>
      rw [List.forall_mem_cons] at shows_
      obtain ⟨next, filled⟩ :=
        sound.add (fun empty => (start empty).1) replaces range some_ shows_.1
      rw [List.foldl_cons, List.flatMap_cons, ← List.append_assoc]
      exact ih next (fun empty => absurd empty filled) shows_.2

end Width

section Main

variable (wcwidth : Char → Int) (width : Int)

/-- `display_text`, with question marks for the glyphs that are too wide for one cell. -/
def narrowText (text : Bytes) : Bytes :=
  if width = 1 then
    (glyphs wcwidth text).flatMap fun glyph => if glyph.width = 2 then ascii "?" else glyph.text
  else displayText wcwidth text

variable {wcwidth width}

theorem narrowText_eq (range : ∀ c, wcwidth c ≤ 2) (some_ : 1 ≤ width) (text : Bytes) :
    (glyphs wcwidth text).flatMap (narrowed width) = narrowText wcwidth width text := by
  unfold narrowText displayText narrowed
  split
  all_goals
    refine List.flatMap_congr fun glyph mem => ?_
    obtain ⟨c, shows_⟩ := glyphs_show mem
    have := shows_.width_le_two range
  · exact if_congr (by omega) rfl rfl
  · exact if_neg (by omega)

/-- Every line fits, there is one, and the lines joined again, with a blank where a break has
taken one, are the displayed text. -/
theorem wrapText_lines (range : ∀ c, -1 ≤ wcwidth c ∧ wcwidth c ≤ 2) (replaces : Replaces wcwidth)
    (some_ : 1 ≤ width) (text : Bytes) :
    (∀ line ∈ wrapText wcwidth width text, textWidth wcwidth line ≤ width) ∧
      wrapText wcwidth width text ≠ [] ∧
      wrapText wcwidth width text =
        (wrap wcwidth width text).lines.map BrokenLine.text ++ [(wrap wcwidth width text).line] ∧
      (wrap wcwidth width text).lines.flatMap BrokenLine.rejoined ++
        (wrap wcwidth width text).line = narrowText wcwidth width text := by
  have start : Wrap.Sound wcwidth width {} [] :=
    ⟨⟨printable_nil, nofun⟩, nofun, Int.le_refl 0, by dsimp only; omega, rfl⟩
  have shows_ : ∀ glyph ∈ glyphs wcwidth text, ∃ c, glyph.Shows wcwidth c :=
    fun glyph mem => glyphs_show mem
  obtain ⟨sound, empty⟩ :=
    start.foldl (fun _ => ⟨rfl, rfl⟩) replaces (fun c => (range c).2) some_ shows_
  rw [List.nil_append, narrowText_eq (fun c => (range c).2) some_] at sound
  have lines : wrapText wcwidth width text =
      (wrap wcwidth width text).lines.map BrokenLine.text ++ [(wrap wcwidth width text).line] := by
    rw [wrapText, if_neg (by omega)]
    dsimp only
    refine if_pos ?_
    rw [Bool.or_eq_true, Bool.not_eq_true', List.isEmpty_eq_false_iff, List.isEmpty_iff,
      List.map_eq_nil_iff, or_iff_not_imp_left, not_not]
    exact empty
  refine ⟨?_, wrapText_ne_nil some_ text, lines, sound.rejoined⟩
  rw [lines, List.forall_mem_append, List.forall_mem_map, List.forall_mem_singleton]
  exact ⟨sound.lines, sound.cells.trans sound.used⟩

/-- Nothing that is shown of a text controls the terminal, and nothing is cut that fits, whatever
the widths are. What is shown is shown again as it is, and it fits, where the characters that stand
for others are no wider than one cell. -/
theorem shown_text (wcwidth : Char → Int) (text : Bytes) (width : Int) (ellipsis : Bool) :
    Printable (displayText wcwidth text) ∧
      Printable (fitText wcwidth text width ellipsis) ∧
      (∀ line ∈ wrapText wcwidth width text, Printable line) ∧
      (1 ≤ width → textWidth wcwidth text ≤ width →
        fitText wcwidth text width ellipsis = displayText wcwidth text) ∧
      (0 ≤ wcwidth ' ' →
        displayText wcwidth (displayText wcwidth text) = displayText wcwidth text) ∧
      (wcwidth ' ' ≤ 1 → wcwidth '?' ≤ 1 → wcwidth '.' ≤ 1 →
        textWidth wcwidth (fitText wcwidth text width ellipsis) ≤ max width 0) :=
  ⟨printable_displayText text, printable_fitText text width ellipsis,
    fun _ mem => printable_wrapText mem,
    fun some_ fits => fitText_eq_displayText some_ fits ellipsis,
    fun space => displayText_displayText space text,
    fun space question stop => textWidth_fitText_le space question stop text width ellipsis⟩

end Main

/-- ASCII, combining and wide characters as in a C library. -/
def cells (c : Char) : Int :=
  if isControl c then -1
  else if 0x300 ≤ c.toNat ∧ c.toNat < 0x370 then 0
  else if 0x2e80 ≤ c.toNat ∧ c.toNat ≤ 0xa4cf then 2 else 1

theorem cells_range (c : Char) : -1 ≤ cells c ∧ cells c ≤ 2 := by
  unfold cells
  split_ifs <;> omega

/-- A break before a wide character that takes the blank. -/
theorem wrapText_lines_wide :
    wrapText cells 3 (encode ['a', ' ', 'b', '好']) = [encode ['a'], encode ['b', '好']] ∧
      (wrap cells 3 (encode ['a', ' ', 'b', '好'])).lines.flatMap BrokenLine.rejoined ++
        (wrap cells 3 (encode ['a', ' ', 'b', '好'])).line =
          narrowText cells 3 (encode ['a', ' ', 'b', '好']) :=
  ⟨by decide,
    (wrapText_lines cells_range ⟨.inl (by decide), by decide⟩ (by decide)
      (encode ['a', ' ', 'b', '好'])).2.2.2⟩

/-- A function that gives the blank or the question mark another width: the lines do not fit. -/
theorem wrapText_lines_unlike :
    (∃ wcwidth : Char → Int, (∀ c, -1 ≤ wcwidth c ∧ wcwidth c ≤ 2) ∧
      ∃ line ∈ wrapText wcwidth 1 [9], 1 < textWidth wcwidth line) ∧
    (∃ wcwidth : Char → Int, (∀ c, -1 ≤ wcwidth c ∧ wcwidth c ≤ 2) ∧ wcwidth '?' = 1 ∧
      ∃ line ∈ wrapText wcwidth 2 (encode ['a', ' ', 'b', '好']), 2 < textWidth wcwidth line) ∧
    ∃ wcwidth : Char → Int, (∀ c, -1 ≤ wcwidth c ∧ wcwidth c ≤ 2) ∧ wcwidth ' ' = 1 ∧
      ∃ line ∈ wrapText wcwidth 1 [0xff], 1 < textWidth wcwidth line := by
  refine ⟨⟨fun _ => 2, fun _ => by simp, by decide⟩,
    ⟨fun c => if c = ' ' then 0 else cells c, fun c => ?_, by decide, by decide⟩,
    ⟨fun c => if c = '?' then 2 else cells c, fun c => ?_, by decide, by decide⟩⟩
  all_goals
    have := cells_range c
    dsimp only
    split <;> omega

/-- An escape sequence and a byte that starts no character come with a message that is too
long. -/
theorem shown_text_escape :
    let text := 0x1b :: ascii "[2J" ++ [0xff] ++ encode ['好', '好']
    fitText cells text 8 true = ascii " [2J?..." ∧
      Printable (fitText cells text 8 true) ∧
      displayText cells (displayText cells text) = displayText cells text ∧
      textWidth cells (fitText cells text 8 true) ≤ max 8 0 := by
  intro text
  obtain ⟨-, printable, -, -, again, fits⟩ := shown_text cells text 8 true
  exact ⟨by decide, printable, again (by decide), fits (by decide) (by decide) (by decide)⟩

/-- A function that has no blank, or wide replacements: what is shown of a control character is
shown otherwise the second time, or does not fit. -/
theorem shown_text_unlike :
    (∃ wcwidth : Char → Int, (∀ c, -1 ≤ wcwidth c ∧ wcwidth c ≤ 2) ∧
      displayText wcwidth (displayText wcwidth [9]) ≠ displayText wcwidth [9]) ∧
    (∃ wcwidth : Char → Int, (∀ c, -1 ≤ wcwidth c ∧ wcwidth c ≤ 2) ∧
      max 1 0 < textWidth wcwidth (fitText wcwidth [9] 1 false)) ∧
    (∃ wcwidth : Char → Int, (∀ c, -1 ≤ wcwidth c ∧ wcwidth c ≤ 2) ∧ wcwidth ' ' = 1 ∧
      wcwidth '.' = 1 ∧ max 1 0 < textWidth wcwidth (fitText wcwidth [0xff] 1 false)) ∧
    ∃ wcwidth : Char → Int, (∀ c, -1 ≤ wcwidth c ∧ wcwidth c ≤ 2) ∧ wcwidth ' ' = 1 ∧
      wcwidth '?' = 1 ∧ max 3 0 < textWidth wcwidth (fitText wcwidth (ascii "long") 3 true) := by
  refine ⟨⟨fun _ => -1, fun _ => by simp, by decide⟩, ⟨fun _ => 2, fun _ => by simp, by decide⟩,
    ⟨fun c => if c = '?' then 2 else cells c, fun c => ?_, by decide, by decide, by decide⟩,
    ⟨fun c => if c = '.' then 2 else cells c, fun c => ?_, by decide, by decide, by decide⟩⟩
  all_goals
    have := cells_range c
    dsimp only
    split <;> omega

end Chatbox.Ui
