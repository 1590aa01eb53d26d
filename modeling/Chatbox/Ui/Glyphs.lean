import Chatbox.Lib.Utf8
import Mathlib.Algebra.Order.BigOperators.Group.List

/-!
Text as the cells of a terminal. What is shown of a text are its glyphs: a byte that starts no
character is a question mark, a control character a blank. `wcwidth` is the function of the
C library; the loops are those of the source for a UTF-8 locale.
-/

namespace Chatbox.Ui

open Text Utf8

structure Glyph where
  text : Bytes
  width : Int
deriving DecidableEq, Repr

/-- `character < 32 || (character >= 127 && character < 160)` -/
def isControl (c : Char) : Bool := c.toNat < 32 || (127 ≤ c.toNat && c.toNat < 160)

section

variable (wcwidth : Char → Int)

def glyph (c : Char) : Glyph :=
  if isControl c then { text := ascii " ", width := 1 }
  else if wcwidth c < 0 then { text := ascii "?", width := 1 }
  else { text := String.utf8EncodeChar c, width := wcwidth c }

/-- The glyphs after `count` bytes, which belong to the character before. -/
def glyphsAfter : Nat → Bytes → List Glyph
  | _, [] => []
  | count + 1, _ :: text => glyphsAfter count text
  | 0, byte :: text =>
      match decodeChar? (byte :: text) with
      | none => { text := ascii "?", width := 1 } :: glyphsAfter 0 text
      | some c => glyph wcwidth c :: glyphsAfter (c.utf8Size - 1) text

def glyphs (text : Bytes) : List Glyph := glyphsAfter wcwidth 0 text

def displayText (text : Bytes) : Bytes := (glyphs wcwidth text).flatMap Glyph.text

def textWidth (text : Bytes) : Int := ((glyphs wcwidth text).map Glyph.width).sum

/-- The loop of `fit_text`. -/
def fitGlyphs (available : Int) : Int → List Glyph → Bytes
  | _, [] => []
  | used, glyph :: rest =>
      if used + glyph.width > available then []
      else glyph.text ++ fitGlyphs available (used + glyph.width) rest

def fitText (text : Bytes) (width : Int) (ellipsis : Bool) : Bytes :=
  if width ≤ 0 then []
  else
    let shortened := ellipsis && textWidth wcwidth text > width && width ≥ 3
    let available := if shortened then width - 3 else width
    fitGlyphs available 0 (glyphs wcwidth text) ++ if shortened then ascii "..." else []

end

/-- The bytes are characters, and none of them controls a terminal. -/
def Printable (text : Bytes) : Prop :=
  ∃ chars, encode chars = text ∧ ∀ c ∈ chars, isControl c = false

/-- The glyph is the character, if need be a blank or a question mark that stands for another
one. -/
structure Glyph.Shows (wcwidth : Char → Int) (glyph : Glyph) (c : Char) : Prop where
  text : glyph.text = String.utf8EncodeChar c
  printable : isControl c = false
  width : (c = ' ' ∨ c = '?') ∧ glyph.width = 1 ∨ 0 ≤ wcwidth c ∧ glyph.width = wcwidth c

section Glyphs

variable {wcwidth : Char → Int} {g : Glyph} {c : Char} {chars : List Char} {text rest : Bytes}

theorem glyph_shows (c : Char) : ∃ d, (glyph wcwidth c).Shows wcwidth d := by
  unfold glyph
  split
  · exact ⟨' ', rfl, rfl, .inl ⟨.inl rfl, rfl⟩⟩
  · next control =>
      split
      · exact ⟨'?', rfl, rfl, .inl ⟨.inr rfl, rfl⟩⟩
      · next negative =>
          exact ⟨c, rfl, Bool.eq_false_iff.mpr control, .inr ⟨Int.not_lt.mp negative, rfl⟩⟩

theorem glyphsAfter_eq (count : Nat) (text : Bytes) :
    glyphsAfter wcwidth count text = glyphs wcwidth (text.drop count) := by
  induction text generalizing count with
  | nil => cases count <;> rfl
  | cons byte text ih =>
      cases count with
      | zero => rfl
      | succ count => exact ih count

theorem glyphs_char (c : Char) (rest : Bytes) :
    glyphs wcwidth (String.utf8EncodeChar c ++ rest) = glyph wcwidth c :: glyphs wcwidth rest := by
  have decoded : decodeChar? (String.utf8EncodeChar c ++ rest) = some c :=
    decodeChar?_eq_some_iff.mpr ⟨rest, rfl⟩
  obtain ⟨first, others, bytes, -⟩ := utf8EncodeChar_cons c
  have length : others.length = c.utf8Size - 1 := by
    rw [← String.length_utf8EncodeChar, bytes, List.length_cons, Nat.add_sub_cancel]
  rw [bytes, List.cons_append] at decoded ⊢
  rw [glyphs, glyphsAfter, decoded]
  simp only
  rw [glyphsAfter_eq, ← length, List.drop_left]

theorem glyphs_encode_append (chars : List Char) (rest : Bytes) :
    glyphs wcwidth (encode chars ++ rest) = chars.map (glyph wcwidth) ++ glyphs wcwidth rest := by
  induction chars with
  | nil => rfl
  | cons c chars ih =>
      rw [encode_cons, List.append_assoc, glyphs_char, ih]
      rfl

theorem glyphs_encode (chars : List Char) :
    glyphs wcwidth (encode chars) = chars.map (glyph wcwidth) := by
  rw [← List.append_nil (encode chars), glyphs_encode_append]
  exact List.append_nil _

theorem glyphsAfter_shows {count : Nat} (mem : g ∈ glyphsAfter wcwidth count text) :
    ∃ c, g.Shows wcwidth c := by
  induction text generalizing count with
  | nil => cases count <;> cases mem
  | cons byte text ih =>
      cases count with
      | succ count => exact ih mem
      | zero =>
          rw [glyphsAfter] at mem
          split at mem
          · obtain rfl | mem := List.mem_cons.mp mem
            · exact ⟨'?', rfl, rfl, .inl ⟨.inr rfl, rfl⟩⟩
            · exact ih mem
          · next c _ =>
              obtain rfl | mem := List.mem_cons.mp mem
              · exact glyph_shows c
              · exact ih mem

/-- Whatever the bytes are, every glyph of them shows a character that controls nothing. -/
theorem glyphs_show (mem : g ∈ glyphs wcwidth text) : ∃ c, g.Shows wcwidth c :=
  glyphsAfter_shows mem

namespace Glyph.Shows

theorem nonneg (shows_ : g.Shows wcwidth c) : 0 ≤ g.width := by
  obtain ⟨-, width⟩ | ⟨nonneg, width⟩ := shows_.width <;> omega

theorem width_le_two (shows_ : g.Shows wcwidth c) (range : ∀ c, wcwidth c ≤ 2) : g.width ≤ 2 := by
  obtain ⟨-, width⟩ | ⟨-, width⟩ := shows_.width
  · omega
  · rw [width]
    exact range c

/-- The character is shown as itself. -/
theorem again (shows_ : g.Shows wcwidth c) (space : 0 ≤ wcwidth ' ') :
    (glyph wcwidth c).text = g.text := by
  rw [shows_.text, glyph, if_neg (Bool.eq_false_iff.mp shows_.printable)]
  split
  · next negative =>
      obtain ⟨rfl | rfl, -⟩ | ⟨nonneg, -⟩ := shows_.width
      · omega
      · rfl
      · omega
  · rfl

theorem width_again_le (shows_ : g.Shows wcwidth c) (space : wcwidth ' ' ≤ 1)
    (question : wcwidth '?' ≤ 1) : (glyph wcwidth c).width ≤ g.width := by
  rw [glyph, if_neg (Bool.eq_false_iff.mp shows_.printable)]
  split
  · next negative =>
      obtain ⟨-, width⟩ | ⟨nonneg, -⟩ := shows_.width
      · exact width.ge
      · omega
  · obtain ⟨rfl | rfl, width⟩ | ⟨-, width⟩ := shows_.width
    · exact space.trans width.ge
    · exact question.trans width.ge
    · exact width.ge

end Glyph.Shows

theorem glyphs_text {chars : List Char} {shown : List Glyph}
    (shows_ : List.Forall₂ (Glyph.Shows wcwidth) shown chars) :
    shown.flatMap Glyph.text = encode chars := by
  induction shows_ with
  | nil => rfl
  | cons head _ ih => rw [List.flatMap_cons, encode_cons, head.text, ih]

theorem exists_chars {shown : List Glyph} (shows_ : ∀ g ∈ shown, ∃ c, g.Shows wcwidth c) :
    ∃ chars, List.Forall₂ (Glyph.Shows wcwidth) shown chars := by
  induction shown with
  | nil => exact ⟨[], .nil⟩
  | cons g shown ih =>
      rw [List.forall_mem_cons] at shows_
      obtain ⟨c, head⟩ := shows_.1
      obtain ⟨chars, tail⟩ := ih shows_.2
      exact ⟨c :: chars, .cons head tail⟩

theorem textWidth_append (chars : List Char) (rest : Bytes) :
    textWidth wcwidth (encode chars ++ rest) =
      textWidth wcwidth (encode chars) + textWidth wcwidth rest := by
  simp only [textWidth, glyphs_encode_append, glyphs_encode, List.map_append, List.sum_append]

theorem textWidth_char (c : Char) :
    textWidth wcwidth (String.utf8EncodeChar c) = (glyph wcwidth c).width := by
  rw [← encode_singleton, textWidth, glyphs_encode]
  exact Int.add_zero _

/-- A character that is not shown as another one has its own width, or that of a question mark. -/
theorem width_le_one (printable : isControl c = false) (narrow : wcwidth c ≤ 1) :
    (glyph wcwidth c).width ≤ 1 := by
  rw [glyph, if_neg (Bool.eq_false_iff.mp printable)]
  split
  · exact Int.le_refl 1
  · exact narrow

theorem textWidth_nonneg (text : Bytes) : 0 ≤ textWidth wcwidth text := by
  refine List.sum_nonneg ?_
  rw [List.forall_mem_map]
  intro g mem
  obtain ⟨c, shows_⟩ := glyphs_show mem
  exact shows_.nonneg

/-- Shown again, the glyphs are no wider. -/
theorem textWidth_glyphs_le {shown : List Glyph} (space : wcwidth ' ' ≤ 1)
    (question : wcwidth '?' ≤ 1) (shows_ : List.Forall₂ (Glyph.Shows wcwidth) shown chars) :
    textWidth wcwidth (shown.flatMap Glyph.text) ≤ (shown.map Glyph.width).sum := by
  rw [glyphs_text shows_, textWidth, glyphs_encode]
  induction shows_ with
  | nil => exact Int.le_refl 0
  | cons head _ ih =>
      simp only [List.map_cons, List.sum_cons]
      exact Int.add_le_add (head.width_again_le space question) ih

/-- Shown again, the glyphs are the same. -/
theorem displayText_glyphs {shown : List Glyph} (space : 0 ≤ wcwidth ' ')
    (shows_ : List.Forall₂ (Glyph.Shows wcwidth) shown chars) :
    displayText wcwidth (shown.flatMap Glyph.text) = shown.flatMap Glyph.text := by
  rw [displayText, glyphs_text shows_, glyphs_encode, ← glyphs_text shows_]
  induction shows_ with
  | nil => rfl
  | cons head _ ih => rw [List.map_cons, List.flatMap_cons, List.flatMap_cons, head.again space, ih]

theorem printable_nil : Printable [] := ⟨[], rfl, nofun⟩

theorem Printable.append {a b : Bytes} (ha : Printable a) (hb : Printable b) :
    Printable (a ++ b) := by
  obtain ⟨xs, rfl, left⟩ := ha
  obtain ⟨ys, rfl, right⟩ := hb
  exact ⟨xs ++ ys, encode_append xs ys, fun c mem => (List.mem_append.mp mem).elim (left c) (right c)⟩

theorem Printable.textWidth_append {line : Bytes} (printable : Printable line) (rest : Bytes) :
    textWidth wcwidth (line ++ rest) = textWidth wcwidth line + textWidth wcwidth rest := by
  obtain ⟨chars, rfl, -⟩ := printable
  exact Ui.textWidth_append chars rest

theorem printable_glyphs {shown : List Glyph}
    (shows_ : List.Forall₂ (Glyph.Shows wcwidth) shown chars) :
    Printable (shown.flatMap Glyph.text) := by
  refine ⟨chars, (glyphs_text shows_).symm, ?_⟩
  induction shows_ with
  | nil => nofun
  | cons head _ ih => exact List.forall_mem_cons.mpr ⟨head.printable, ih⟩

theorem printable_displayText (text : Bytes) : Printable (displayText wcwidth text) := by
  obtain ⟨chars, shows_⟩ := exists_chars (fun g mem => @glyphs_show wcwidth g text mem)
  exact printable_glyphs shows_

theorem displayText_displayText (space : 0 ≤ wcwidth ' ') (text : Bytes) :
    displayText wcwidth (displayText wcwidth text) = displayText wcwidth text := by
  obtain ⟨chars, shows_⟩ := exists_chars (fun g mem => @glyphs_show wcwidth g text mem)
  exact displayText_glyphs space shows_

end Glyphs

section Fit

variable {wcwidth : Char → Int} {available used : Int} {shown : List Glyph}

/-- The loop keeps as many of the first glyphs as fit. -/
theorem fitGlyphs_front (room : used ≤ available) :
    ∃ front, front <+: shown ∧ fitGlyphs available used shown = front.flatMap Glyph.text ∧
      used + (front.map Glyph.width).sum ≤ available := by
  induction shown generalizing used with
  | nil => exact ⟨[], List.prefix_rfl, rfl, by simpa using room⟩
  | cons g shown ih =>
      rw [fitGlyphs]
      split
      · exact ⟨[], List.nil_prefix, rfl, by simpa using room⟩
      · next fits =>
          obtain ⟨front, first, same, width⟩ := ih (Int.not_lt.mp fits)
          refine ⟨g :: front, List.cons_prefix_cons.mpr ⟨rfl, first⟩, ?_, ?_⟩
          · rw [same, List.flatMap_cons]
          · rw [List.map_cons, List.sum_cons]
            omega

theorem fitGlyphs_all (nonneg : ∀ g ∈ shown, 0 ≤ g.width)
    (fits : used + (shown.map Glyph.width).sum ≤ available) :
    fitGlyphs available used shown = shown.flatMap Glyph.text := by
  induction shown generalizing used with
  | nil => rfl
  | cons g shown ih =>
      rw [List.forall_mem_cons] at nonneg
      rw [List.map_cons, List.sum_cons] at fits
      have rest : 0 ≤ (shown.map Glyph.width).sum :=
        List.sum_nonneg (List.forall_mem_map.mpr nonneg.2)
      rw [fitGlyphs, if_neg (by omega), List.flatMap_cons, ih nonneg.2 (by omega)]

theorem printable_fitGlyphs (shows_ : ∀ g ∈ shown, ∃ c, g.Shows wcwidth c)
    (room : used ≤ available) : Printable (fitGlyphs available used shown) := by
  obtain ⟨front, first, same, -⟩ := @fitGlyphs_front available used shown room
  obtain ⟨chars, shows_⟩ := exists_chars fun g mem => shows_ g (first.subset mem)
  rw [same]
  exact printable_glyphs shows_

theorem printable_ellipsis : Printable (ascii "...") :=
  ⟨List.replicate 3 '.', rfl, fun _ mem => List.eq_of_mem_replicate mem ▸ rfl⟩

theorem printable_fitText (text : Bytes) (width : Int) (ellipsis : Bool) :
    Printable (fitText wcwidth text width ellipsis) := by
  unfold fitText
  split
  · exact printable_nil
  · dsimp only
    refine Printable.append (printable_fitGlyphs (fun g mem => glyphs_show mem) ?_) ?_
    · split
      · next shortened =>
          simp only [Bool.and_eq_true, decide_eq_true_eq] at shortened
          omega
      · omega
    · split
      · exact printable_ellipsis
      · exact printable_nil

theorem textWidth_fitText_le (space : wcwidth ' ' ≤ 1) (question : wcwidth '?' ≤ 1)
    (stop : wcwidth '.' ≤ 1) (text : Bytes) (width : Int) (ellipsis : Bool) :
    textWidth wcwidth (fitText wcwidth text width ellipsis) ≤ max width 0 := by
  have fits : ∀ available, 0 ≤ available → ∀ rest, textWidth wcwidth
      (fitGlyphs available 0 (glyphs wcwidth text) ++ rest) ≤ available + textWidth wcwidth rest := by
    intro available room rest
    obtain ⟨front, first, same, bound⟩ :=
      @fitGlyphs_front available 0 (glyphs wcwidth text) room
    obtain ⟨chars, shows_⟩ := exists_chars fun g mem => glyphs_show (first.subset mem)
    have again := textWidth_glyphs_le space question shows_
    rw [same]
    rw [glyphs_text shows_] at again ⊢
    rw [textWidth_append]
    omega
  have dots : textWidth wcwidth (ascii "...") ≤ 3 := by
    have dot : (glyph wcwidth '.').width ≤ 1 := width_le_one rfl stop
    have three : ascii "..." = encode ['.', '.', '.'] := rfl
    rw [three, textWidth, glyphs_encode]
    simp only [List.map_cons, List.map_nil, List.sum_cons, List.sum_nil]
    omega
  unfold fitText
  split
  · exact le_max_right _ _
  · dsimp only
    split
    · next shortened =>
        simp only [Bool.and_eq_true, decide_eq_true_eq] at shortened
        have := fits (width - 3) (by omega) (ascii "...")
        omega
    · have := fits width (by omega) []
      rw [show textWidth wcwidth [] = 0 from rfl] at this
      omega

theorem fitText_eq_displayText {text : Bytes} {width : Int} (some_ : 1 ≤ width)
    (fits : textWidth wcwidth text ≤ width) (ellipsis : Bool) :
    fitText wcwidth text width ellipsis = displayText wcwidth text := by
  have whole : (ellipsis && textWidth wcwidth text > width && width ≥ 3) = false := by
    rw [decide_eq_false (Int.not_lt.mpr fits), Bool.and_false, Bool.false_and]
  rw [fitText, if_neg (by omega)]
  dsimp only
  rw [whole]
  refine (List.append_nil _).trans (fitGlyphs_all ?_ ?_)
  · intro g mem
    obtain ⟨c, shows_⟩ := glyphs_show mem
    exact shows_.nonneg
  · exact (Int.zero_add _).trans_le fits

end Fit

end Chatbox.Ui
