import Chatbox.Lib.Run
import Chatbox.Ui.LineEditor

/-!
Keys that are typed into a line editor. A character arrives byte by byte, and each byte
is inserted or refused by itself; so a character that reaches over the limit leaves a part
of it behind.
-/

namespace Chatbox.Ui

open Text Utf8

def KEY_LEFT : Int := 260
def KEY_RIGHT : Int := 261
def KEY_HOME : Int := 262
def KEY_BACKSPACE : Int := 263
def KEY_DC : Int := 330
def KEY_END : Int := 360
def UCHAR_MAX : Int := 255

/-- `getch` returns a byte, the code of a key or `ERR`. -/
def editKey (limit : Nat) (editor : LineEditor) (ch : Int) : LineEditor :=
  if ch = KEY_LEFT then editor.left
  else if ch = KEY_RIGHT then editor.right
  else if ch = KEY_HOME ∨ ch = 1 then { editor with cursor := 0 }
  else if ch = KEY_END ∨ ch = 5 then { editor with cursor := editor.text.length }
  else if ch = KEY_BACKSPACE ∨ ch = 127 ∨ ch = 8 then editor.backspace
  else if ch = KEY_DC ∨ ch = 4 then editor.eraseForward
  else if ch = 23 then editor.eraseWord
  else if ch = 21 then { text := erase editor.text 0 editor.cursor, cursor := 0 }
  else if ch = 11 then { editor with text := editor.text.take editor.cursor }
  else if 32 ≤ ch ∧ ch ≤ UCHAR_MAX ∧ ch ≠ 127 then
    (editor.insert [UInt8.ofNat ch.toNat] limit).2
  else editor

/-- What the user types: a key, an ASCII character among them, or a character of more than
one byte. -/
inductive Keystroke where
  | key (ch : Int) (single : ¬ (128 ≤ ch ∧ ch ≤ UCHAR_MAX))
  | character (c : Char) (wide : 1 < c.utf8Size)

/-- What `getch` returns for it. -/
def Keystroke.codes : Keystroke → List Int
  | .key ch _ => [ch]
  | .character c _ => (String.utf8EncodeChar c).map fun d => (d.toNat : Int)

def typed (limit : Nat) (editor : LineEditor) (keystroke : Keystroke) : LineEditor :=
  keystroke.codes.foldl (editKey limit) editor

/-- All of the character fits, or nothing of it. -/
def Keystroke.Fits (limit : Nat) (editor : LineEditor) : Keystroke → Prop
  | .key _ _ => True
  | .character c _ => editor.text.length + c.utf8Size ≤ limit ∨ limit ≤ editor.text.length

instance (limit : Nat) (editor : LineEditor) :
    ∀ keystroke : Keystroke, Decidable (keystroke.Fits limit editor)
  | .key _ _ => isTrue trivial
  | .character _ _ => inferInstanceAs (Decidable (_ ∨ _))

/-- Whole characters within the limit, and the cursor between two of them. -/
def LineEditor.Sound (limit : Nat) (editor : LineEditor) : Prop :=
  editor.text.length ≤ limit ∧ ∃ line, editor.Shows line

section Keys

variable {limit : Nat} {editor : LineEditor} {line : Line} {c : Char}

/-- Byte by byte, as much is inserted as there is room for. -/
theorem foldl_insert (bytes : Bytes) (inside : editor.cursor ≤ editor.text.length) :
    bytes.foldl (fun editor d => (editor.insert [d] limit).2) editor =
      { text := editor.text.take editor.cursor ++ bytes.take (limit - editor.text.length) ++
          editor.text.drop editor.cursor
        cursor := editor.cursor + (bytes.take (limit - editor.text.length)).length } := by
  induction bytes generalizing editor with
  | nil => simp
  | cons d bytes ih =>
      rw [List.foldl_cons]
      by_cases room : editor.text.length + 1 ≤ limit
      · have inserted : (editor.insert [d] limit).2 =
            { text := editor.text.take editor.cursor ++ [d] ++ editor.text.drop editor.cursor
              cursor := editor.cursor + 1 } := by
          rw [LineEditor.insert, if_neg (by simpa using room)]
          rfl
        obtain ⟨more, left⟩ := Nat.exists_eq_add_of_le room
        have front : (editor.text.take editor.cursor ++ [d]).length = editor.cursor + 1 := by
          simp [Nat.min_eq_left inside]
        rw [inserted, ih (by simp; omega)]
        simp only [← front, List.take_left, List.drop_left]
        have rest : limit - (editor.text.take editor.cursor ++ [d] ++
            editor.text.drop editor.cursor).length = more := by
          simp only [List.length_append, List.length_take, List.length_drop, List.length_singleton]
          omega
        rw [rest, show limit - editor.text.length = more + 1 by omega, List.take_succ_cons]
        simp [Nat.min_eq_left inside]
        omega
      · have refused : (editor.insert [d] limit).2 = editor := by
          rw [LineEditor.insert, if_pos (by simpa using room)]
        rw [refused, ih inside, show limit - editor.text.length = 0 by omega]
        rfl

theorem editKey_byte {d : UInt8} (high : 128 ≤ d.toNat) :
    editKey limit editor d.toNat = (editor.insert [d] limit).2 := by
  have low := d.toNat_lt
  have keys : (d.toNat : Int) < KEY_LEFT ∧ (d.toNat : Int) < KEY_RIGHT ∧
      (d.toNat : Int) < KEY_HOME ∧ (d.toNat : Int) < KEY_BACKSPACE ∧ (d.toNat : Int) < KEY_DC ∧
      (d.toNat : Int) < KEY_END ∧ (d.toNat : Int) ≤ UCHAR_MAX := by
    simp only [KEY_LEFT, KEY_RIGHT, KEY_HOME, KEY_BACKSPACE, KEY_DC, KEY_END, UCHAR_MAX]
    omega
  rw [editKey, if_neg (by omega), if_neg (by omega), if_neg (by omega), if_neg (by omega),
    if_neg (by omega), if_neg (by omega), if_neg (by omega), if_neg (by omega),
    if_neg (by omega), if_pos (by omega), Int.toNat_natCast, UInt8.ofNat_toNat]

/-- A wide character is inserted as far as there is room for its bytes. -/
theorem typed_character (wide : 1 < c.utf8Size) (h : editor.Shows line) :
    typed limit editor (.character c wide) =
      { text := encode line.before ++
          ((String.utf8EncodeChar c).take (limit - editor.text.length) ++ encode line.after)
        cursor := editor.cursor +
          ((String.utf8EncodeChar c).take (limit - editor.text.length)).length } := by
  have bytes : (String.utf8EncodeChar c).foldl (fun editor d => editKey limit editor d.toNat) editor =
      (String.utf8EncodeChar c).foldl (fun editor d => (editor.insert [d] limit).2) editor :=
    List.foldl_ext _ _ _ fun _ d hd => editKey_byte (utf8EncodeChar_wide wide d hd)
  rw [typed, Keystroke.codes, List.foldl_map, bytes, foldl_insert _ h.cursor_le]
  congr 1
  rw [h.text, h.cursor, List.take_left, List.drop_left, List.append_assoc]

theorem LineEditor.Sound.insert {value : List Char} (h : editor.Sound limit) :
    ((editor.insert (encode value) limit).2).Sound limit := by
  obtain ⟨within, line, shows_⟩ := h
  by_cases fits : editor.text.length + (encode value).length ≤ limit
  · refine ⟨?_, _, shows_.insert fits⟩
    rw [LineEditor.insert, if_neg (by omega)]
    have := shows_.cursor_le
    simp only [List.length_append, List.length_take, List.length_drop]
    omega
  · rw [LineEditor.insert, if_pos (by omega)]
    exact ⟨within, line, shows_⟩

/-- Every key but a byte of a wide character keeps the line whole. -/
theorem LineEditor.Sound.editKey {ch : Int} (single : ¬ (128 ≤ ch ∧ ch ≤ UCHAR_MAX))
    (h : editor.Sound limit) : (editKey limit editor ch).Sound limit := by
  obtain ⟨within, line, shows_⟩ := h
  have shorter (pos count : Nat) : (erase editor.text pos count).length ≤ limit :=
    (length_erase_le _ _ _).trans within
  unfold Ui.editKey
  split_ifs with left right home end_ backspace forward word before after printable
  · exact ⟨within, _, shows_.left⟩
  · exact ⟨within, _, shows_.right⟩
  · exact ⟨within, _, shows_.home⟩
  · exact ⟨within, _, shows_.end_⟩
  · exact ⟨shorter _ _, _, shows_.backspace⟩
  · exact ⟨shorter _ _, _, shows_.eraseForward⟩
  · refine ⟨?_, _, shows_.eraseWord⟩
    exact ((LineEditor.length_eraseWhile_le _ _).trans (LineEditor.length_eraseWhile_le _ _)).trans
      within
  · exact ⟨shorter _ _, _, shows_.eraseBefore⟩
  · refine ⟨?_, _, shows_.eraseAfter⟩
    rw [List.length_take]
    omega
  · have ascii : ch.toNat < 128 := by omega
    have char : encode [Char.ofNat ch.toNat] = [UInt8.ofNat ch.toNat] := by
      rw [encode_singleton, utf8EncodeChar_ofNat ascii]
    rw [← char]
    exact LineEditor.Sound.insert ⟨within, line, shows_⟩
  · exact ⟨within, line, shows_⟩

/-- A keystroke keeps the line whole exactly when it fits as a whole or not at all. -/
theorem LineEditor.Sound.typed_iff (h : editor.Sound limit) (keystroke : Keystroke) :
    (typed limit editor keystroke).Sound limit ↔ keystroke.Fits limit editor := by
  cases keystroke with
  | key ch single => exact iff_of_true (h.editKey single) trivial
  | character c wide =>
      obtain ⟨within, line, shows_⟩ := h
      have size := String.length_utf8EncodeChar c
      rw [typed_character wide shows_, Keystroke.Fits, ← size]
      constructor
      · rintro ⟨-, line', shows'⟩
        by_contra partly
        simp only [not_or, not_le] at partly
        have cut := (List.take_append_drop (limit - editor.text.length)
          (String.utf8EncodeChar c)).symm
        refine not_valid_part cut ?_ ?_ shows'.valid
        · rw [← List.length_pos_iff, List.length_take]
          omega
        · rw [← List.length_pos_iff, List.length_drop]
          omega
      · rintro (room | full)
        · rw [List.take_of_length_le (by omega)]
          refine ⟨?_, ⟨line.before ++ [c], line.after⟩, ?_, ?_⟩
          · have whole := congrArg List.length shows_.text
            simp only [List.length_append] at whole ⊢
            omega
          · simp
          · rw [shows_.cursor]
            simp
        · rw [show limit - editor.text.length = 0 by omega, List.take_zero, List.nil_append,
            ← shows_.text]
          exact ⟨within, line, shows_⟩

end Keys

section Runs

variable {limit : Nat} {editor : LineEditor} {keystrokes : List Keystroke}

def type (limit : Nat) (editor : LineEditor) (keystroke : Keystroke) : Option LineEditor :=
  some (typed limit editor keystroke)

theorem sound_empty (limit : Nat) : LineEditor.Sound limit {} :=
  ⟨Nat.zero_le limit, _, LineEditor.shows_empty⟩

/-- While every character fits as a whole or not at all, the line stays whole; and the next
keystroke keeps it so exactly when it fits so. -/
theorem run_keystrokes
    (fits : Run.Always (type limit) (fun editor keystroke => keystroke.Fits limit editor) {}
      keystrokes)
    (h : Run.run (type limit) {} keystrokes = some editor) :
    editor.Sound limit ∧ ∀ keystroke,
      (typed limit editor keystroke).Sound limit ↔ keystroke.Fits limit editor := by
  have sound : editor.Sound limit := by
    refine Run.run_invariant_of ?_ fits h (sound_empty limit)
    intro before keystroke after sound fits stepped
    obtain rfl := Option.some.inj stepped
    exact (sound.typed_iff keystroke).mpr fits
  exact ⟨sound, sound.typed_iff⟩

/-- Two letters and an accented one between them. -/
theorem run_keystrokes_accent :
    let keystrokes : List Keystroke := [.key 97 (by decide), .key 98 (by decide),
      .key KEY_LEFT (by decide), .character 'é' (by decide)]
    ∃ editor, Run.run (type 31) {} keystrokes = some editor ∧ editor.Sound 31 := by
  intro keystrokes
  have fits : Run.Always (type 31) (fun editor keystroke => keystroke.Fits 31 editor) {}
      keystrokes := by decide +kernel
  exact ⟨_, rfl, (run_keystrokes fits rfl).1⟩

/-- Thirty letters in the field of the nickname, which takes 31 bytes; of the accented letter
that comes next the first byte stays. -/
theorem run_keystrokes_cut : ¬ ∀ limit keystrokes editor,
    Run.run (type limit) {} keystrokes = some editor → editor.Sound limit := by
  intro all
  have run : Run.run (type 31) {} (List.replicate 30 (.key 97 (by decide)) ++
      [.character 'é' (by decide)]) =
      some { text := List.replicate 30 97 ++ [0xc3], cursor := 31 } := by decide +kernel
  obtain ⟨-, line, shows_⟩ := all _ _ _ run
  have letters : List.replicate 30 97 ++ [0xc3] =
      encode (List.replicate 30 'a') ++ ([0xc3] ++ encode []) := by decide +kernel
  have cut : String.utf8EncodeChar 'é' = [0xc3] ++ [0xa9] := by decide
  have valid := shows_.valid
  rw [letters] at valid
  exact not_valid_part cut (List.cons_ne_nil _ _) (List.cons_ne_nil _ _) valid

end Runs

end Chatbox.Ui
