import Chatbox.Lib.Utf8
import Mathlib.Data.List.DropRight

/-!
The line editor of the terminal. It keeps bytes and a byte position; what the user edits
is a line of characters with the cursor between two of them.
-/

namespace Chatbox.Ui

open Text Utf8

structure LineEditor where
  text : Bytes := []
  cursor : Nat := 0
deriving DecidableEq, Repr

/-- `while (at && (text[at] & 0xc0) == 0x80) --at;` -/
def skipBack (text : Bytes) : Nat → Nat
  | 0 => 0
  | i + 1 => if isContinuation (text.getD (i + 1) 0) then skipBack text i else i + 1

/-- `while (at < text.size() && (text[at] & 0xc0) == 0x80) ++at;` -/
def skipForward (text : Bytes) (i : Nat) : Nat :=
  i + ((text.drop i).takeWhile isContinuation).length

def previousChar (text : Bytes) (i : Nat) : Nat :=
  if i = 0 then 0 else skipBack text (i - 1)

def nextChar (text : Bytes) (i : Nat) : Nat :=
  if text.length ≤ i then text.length else skipForward text (i + 1)

/-- `text.erase(pos, count)` with `pos <= text.size()` -/
def erase (text : Bytes) (pos count : Nat) : Bytes := text.take pos ++ text.drop (pos + count)

theorem length_erase_le (text : Bytes) (pos count : Nat) :
    (erase text pos count).length ≤ text.length := by
  rw [erase, List.length_append, List.length_take, List.length_drop]
  omega

theorem skipBack_le (text : Bytes) (i : Nat) : skipBack text i ≤ i := by
  induction i with
  | zero => exact Nat.le_refl 0
  | succ i ih =>
      rw [skipBack]
      split
      · exact ih.trans (Nat.le_succ i)
      · exact Nat.le_refl _

theorem previousChar_lt {text : Bytes} {i : Nat} (some_ : i ≠ 0) : previousChar text i < i := by
  rw [previousChar, if_neg some_]
  have := skipBack_le text (i - 1)
  omega

namespace LineEditor

variable (editor : LineEditor)

def set (value : Bytes) : LineEditor := { text := value, cursor := value.length }

def left : LineEditor := { editor with cursor := previousChar editor.text editor.cursor }

def right : LineEditor := { editor with cursor := nextChar editor.text editor.cursor }

def backspace : LineEditor :=
  let start := previousChar editor.text editor.cursor
  { text := erase editor.text start (editor.cursor - start), cursor := start }

def eraseForward : LineEditor :=
  { editor with
    text := erase editor.text editor.cursor (nextChar editor.text editor.cursor - editor.cursor) }

/-- `while (cursor && p(text[cursor - 1])) backspace();` -/
def eraseWhile (p : UInt8 → Bool) (editor : LineEditor) : LineEditor :=
  if _ : editor.cursor ≠ 0 ∧ p (editor.text.getD (editor.cursor - 1) 0) then
    eraseWhile p editor.backspace
  else editor
termination_by editor.cursor
decreasing_by exact previousChar_lt (And.left ‹_›)

def eraseWord : LineEditor :=
  (editor.eraseWhile fun c => c == 32).eraseWhile fun c => c != 32

def insert (value : Bytes) (limit : Nat) : Bool × LineEditor :=
  if limit < editor.text.length + value.length then (false, editor)
  else
    (true, {
      text := editor.text.take editor.cursor ++ value ++ editor.text.drop editor.cursor
      cursor := editor.cursor + value.length })

end LineEditor

/-- The operations, with their arguments. -/
inductive Edit where
  | set (value : Bytes)
  | left
  | right
  | backspace
  | eraseForward
  | eraseWord
  | insert (value : Bytes) (limit : Nat)
deriving DecidableEq, Repr

/-- The string it is given, if any, is made of whole characters. -/
def Edit.Whole : Edit → Prop
  | .set value | .insert value _ => Valid value
  | _ => True

def LineEditor.perform (editor : LineEditor) : Edit → LineEditor
  | .set value => .set value
  | .left => editor.left
  | .right => editor.right
  | .backspace => editor.backspace
  | .eraseForward => editor.eraseForward
  | .eraseWord => editor.eraseWord
  | .insert value limit => (editor.insert value limit).2

/-- What the user sees: the characters before the cursor and those after it. -/
structure Line where
  before : List Char := []
  after : List Char := []
deriving DecidableEq, Repr

namespace Line

variable (line : Line)

def left : Line :=
  match line.before.getLast? with
  | none => line
  | some c => { before := line.before.dropLast, after := c :: line.after }

def right : Line :=
  match line.after with
  | [] => line
  | c :: after => { before := line.before ++ [c], after }

def backspace : Line := { line with before := line.before.dropLast }

def eraseForward : Line := { line with after := line.after.tail }

/-- The longest run of spaces before the cursor goes, then the longest run of others. -/
def eraseWord : Line :=
  { line with
    before := (line.before.rdropWhile fun c => c == ' ').rdropWhile fun c => c != ' ' }

def insert (value : List Char) : Line := { line with before := line.before ++ value }

end Line

/-- The editor holds the bytes of the line, and its cursor is where the line's is. -/
structure LineEditor.Shows (editor : LineEditor) (line : Line) : Prop where
  text : editor.text = encode line.before ++ encode line.after
  cursor : editor.cursor = (encode line.before).length

section Scan

variable {before after : List Char} {c : Char}

/-- Going back over a run of continuation bytes ends at the byte before it. -/
theorem skipBack_run {text : Bytes} {i : Nat} (n : Nat)
    (stop : isContinuation (text.getD i 0) = false)
    (run : ∀ j, i < j → j ≤ i + n → isContinuation (text.getD j 0) = true) :
    skipBack text (i + n) = i := by
  induction n with
  | zero =>
      cases i with
      | zero => rfl
      | succ i => rw [Nat.add_zero, skipBack, if_neg (by simpa using stop)]
  | succ n ih =>
      rw [← Nat.add_assoc, skipBack, if_pos (run _ (by omega) (by omega))]
      exact ih fun j low high => run j low (by omega)

theorem previousChar_encode : previousChar (encode (before ++ [c]) ++ encode after)
    (encode (before ++ [c])).length = (encode before).length := by
  obtain ⟨first, rest, chars, starts, follows, -⟩ := utf8EncodeChar_cons c
  rw [encode_append, encode_singleton, chars, List.length_append, List.length_cons, previousChar,
    if_neg (by omega), ← Nat.add_assoc, Nat.add_sub_cancel, List.append_assoc]
  apply skipBack_run
  · rw [List.getD_append_right _ _ _ _ (Nat.le_refl _), Nat.sub_self]
    exact starts
  · intro j low high
    obtain ⟨k, rfl⟩ := Nat.exists_eq_add_of_lt low
    rw [List.getD_append_right _ _ _ _ (by omega), List.cons_append,
      show (encode before).length + k + 1 - (encode before).length = k + 1 by omega,
      List.getD_cons_succ, List.getD_append _ _ _ _ (by omega), List.getD_eq_getElem _ _ (by omega)]
    exact follows _ (List.getElem_mem _)

theorem nextChar_encode : nextChar (encode before ++ encode (c :: after)) (encode before).length =
    (encode (before ++ [c])).length := by
  obtain ⟨first, rest, chars, starts, follows, -⟩ := utf8EncodeChar_cons c
  rw [encode_append, encode_singleton, encode_cons, chars, nextChar, if_neg (by simp), skipForward,
    List.drop_append, List.drop_eq_nil_of_le (by omega), Nat.add_sub_cancel_left, List.nil_append,
    List.cons_append, List.drop_succ_cons, List.drop_zero, List.takeWhile_append_of_pos follows,
    takeWhile_encode, List.append_nil, List.length_append, List.length_cons]
  omega

end Scan

namespace LineEditor

section Shows

variable {editor : LineEditor} {line : Line}

theorem Shows.left (h : editor.Shows line) : editor.left.Shows line.left := by
  obtain ⟨before, after⟩ := line
  have text : editor.text = encode before ++ encode after := h.text
  have cursor : editor.cursor = (encode before).length := h.cursor
  obtain rfl | ⟨before, c, rfl⟩ := List.eq_nil_or_concat' before
  · exact ⟨text, by rw [LineEditor.left, cursor]; rfl⟩
  · have line : Line.left ⟨before ++ [c], after⟩ = ⟨before, c :: after⟩ := by simp [Line.left]
    rw [line]
    refine ⟨?_, ?_⟩
    · simpa [LineEditor.left, encode_cons] using text
    · rw [LineEditor.left, text, cursor]
      exact previousChar_encode

theorem Shows.right (h : editor.Shows line) : editor.right.Shows line.right := by
  obtain ⟨before, after⟩ := line
  have text : editor.text = encode before ++ encode after := h.text
  have cursor : editor.cursor = (encode before).length := h.cursor
  cases after with
  | nil =>
      refine ⟨text, ?_⟩
      rw [LineEditor.right, text, cursor, nextChar, encode_nil, List.append_nil,
        if_pos (Nat.le_refl _)]
      rfl
  | cons c after =>
      refine ⟨?_, ?_⟩
      · simpa [LineEditor.right, Line.right, encode_cons] using text
      · rw [LineEditor.right, text, cursor]
        exact nextChar_encode

theorem erase_encode (before middle after : List Char) :
    erase (encode (before ++ middle) ++ encode after) (encode before).length
        ((encode (before ++ middle)).length - (encode before).length) =
      encode before ++ encode after := by
  rw [erase, encode_append, List.length_append, Nat.add_sub_cancel_left, ← List.length_append,
    List.drop_left, List.append_assoc, List.take_left]

theorem Shows.backspace (h : editor.Shows line) : editor.backspace.Shows line.backspace := by
  obtain ⟨before, after⟩ := line
  have text : editor.text = encode before ++ encode after := h.text
  have cursor : editor.cursor = (encode before).length := h.cursor
  obtain rfl | ⟨before, c, rfl⟩ := List.eq_nil_or_concat' before
  · rw [LineEditor.backspace, text, cursor]
    exact ⟨rfl, rfl⟩
  · have start := @previousChar_encode before after c
    rw [LineEditor.backspace, text, cursor, start, erase_encode]
    simp only [Line.backspace, List.dropLast_concat]
    exact ⟨rfl, rfl⟩

theorem Shows.eraseForward (h : editor.Shows line) :
    editor.eraseForward.Shows line.eraseForward := by
  obtain ⟨before, after⟩ := line
  have text : editor.text = encode before ++ encode after := h.text
  have cursor : editor.cursor = (encode before).length := h.cursor
  cases after with
  | nil =>
      refine ⟨?_, cursor⟩
      rw [LineEditor.eraseForward, text, cursor, nextChar, encode_nil, List.append_nil,
        if_pos (Nat.le_refl _), Nat.sub_self, erase, Nat.add_zero, List.take_append_drop]
      exact (List.append_nil _).symm
  | cons c after =>
      refine ⟨?_, cursor⟩
      have erased := erase_encode before [c] after
      have whole : encode (before ++ [c]) ++ encode after = encode before ++ encode (c :: after) := by
        simp [encode_cons]
      rw [LineEditor.eraseForward, text, cursor, nextChar_encode]
      rwa [whole] at erased

/-- The loops of `erase_word`: the byte before the cursor tells about the character there. -/
theorem Shows.eraseWhile {p : UInt8 → Bool} {q : Char → Bool}
    (agree : ∀ c d, (String.utf8EncodeChar c).getLast? = some d → p d = q c)
    (h : editor.Shows line) :
    (editor.eraseWhile p).Shows { line with before := line.before.rdropWhile q } := by
  obtain ⟨before, after⟩ := line
  induction before using List.reverseRecOn generalizing editor with
  | nil =>
      rw [LineEditor.eraseWhile, dif_neg (by simp [h.cursor])]
      exact h
  | append_singleton before c ih =>
      have pos := length_utf8EncodeChar_pos c
      have some_ : editor.cursor ≠ 0 := by
        rw [h.cursor, encode_append, encode_singleton, List.length_append]
        omega
      have byte : p (editor.text.getD (editor.cursor - 1) 0) = q c := by
        apply agree
        rw [h.text, h.cursor, getD_last_encode]
      rw [LineEditor.eraseWhile, byte, List.rdropWhile_concat]
      by_cases goes : q c = true
      · rw [dif_pos ⟨some_, goes⟩, if_pos goes]
        have less := h.backspace
        rw [Line.backspace, List.dropLast_concat] at less
        exact ih less
      · rw [dif_neg (fun both => goes both.2), if_neg goes]
        exact h

theorem length_eraseWhile_le (p : UInt8 → Bool) (editor : LineEditor) :
    (editor.eraseWhile p).text.length ≤ editor.text.length := by
  fun_induction LineEditor.eraseWhile p editor with
  | case1 editor _ ih => exact ih.trans (length_erase_le _ _ _)
  | case2 editor _ => exact Nat.le_refl _

theorem Shows.eraseWord (h : editor.Shows line) : editor.eraseWord.Shows line.eraseWord := by
  have space (c : Char) (d : UInt8) (last : (String.utf8EncodeChar c).getLast? = some d) :
      (d == 32) = (c == ' ') := by
    have iff := @utf8EncodeChar_last_iff c ' ' 32 (by decide)
    rw [last, Option.some.injEq] at iff
    rw [Bool.eq_iff_iff, beq_iff_eq, beq_iff_eq]
    exact iff
  have other (c : Char) (d : UInt8) (last : (String.utf8EncodeChar c).getLast? = some d) :
      (d != 32) = (c != ' ') := congrArg not (space c d last)
  exact (h.eraseWhile space).eraseWhile other

theorem Shows.insert {value : List Char} {limit : Nat} (h : editor.Shows line)
    (fits : editor.text.length + (encode value).length ≤ limit) :
    (editor.insert (encode value) limit).2.Shows (line.insert value) := by
  obtain ⟨before, after⟩ := line
  have text : editor.text = encode before ++ encode after := h.text
  have cursor : editor.cursor = (encode before).length := h.cursor
  rw [LineEditor.insert, if_neg (by omega), text, cursor, List.take_left, List.drop_left,
    ← encode_append]
  exact ⟨rfl, by simp [Line.insert]⟩

theorem Shows.home (h : editor.Shows line) :
    { editor with cursor := 0 : LineEditor }.Shows ⟨[], line.before ++ line.after⟩ :=
  ⟨by rw [h.text]; simp, rfl⟩

theorem Shows.end_ (h : editor.Shows line) :
    { editor with cursor := editor.text.length : LineEditor }.Shows
      ⟨line.before ++ line.after, []⟩ :=
  ⟨by rw [h.text]; simp, by rw [h.text]; simp⟩

/-- All before the cursor is deleted. -/
theorem Shows.eraseBefore (h : editor.Shows line) :
    { text := erase editor.text 0 editor.cursor, cursor := 0 : LineEditor }.Shows
      ⟨[], line.after⟩ :=
  ⟨by rw [erase, h.text, h.cursor, Nat.zero_add, List.drop_left]; rfl, rfl⟩

/-- All after the cursor is deleted. -/
theorem Shows.eraseAfter (h : editor.Shows line) :
    { editor with text := editor.text.take editor.cursor : LineEditor }.Shows ⟨line.before, []⟩ :=
  ⟨by rw [h.text, h.cursor, List.take_left]; simp, h.cursor⟩

theorem shows_set (value : List Char) : (LineEditor.set (encode value)).Shows ⟨value, []⟩ :=
  ⟨by simp [LineEditor.set], rfl⟩

theorem Shows.valid (h : editor.Shows line) : Valid editor.text :=
  ⟨line.before ++ line.after, by rw [encode_append, h.text]⟩

theorem Shows.cursor_le (h : editor.Shows line) : editor.cursor ≤ editor.text.length := by
  rw [h.text, h.cursor, List.length_append]
  exact Nat.le_add_right _ _

theorem Shows.perform {edit : Edit} (h : editor.Shows line) (whole : edit.Whole) :
    ∃ line', (editor.perform edit).Shows line' := by
  cases edit with
  | set value =>
      obtain ⟨chars, rfl⟩ := whole
      exact ⟨_, shows_set chars⟩
  | left => exact ⟨_, h.left⟩
  | right => exact ⟨_, h.right⟩
  | backspace => exact ⟨_, h.backspace⟩
  | eraseForward => exact ⟨_, h.eraseForward⟩
  | eraseWord => exact ⟨_, h.eraseWord⟩
  | insert value limit =>
      obtain ⟨chars, rfl⟩ := whole
      by_cases fits : editor.text.length + (encode chars).length ≤ limit
      · exact ⟨_, h.insert fits⟩
      · refine ⟨line, ?_⟩
        rw [LineEditor.perform, LineEditor.insert, if_pos (by omega)]
        exact h

theorem Shows.run {edits : List Edit} (h : editor.Shows line)
    (whole : ∀ edit ∈ edits, edit.Whole) :
    ∃ line', (edits.foldl LineEditor.perform editor).Shows line' := by
  induction edits generalizing editor line with
  | nil => exact ⟨line, h⟩
  | cons edit edits ih =>
      obtain ⟨line', next⟩ := h.perform (whole edit List.mem_cons_self)
      exact ih next fun other mem => whole other (List.mem_cons_of_mem edit mem)

theorem shows_empty : LineEditor.Shows {} {} := ⟨rfl, rfl⟩

end Shows

end LineEditor

/-- After any edits the editor holds a line of characters with the cursor between two of
them, and the next edit does to the bytes what it does to the line. -/
theorem run_edits (edits : List Edit) (whole : ∀ edit ∈ edits, edit.Whole) :
    let editor := edits.foldl LineEditor.perform {}
    Valid editor.text ∧ editor.cursor ≤ editor.text.length ∧ ∃ line, editor.Shows line ∧
      editor.left.Shows line.left ∧ editor.right.Shows line.right ∧
      editor.backspace.Shows line.backspace ∧ editor.eraseForward.Shows line.eraseForward ∧
      editor.eraseWord.Shows line.eraseWord ∧
      ∀ (value : List Char) (limit : Nat),
        (editor.text.length + (encode value).length ≤ limit →
          (editor.insert (encode value) limit).1 = true ∧
            (editor.insert (encode value) limit).2.Shows (line.insert value)) ∧
        (limit < editor.text.length + (encode value).length →
          editor.insert (encode value) limit = (false, editor)) := by
  intro editor
  obtain ⟨line, h⟩ := LineEditor.shows_empty.run whole
  refine ⟨h.valid, h.cursor_le, line, h, h.left, h.right, h.backspace, h.eraseForward, h.eraseWord,
    fun value limit => ⟨fun fits => ⟨?_, h.insert fits⟩, fun exceeds => ?_⟩⟩
  · rw [LineEditor.insert, if_neg (by omega)]
  · rw [LineEditor.insert, if_pos exceeds]

theorem run_edits_cafe :
    let editor := [Edit.set (encode ['c', 'a', 'f', 'é']), .left, .eraseForward].foldl
      LineEditor.perform {}
    Valid editor.text ∧ editor.cursor ≤ editor.text.length := by
  have run := run_edits [.set (encode ['c', 'a', 'f', 'é']), .left, .eraseForward] (by
    simp only [List.mem_cons, List.not_mem_nil, or_false, forall_eq_or_imp, forall_eq]
    exact ⟨⟨_, rfl⟩, trivial, trivial⟩)
  exact ⟨run.1, run.2.1⟩

end Chatbox.Ui
