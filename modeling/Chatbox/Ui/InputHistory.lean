import Mathlib.Data.List.Chain
import Chatbox.Lib.Run
import Chatbox.Ui.LineEditor

/-!
The history of what has been sent. Going back from the bottom puts the unfinished text aside,
and it is back when the user returns to the bottom.
-/

namespace Chatbox.Ui

open Text

structure InputHistory where
  entries : List Bytes := []
  position : Nat := 0
  draft : Bytes := []
deriving DecidableEq, Repr

namespace InputHistory

variable (history : InputHistory)

def reset : InputHistory := { history with position := history.entries.length, draft := [] }

/-- `if (!text.empty() && (entries_.empty() || entries_.back() != text)) entries_.push_back(text);` -/
def added (text : Bytes) : List Bytes :=
  if !text.isEmpty && history.entries.getLast? != some text then history.entries ++ [text]
  else history.entries

/-- `if (entries_.size() > 100) entries_.erase(entries_.begin());` -/
def dropOldest (entries : List Bytes) : List Bytes :=
  if 100 < entries.length then entries.drop 1 else entries

def remember (text : Bytes) : InputHistory :=
  reset { history with entries := dropOldest (history.added text) }

def previous (editor : LineEditor) : InputHistory × LineEditor :=
  let history :=
    if history.position = history.entries.length then { history with draft := editor.text }
    else history
  if history.position = 0 then (history, editor)
  else
    ({ history with position := history.position - 1 },
      .set (history.entries.getD (history.position - 1) []))

def next (editor : LineEditor) : InputHistory × LineEditor :=
  if history.position < history.entries.length then
    let position := history.position + 1
    ({ history with position },
      .set (if position = history.entries.length then history.draft
        else history.entries.getD position []))
  else (history, editor)

end InputHistory

/-- An input line: its editor with the history. -/
structure InputLine where
  history : InputHistory := {}
  editor : LineEditor := {}
deriving DecidableEq, Repr

/-- The operations of the history, and any edit of the line between them. -/
inductive InputEvent where
  | remember (text : Bytes)
  | previous
  | next
  | reset
  | edit (editor : LineEditor)
deriving DecidableEq, Repr

namespace InputLine

variable (line : InputLine)

def after : InputEvent → InputLine
  | .remember text => { line with history := line.history.remember text }
  | .previous =>
      let (history, editor) := line.history.previous line.editor
      { history, editor }
  | .next =>
      let (history, editor) := line.history.next line.editor
      { history, editor }
  | .reset => { line with history := line.history.reset }
  | .edit editor => { line with editor }

def step (event : InputEvent) : Option InputLine := some (line.after event)

/-- Below the newest entry, where the user's own text is. -/
def AtBottom : Prop := line.history.position = line.history.entries.length

instance : Decidable line.AtBottom := inferInstanceAs (Decidable (_ = _))

end InputLine

structure InputHistory.Sound (history : InputHistory) : Prop where
  position : history.position ≤ history.entries.length
  length : history.entries.length ≤ 100
  neighbours : history.entries.IsChain (· ≠ ·)

section Steps

variable {history : InputHistory} {editor : LineEditor} {line : InputLine} {draft : Bytes}

theorem InputHistory.Sound.reset (sound : history.Sound) : history.reset.Sound :=
  ⟨Nat.le_refl _, sound.length, sound.neighbours⟩

theorem added_sound (sound : history.Sound) (text : Bytes) :
    (history.added text).length ≤ 101 ∧ (history.added text).IsChain (· ≠ ·) := by
  have length := sound.length
  unfold InputHistory.added
  split
  · next new =>
      refine ⟨by simp; omega, sound.neighbours.append (List.isChain_singleton text) ?_⟩
      intro last mem other head
      obtain rfl : text = other := by simpa using head
      rw [Option.mem_def.mp mem] at new
      simp only [Bool.and_eq_true, bne_iff_ne, ne_eq, Option.some.injEq] at new
      exact new.2
  · exact ⟨by omega, sound.neighbours⟩

theorem InputHistory.Sound.remember (sound : history.Sound) (text : Bytes) :
    (history.remember text).Sound := by
  obtain ⟨length, neighbours⟩ := added_sound sound text
  have kept : (InputHistory.dropOldest (history.added text)).length ≤ 100 ∧
      (InputHistory.dropOldest (history.added text)).IsChain (· ≠ ·) := by
    unfold InputHistory.dropOldest
    split
    · refine ⟨?_, neighbours.drop 1⟩
      rw [List.length_drop]
      omega
    · exact ⟨by omega, neighbours⟩
  exact ⟨Nat.le_refl _, kept.1, kept.2⟩

theorem previous_entries : (history.previous editor).1.entries = history.entries := by
  unfold InputHistory.previous
  dsimp only
  split_ifs <;> rfl

theorem previous_position : (history.previous editor).1.position = history.position - 1 := by
  unfold InputHistory.previous
  dsimp only
  split_ifs <;> simp_all

theorem next_entries : (history.next editor).1.entries = history.entries := by
  unfold InputHistory.next
  split <;> rfl

theorem next_draft : (history.next editor).1.draft = history.draft := by
  unfold InputHistory.next
  split <;> rfl

theorem InputHistory.Sound.previous (sound : history.Sound) (editor : LineEditor) :
    (history.previous editor).1.Sound := by
  refine ⟨?_, ?_, ?_⟩
  · rw [previous_entries, previous_position]
    exact (Nat.sub_le _ _).trans sound.position
  · rw [previous_entries]
    exact sound.length
  · rw [previous_entries]
    exact sound.neighbours

theorem InputHistory.Sound.next (sound : history.Sound) (editor : LineEditor) :
    (history.next editor).1.Sound := by
  refine ⟨?_, ?_, ?_⟩
  · rw [next_entries]
    unfold InputHistory.next
    split
    · assumption
    · exact sound.position
  · rw [next_entries]
    exact sound.length
  · rw [next_entries]
    exact sound.neighbours

theorem InputHistory.Sound.after (sound : line.history.Sound) (event : InputEvent) :
    (line.after event).history.Sound := by
  cases event with
  | remember text => exact sound.remember text
  | previous => exact sound.previous line.editor
  | next => exact sound.next line.editor
  | reset => exact sound.reset
  | edit editor => exact sound

/-- Above the bottom the draft stays, unless the step returns to the bottom. -/
theorem after_draft (above : ¬ line.AtBottom) (event : InputEvent) :
    (line.after event).AtBottom ∨ (line.after event).history.draft = line.history.draft := by
  cases event with
  | remember text => exact .inl rfl
  | previous =>
      refine .inr ?_
      unfold InputLine.AtBottom at above
      simp only [InputLine.after, InputHistory.previous, if_neg above]
      split <;> rfl
  | next => exact .inr next_draft
  | reset => exact .inl rfl
  | edit editor => exact .inr rfl

/-- After a step to an entry the editor holds that entry. -/
theorem moved_to_entry {event : InputEvent} (steps : event = .previous ∨ event = .next)
    (moved : (line.after event).history.position ≠ line.history.position)
    (entry : (line.after event).history.position < (line.after event).history.entries.length) :
    (line.after event).history.entries[(line.after event).history.position]? =
      some (line.after event).editor.text := by
  obtain rfl | rfl := steps
  · simp only [InputLine.after, previous_entries, previous_position] at moved entry ⊢
    have some_ : line.history.position ≠ 0 := by omega
    rw [List.getElem?_eq_getElem entry]
    unfold InputHistory.previous
    split <;> simp [some_, LineEditor.set, entry]
  · simp only [InputLine.after, next_entries] at moved entry ⊢
    unfold InputHistory.next at moved entry ⊢
    split at moved
    · next above =>
        rw [if_pos above] at entry ⊢
        dsimp only at entry ⊢
        rw [List.getElem?_eq_getElem entry, if_neg entry.ne, LineEditor.set]
        simp [entry]
    · exact absurd rfl moved

theorem previous_draft (bottom : line.AtBottom) :
    (line.after .previous).history.draft = line.editor.text := by
  unfold InputLine.AtBottom at bottom
  simp only [InputLine.after, InputHistory.previous, if_pos bottom]
  split <;> rfl

theorem next_to_bottom (above : ¬ line.AtBottom) (bottom : (line.after .next).AtBottom) :
    (line.after .next).editor.text = line.history.draft := by
  unfold InputLine.AtBottom at above bottom
  simp only [InputLine.after, next_entries] at bottom ⊢
  unfold InputHistory.next at bottom ⊢
  split at bottom
  · next below =>
      rw [if_pos below]
      dsimp only at bottom ⊢
      rw [if_pos bottom, LineEditor.set]
  · exact absurd bottom above

/-- Until the bottom is reached again the draft is kept. -/
theorem run_draft {events : List InputEvent} {final : InputLine}
    (good : Run.Always InputLine.step (fun line _ => ¬ line.AtBottom) line events)
    (h : Run.run InputLine.step line events = some final) (above : ¬ final.AtBottom) :
    final.history.draft = line.history.draft := by
  have keeps : ∀ (now : InputLine) event after,
      (now.AtBottom ∨ now.history.draft = line.history.draft) → ¬ now.AtBottom →
        now.step event = some after →
          after.AtBottom ∨ after.history.draft = line.history.draft := by
    intro now event after kept above step
    obtain rfl := Option.some.inj step
    rw [← kept.resolve_left above]
    exact after_draft above event
  exact (Run.run_invariant_of keeps good h (.inr rfl)).resolve_left above

theorem leaves_bottom {event : InputEvent} (bottom : line.AtBottom)
    (leaves : ¬ (line.after event).AtBottom) : event = .previous := by
  cases event with
  | previous => rfl
  | remember text => exact absurd rfl leaves
  | reset => exact absurd rfl leaves
  | edit editor => exact absurd bottom leaves
  | next =>
      unfold InputLine.AtBottom at bottom leaves
      simp only [InputLine.after, InputHistory.next, if_neg bottom.not_lt] at leaves
      exact absurd bottom leaves

/-- A run that ends above the bottom has been there all the time, or since a last `previous`. -/
theorem run_last_left {start final : InputLine} {events : List InputEvent}
    (h : Run.run InputLine.step start events = some final) (above : ¬ final.AtBottom) :
    (¬ start.AtBottom ∧ Run.Always InputLine.step (fun line _ => ¬ line.AtBottom) start events) ∨
      ∃ before between left, events = before ++ .previous :: between ∧
        Run.run InputLine.step start before = some left ∧ left.AtBottom ∧
        Run.run InputLine.step (left.after .previous) between = some final ∧
        Run.Always InputLine.step (fun line _ => ¬ line.AtBottom) (left.after .previous) between := by
  induction events generalizing start with
  | nil =>
      obtain rfl : start = final := Option.some.inj h
      exact .inl ⟨above, trivial⟩
  | cons event events ih =>
      obtain ⟨_, stepped, rest⟩ := Run.run_cons.mp h
      obtain rfl := Option.some.inj stepped
      obtain ⟨high, good⟩ | ⟨before, between, left, rfl, reached, bottom, later, good⟩ := ih rest
      · by_cases bottom : start.AtBottom
        · obtain rfl := leaves_bottom bottom high
          exact .inr ⟨[], events, start, rfl, rfl, bottom, rest, good⟩
        · refine .inl ⟨bottom, bottom, fun next step => ?_⟩
          obtain rfl := Option.some.inj step
          exact good
      · exact .inr ⟨event :: before, between, left, rfl,
          Run.run_cons.mpr ⟨_, rfl, reached⟩, bottom, later, good⟩

end Steps

/-- In every run of the history and the edits between: the history stays sound, a step to an
entry shows it, and `next` returns to the bottom with the text that `previous` has last left
there, whatever has been done in between. -/
theorem run_history {editor : LineEditor} {events : List InputEvent} {line : InputLine}
    (h : Run.run InputLine.step { editor } events = some line) :
    line.history.Sound ∧
      (∀ event, event = .previous ∨ event = .next →
        (line.after event).history.position ≠ line.history.position →
        (line.after event).history.position < (line.after event).history.entries.length →
        (line.after event).history.entries[(line.after event).history.position]? =
          some (line.after event).editor.text) ∧
      (¬ line.AtBottom → (line.after .next).AtBottom →
        ∃ before between left, events = before ++ .previous :: between ∧
          Run.run InputLine.step { editor } before = some left ∧ left.AtBottom ∧
          Run.Always InputLine.step (fun now _ => ¬ now.AtBottom) (left.after .previous) between ∧
          (line.after .next).editor.text = left.editor.text) := by
  refine ⟨?_, fun event steps moved entry => moved_to_entry steps moved entry, ?_⟩
  · have keeps : ∀ (now : InputLine) event after, now.history.Sound →
        now.step event = some after → after.history.Sound := by
      intro now event after sound step
      obtain rfl := Option.some.inj step
      exact sound.after event
    exact Run.run_invariant keeps h ⟨Nat.le_refl 0, Nat.zero_le 100, .nil⟩
  · intro above back
    obtain ⟨high, -⟩ | ⟨before, between, left, split, reached, bottom, later, good⟩ :=
      run_last_left h above
    · exact absurd rfl high
    · refine ⟨before, between, left, split, reached, bottom, good, ?_⟩
      rw [next_to_bottom above back, run_draft good later above, previous_draft bottom]

/-- `b` is typed and not sent, and an earlier line looked up. -/
def unsent : List InputEvent :=
  [.remember [97], .edit { text := [98], cursor := 1 }, .previous]

theorem run_history_unsent : ∃ line : InputLine,
    Run.run InputLine.step {} unsent = some line ∧ line.editor.text = [97] ∧
      (line.after .next).editor.text = [98] ∧ ¬ line.AtBottom ∧
      ∃ before between left, unsent = before ++ .previous :: between ∧
        Run.run InputLine.step {} before = some left ∧ left.AtBottom ∧
        Run.Always InputLine.step (fun now _ => ¬ now.AtBottom) (left.after .previous) between ∧
        (line.after .next).editor.text = left.editor.text := by
  refine ⟨_, rfl, rfl, rfl, by decide, ?_⟩
  exact (@run_history {} unsent _ rfl).2.2 (by decide) rfl

end Chatbox.Ui
