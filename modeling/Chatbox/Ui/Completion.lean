import Chatbox.App.State
import Chatbox.Lib.Prefix
import Chatbox.Ui.LineEditor
import Mathlib.Data.List.Sort

/-!
Completion of the word before the cursor. The word is replaced by what all candidates that start
with it have in common, as far as this is whole characters.
-/

namespace Chatbox.Ui

open Text Utf8 Protocol App

def MAX_CHAT_MESSAGE_LEN : Nat := MAX_CHAT_LENGTH

/-- What `complete` reads and writes of a `ChatView`. -/
structure ChatView where
  editor : LineEditor := {}
  hint : Bytes := []
  host : Bool := false
deriving DecidableEq, Repr

def commands : List Bytes :=
  ["/help", "/rooms", "/create", "/join", "/leave", "/topic", "/users", "/whisper", "/kick",
    "/clear", "/time", "/exit"].map ascii

def hostCommands : List Bytes := ["/ban", "/unban", "/bans"].map ascii

/-- The byte after the last blank before the cursor. -/
def wordStart (editor : LineEditor) : Nat :=
  match rfind (editor.text.take editor.cursor) 32 with
  | none => 0
  | some space => space + 1

/-- `prefix` -/
def typedWord (editor : LineEditor) : Bytes :=
  (editor.text.drop (wordStart editor)).take (editor.cursor - wordStart editor)

def candidates (view : ChatView) (app : AppState) : List Bytes :=
  if wordStart view.editor = 0 && (ascii "/").isPrefixOf (typedWord view.editor) then
    commands ++ if view.host then hostCommands else []
  else if (ascii "/join ").isPrefixOf view.editor.text then app.rooms.map RoomSummary.name
  else app.users

def matching (view : ChatView) (app : AppState) : List Bytes :=
  ((candidates view app).filter fun candidate =>
    (typedWord view.editor).isPrefixOf candidate).insertionSort (· ≤ ·)

/-- `!common.empty() && common.size() < front.size() && (front[common.size()] & 0xc0) == 0x80` -/
def insideChar (front common : Bytes) : Bool :=
  !common.isEmpty && common.length < front.length && isContinuation (front.getD common.length 0)

def completion (front : Bytes) (candidates : List Bytes) : Bytes :=
  let common := Prefix.common front candidates
  Prefix.popWhile (insideChar front) common common.length

def complete (view : ChatView) (app : AppState) : ChatView :=
  match matching view app with
  | [] => { view with hint := ascii "No completions" }
  | front :: rest =>
      let candidates := front :: rest
      let start := wordStart view.editor
      let typed := typedWord view.editor
      let replacement :=
        completion front candidates ++ if candidates.length = 1 then ascii " " else []
      let editor : LineEditor :=
        if view.editor.text.length - typed.length + replacement.length ≤ MAX_CHAT_MESSAGE_LEN then
          { text := view.editor.text.take start ++ replacement ++
              view.editor.text.drop (start + typed.length)
            cursor := start + replacement.length }
        else view.editor
      { view with
        editor
        hint := if 1 < candidates.length then candidates.flatMap (· ++ ascii "  ") else [] }

section Completion

variable {view : ChatView} {app : AppState} {editor : LineEditor} {before after : List Char}

theorem LineEditor.Shows.word (shows_ : editor.Shows ⟨before, after⟩) :
    ∃ front word, before = front ++ word ∧ ' ' ∉ word ∧
      (front = [] ∨ front.getLast? = some ' ') ∧ wordStart editor = (encode front).length ∧
      typedWord editor = encode word := by
  have typed : editor.text.take editor.cursor = encode before := by
    rw [shows_.text, shows_.cursor]
    exact List.take_left
  have rest : ∀ front word, before = front ++ word → wordStart editor = (encode front).length →
      typedWord editor = encode word := by
    rintro front word rfl start
    rw [typedWord, start, ← List.drop_take, typed, encode_append]
    exact List.drop_left
  cases found : rfind (editor.text.take editor.cursor) 32 with
  | none =>
      have start : wordStart editor = (encode []).length := by rw [wordStart, found]; rfl
      refine ⟨[], before, rfl, ?_, .inl rfl, start, rest [] before rfl start⟩
      rw [typed, rfind_eq_none] at found
      exact fun mem => found (List.mem_flatMap.mpr ⟨' ', mem, List.mem_singleton.mpr rfl⟩)
  | some space =>
      rw [typed] at found
      obtain ⟨whole, last⟩ := rfind_eq_some found
      obtain ⟨front, word, rfl, first, later⟩ := encode_ascii (a := ' ') rfl whole
      rw [← later] at last
      have length := congrArg List.length first
      rw [List.length_take, Nat.min_eq_left] at length
      · have start : wordStart editor = (encode (front ++ [' '])).length := by
          rw [wordStart, typed, found, encode_append, List.length_append, length]
          rfl
        have split : front ++ ' ' :: word = (front ++ [' ']) ++ word := by simp
        refine ⟨front ++ [' '], word, split, ?_, .inr List.getLast?_concat, start,
          rest _ _ split start⟩
        exact fun mem => last (List.mem_flatMap.mpr ⟨' ', mem, List.mem_singleton.mpr rfl⟩)
      · have size := congrArg List.length whole
        rw [List.length_append, List.length_cons, List.length_take] at size
        omega

theorem LineEditor.Shows.replaceWord {front word : List Char} (shows_ : editor.Shows ⟨front ++ word, after⟩)
    (replacement : List Char) :
    LineEditor.Shows
      { text := editor.text.take (encode front).length ++ encode replacement ++
          editor.text.drop ((encode front).length + (encode word).length)
        cursor := (encode front).length + (encode replacement).length }
      ⟨front ++ replacement, after⟩ := by
  refine ⟨?_, ?_⟩
  · simp only [shows_.text, encode_append, List.append_assoc]
    rw [List.take_left, ← List.drop_drop, List.drop_left, List.drop_left]
  · rw [encode_append, List.length_append]

theorem prefix_of_encode {other text : List Char} (h : encode other <+: encode text) :
    other <+: text := by
  obtain ⟨rest, whole⟩ := h
  obtain ⟨more, rfl, -⟩ := encode_eq_append whole.symm
  exact List.prefix_append other more

/-- Nothing is cut off where the rest starts with a character. -/
theorem insideChar_encode (text rest : List Char) :
    insideChar (encode (text ++ rest)) (encode text) = false := by
  have head := encode_head rest
  rw [insideChar, encode_append]
  cases bytes : encode rest with
  | nil => simp
  | cons d ds =>
      rw [bytes] at head
      rw [List.getD_append_right _ _ _ _ (Nat.le_refl _), Nat.sub_self, List.getD_cons_zero,
        head d rfl, Bool.and_false]

/-- Where nothing is cut off any more there are whole characters. -/
theorem valid_of_insideChar {front common : Bytes} (valid : Valid front) (sub : common <+: front)
    (done : insideChar front common = false) : Valid common := by
  obtain ⟨chars, whole⟩ := valid
  obtain ⟨rest, rfl⟩ := sub
  cases rest with
  | nil => exact ⟨chars, by rw [whole, List.append_nil]⟩
  | cons d rest =>
      cases common with
      | nil => exact ⟨[], rfl⟩
      | cons e common =>
          have starts : isContinuation d = false := by
            rw [insideChar, List.getD_append_right _ _ _ _ (Nat.le_refl _), Nat.sub_self,
              List.getD_cons_zero] at done
            simpa using done
          obtain ⟨before, after, -, same⟩ := encode_boundary whole starts
          exact ⟨before, same⟩

/-- The completion is the longest text of whole characters that all candidates start with. -/
theorem completion_greatest {front : Bytes} {candidates : List Bytes} (mem : front ∈ candidates)
    (valid : ∀ candidate ∈ candidates, Valid candidate) :
    ∃ common, completion front candidates = encode common ∧
      (∀ candidate ∈ candidates, encode common <+: candidate) ∧
      ∀ other, (∀ candidate ∈ candidates, encode other <+: candidate) → other <+: common := by
  obtain ⟨first, all⟩ := Prefix.common_le front candidates
  have sub : completion front candidates <+: Prefix.common front candidates :=
    Prefix.popWhile_le _ _
  have done : insideChar front (completion front candidates) = false :=
    Prefix.popWhile_done rfl _
  obtain ⟨common, same⟩ := valid_of_insideChar (valid front mem) (sub.trans first) done
  refine ⟨common, same.symm, fun candidate listed => ?_, fun other shared => ?_⟩
  · rw [same]
    exact sub.trans (all candidate listed)
  · obtain ⟨chars, rfl⟩ := valid front mem
    obtain ⟨rest, rfl⟩ := prefix_of_encode (shared _ mem)
    have kept : encode other <+: completion (encode (other ++ rest)) candidates :=
      Prefix.le_popWhile_length (Prefix.le_common (shared _ mem) shared)
        (insideChar_encode other rest)
    rw [← same] at kept
    exact prefix_of_encode kept

theorem valid_commands : ∀ command ∈ commands ++ hostCommands, Valid command := by
  unfold commands hostCommands
  rw [← List.map_append, List.forall_mem_map]
  intro command mem
  refine valid_ascii ?_
  revert command
  decide

theorem valid_candidates (users : ∀ user ∈ app.users, Valid user)
    (rooms : ∀ room ∈ app.rooms, Valid room.name) :
    ∀ candidate ∈ candidates view app, Valid candidate := by
  have fixed := List.forall_mem_append.mp valid_commands
  unfold candidates
  split
  · rw [List.forall_mem_append]
    refine ⟨fixed.1, ?_⟩
    split
    · exact fixed.2
    · nofun
  · split
    · exact List.forall_mem_map.mpr rooms
    · exact users

theorem mem_matching {candidate : Bytes} : candidate ∈ matching view app ↔
    candidate ∈ candidates view app ∧ typedWord view.editor <+: candidate := by
  rw [matching, List.mem_insertionSort, List.mem_filter, List.isPrefixOf_iff_prefix]

end Completion

section Main

variable {view : ChatView} {app : AppState} {before after : List Char}

/-- Completion replaces the word before the cursor by the longest text of whole characters that
all matching candidates start with, and a blank if there is only one. The rest of the line stays,
and all of it where nothing matches or the line would be too long. -/
theorem complete_word (shows_ : view.editor.Shows ⟨before, after⟩)
    (length : view.editor.text.length ≤ MAX_CHAT_MESSAGE_LEN)
    (users : ∀ user ∈ app.users, Valid user) (rooms : ∀ room ∈ app.rooms, Valid room.name) :
    ∃ front word, before = front ++ word ∧ ' ' ∉ word ∧
      (front = [] ∨ front.getLast? = some ' ') ∧
      (∀ candidate, candidate ∈ matching view app ↔
        candidate ∈ candidates view app ∧ encode word <+: candidate) ∧
      (matching view app = [] → (complete view app).editor = view.editor) ∧
      (matching view app ≠ [] → ∃ common, word <+: common ∧
        (∀ candidate ∈ matching view app, encode common <+: candidate) ∧
        (∀ other, (∀ candidate ∈ matching view app, encode other <+: candidate) →
          other <+: common) ∧
        let replacement := common ++ if (matching view app).length = 1 then [' '] else []
        if (encode (front ++ replacement ++ after)).length ≤ MAX_CHAT_MESSAGE_LEN then
          (complete view app).editor.Shows ⟨front ++ replacement, after⟩
        else (complete view app).editor = view.editor) ∧
      (complete view app).editor.text.length ≤ MAX_CHAT_MESSAGE_LEN := by
  obtain ⟨front, word, rfl, blank, border, start, typed⟩ := shows_.word
  have matches_ : ∀ candidate, candidate ∈ matching view app ↔
      candidate ∈ candidates view app ∧ encode word <+: candidate := by
    intro candidate
    rw [mem_matching, typed]
  refine ⟨front, word, rfl, blank, border, matches_, ?_⟩
  have size := congrArg List.length shows_.text
  simp only [encode_append, List.length_append] at size
  unfold complete
  cases listed : matching view app with
  | nil => exact ⟨fun _ => rfl, fun some_ => absurd rfl some_, length⟩
  | cons first rest =>
      rw [listed] at matches_
      have valid : ∀ candidate ∈ first :: rest, Valid candidate := fun candidate mem =>
        valid_candidates users rooms candidate ((matches_ candidate).mp mem).1
      obtain ⟨common, same, shared, greatest⟩ := completion_greatest List.mem_cons_self valid
      have extends_ : word <+: common :=
        greatest word fun candidate mem => ((matches_ candidate).mp mem).2
      have replaced : completion first (first :: rest) ++
          (if (first :: rest).length = 1 then ascii " " else []) =
            encode (common ++ if (first :: rest).length = 1 then [' '] else []) := by
        rw [same, encode_append]
        split <;> rfl
      have room : ∀ replacement,
          view.editor.text.length - (encode word).length + (encode replacement).length =
            (encode (front ++ replacement ++ after)).length := by
        intro replacement
        simp only [encode_append, List.length_append]
        omega
      dsimp only
      rw [replaced, start, typed, room]
      refine ⟨nofun, fun _ => ⟨common, extends_, shared, greatest, ?_⟩, ?_⟩
      all_goals generalize common ++ (if (first :: rest).length = 1 then [' '] else []) = replacement
      · by_cases fits : (encode (front ++ replacement ++ after)).length ≤ MAX_CHAT_MESSAGE_LEN
        · simp only [if_pos fits]
          exact shows_.replaceWord replacement
        · simp only [if_neg fits]
      · split
        · next fits =>
            have shown := (shows_.replaceWord replacement).text
            rw [shown, ← encode_append]
            exact fits
        · exact length

end Main

/-- A command that is typed in part. -/
def typedCommand : ChatView := { editor := { text := ascii "/jo", cursor := 3 } }

theorem complete_word_command : (complete typedCommand {}).editor.text = ascii "/join " ∧
    (complete typedCommand {}).editor.text.length ≤ MAX_CHAT_MESSAGE_LEN := by
  obtain ⟨_, _, _, _, _, _, _, _, length⟩ :=
    @complete_word typedCommand {} ['/', 'j', 'o'] [] ⟨rfl, rfl⟩ (by decide) nofun nofun
  exact ⟨by decide, length⟩

end Chatbox.Ui
