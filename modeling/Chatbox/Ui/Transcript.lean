import Chatbox.App.State
import Chatbox.Lib.Run
import Chatbox.Ui.Scrollback
import Chatbox.Ui.Wrap

/-!
The messages of the screen state as a window on all that have been pushed. A message has no
number of its own; `render_chat` counts back from the number of messages there have been.
-/

namespace Chatbox.Ui

open Text Protocol App

/-- The operations of `app_state.h` that change something. -/
inductive StateEvent where
  | pushMessage (msg : Bytes)
  | clearMessages
  | activateRoom (id : RoomId) (name topic : Bytes)
  | resetChatState
  | updateRoomUsers (id : RoomId) (users : List Bytes)
  | updateRoomTopic (id : RoomId) (topic : Bytes)
  | updateRoomList (rooms : List RoomSummary)
  | markKicked
deriving DecidableEq, Repr

namespace StateEvent

def apply (app : AppState) : StateEvent → AppState
  | .pushMessage msg => app.pushMessage msg
  | .clearMessages => app.clearMessages
  | .activateRoom id name topic => app.activateRoom id name topic
  | .resetChatState => app.resetChatState
  | .updateRoomUsers id users => app.updateRoomUsers id users
  | .updateRoomTopic id topic => app.updateRoomTopic id topic
  | .updateRoomList rooms => app.updateRoomList rooms
  | .markKicked => app.markKicked

def step (app : AppState) (event : StateEvent) : Option AppState := some (event.apply app)

def pushed : StateEvent → List Bytes
  | .pushMessage msg => [msg]
  | _ => []

end StateEvent

/-- `message_sequence - messages.size()` -/
def firstMessage (app : AppState) : Nat := app.messageSequence - app.messages.length

section

variable (wcwidth : Char → Int) (width : Int)

/-- The lines of one message. -/
def messageLines (message : Nat) (text : Bytes) : List TranscriptLine :=
  (wrapText wcwidth (width - 2) text).zipIdx.map fun (text, part) =>
    { message, part, text, continuation := part != 0 }

/-- The lines that `render_chat` draws. -/
def transcript (app : AppState) : List TranscriptLine :=
  app.messages.zipIdx.flatMap fun (text, i) =>
    messageLines wcwidth width (firstMessage app + i) text

end

/-- `state.messages[line.message - (state.message_sequence - state.messages.size())]` -/
def originalMessage (app : AppState) (line : TranscriptLine) : Option Bytes :=
  app.messages[line.message - firstMessage app]?

section Window

variable {app app' : AppState} {events : List StateEvent}

/-- From the one state to the other some messages have come, and `lost` have gone with their
numbers, the oldest first. -/
structure Shifted (app : AppState) (added : List Bytes) (lost : Nat) (app' : AppState) : Prop where
  messages : app'.messages = (app.messages ++ added).drop lost
  inside : lost ≤ (app.messages ++ added).length
  sequence : app'.messageSequence = app.messageSequence + added.length

structure Counted (app : AppState) : Prop where
  limit : app.messages.length ≤ MAX_MESSAGES
  sequence : app.messages.length ≤ app.messageSequence

theorem Shifted.refl (app : AppState) : Shifted app [] 0 app :=
  ⟨(List.append_nil _).symm, Nat.zero_le _, rfl⟩

theorem Shifted.trans {app'' : AppState} {added added' : List Bytes} {lost lost' : Nat}
    (first : Shifted app added lost app') (second : Shifted app' added' lost' app'') :
    Shifted app (added ++ added') (lost + lost') app'' := by
  have inside := second.inside
  have length := congrArg List.length first.messages
  rw [List.length_drop] at length
  rw [List.length_append] at inside
  refine ⟨?_, ?_, ?_⟩
  · rw [second.messages, first.messages, ← List.append_assoc,
      ← List.drop_append_of_le_length first.inside, List.drop_drop]
  · rw [← List.append_assoc, List.length_append]
    have := first.inside
    omega
  · rw [second.sequence, first.sequence, List.length_append, Nat.add_assoc]

/-- The subtraction in 64 bits, where the counter may have wrapped. -/
theorem Counted.firstMessage_uint64 (counted : Counted app) :
    UInt64.ofNat app.messageSequence - UInt64.ofNat app.messages.length =
      UInt64.ofNat (firstMessage app) :=
  (UInt64.ofNat_sub counted.sequence).symm

/-- The number of a message that stays is the same. -/
theorem Shifted.firstMessage {added : List Bytes} {lost : Nat}
    (shifted : Shifted app added lost app') (counted : Counted app) :
    firstMessage app' = firstMessage app + lost := by
  have inside := shifted.inside
  have sequence := counted.sequence
  unfold Ui.firstMessage
  rw [shifted.messages, shifted.sequence, List.length_drop]
  rw [List.length_append] at inside ⊢
  omega

theorem counted_apply (counted : Counted app) (event : StateEvent) :
    Counted (event.apply app) ∧ ∃ lost, Shifted app event.pushed lost (event.apply app) := by
  have limit := counted.limit
  have sequence := counted.sequence
  have same : ∀ app' : AppState, app'.messages = app.messages →
      app'.messageSequence = app.messageSequence →
      Counted app' ∧ ∃ lost, Shifted app [] lost app' := by
    intro app' messages count
    refine ⟨⟨messages ▸ limit, ?_⟩, 0, ⟨?_, Nat.zero_le _, count⟩⟩
    · rw [messages, count]
      exact sequence
    · rw [messages, List.append_nil, List.drop_zero]
  have cleared : ∀ app' : AppState, app'.messages = [] →
      app'.messageSequence = app.messageSequence →
      Counted app' ∧ ∃ lost, Shifted app [] lost app' := by
    intro app' messages count
    refine ⟨⟨messages ▸ Nat.zero_le _, messages ▸ Nat.zero_le _⟩, app.messages.length, ?_⟩
    exact ⟨by rw [messages, List.append_nil, List.drop_length], by simp, count⟩
  cases event with
  | pushMessage msg =>
      have fresh : (app.messages ++ [msg]).length = app.messages.length + 1 := List.length_append
      simp only [StateEvent.apply, StateEvent.pushed, AppState.pushMessage]
      split
      · next full =>
          refine ⟨⟨?_, ?_⟩, 1, ⟨rfl, by omega, rfl⟩⟩
          · rw [List.length_drop]
            omega
          · rw [List.length_drop]
            dsimp only
            omega
      · next room =>
          refine ⟨⟨Nat.le_of_not_lt room, ?_⟩, 0, ⟨rfl, Nat.zero_le _, rfl⟩⟩
          dsimp only
          omega
  | clearMessages => exact cleared _ rfl rfl
  | activateRoom id name topic => exact cleared _ rfl rfl
  | resetChatState => exact cleared _ rfl rfl
  | updateRoomUsers id users =>
      simp only [StateEvent.apply, AppState.updateRoomUsers]
      split <;> exact same _ rfl rfl
  | updateRoomTopic id topic =>
      simp only [StateEvent.apply, AppState.updateRoomTopic]
      split <;> exact same _ rfl rfl
  | updateRoomList rooms => exact same _ rfl rfl
  | markKicked => exact same _ rfl rfl

theorem run_shifted (h : Run.run StateEvent.step app events = some app') (counted : Counted app) :
    Counted app' ∧ ∃ lost, Shifted app (events.flatMap StateEvent.pushed) lost app' := by
  induction events generalizing app with
  | nil =>
      obtain rfl : app = app' := Option.some.inj h
      exact ⟨counted, 0, .refl app⟩
  | cons event events ih =>
      obtain ⟨next, stepped, h⟩ := Run.run_cons.mp h
      obtain rfl := Option.some.inj stepped
      obtain ⟨kept, lost, first⟩ := counted_apply counted event
      obtain ⟨counted', lost', second⟩ := ih h kept
      exact ⟨counted', lost + lost', first.trans second⟩

end Window

section Lines

variable {wcwidth : Char → Int} {width : Int} {app app' : AppState}

/-- The lines of messages that are numbered from `first` on. -/
def numberedLines (wcwidth : Char → Int) (width : Int) (first : Nat) (messages : List Bytes) :
    List TranscriptLine :=
  (messages.zipIdx first).flatMap fun (text, message) => messageLines wcwidth width message text

theorem transcript_eq (app : AppState) :
    transcript wcwidth width app =
      numberedLines wcwidth width (firstMessage app) app.messages := by
  rw [transcript, numberedLines, @List.zipIdx_eq_map_add _ app.messages (firstMessage app),
    List.flatMap_map]

theorem numberedLines_append (first : Nat) (a b : List Bytes) :
    numberedLines wcwidth width first (a ++ b) =
      numberedLines wcwidth width first a ++ numberedLines wcwidth width (first + a.length) b := by
  rw [numberedLines, List.zipIdx_append, List.flatMap_append]
  rfl

theorem mem_messageLines {message : Nat} {text : Bytes} {line : TranscriptLine}
    (mem : line ∈ messageLines wcwidth width message text) : line.message = message := by
  obtain ⟨entry, -, rfl⟩ := List.mem_map.mp mem
  rfl

theorem mem_numberedLines {first : Nat} {messages : List Bytes} {line : TranscriptLine}
    (mem : line ∈ numberedLines wcwidth width first messages) :
    ∃ i text, messages[i]? = some text ∧ line.message = first + i ∧
      line ∈ messageLines wcwidth width (first + i) text := by
  obtain ⟨⟨text, message⟩, entry, mem⟩ := List.mem_flatMap.mp mem
  obtain ⟨low, there⟩ := List.mem_zipIdx_iff_le_and_getElem?_sub.mp entry
  refine ⟨message - first, text, there, ?_, ?_⟩
  · rw [mem_messageLines mem]
    omega
  · rwa [Nat.add_sub_of_le low]

theorem messageLines_subset {i : Nat} {text : Bytes} (there : app.messages[i]? = some text) :
    messageLines wcwidth width (firstMessage app + i) text ⊆ transcript wcwidth width app := by
  intro line mem
  exact List.mem_flatMap.mpr ⟨(text, i), List.mem_zipIdx_iff_getElem?.mpr there, mem⟩

theorem messageLines_ne_nil (some_ : 3 ≤ width) (message : Nat) (text : Bytes) :
    messageLines wcwidth width message text ≠ [] := by
  intro none
  refine @wrapText_ne_nil wcwidth (width - 2) (by omega) text ?_
  simpa [messageLines] using none

theorem increasing_messageLines (message : Nat) (text : Bytes) :
    Increasing (messageLines wcwidth width message text) := by
  unfold Increasing messageLines
  rw [List.pairwise_map, List.pairwise_iff_getElem]
  intro i j hi hj less
  simp only [List.getElem_zipIdx, TranscriptLine.before, Nat.lt_irrefl, decide_false, beq_self_eq_true,
    Bool.false_or, Bool.true_and, decide_eq_true_eq]
  omega

theorem increasing_numberedLines (first : Nat) (messages : List Bytes) :
    Increasing (numberedLines wcwidth width first messages) := by
  induction messages generalizing first with
  | nil => exact .nil
  | cons text messages ih =>
      have split : numberedLines wcwidth width first (text :: messages) =
          messageLines wcwidth width first text ++
            numberedLines wcwidth width (first + 1) messages := rfl
      rw [split]
      refine List.pairwise_append.mpr ⟨increasing_messageLines first text, ih (first + 1), ?_⟩
      intro line mem other later
      obtain ⟨i, _, -, message, -⟩ := mem_numberedLines later
      rw [TranscriptLine.before, mem_messageLines mem, message, decide_eq_true (by omega)]
      rfl

theorem increasing_transcript (app : AppState) : Increasing (transcript wcwidth width app) := by
  rw [transcript_eq]
  exact increasing_numberedLines _ _

/-- As the messages come and go, so do the lines. -/
theorem Shifted.transcript {added : List Bytes} {lost : Nat}
    (shifted : Shifted app added lost app') (counted : Counted app) :
    ∃ changes : List TranscriptChange,
      changes.foldl TranscriptChange.apply (transcript wcwidth width app) =
          transcript wcwidth width app' ∧
        Increasing (transcript wcwidth width app ++ changes.flatMap TranscriptChange.gained) := by
  have first := shifted.firstMessage counted
  have all := List.take_append_drop lost (app.messages ++ added)
  have front : ((app.messages ++ added).take lost).length = lost :=
    List.length_take_of_le shifted.inside
  refine ⟨[.grow (numberedLines wcwidth width (Ui.firstMessage app + app.messages.length) added),
    .evict (numberedLines wcwidth width (Ui.firstMessage app)
      ((app.messages ++ added).take lost)).length], ?_, ?_⟩
  · simp only [List.foldl_cons, List.foldl_nil, TranscriptChange.apply]
    rw [transcript_eq, transcript_eq, ← numberedLines_append, shifted.messages, first]
    nth_rewrite 2 [← all]
    rw [numberedLines_append, front, List.drop_left]
  · simp only [List.flatMap_cons, List.flatMap_nil, TranscriptChange.gained, List.append_nil]
    rw [transcript_eq, ← numberedLines_append]
    exact increasing_numberedLines _ _

end Lines

section Runs

variable {app app' : AppState} {events : List StateEvent}

theorem counted_empty : Counted {} := ⟨Nat.zero_le _, Nat.le_refl _⟩

/-- The screen state holds the last messages of all that have been pushed, not more than its
limit. The number of a message is that of the messages pushed before it; it stays with the
message, each message has its lines, and each line drawn finds its message by it. -/
theorem run_messages (h : Run.run StateEvent.step {} events = some app) :
    app.messages.length ≤ MAX_MESSAGES ∧ app.messages.length ≤ app.messageSequence ∧
      app.messageSequence = (events.flatMap StateEvent.pushed).length ∧
      app.messages = (events.flatMap StateEvent.pushed).drop (firstMessage app) ∧
      (∀ i < app.messages.length,
        (events.flatMap StateEvent.pushed)[firstMessage app + i]? = app.messages[i]?) ∧
      (∀ later app', Run.run StateEvent.step app later = some app' →
        app.messageSequence ≤ app'.messageSequence ∧ ∃ lost,
          app'.messages = (app.messages ++ later.flatMap StateEvent.pushed).drop lost ∧
            firstMessage app' = firstMessage app + lost) ∧
      (∀ wcwidth width, Increasing (transcript wcwidth width app) ∧
        ∀ line ∈ transcript wcwidth width app, ∃ i text, app.messages[i]? = some text ∧
          line ∈ messageLines wcwidth width (firstMessage app + i) text ∧
          originalMessage app line = some text) ∧
      (∀ wcwidth width i text, app.messages[i]? = some text →
        messageLines wcwidth width (firstMessage app + i) text ⊆ transcript wcwidth width app ∧
          (3 ≤ width → messageLines wcwidth width (firstMessage app + i) text ≠ [])) ∧
      UInt64.ofNat app.messageSequence - UInt64.ofNat app.messages.length =
        UInt64.ofNat (firstMessage app) := by
  obtain ⟨counted, lost, shifted⟩ := run_shifted h counted_empty
  have number : firstMessage app = lost := (shifted.firstMessage counted_empty).trans (Nat.zero_add _)
  have messages : app.messages = (events.flatMap StateEvent.pushed).drop (firstMessage app) := by
    rw [number]
    exact shifted.messages
  refine ⟨counted.limit, counted.sequence, shifted.sequence.trans (Nat.zero_add _), messages,
    fun i _ => ?_, fun later app' run => ?_,
    fun wcwidth width => ⟨increasing_transcript app, fun line mem => ?_⟩,
    fun wcwidth width i text there => ⟨messageLines_subset there,
      fun some_ => messageLines_ne_nil some_ _ text⟩, counted.firstMessage_uint64⟩
  · have there := congrArg (fun messages => messages[i]?) messages
    exact (there.trans List.getElem?_drop).symm
  · obtain ⟨-, gone, later⟩ := run_shifted run counted
    exact ⟨later.sequence ▸ Nat.le_add_right _ _, gone, later.messages,
      later.firstMessage counted⟩
  · rw [transcript_eq] at mem
    obtain ⟨i, text, there, message, own⟩ := mem_numberedLines mem
    refine ⟨i, text, there, own, ?_⟩
    rw [originalMessage, message, Nat.add_sub_cancel_left]
    exact there

theorem run_messages_cleared : ∃ app : AppState,
    Run.run StateEvent.step {} [.pushMessage [97], .clearMessages, .pushMessage [98]] = some app ∧
      firstMessage app = 1 ∧ app.messages = [[97], [98]].drop (firstMessage app) :=
  ⟨_, rfl, rfl, (@run_messages _
    [.pushMessage [97], .clearMessages, .pushMessage [98]] rfl).2.2.2.1⟩

/-- Whatever happens to the screen state, a reader who has gone back keeps the line, as long as
its message is there. -/
theorem run_scroll {scroll scroll' : Scrollback} {height delta : Int32} {wcwidth : Char → Int}
    {width : Int} {later : List StateEvent} (h : Run.run StateEvent.step {} events = some app)
    (some_ : transcript wcwidth width app ≠ [])
    (moved : scroll.moveBy (transcript wcwidth width app) height delta = some scroll')
    (reading : scroll'.follow = false) (run : Run.run StateEvent.step app later = some app') :
    ∃ line, (transcript wcwidth width app)[scroll'.start (transcript wcwidth width app) height]? =
        some line ∧
      (line ∈ transcript wcwidth width app' →
        (transcript wcwidth width app')[scroll'.start (transcript wcwidth width app') height]? =
          some line) ∧
      (line ∉ transcript wcwidth width app' →
        scroll'.start (transcript wcwidth width app') height = 0) := by
  obtain ⟨counted, -⟩ := run_shifted h counted_empty
  obtain ⟨-, lost, shifted⟩ := run_shifted run counted
  obtain ⟨changes, same, grown⟩ := shifted.transcript counted
  obtain ⟨-, _, result, keeps⟩ := moveBy_keeps scroll (transcript wcwidth width app) height delta
  obtain rfl := Option.some.inj (result.symm.trans moved)
  obtain ⟨line, there, keeps⟩ := keeps (increasing_transcript app) some_ reading
  have kept := keeps changes grown
  rw [same] at kept
  exact ⟨line, there, kept⟩

end Runs

end Chatbox.Ui
