import Chatbox.Chat.State
import Chatbox.Lib.Run

/-!
The sending half of a session over all orders of calls of `deliver` and `close`,
handlers of the executor and ends of writes. A queue that is not empty stands for a
write that has not ended well, so that frames go out one at a time and in order. The
handler that ends a write with an error leaves its frame in the queue, and with it the
only chance to close the stream is gone.
-/

namespace Chatbox.Chat

open Text Protocol

/-- What can happen to the sending half of a session. -/
inductive WireEvent where
  | deliver (message : ServerMessage)
  | close
  | runPosted
  | writeDone (ok : Bool)
deriving DecidableEq

/-- A session's sending half with its past: the frames of the calls of `deliver`, how
the writes ended, how many frames there were at the first call of `close`, and whether
the handler posted by `close` has run. -/
structure WireHistory where
  wire : SessionWire := {}
  delivered : List Bytes := []
  completions : List Bool := []
  closedAt : Option Nat := none
  closeRan : Bool := false

namespace WireHistory

variable (history : WireHistory)

/-- The writes that have been started and have not ended. -/
def outstanding : Nat := history.wire.handed.length - history.completions.length

/-- The frames that have been written to the end. -/
def written : List Bytes :=
  ((history.wire.handed.zip history.completions).filter fun item => item.2).map Prod.fst

/-- `ClientSession::deliver` -/
def deliver (message : ServerMessage) : WireHistory :=
  match encodeServerFrame message with
  | .error _ => history
  | .ok frame =>
      { history with
        wire := { history.wire with posted := history.wire.posted ++ [.write frame] }
        delivered := history.delivered ++ [frame] }

/-- `ClientSession::close` -/
def close : WireHistory :=
  { history with
    wire := { history.wire with posted := history.wire.posted ++ [.close] }
    closedAt := history.closedAt.or (some history.delivered.length) }

def step (history : WireHistory) : WireEvent → Option WireHistory
  | .deliver message => some (history.deliver message)
  | .close => some history.close
  | .runPosted =>
      match history.wire.posted with
      | [] => none
      | handler :: rest =>
          some { history with
            wire := { history.wire with posted := rest }.runPosted handler
            closeRan := history.closeRan || decide (handler = .close) }
  | .writeDone ok =>
      if history.outstanding = 0 then none
      else
        some { history with
          wire := history.wire.writeDone ok
          completions := history.completions ++ [ok] }

/-- The frames among the handlers that have not run yet. -/
def frames (posted : List Posted) : List Bytes :=
  posted.filterMap fun
    | .write wire => some wire
    | _ => none

/-- The ways in which a step goes. -/
inductive Change (history : WireHistory) : WireEvent → WireHistory → Prop where
  | dropped (message : ServerMessage) : Change history (.deliver message) history
  | posted (message : ServerMessage) (frame : Bytes) :
      Change history (.deliver message)
        { history with
          wire := { history.wire with posted := history.wire.posted ++ [.write frame] }
          delivered := history.delivered ++ [frame] }
  | close : Change history .close history.close
  | start {frame : Bytes} {rest : List Posted}
      (head : history.wire.posted = .write frame :: rest) (idle : history.wire.writeQueue = []) :
      Change history .runPosted
        { history with
          wire := { history.wire with
            posted := rest, writeQueue := [frame],
            handed := history.wire.handed ++ [frame], outstanding := true } }
  | queue {frame : Bytes} {rest : List Posted}
      (head : history.wire.posted = .write frame :: rest) (busy : history.wire.writeQueue ≠ []) :
      Change history .runPosted
        { history with
          wire := { history.wire with
            posted := rest, writeQueue := history.wire.writeQueue ++ [frame] } }
  | closeNow {rest : List Posted} (head : history.wire.posted = .close :: rest)
      (idle : history.wire.writeQueue = []) :
      Change history .runPosted
        { history with
          wire := { history.wire with
            posted := rest, suppressLeaveNotice := true, streamOpen := false }
          closeRan := true }
  | closeLater {rest : List Posted} (head : history.wire.posted = .close :: rest)
      (busy : history.wire.writeQueue ≠ []) :
      Change history .runPosted
        { history with
          wire := { history.wire with
            posted := rest, suppressLeaveNotice := true, closeAfterWrite := true }
          closeRan := true }
  | abort {rest : List Posted} (head : history.wire.posted = .abort :: rest) :
      Change history .runPosted
        { history with
          wire := { history.wire with
            posted := rest, suppressLeaveNotice := true, streamOpen := false } }
  | fail (pending : history.outstanding ≠ 0) :
      Change history (.writeDone false)
        { history with
          wire := { history.wire with outstanding := false }
          completions := history.completions ++ [false] }
  | finish (pending : history.outstanding ≠ 0) (last : history.wire.writeQueue.drop 1 = []) :
      Change history (.writeDone true)
        { history with
          wire := { history.wire with
            outstanding := false, writeQueue := []
            streamOpen := history.wire.streamOpen && !history.wire.closeAfterWrite }
          completions := history.completions ++ [true] }
  | next {frame : Bytes} {rest : List Bytes} (pending : history.outstanding ≠ 0)
      (more : history.wire.writeQueue.drop 1 = frame :: rest) :
      Change history (.writeDone true)
        { history with
          wire := { history.wire with
            outstanding := true, writeQueue := frame :: rest
            handed := history.wire.handed ++ [frame] }
          completions := history.completions ++ [true] }

section Steps

variable {history history' : WireHistory} {event : WireEvent}

theorem step_change (h : step history event = some history') : Change history event history' := by
  cases event with
  | deliver message =>
      obtain rfl := Option.some.inj h
      rw [deliver]
      split
      · exact .dropped message
      · next frame _ => exact .posted message frame
  | close =>
      obtain rfl := Option.some.inj h
      exact .close
  | runPosted =>
      cases head : history.wire.posted with
      | nil => simp [step, head] at h
      | cons handler rest =>
          simp only [step, head, Option.some.injEq] at h
          subst h
          cases handler with
          | write frame =>
              cases queue : history.wire.writeQueue with
              | nil =>
                  simpa [SessionWire.runPosted, SessionWire.writeNext, queue] using
                    Change.start head queue
              | cons first others =>
                  have busy : history.wire.writeQueue ≠ [] := by simp [queue]
                  simpa [SessionWire.runPosted, queue] using Change.queue head busy
          | close =>
              cases queue : history.wire.writeQueue with
              | nil => simpa [SessionWire.runPosted, queue] using Change.closeNow head queue
              | cons first others =>
                  have busy : history.wire.writeQueue ≠ [] := by simp [queue]
                  simpa [SessionWire.runPosted, queue] using Change.closeLater head busy
          | abort => simpa [SessionWire.runPosted] using Change.abort head
  | writeDone ok =>
      simp only [step, Option.ite_none_left_eq_some] at h
      obtain ⟨pending, h⟩ := h
      obtain rfl := Option.some.inj h
      cases ok with
      | false => simpa [SessionWire.writeDone] using Change.fail pending
      | true =>
          cases more : history.wire.writeQueue.drop 1 with
          | nil =>
              have finished := Change.finish pending more
              cases closing : history.wire.closeAfterWrite <;>
                simpa [SessionWire.writeDone, more, closing] using finished
          | cons frame rest =>
              simpa [SessionWire.writeDone, SessionWire.writeNext, more] using Change.next pending more

end Steps

section Order

variable {history history' : WireHistory} {event : WireEvent}

theorem frames_append (posted posted' : List Posted) :
    frames (posted ++ posted') = frames posted ++ frames posted' := List.filterMap_append

/-- Where every frame is, and that a write is under way exactly while the queue is not
empty and no write has failed. -/
structure Ordered (history : WireHistory) : Prop where
  delivered : history.delivered = history.wire.handed ++
    (history.wire.writeQueue.drop 1 ++ frames history.wire.posted)
  balance : history.wire.handed.length = history.completions.length +
    if history.wire.writeQueue = [] ∨ false ∈ history.completions then 0 else 1
  front : history.wire.writeQueue ≠ [] →
    history.wire.handed.getLast? = history.wire.writeQueue.head?
  stuck : false ∈ history.completions → history.wire.writeQueue ≠ []
  orderly : Posted.abort ∉ history.wire.posted

theorem Ordered.writing (ordered : Ordered history) (pending : history.outstanding ≠ 0) :
    history.wire.writeQueue ≠ [] ∧ false ∉ history.completions ∧
      history.wire.handed.length = history.completions.length + 1 := by
  have balance := ordered.balance
  split at balance
  · exact absurd (by rw [outstanding, balance]; omega) pending
  · next flowing =>
      rw [not_or] at flowing
      exact ⟨flowing.1, flowing.2, balance⟩

theorem Ordered.idle (ordered : Ordered history) (idle : history.wire.writeQueue = []) :
    false ∉ history.completions ∧ history.wire.handed.length = history.completions.length :=
  ⟨fun failed => ordered.stuck failed idle, by simpa [idle] using ordered.balance⟩

theorem Ordered.step (ordered : Ordered history) (h : Change history event history') :
    Ordered history' := by
  have delivered := ordered.delivered
  have balance := ordered.balance
  have orderly := ordered.orderly
  cases h with
  | dropped => exact ordered
  | posted message frame =>
      refine ⟨?_, balance, ordered.front, ordered.stuck, by simpa using orderly⟩
      simp only [frames_append, delivered]
      simp [frames]
  | close =>
      refine ⟨?_, balance, ordered.front, ordered.stuck, by simpa [WireHistory.close] using orderly⟩
      simp only [WireHistory.close, frames_append, delivered]
      simp [frames]
  | start head idle =>
      obtain ⟨clean, count⟩ := ordered.idle idle
      simp only [head, idle] at delivered
      rw [head] at orderly
      refine ⟨by simpa [frames] using delivered, by simp [clean, count], by simp,
        fun _ => List.cons_ne_nil _ _, by simpa using orderly⟩
  | queue head busy =>
      obtain ⟨first, others, queue⟩ := List.exists_cons_of_ne_nil busy
      simp only [head, queue] at delivered balance
      rw [head] at orderly
      have front := ordered.front busy
      refine ⟨by simpa [frames, queue] using delivered, by simpa [queue] using balance, ?_, ?_,
        by simpa using orderly⟩
      · simp [front, queue]
      · simp
  | closeNow head idle =>
      rw [head] at delivered orderly
      exact ⟨by simpa [frames] using delivered, balance, ordered.front, ordered.stuck,
        by simpa using orderly⟩
  | closeLater head busy =>
      rw [head] at delivered orderly
      exact ⟨by simpa [frames] using delivered, balance, ordered.front, ordered.stuck,
        by simpa using orderly⟩
  | abort head =>
      rw [head] at orderly
      exact absurd List.mem_cons_self orderly
  | fail pending =>
      obtain ⟨busy, clean, count⟩ := ordered.writing pending
      exact ⟨delivered, by simp [count], ordered.front, fun _ => busy, orderly⟩
  | finish pending last =>
      obtain ⟨busy, clean, count⟩ := ordered.writing pending
      rw [last] at delivered
      refine ⟨by simpa using delivered, by simp [count], by simp, fun failed => ?_, orderly⟩
      simp [clean] at failed
  | next pending more =>
      obtain ⟨busy, clean, count⟩ := ordered.writing pending
      rw [more] at delivered
      refine ⟨by simpa using delivered, ?_, by simp, fun _ => List.cons_ne_nil _ _, orderly⟩
      simp [clean, count]

theorem ordered_start : Ordered {} :=
  ⟨rfl, rfl, fun some => absurd rfl some, nofun, List.not_mem_nil⟩

/-- After an error the queue holds what has not been sent, and no more is sent. -/
theorem Ordered.failed (ordered : Ordered history) (failed : false ∈ history.completions)
    (h : Change history event history') :
    false ∈ history'.completions ∧ history'.wire.handed = history.wire.handed ∧
      history'.wire.streamOpen = history.wire.streamOpen := by
  have busy := ordered.stuck failed
  cases h with
  | start head idle => exact absurd idle busy
  | closeNow head idle => exact absurd idle busy
  | abort head => exact absurd (head ▸ List.mem_cons_self) ordered.orderly
  | fail pending => exact absurd failed (ordered.writing pending).2.1
  | finish pending last => exact absurd failed (ordered.writing pending).2.1
  | next pending more => exact absurd failed (ordered.writing pending).2.1
  | dropped message => exact ⟨failed, rfl, rfl⟩
  | posted message frame => exact ⟨failed, rfl, rfl⟩
  | close => exact ⟨failed, rfl, rfl⟩
  | queue head busy => exact ⟨failed, rfl, rfl⟩
  | closeLater head busy => exact ⟨failed, rfl, rfl⟩

end Order

section Close

variable {history history' : WireHistory} {event : WireEvent}

/-- The frames that the handlers put into the queue before the one that closes. -/
def ahead (posted : List Posted) : List Bytes := frames (posted.takeWhile (· ≠ .close))

/-- How far the frames of the calls before `close` have come. -/
structure Closing (history : WireHistory) : Prop where
  uncalled : history.closedAt = none →
    Posted.close ∉ history.wire.posted ∧ history.closeRan = false
  before : ∀ n, history.closedAt = some n →
    n ≤ (history.wire.handed ++ history.wire.writeQueue.drop 1).length +
      (ahead history.wire.posted).length
  ran : history.closeRan = true → ∃ n, history.closedAt = some n ∧
    n ≤ (history.wire.handed ++ history.wire.writeQueue.drop 1).length
  later : history.wire.closeAfterWrite = true → history.closeRan = true
  closed : history.wire.streamOpen = false → ∃ n, history.closedAt = some n ∧
    n ≤ history.completions.length ∧ false ∉ history.completions.take n

theorem length_ahead_append (posted posted' : List Posted) :
    (ahead posted).length ≤ (ahead (posted ++ posted')).length := by
  unfold ahead
  by_cases all : ∀ handler ∈ posted, handler ≠ .close
  · rw [List.takeWhile_append_of_pos (by simpa using all), frames_append,
      List.takeWhile_eq_self_iff.mpr (by simpa using all), List.length_append]
    omega
  · rw [List.takeWhile_append, if_neg]
    intro whole
    apply all
    simpa using List.takeWhile_eq_self_iff.mp ((List.takeWhile_prefix _).eq_of_length whole)

theorem ahead_all {posted : List Posted} (h : Posted.close ∉ posted) :
    ahead (posted ++ [.close]) = frames posted := by
  have all : ∀ handler ∈ posted, decide (handler ≠ .close) = true := by
    intro handler mem
    simpa using fun same : handler = .close => h (same ▸ mem)
  rw [ahead, List.takeWhile_append_of_pos all]
  simp

theorem ahead_write (frame : Bytes) (rest : List Posted) :
    ahead (.write frame :: rest) = frame :: ahead rest := by
  simp [ahead, frames]

/-- When the turn of the handler that closes has come, the frames before it are in. -/
theorem Closing.reached (closing : Closing history) {rest : List Posted}
    (head : history.wire.posted = .close :: rest) : ∃ n, history.closedAt = some n ∧
      n ≤ (history.wire.handed ++ history.wire.writeQueue.drop 1).length := by
  cases called : history.closedAt with
  | none => exact absurd (head ▸ List.mem_cons_self) (closing.uncalled called).1
  | some n => exact ⟨n, rfl, by simpa [head, ahead, frames] using closing.before n called⟩

theorem Closing.step (closing : Closing history) (ordered : Ordered history)
    (h : Change history event history') : Closing history' := by
  have ⟨uncalled, before, ran, later, closed⟩ := closing
  cases h with
  | dropped => exact ⟨uncalled, before, ran, later, closed⟩
  | posted message frame =>
      refine ⟨?_, ?_, ran, later, closed⟩
      · intro none
        simpa using uncalled none
      · intro n called
        exact (before n called).trans (Nat.add_le_add_left (length_ahead_append _ _) _)
  | close =>
      cases called : history.closedAt with
      | none =>
          have none := uncalled called
          have clean : history.closeRan ≠ true := by simp [none.2]
          refine ⟨by simp [WireHistory.close, called], ?_, fun ran' => absurd ran' clean, later, ?_⟩
          · intro n hn
            simp only [WireHistory.close, called, Option.none_or, Option.some.injEq] at hn
            subst hn
            simp only [WireHistory.close, ahead_all none.1, ordered.delivered, List.length_append]
            omega
          · intro shut
            obtain ⟨n, hn, -⟩ := closed shut
            simp [called] at hn
      | some n =>
          refine ⟨by simp [WireHistory.close, called], ?_, ?_, later, ?_⟩
          · intro m hm
            obtain rfl : n = m := by simpa [WireHistory.close, called] using hm
            exact (before n called).trans (Nat.add_le_add_left (length_ahead_append _ _) _)
          · simpa [WireHistory.close, called] using ran
          · simpa [WireHistory.close, called] using closed
  | start head idle =>
      simp only [head, idle, ahead_write] at before ran
      refine ⟨?_, ?_, ?_, later, closed⟩
      · intro none
        have := uncalled none
        rw [head] at this
        simpa using this
      · intro n called
        have := before n called
        simp only [List.length_append, List.length_cons, List.length_nil, List.drop_one,
          List.tail_cons, List.tail_nil] at this ⊢
        omega
      · intro ran'
        obtain ⟨n, called, bound⟩ := ran ran'
        refine ⟨n, called, bound.trans ?_⟩
        simp
  | queue head busy =>
      obtain ⟨first, others, queue⟩ := List.exists_cons_of_ne_nil busy
      simp only [head, queue, ahead_write] at before ran
      refine ⟨?_, ?_, ?_, later, closed⟩
      · intro none
        have := uncalled none
        rw [head] at this
        simpa using this
      · intro n called
        have := before n called
        simp only [queue, List.cons_append, List.length_append, List.length_cons, List.length_nil,
          List.drop_one, List.tail_cons] at this ⊢
        omega
      · intro ran'
        obtain ⟨n, called, bound⟩ := ran ran'
        refine ⟨n, called, bound.trans ?_⟩
        simp [queue]
  | closeNow head idle =>
      obtain ⟨n, called, bound⟩ := closing.reached head
      obtain ⟨clean, count⟩ := ordered.idle idle
      refine ⟨?_, ?_, fun _ => ⟨n, called, bound⟩, fun _ => rfl, fun _ => ⟨n, called, ?_, ?_⟩⟩
      · intro none
        simp [called] at none
      · intro m hm
        obtain rfl : n = m := Option.some.inj (called.symm.trans hm)
        exact bound.trans (Nat.le_add_right _ _)
      · simpa [idle, count] using bound
      · exact fun failed => clean (List.mem_of_mem_take failed)
  | closeLater head busy =>
      obtain ⟨n, called, bound⟩ := closing.reached head
      refine ⟨?_, ?_, fun _ => ⟨n, called, bound⟩, fun _ => rfl, closed⟩
      · intro none
        simp [called] at none
      · intro m hm
        obtain rfl : n = m := Option.some.inj (called.symm.trans hm)
        exact bound.trans (Nat.le_add_right _ _)
  | abort head => exact absurd (head ▸ List.mem_cons_self) ordered.orderly
  | fail pending =>
      refine ⟨uncalled, before, ran, later, fun shut => ?_⟩
      obtain ⟨n, called, bound, clean⟩ := closed shut
      refine ⟨n, called, ?_, ?_⟩
      · exact bound.trans (by simp)
      · rwa [List.take_append_of_le_length bound]
  | finish pending last =>
      obtain ⟨busy, clean, count⟩ := ordered.writing pending
      refine ⟨uncalled, ?_, ?_, later, ?_⟩
      · simpa [last] using before
      · simpa [last] using ran
      · intro shut
        have clean' : ∀ n, false ∉ (history.completions ++ [true]).take n := by
          intro n failed
          have := List.mem_of_mem_take failed
          simp [clean] at this
        simp only [Bool.and_eq_false_iff, Bool.not_eq_false'] at shut
        obtain already | now := shut
        · obtain ⟨n, called, bound, -⟩ := closed already
          exact ⟨n, called, bound.trans (by simp), clean' n⟩
        · obtain ⟨n, called, bound⟩ := ran (later now)
          refine ⟨n, called, ?_, clean' n⟩
          simpa [last, count] using bound
  | next pending more =>
      refine ⟨uncalled, ?_, ?_, later, fun shut => ?_⟩
      · simpa [more] using before
      · simpa [more] using ran
      · obtain ⟨n, called, bound, clean⟩ := closed shut
        refine ⟨n, called, bound.trans (by simp), ?_⟩
        rwa [List.take_append_of_le_length bound]

theorem closing_start : Closing {} := by
  refine ⟨fun _ => ⟨List.not_mem_nil, rfl⟩, ?_, ?_, ?_, ?_⟩
  · intro n called
    cases called
  · intro ran
    cases ran
  · intro later
    cases later
  · intro closed
    cases closed

theorem run_closing {events : List WireEvent} (h : Run.run step {} events = some history) :
    Ordered history ∧ Closing history := by
  have keeps (history : WireHistory) (event : WireEvent) (history' : WireHistory)
      (both : Ordered history ∧ Closing history) (stepped : step history event = some history') :
      Ordered history' ∧ Closing history' :=
    ⟨both.1.step (step_change stepped), both.2.step both.1 (step_change stepped)⟩
  exact Run.run_invariant keeps h ⟨ordered_start, closing_start⟩

end Close

section Runs

variable {history : WireHistory} {events : List WireEvent}

/-- The first completions were no errors, so the first frames are written. -/
theorem take_written {n : Nat} (bound : n ≤ history.completions.length)
    (clean : false ∉ history.completions.take n) :
    history.wire.handed.take n <+: history.written := by
  have first : (history.wire.handed.zip history.completions).take n =
      (history.wire.handed.take n).zip (history.completions.take n) := by
    rw [List.zip_eq_zipWith, List.take_zipWith, List.zip_eq_zipWith]
  have good : ((history.wire.handed.zip history.completions).take n).filter (fun item => item.2) =
      (history.wire.handed.zip history.completions).take n := by
    rw [List.filter_eq_self]
    intro item mem
    rw [first] at mem
    have second := (List.of_mem_zip mem).2
    cases ok : item.2 with
    | true => rfl
    | false => exact absurd (ok ▸ second) clean
  have frames : ((history.wire.handed.zip history.completions).take n).map Prod.fst =
      history.wire.handed.take n := by
    rw [first, List.map_fst_zip]
    simp only [List.length_take]
    omega
  rw [← frames, ← good, written]
  exact ((List.take_prefix n _).filter _).map _

/-- Frames go out one at a time, in the order of the calls, until a write fails; and the
stream is closed only when all that was delivered before has been written. -/
theorem run_drains (h : Run.run step {} events = some history) :
    history.outstanding ≤ 1 ∧
      (history.delivered = history.wire.handed ++
        (history.wire.writeQueue.drop 1 ++ frames history.wire.posted)) ∧
      (∀ later history', false ∈ history.completions →
        Run.run step history later = some history' →
          history'.wire.handed = history.wire.handed) ∧
      (history.wire.streamOpen = false → ∃ n, history.closedAt = some n ∧
        history.delivered.take n <+: history.written) := by
  obtain ⟨ordered, closing⟩ := run_closing h
  have balance := ordered.balance
  have started : history.completions.length ≤ history.wire.handed.length := by omega
  refine ⟨?_, ordered.delivered, ?_, ?_⟩
  · unfold outstanding
    split at balance
    · omega
    · omega
  · intro later history' failed run
    have keeps (state : WireHistory) (event : WireEvent) (state' : WireHistory)
        (kept : Ordered state ∧ false ∈ state.completions ∧
          state.wire.handed = history.wire.handed)
        (stepped : step state event = some state') :
        Ordered state' ∧ false ∈ state'.completions ∧
          state'.wire.handed = history.wire.handed := by
      have change := step_change stepped
      obtain ⟨failed', handed, -⟩ := kept.1.failed kept.2.1 change
      exact ⟨kept.1.step change, failed', handed.trans kept.2.2⟩
    exact (Run.run_invariant keeps run ⟨ordered, failed, rfl⟩).2.2
  · intro closed
    obtain ⟨n, called, bound, clean⟩ := closing.closed closed
    refine ⟨n, called, ?_⟩
    rw [ordered.delivered, List.take_append_of_le_length (bound.trans started)]
    exact take_written bound clean

theorem run_drains_goodbye : ∃ history,
    Run.run step {} [.deliver .authRejected, .close, .runPosted, .runPosted, .writeDone true] =
        some history ∧
      history.wire.streamOpen = false ∧
      ∃ n, history.closedAt = some n ∧ history.delivered.take n <+: history.written := by
  have ends : (Run.run step {}
      [.deliver .authRejected, .close, .runPosted, .runPosted, .writeDone true]).any
      (fun history => !history.wire.streamOpen) = true := by decide +kernel
  obtain ⟨history, run, closed⟩ := (Option.any_eq_true _ _).mp ends
  have closed : history.wire.streamOpen = false := by simpa using closed
  exact ⟨history, run, closed, (run_drains run).2.2.2 closed⟩

/-- A failed write leaves the stream open for good. -/
structure Lost (history : WireHistory) : Prop where
  ordered : Ordered history
  failed : false ∈ history.completions
  opened : history.wire.streamOpen = true

theorem Lost.step {history' : WireHistory} {event : WireEvent} (lost : Lost history)
    (h : Change history event history') : Lost history' := by
  obtain ⟨failed, -, opened⟩ := lost.ordered.failed lost.failed h
  exact ⟨lost.ordered.step h, failed, opened.trans lost.opened⟩

theorem Lost.idle (lost : Lost history) : history.outstanding = 0 := by
  have balance := lost.ordered.balance
  rw [if_pos (.inr lost.failed)] at balance
  rw [outstanding, balance]
  omega

/-- Once the handler of `close` has run, the end of the last write closes the stream. -/
structure Draining (history : WireHistory) : Prop where
  ordered : Ordered history
  due : history.closeRan = true → history.wire.streamOpen = false ∨
    (history.wire.closeAfterWrite = true ∧ history.wire.writeQueue ≠ [])

theorem Draining.step {history' : WireHistory} {event : WireEvent} (draining : Draining history)
    (h : Change history event history') : Draining history' := by
  refine ⟨draining.ordered.step h, ?_⟩
  have due := draining.due
  cases h with
  | dropped => exact due
  | posted message frame => exact due
  | close => exact due
  | start head idle => exact fun ran => (due ran).imp_right fun now => absurd idle now.2
  | queue head busy => exact fun ran => (due ran).imp_right fun now => ⟨now.1, by simp⟩
  | closeNow head idle => exact fun _ => .inl rfl
  | closeLater head busy => exact fun _ => .inr ⟨rfl, busy⟩
  | abort head => exact absurd (head ▸ List.mem_cons_self) draining.ordered.orderly
  | fail pending => exact due
  | finish pending last =>
      intro ran
      obtain closed | ⟨now, -⟩ := due ran
      · exact .inl (by simp [closed])
      · exact .inl (by simp [now])
  | next pending more =>
      intro ran
      exact (due ran).imp_right fun now => ⟨now.1, List.cons_ne_nil _ _⟩

/-- A write may fail when the stream is closed anyway. -/
def Sound (history : WireHistory) (event : WireEvent) : Prop :=
  history.wire.streamOpen = true → event ≠ .writeDone false

instance (history : WireHistory) (event : WireEvent) : Decidable (Sound history event) :=
  inferInstanceAs (Decidable (_ → _))

theorem Change.open_clean {history' : WireHistory} {event : WireEvent}
    (h : Change history event history') (sound : Sound history event)
    (clean : history.wire.streamOpen = true → false ∉ history.completions) :
    history'.wire.streamOpen = true → false ∉ history'.completions := by
  cases h with
  | closeNow head idle => exact nofun
  | abort head => exact nofun
  | fail pending => exact fun opened => absurd rfl (sound opened)
  | finish pending last =>
      intro opened
      have := clean (Bool.and_eq_true_iff.mp opened).1
      simpa using this
  | next pending more => simpa using clean
  | _ => exact clean

theorem sound_fails {history' : WireHistory} {event : WireEvent} (ordered : Ordered history)
    (unsound : ¬ Sound history event) (h : Change history event history') : Lost history' := by
  simp only [Sound, not_forall, not_not] at unsound
  obtain ⟨opened, rfl⟩ := unsound
  refine ⟨ordered.step h, ?_, ?_⟩
  · cases h with
    | fail pending => simp
  · cases h with
    | fail pending => exact opened

/-- After `close` the stream is closed when nothing is being written any more, exactly
as long as no write fails on an open stream. -/
theorem run_closes (h : Run.run step {} events = some history) :
    (history.closeRan = true → history.outstanding = 0 → history.wire.streamOpen = false) ↔
      (history.closeRan = true → Run.Always step Sound {} events) := by
  constructor
  · intro closes ran
    have ends := Run.run_always_or (P := Sound) (fun _ _ _ ordered stepped =>
      Ordered.step ordered (step_change stepped)) (fun _ _ _ ordered unsound stepped =>
      sound_fails ordered unsound (step_change stepped)) (fun _ _ _ lost stepped =>
      Lost.step lost (step_change stepped)) h ordered_start
    obtain good | lost := ends
    · exact good
    · have closed := closes ran lost.idle
      rw [lost.opened] at closed
      cases closed
  · intro good ran idle
    have draining : Draining history := Run.run_invariant (fun _ _ _ draining stepped =>
      Draining.step draining (step_change stepped)) h ⟨ordered_start, nofun⟩
    obtain closed | ⟨-, busy⟩ := draining.due ran
    · exact closed
    · have balance := draining.ordered.balance
      have failed : false ∈ history.completions := by
        by_contra clean
        rw [if_neg (by simp [busy, clean])] at balance
        rw [outstanding, balance] at idle
        omega
      have keeps (history : WireHistory) (event : WireEvent) (history' : WireHistory)
          (clean : history.wire.streamOpen = true → false ∉ history.completions)
          (sound : Sound history event) (stepped : step history event = some history') :
          history'.wire.streamOpen = true → false ∉ history'.completions :=
        (step_change stepped).open_clean sound clean
      have clean := Run.run_invariant_of keeps (good ran) h fun _ => List.not_mem_nil
      cases opened : history.wire.streamOpen with
      | false => rfl
      | true => exact absurd failed (clean opened)

theorem run_closes_goodbye : ∃ history,
    Run.run step {} [.deliver .authRejected, .close, .runPosted, .runPosted, .writeDone true] =
        some history ∧
      ((history.closeRan = true → history.outstanding = 0 → history.wire.streamOpen = false) ↔
        (history.closeRan = true → Run.Always step Sound {}
          [.deliver .authRejected, .close, .runPosted, .runPosted, .writeDone true])) := by
  have ends : (Run.run step {}
      [.deliver .authRejected, .close, .runPosted, .runPosted, .writeDone true]).isSome = true := by
    decide +kernel
  obtain ⟨history, run⟩ := Option.isSome_iff_exists.mp ends
  exact ⟨history, run, run_closes run⟩

/-- The write of a text has failed when its reader is kicked, and the handler of `close` waits for
the end of a write that nobody starts. -/
theorem run_closes_lost : ¬ ∀ (events : List WireEvent) (history : WireHistory),
    Run.run step {} events = some history → history.closeRan = true →
      history.outstanding = 0 → history.wire.streamOpen = false := by
  intro closes
  have ends : (Run.run step {}
      [.deliver (.roomText DEFAULT_ROOM_ID (ascii "bob: hello")), .runPosted, .writeDone false,
        .deliver (.kick (ascii "ann") (ascii "spam")), .close, .runPosted, .runPosted]).any
      (fun history => history.closeRan && history.outstanding == 0 && history.wire.streamOpen) =
        true := by decide +kernel
  obtain ⟨history, run, shut⟩ := (Option.any_eq_true _ _).mp ends
  simp only [Bool.and_eq_true, beq_iff_eq] at shut
  have closed := closes _ history run shut.1.1 shut.1.2
  rw [shut.2] at closed
  cases closed

end Runs

end WireHistory

end Chatbox.Chat
