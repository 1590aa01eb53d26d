import Chatbox.Chat.Deeds
import Chatbox.Chat.Screen
import Chatbox.Chat.Wire

/-!
The sending half of every session inside the whole server. Whatever the server does, each wire
goes the way of a `WireHistory`: what holds over the runs of one sending half holds of every
session of every reachable server, whoever calls `deliver` and in whatever order the handlers run.
-/

namespace Chatbox.Chat

open Text Protocol Storage

/-- The frames of the messages that are delivered to a session; a message that does not encode
has none. -/
def framesFor (s : SessionId) (trace : List Effect) : List Bytes :=
  (delivered s trace).filterMap fun message => (encodeServerFrame message).toOption

namespace WireHistory

variable {history history' : WireHistory} {event : WireEvent} {events : List WireEvent}

theorem delivered_deliver (message : ServerMessage) : (history.deliver message).delivered =
    history.delivered ++ (encodeServerFrame message).toOption.toList := by
  rw [deliver]
  cases encodeServerFrame message with
  | error e => simp [Except.toOption]
  | ok frame => rfl

theorem step_posted {handler : Posted} {rest : List Posted}
    (head : history.wire.posted = handler :: rest) : step history .runPosted = some { history with
      wire := { history.wire with posted := rest }.runPosted handler
      closeRan := history.closeRan || decide (handler = .close) } := by
  rw [step, head]

/-- The flag says whether a write is under way. -/
def Flagged (history : WireHistory) : Prop :=
  history.wire.outstanding = true ↔ history.outstanding ≠ 0

theorem Flagged.step (flagged : Flagged history) (ordered : Ordered history)
    (h : Change history event history') : Flagged history' := by
  cases h with
  | start head idle =>
      have started := (ordered.idle idle).2
      simp [Flagged, WireHistory.outstanding, started]
  | fail pending =>
      have count := (ordered.writing pending).2.2
      simp [Flagged, WireHistory.outstanding, count]
  | finish pending last =>
      have count := (ordered.writing pending).2.2
      simp [Flagged, WireHistory.outstanding, count]
  | next pending more =>
      have count := (ordered.writing pending).2.2
      simp [Flagged, WireHistory.outstanding, count]
  | _ => exact flagged

theorem run_flagged (h : Run.run step {} events = some history) :
    Ordered history ∧ Flagged history := by
  have keeps (a : WireHistory) (event : WireEvent) (b : WireHistory)
      (held : Ordered a ∧ Flagged a) (stepped : step a event = some b) :
      Ordered b ∧ Flagged b :=
    ⟨held.1.step (step_change stepped), held.2.step held.1 (step_change stepped)⟩
  exact Run.run_invariant keeps h ⟨ordered_start, by simp [Flagged, WireHistory.outstanding]⟩

end WireHistory

/-- The wire of a session is that of the history, but that a failed handshake closes it too. -/
structure Posts (server : ChatServer) (s : SessionId) (history : WireHistory) : Prop where
  wire : { server.output.wire s with streamOpen := history.wire.streamOpen } = history.wire
  delivered : history.delivered = framesFor s server.output.trace
  opened : (server.output.wire s).streamOpen = true → history.wire.streamOpen = true

/-- Some run of one sending half explains the wire of the session. -/
def Explained (server : ChatServer) (s : SessionId) : Prop :=
  ∃ events history, Run.run WireHistory.step {} events = some history ∧ Posts server s history

section Explained

variable {env : Env} {server server' : ChatServer} {s a : SessionId}
variable {may : Holding → Prop} {P : Effect → Prop}

theorem framesFor_append (trace new : List Effect) :
    framesFor s (trace ++ new) = framesFor s trace ++ framesFor s new := by
  rw [framesFor, delivered_append, List.filterMap_append]
  rfl

theorem framesFor_untold {effect : Effect} (untold : ¬ effect.Told) :
    framesFor s [effect] = [] := by
  cases effect with
  | deliver a message => exact absurd trivial untold
  | _ => rfl

theorem framesFor_deliver {message : ServerMessage} : framesFor s [.deliver a message] =
    if s = a then (encodeServerFrame message).toOption.toList else [] := by
  rw [framesFor, delivered_one]
  split
  · cases h : encodeServerFrame message <;> simp [h, Except.toOption]
  · rfl

/-- What leaves the wire and the frames of the session alone. -/
theorem Explained.same (h : Explained server s)
    (wire : server'.output.wire s = server.output.wire s)
    (frames : framesFor s server'.output.trace = framesFor s server.output.trace) :
    Explained server' s := by
  obtain ⟨events, history, run, sends⟩ := h
  exact ⟨events, history, run, by rw [wire, sends.wire], by rw [frames, sends.delivered],
    by rw [wire]; exact sends.opened⟩

/-- One more step of the sending half. -/
theorem Explained.snoc (h : Explained server s) {event : WireEvent}
    (next : ∀ history, WireHistory.Flagged history → Posts server s history →
      ∃ history', WireHistory.step history event = some history' ∧ Posts server' s history') :
    Explained server' s := by
  obtain ⟨events, history, run, sends⟩ := h
  obtain ⟨history', stepped, sends'⟩ := next history (WireHistory.run_flagged run).2 sends
  exact ⟨events ++ [event], history', Run.run_snoc.mpr ⟨history, run, stepped⟩, sends'⟩

theorem deliver_wire (message : ServerMessage) :
    (server.deliver a message).output.wire s =
      { server.output.wire s with
        posted := (server.output.wire s).posted ++ if s = a then
          (encodeServerFrame message).toOption.toList.map Posted.write else [] } := by
  change (server.output.deliver a message).wire s = _
  unfold ServerOutput.deliver
  cases encodeServerFrame message with
  | error e => simp [ServerOutput.note, Except.toOption]
  | ok frame =>
      by_cases here : s = a
      · subst here
        simp [ServerOutput.note, ServerOutput.post, ServerOutput.updateWire, Except.toOption]
      · simp [ServerOutput.note, ServerOutput.post, ServerOutput.updateWire, here]

theorem close_wire : (server.close a).output.wire s =
    { server.output.wire s with
      posted := (server.output.wire s).posted ++ if s = a then [.close] else [] } := by
  change (server.output.close a).wire s = _
  by_cases here : s = a
  · subst here
    simp [ServerOutput.close, ServerOutput.post, ServerOutput.updateWire, ServerOutput.note]
  · simp [ServerOutput.close, ServerOutput.post, ServerOutput.updateWire, ServerOutput.note, here]

theorem Explained.deed (h : Explained server s) (deed : Deed may P server server') :
    Explained server' s := by
  cases deed with
  | tables change touches => exact h.same rfl rfl
  | host change => exact h.same rfl rfl
  | clock readings lastTimestamp later => exact h.same rfl rfl
  | note effect untold _ =>
      refine h.same rfl ?_
      rw [ChatServer.note_trace, framesFor_append, framesFor_untold untold, List.append_nil]
  | deliver a message _ =>
      have frames : framesFor s (server.deliver a message).output.trace =
          framesFor s server.output.trace ++ if s = a then
            (encodeServerFrame message).toOption.toList else [] := by
        rw [ChatServer.deliver_trace, framesFor_append, framesFor_deliver]
      by_cases here : s = a
      · refine @Explained.snoc _ _ _ h (.deliver message) fun history _ sends =>
          ⟨history.deliver message, rfl, ?_⟩
        obtain ⟨wire, delivered, opened⟩ := sends
        rw [if_pos here] at frames
        have posts : (history.deliver message).wire = { history.wire with
            posted := history.wire.posted ++
              (encodeServerFrame message).toOption.toList.map Posted.write } := by
          rw [WireHistory.deliver]
          cases encodeServerFrame message with
          | error e => simp [Except.toOption]
          | ok frame => rfl
        refine ⟨?_, ?_, ?_⟩
        · rw [posts, deliver_wire, if_pos here, ← wire]
        · rw [WireHistory.delivered_deliver, frames, delivered]
        · rw [posts, deliver_wire]
          exact opened
      · rw [if_neg here, List.append_nil] at frames
        refine h.same ?_ frames
        rw [deliver_wire, if_neg here, List.append_nil]
  | close a _ =>
      have frames : framesFor s (server.close a).output.trace =
          framesFor s server.output.trace := by
        rw [ChatServer.close_trace, framesFor_append]
        exact List.append_nil _
      by_cases here : s = a
      · refine @Explained.snoc _ _ _ h .close fun history _ sends => ⟨history.close, rfl, ?_⟩
        obtain ⟨wire, delivered, opened⟩ := sends
        refine ⟨?_, ?_, ?_⟩
        · rw [close_wire, if_pos here, WireHistory.close, ← wire]
        · rw [frames, ← delivered]
          rfl
        · rw [close_wire]
          exact opened
      · refine h.same ?_ frames
        rw [close_wire, if_neg here, List.append_nil]
  | shut a =>
      obtain ⟨events, history, run, wire, delivered, opened⟩ := h
      refine ⟨events, history, run, ?_, delivered, ?_⟩
      · by_cases here : s = a
        · subst here
          simpa [ChatServer.onOutput, ServerOutput.updateWire] using wire
        · simpa [ChatServer.onOutput, ServerOutput.updateWire, here] using wire
      · by_cases here : s = a
        · subst here
          simp [ChatServer.onOutput, ServerOutput.updateWire]
        · simpa [ChatServer.onOutput, ServerOutput.updateWire, here] using opened

theorem Explained.deeds (h : Explained server s) (deeds : Deeds may P server server') :
    Explained server' s := by
  induction deeds with
  | refl => exact h
  | tail _ deed ih => exact ih.deed deed

/-- What a handler does to a wire does not depend on whether the stream is open. -/
theorem runPosted_open (wire : SessionWire) (opened : Bool) (handler : Posted) :
    { wire.runPosted handler with
      streamOpen := ({ wire with streamOpen := opened }.runPosted handler).streamOpen } =
        { wire with streamOpen := opened }.runPosted handler ∧
      ((wire.streamOpen = true → opened = true) → (wire.runPosted handler).streamOpen = true →
        ({ wire with streamOpen := opened }.runPosted handler).streamOpen = true) := by
  cases handler with
  | write frame =>
      cases h : wire.writeQueue <;> simp [SessionWire.runPosted, SessionWire.writeNext, h]
  | close => cases h : wire.writeQueue <;> simp [SessionWire.runPosted, h]
  | abort => simp [SessionWire.runPosted]

theorem writeDone_open (wire : SessionWire) (opened ok : Bool) :
    { wire.writeDone ok with
      streamOpen := ({ wire with streamOpen := opened }.writeDone ok).streamOpen } =
        { wire with streamOpen := opened }.writeDone ok ∧
      ((wire.streamOpen = true → opened = true) → (wire.writeDone ok).streamOpen = true →
        ({ wire with streamOpen := opened }.writeDone ok).streamOpen = true) := by
  cases ok with
  | false => simp [SessionWire.writeDone]
  | true =>
      cases more : wire.writeQueue.drop 1 with
      | nil =>
          cases closing : wire.closeAfterWrite <;> simp [SessionWire.writeDone, more, closing]
      | cons frame rest => simp [SessionWire.writeDone, SessionWire.writeNext, more]

theorem updateWire_wire {change : SessionWire → SessionWire} :
    (server.output.updateWire a change).wire s =
      if s = a then change (server.output.wire s) else server.output.wire s := by
  by_cases here : s = a
  · subst here
    simp [ServerOutput.updateWire]
  · simp [ServerOutput.updateWire, here]

theorem Explained.step {event : Event} (h : Explained server s)
    (stepped : step env server event = some server') : Explained server' s := by
  by_cases calls : (∀ a, event ≠ .posted a) ∧ ∀ a ok, event ≠ .writeDone a ok
  · exact h.deeds (step_deeds stepped calls)
  · cases event with
    | posted a =>
        simp only [Chat.step] at stepped
        split at stepped
        · cases stepped
        · next handler rest head =>
            obtain rfl := Option.some.inj stepped
            by_cases here : s = a
            · subst here
              refine @Explained.snoc _ _ _ h .runPosted fun history _ sends => ?_
              obtain ⟨wire, delivered, opened⟩ := sends
              generalize history.wire.streamOpen = b at wire opened
              have posted : history.wire.posted = handler :: rest := by rw [← wire, ← head]
              have both := runPosted_open { server.output.wire s with posted := rest } b handler
              refine ⟨_, WireHistory.step_posted posted, ?_, delivered, ?_⟩
              · simp only [ChatServer.onOutput, updateWire_wire, if_true, ← wire]
                exact both.1
              · simp only [ChatServer.onOutput, updateWire_wire, if_true, ← wire]
                exact both.2 opened
            · refine h.same ?_ rfl
              simp only [ChatServer.onOutput, updateWire_wire, if_neg here]
    | writeDone a ok =>
        simp only [Chat.step, Option.ite_none_right_eq_some, Option.some.injEq] at stepped
        obtain ⟨pending, rfl⟩ := stepped
        by_cases here : s = a
        · subst here
          refine @Explained.snoc _ _ _ h (.writeDone ok) fun history flagged sends => ?_
          obtain ⟨wire, delivered, opened⟩ := sends
          generalize history.wire.streamOpen = b at wire opened
          have flag : history.outstanding ≠ 0 := flagged.mp (by rw [← wire]; exact pending)
          have both := writeDone_open (server.output.wire s) b ok
          refine ⟨_, if_neg flag, ?_, delivered, ?_⟩
          · simp only [ChatServer.onOutput, updateWire_wire, if_true, ← wire]
            exact both.1
          · simp only [ChatServer.onOutput, updateWire_wire, if_true, ← wire]
            exact both.2 opened
        · refine h.same ?_ rfl
          simp only [ChatServer.onOutput, updateWire_wire, if_neg here]
    | _ => exact absurd (by simp) calls

end Explained

section Handed

variable {env : Env} {server server' : ChatServer} {s : SessionId} {P : Effect → Prop}

theorem runPosted_handed (wire : SessionWire) (handler : Posted) :
    wire.handed <+: (wire.runPosted handler).handed := by
  cases handler with
  | write frame =>
      cases h : wire.writeQueue <;> simp [SessionWire.runPosted, SessionWire.writeNext, h]
  | close => cases h : wire.writeQueue <;> simp [SessionWire.runPosted, h]
  | abort => exact List.prefix_rfl

theorem writeDone_handed (wire : SessionWire) (ok : Bool) :
    wire.handed <+: (wire.writeDone ok).handed := by
  cases ok with
  | false => exact List.prefix_rfl
  | true =>
      cases more : wire.writeQueue.drop 1 with
      | nil => cases closing : wire.closeAfterWrite <;> simp [SessionWire.writeDone, more, closing]
      | cons frame rest => simp [SessionWire.writeDone, SessionWire.writeNext, more]

theorem Deeds.handed {may : Holding → Prop} (deeds : Deeds may P server server') (s : SessionId) :
    (server'.output.wire s).handed = (server.output.wire s).handed := by
  induction deeds with
  | refl => rfl
  | tail _ deed ih =>
      rw [← ih]
      cases deed with
      | deliver a message _ => rw [deliver_wire]
      | close a _ => rw [close_wire]
      | shut a =>
          simp only [ChatServer.onOutput, updateWire_wire]
          split <;> rfl
      | _ => rfl

/-- What has been handed to the transport is never taken back. -/
theorem step_handed {event : Event} (h : step env server event = some server') (s : SessionId) :
    (server.output.wire s).handed <+: (server'.output.wire s).handed := by
  by_cases calls : (∀ a, event ≠ .posted a) ∧ ∀ a ok, event ≠ .writeDone a ok
  · rw [(step_deeds h calls).handed s]
  · cases event with
    | posted a =>
        simp only [step] at h
        split at h
        · cases h
        · next handler rest head =>
            obtain rfl := Option.some.inj h
            simp only [ChatServer.onOutput, updateWire_wire]
            split
            · exact runPosted_handed { server.output.wire s with posted := rest } handler
            · exact List.prefix_rfl
    | writeDone a ok =>
        simp only [step, Option.ite_none_right_eq_some, Option.some.injEq] at h
        obtain ⟨-, rfl⟩ := h
        simp only [ChatServer.onOutput, updateWire_wire]
        split
        · exact writeDone_handed (server.output.wire s) ok
        · exact List.prefix_rfl
    | _ => exact absurd (by simp) calls

end Handed

/-- The messages that the server has received from a session. -/
def receivedFrom (s : SessionId) (trace : List Effect) : List ClientMessage :=
  trace.filterMap fun
    | .received a message => if a = s then some message else none
    | _ => none

section Received

variable {env : Env} {server server' : ChatServer} {s : SessionId} {event : Event}

theorem receivedFrom_append (trace new : List Effect) :
    receivedFrom s (trace ++ new) = receivedFrom s trace ++ receivedFrom s new :=
  List.filterMap_append

theorem receivedFrom_none {trace : List Effect} (h : ∀ message, .received s message ∉ trace) :
    receivedFrom s trace = [] := by
  refine List.filterMap_eq_nil_iff.mpr fun e member => ?_
  cases e with
  | received a message =>
      by_cases here : a = s
      · subst here
        exact absurd member (h message)
      · simp [here]
  | _ => rfl

theorem Emits.received {P : Effect → Prop} (h : Emits P server server')
    (none : ∀ message, ¬ P (.received s message)) :
    receivedFrom s server'.output.trace = receivedFrom s server.output.trace := by
  obtain ⟨new, grown, all⟩ := h
  have silent : receivedFrom s new = [] :=
    receivedFrom_none fun message member => none message (all _ member)
  rw [grown, receivedFrom_append, silent, List.append_nil]

/-- Only a line of a session brings a message from it. -/
theorem step_receivedFrom (h : step env server event = some server')
    (other : ∀ frame, event ≠ .line s frame) :
    receivedFrom s server'.output.trace = receivedFrom s server.output.trace := by
  refine (step_caused h).received fun message caused => ?_
  obtain ⟨frame, same, -⟩ := caused
  exact other frame same

theorem start_received (env : Env) (stored : StoredState) :
    receivedFrom s (ChatServer.start env stored).output.trace = [] :=
  (start_deeds env stored).emits.received fun _ => id

/-- A line that decodes brings its message, once, and any other line nothing. -/
theorem line_received {frame : Bytes} (h : step env server (.line s frame) = some server') :
    receivedFrom s server'.output.trace =
      receivedFrom s server.output.trace ++ (decodeClientFrame frame).toOption.toList := by
  simp only [step, Option.ite_none_right_eq_some, Option.some.injEq] at h
  obtain ⟨-, rfl⟩ := h
  unfold ChatServer.onLine
  cases decodes : decodeClientFrame frame with
  | ok message =>
      let P : Effect → Prop := fun e => ∀ a message, e ≠ .received a message
      have usual (e : Effect) (h : Usual e) : P e := by
        rintro a message rfl
        exact h
      have deeds : Deeds (fun _ => True) P (server.note (.received s message))
          (server.onMessage env s message) :=
        ChatServer.onMessage_deeds trivial usual (fun _ => trivial) (fun _ => trivial)
          (fun _ _ _ _ same => by cases same) fun _ _ _ _ _ _ _ same => by cases same
      rw [deeds.emits.received fun message none => none s message rfl, ChatServer.note_trace,
        receivedFrom_append]
      simp [receivedFrom, Except.toOption]
  | error e =>
      have answered : Deeds (fun _ => True) Usual server
          (if e.error = .unsupportedVersion then
            server.reject env s (ChatServer.invalidFrame e)
          else server.deliver s (ChatServer.invalidFrame e)) :=
        .ite (ChatServer.reject_deeds trivial trivial) (ChatServer.deliver_deeds trivial)
      rw [Except.toOption, Option.toList_none, List.append_nil]
      exact answered.emits.received fun _ => id

end Received

section Reachable

variable {env : Env} {stored : StoredState} {server : ChatServer}

theorem reachable_explained (h : Reachable env stored server) (s : SessionId) :
    Explained server s := by
  obtain ⟨events, run⟩ := h
  have keeps (a : ChatServer) (event : Event) (b : ChatServer) (explained : Explained a s)
      (stepped : step env a event = some b) : Explained b s := explained.step stepped
  have start : Explained {} s := ⟨[], {}, rfl, rfl, rfl, fun _ => rfl⟩
  exact Run.run_invariant keeps run (start.deeds (start_deeds env stored))

/-- The frames for a session are those handed over, those in the queue and those posted. -/
theorem reachable_frames (h : Reachable env stored server) (s : SessionId) :
    framesFor s server.output.trace = (server.output.wire s).handed ++
      ((server.output.wire s).writeQueue.drop 1 ++
        WireHistory.frames (server.output.wire s).posted) := by
  obtain ⟨events, history, run, wire, delivered, -⟩ := reachable_explained h s
  have order := (WireHistory.run_flagged run).1.delivered
  rw [delivered, ← wire] at order
  exact order

/-- The sending half of every session does what some run of one sending half does: the frames for
the session go out one at a time and in the order in which they were delivered, none is lost and
none comes twice; and while a write is under way its frame is at the head of the queue. -/
theorem reachable_wire (h : Reachable env stored server) (s : SessionId) :
    (∃ events history, Run.run WireHistory.step {} events = some history ∧
      Posts server s history) ∧
    framesFor s server.output.trace = (server.output.wire s).handed ++
      ((server.output.wire s).writeQueue.drop 1 ++
        WireHistory.frames (server.output.wire s).posted) ∧
    ((server.output.wire s).outstanding = true → (server.output.wire s).writeQueue ≠ [] ∧
      (server.output.wire s).handed.getLast? = (server.output.wire s).writeQueue.head?) := by
  refine ⟨reachable_explained h s, reachable_frames h s, fun pending => ?_⟩
  obtain ⟨events, history, run, wire, -, -⟩ := reachable_explained h s
  obtain ⟨ordered, flagged⟩ := WireHistory.run_flagged run
  have flag : history.outstanding ≠ 0 := flagged.mp (by rw [← wire]; exact pending)
  have busy := (ordered.writing flag).1
  have front := ordered.front busy
  rw [← wire] at busy front
  exact ⟨busy, front⟩

theorem reachable_wire_ann : ∃ server, serverAfter (visit 7 (ascii "ann")) = some server ∧
    (server.output.wire 7).posted.length = 9 ∧
    framesFor 7 server.output.trace = (server.output.wire 7).handed ++
      ((server.output.wire 7).writeQueue.drop 1 ++
        WireHistory.frames (server.output.wire 7).posted) := by
  obtain ⟨server, run, reachable, waiting⟩ := exists_serverAfter (visit 7 (ascii "ann"))
    (fun server => (server.output.wire 7).posted.length = 9) (by decide +kernel)
  exact ⟨server, run, waiting, (reachable_wire reachable 7).2.1⟩

end Reachable

end Chatbox.Chat
