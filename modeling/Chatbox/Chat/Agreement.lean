import Chatbox.Chat.Dialogue
import Chatbox.Chat.Sync

/-!
What a client and its session have of each other at every moment, however the bytes travel: the
lines that were read are the first of the frames that were sent, unchanged and in order. And when
nothing is on the way any more, the client shows what the server has.
-/

namespace Chatbox.Chat

open Text Protocol Storage

namespace ChatClient

variable {viewer client client' : ChatClient}

/-- The client shows what the viewer shows, and it reads no longer than the viewer. -/
structure Follows (viewer client : ChatClient) : Prop where
  screen : client.screen = viewer.screen
  negotiated : client.protocolNegotiated = viewer.protocolNegotiated
  reading : client.reading = true → viewer.reading = true

theorem Updates.follows (h : Updates id client client') (follows : Follows viewer client) :
    Follows viewer client' :=
  ⟨h.screen.trans follows.screen, h.negotiated.trans follows.negotiated,
    fun reading => follows.reading (h.reading.symm.trans reading)⟩

/-- Two clients that read go the same way. -/
theorem Follows.receive (follows : Follows viewer client) (reading : client.reading = true)
    (message : ServerMessage) : Follows (viewer.receive message) (client.receive message) := by
  have reading' := follows.reading reading
  by_cases hello : ∃ version, message = .hello version
  · obtain ⟨version, rfl⟩ := hello
    simp only [ChatClient.receive, reading, reading']
    exact ⟨follows.screen, rfl, fun _ => reading'⟩
  · rw [not_exists] at hello
    cases negotiated : client.protocolNegotiated with
    | true =>
        have ready : client.Ready := ⟨negotiated, reading⟩
        have ready' : viewer.Ready := ⟨follows.negotiated.symm.trans negotiated, reading'⟩
        have moved := receive_updates ready hello
        have moved' := receive_updates ready' hello
        refine ⟨?_, ?_, fun _ => (moved'.ready ready').reading⟩
        · rw [moved.screen, moved'.screen, follows.screen]
        · rw [(moved.ready ready).negotiated, (moved'.ready ready').negotiated]
    | false =>
        have negotiated' : viewer.protocolNegotiated = false :=
          follows.negotiated.symm.trans negotiated
        have ends : client.receive message = client.onUnnegotiated := by
          cases message with
          | hello version => exact absurd rfl (hello version)
          | _ => simp [ChatClient.receive, reading, negotiated]
        have ends' : viewer.receive message = viewer.onUnnegotiated := by
          cases message with
          | hello version => exact absurd rfl (hello version)
          | _ => simp [ChatClient.receive, reading', negotiated']
        rw [ends, ends']
        exact ⟨follows.screen, follows.negotiated, fun reading => by cases reading⟩

end ChatClient

namespace Login

variable {viewer : ChatClient} {login login' : Login}

/-- Only a line changes what a connected client shows. -/
theorem step_follows {event : LoginEvent}
    (other : event ≠ .connected ∧ ∀ line, event ≠ .line line)
    (h : login.step event = some login') (follows : viewer.Follows login.client) :
    viewer.Follows login'.client := by
  obtain ⟨screen, negotiated, reading⟩ := follows
  cases event with
  | connected => exact absurd rfl other.1
  | line line => exact absurd rfl (other.2 line)
  | readError message =>
      simp only [step, Option.ite_none_right_eq_some, Option.some.injEq] at h
      obtain ⟨-, rfl⟩ := h
      simp only [ChatClient.readError]
      split <;> split <;> exact ⟨screen, negotiated, fun reading => by cases reading⟩
  | writeError aborted message =>
      obtain rfl := Option.some.inj h
      simp only [ChatClient.writeError]
      split <;> exact ⟨screen, negotiated, reading⟩
  | setIdentity sign =>
      obtain rfl := Option.some.inj h
      exact ⟨screen, negotiated, reading⟩
  | identify nick publicKeyHex =>
      obtain rfl := Option.some.inj h
      simp only [ChatClient.identify]
      split
      · exact ⟨screen, negotiated, reading⟩
      · exact (ChatClient.send_updates _).follows ⟨screen, negotiated, reading⟩
  | send message =>
      obtain rfl := Option.some.inj h
      exact (ChatClient.send_updates message).follows ⟨screen, negotiated, reading⟩
  | requestRooms =>
      obtain rfl := Option.some.inj h
      exact (ChatClient.send_updates .listRooms).follows ⟨screen, negotiated, reading⟩
  | close =>
      obtain rfl := Option.some.inj h
      exact ⟨screen, negotiated, reading⟩
  | closed =>
      simp only [step, Option.ite_none_right_eq_some, Option.some.injEq] at h
      obtain ⟨-, rfl⟩ := h
      exact ⟨screen, negotiated, reading⟩

theorem line_follows {line : Bytes} {message : ServerMessage}
    (decodes : decodeServerFrame line = .ok message)
    (h : login.step (.line line) = some login') (follows : viewer.Follows login.client) :
    (viewer.receive message).Follows login'.client := by
  simp only [step, Option.ite_none_right_eq_some, Option.some.injEq] at h
  obtain ⟨reading, rfl⟩ := h
  have received : login.client.receiveLine line = login.client.receive message := by
    simp [ChatClient.receiveLine, reading, decodes]
  rw [received]
  exact follows.receive reading message

end Login

/-- The messages that a reader makes of its lines. -/
def readLines (lines : List Bytes) : List ServerMessage :=
  lines.filterMap fun line => (decodeServerFrame line).toOption

section Frames

variable {s : SessionId} {trace : List Effect} {frame : Bytes}

/-- Every frame of a session decodes, and so does its line. -/
theorem framesFor_decodes (h : frame ∈ framesFor s trace) :
    Framed frame ∧ decodeServerFrame frame.dropLast = decodeServerFrame frame ∧
      ∃ message, decodeServerFrame frame = .ok message := by
  obtain ⟨message, -, some⟩ := List.mem_filterMap.mp h
  cases encodes : encodeServerFrame message with
  | error e => simp [encodes, Except.toOption] at some
  | ok frame' =>
      simp only [encodes, Except.toOption, Option.some.injEq] at some
      subst some
      obtain ⟨⟨read, parses⟩, framed⟩ := encodeServerFrame_ok encodes
      have line := decodeMessageFrame_line framed parseServerMessage
      have whole := decodeMessageFrame_encodeFrame framed parseServerMessage
      refine ⟨encodeServerFrame_framed encodes, line.trans whole.symm, read, ?_⟩
      exact whole.trans parses

/-- A message that arrives as it was sent. -/
def Transmissible (message : ServerMessage) : Prop :=
  ∃ frame, encodeServerFrame message = .ok frame ∧ decodeServerFrame frame = .ok message

instance (message : ServerMessage) : Decidable (Transmissible message) :=
  match h : encodeServerFrame message with
  | .error _ => isFalse fun ⟨_, encodes, _⟩ => by simp [h] at encodes
  | .ok frame => decidable_of_iff (decodeServerFrame frame = .ok message)
      ⟨fun decodes => ⟨frame, h, decodes⟩, fun ⟨frame', encodes, decodes⟩ => by
        obtain rfl := Except.ok.inj (h.symm.trans encodes)
        exact decodes⟩

theorem readLines_frames (h : ∀ message ∈ delivered s trace, Transmissible message) :
    readLines ((framesFor s trace).map List.dropLast) = delivered s trace := by
  unfold framesFor
  generalize delivered s trace = messages at h
  induction messages with
  | nil => rfl
  | cons message messages ih =>
      obtain ⟨frame, encodes, decodes⟩ := h message List.mem_cons_self
      have framed := (encodeServerFrame_ok encodes).2
      have line := (decodeMessageFrame_line framed parseServerMessage).trans
        (decodeMessageFrame_encodeFrame framed parseServerMessage).symm
      have encoded : (encodeServerFrame message).toOption = some frame := by rw [encodes]; rfl
      have same : decodeServerFrame frame.dropLast = .ok message := line.trans decodes
      have read : (decodeServerFrame frame.dropLast).toOption = some message := by rw [same]; rfl
      have rest := ih fun other member => h other (List.mem_cons_of_mem message member)
      rw [readLines] at rest ⊢
      simp only [List.filterMap_cons, encoded, List.map_cons, read, rest]

end Frames

/-- With no notice due, the viewer of a session that has joined shows what the server has. -/
theorem Synced.screen {env : Env} {first : ChatClient} {server : ChatServer} {s : SessionId}
    (synced : Synced env first {} server) (present : s ∈ server.tables.sessions)
    (named : (server.tables.session s).nickname ≠ []) :
    (viewer first server s).screen = server.tables.screenOf env s := by
  have inside := (synced.named s present named).resolve_right (by simp)
  have member := (synced.orderly.consistent.member_iff s _).mpr ⟨rfl, inside⟩
  have shows := synced.shows s present (ChatServer.member_awake synced.orderly member)
  obtain ⟨roomId, name, topic⟩ := shows.place inside (by simp)
  exact Screen.ext roomId name topic (shows.users inside (by simp)) (shows.rooms inside rfl)

namespace Dialogue

variable {env : Env} {stored : StoredState} {s : SessionId} {d d' : Dialogue}
  {exchanges : List Exchange}

/-- The client as it starts to read. -/
def connected : ChatClient :=
  { ({ connected := false, reading := false : ChatClient }).finishConnect with reading := true }

/-- The client is where the messages of its lines have brought it. -/
def Shown (d : Dialogue) : Prop :=
  (connected.receiveAll (readLines d.heard)).Follows d.login.client

theorem Shown.step {exchange : Exchange} (flows : Flows env stored s d) (h : Shown d)
    (stepped : Dialogue.step env s d exchange = some d') : Shown d' := by
  have flows' := flows.step stepped
  obtain ⟨login, heard⟩ | ⟨event, -, later, moved, heard⟩ := step_login stepped
  · rw [Shown, login, heard]
    exact h
  · by_cases other : ∀ line, event ≠ .line line
    · have none : event.lines = [] := by
        cases event with
        | line line => exact absurd rfl (other line)
        | _ => rfl
      rw [none, List.append_nil] at heard
      rw [Shown, heard]
      exact Login.step_follows ⟨later, other⟩ moved h
    · simp only [not_forall, not_not] at other
      obtain ⟨line, rfl⟩ := other
      have known : line ∈ (d'.server.output.wire s).handed.map List.dropLast :=
        flows'.down.taken_prefix.subset (by simp [heard, LoginEvent.lines])
      obtain ⟨frame, handed, rfl⟩ := List.mem_map.mp known
      obtain ⟨-, same, message, decodes⟩ := framesFor_decodes (s := s)
        (reachable_frames flows'.server s ▸ List.mem_append_left _ handed)
      have decodes := same.trans decodes
      have told : readLines d'.heard = readLines d.heard ++ [message] := by
        simp [heard, LoginEvent.lines, readLines, List.filterMap_append, decodes, Except.toOption]
      rw [Shown, told, ChatClient.receiveAll, List.foldl_append]
      exact Login.line_follows decodes moved h

theorem run_shown (h : Run.run (Dialogue.step env s) (start env stored) exchanges = some d) :
    Flows env stored s d ∧ Shown d := by
  have keeps (a : Dialogue) (exchange : Exchange) (b : Dialogue)
      (held : Flows env stored s a ∧ Shown a) (stepped : Dialogue.step env s a exchange = some b) :
      Flows env stored s b ∧ Shown b := ⟨held.1.step stepped, held.2.step held.1 stepped⟩
  exact Run.run_invariant keeps h ⟨flows_start env stored s, rfl, rfl, id⟩

theorem lines_frames {frames lines : List Bytes} (framed : ∀ frame ∈ frames, Framed frame)
    (h : lines <+: frames.map List.dropLast) : lines.map (· ++ [newline]) <+: frames := by
  have whole : (frames.map List.dropLast).map (· ++ [newline]) = frames := by
    rw [List.map_map]
    exact (List.map_congr_left fun frame member => (framed frame member).split.symm).trans
      (List.map_id frames)
  have mapped := h.map (· ++ [newline])
  rwa [whole] at mapped

section Scripts

/-- One frame of `n` bytes goes from the client's queue to the session, in one piece. -/
def carryUp (n : Nat) : List Exchange := [.posted, .sendUp n, .written, .receiveUp n, .readUp]

def carryDown (s : SessionId) (n : Nat) : List Exchange :=
  [.server (.posted s), .sendDown n, .server (.writeDone s true), .receiveDown n, .readDown]

/-- The client and the server greet each other. -/
def greeting : List Exchange :=
  [.server (.accept 7), .server (.handshake 7 true)] ++ carryDown 7 13 ++ carryUp 13 ++
    carryDown 7 13

/-- The client then proves a key and is admitted, and reads all that it is sent. -/
def joining : List Exchange :=
  greeting ++ [.client (.setIdentity fun _ => List.replicate 128 48),
      .client (.identify (ascii "ann") (List.replicate 64 48))] ++
    carryUp 105 ++ carryDown 7 101 ++ carryUp 181 ++
    [41, 13, 45, 53, 17, 21].flatMap (carryDown 7)

def dialogueAfter (exchanges : List Exchange) : Option Dialogue :=
  Run.run (Dialogue.step .plain 7) (Dialogue.start .plain emptyStore) exchanges

theorem exists_dialogueAfter (exchanges : List Exchange) (p : Dialogue → Prop) [DecidablePred p]
    (h : (dialogueAfter exchanges).any (fun d => p d) = true) :
    ∃ d, dialogueAfter exchanges = some d ∧ p d := by
  obtain ⟨d, run, holds⟩ := (Option.any_eq_true _ _).mp h
  exact ⟨d, run, by simpa using holds⟩

end Scripts

/-- However the bytes travel, the client reads the first of the frames that were delivered to its
session, one after the other and unchanged, and there is always room for the next one. -/
theorem run_heard (h : Run.run (Dialogue.step env s) (start env stored) exchanges = some d) :
    d.heard.map (· ++ [newline]) <+: framesFor s d.server.output.trace ∧
      d.heard.map decodeServerFrame <+:
        (framesFor s d.server.output.trace).map decodeServerFrame ∧
      ¬ d.down.Overflows newline MAX_WIRE_LINE_LENGTH := by
  have flows := run_flows h
  have read := flows.down.taken_prefix
  have part : (d.server.output.wire s).handed <+: framesFor s d.server.output.trace := by
    rw [reachable_frames flows.server s]
    exact List.prefix_append _ _
  refine ⟨?_, ?_, flows.down.not_overflows (by decide)⟩
  · exact (lines_frames (reachable_framed flows.server s) read).trans part
  · have same : ((d.server.output.wire s).handed.map List.dropLast).map decodeServerFrame =
        (d.server.output.wire s).handed.map decodeServerFrame := by
      rw [List.map_map]
      exact List.map_congr_left fun frame member => (framesFor_decodes (part.subset member)).2.1
    have decoded := read.map decodeServerFrame
    rw [same] at decoded
    exact decoded.trans (part.map decodeServerFrame)

theorem run_heard_greeting : ∃ d, dialogueAfter greeting = some d ∧ d.heard.length = 2 ∧
    d.heard.map (· ++ [newline]) <+: framesFor 7 d.server.output.trace := by
  obtain ⟨d, run, heard⟩ := exists_dialogueAfter greeting (fun d => d.heard.length = 2)
    (by decide +kernel)
  exact ⟨d, run, heard, (run_heard run).1⟩

theorem Flows.handed_sent (flows : Flows env stored s d) : d.wire.handed <+: d.login.client.sent :=
  (List.prefix_append _ _).trans flows.sends.part

/-- Every line that the session reads decodes. -/
theorem received_lines (flows : Flows env stored s d) :
    (receivedFrom s d.server.output.trace).map Except.ok = d.asked.map decodeClientFrame := by
  rw [flows.received, List.map_flatMap]
  have each (line : Bytes) (member : line ∈ d.asked) :
      (decodeClientFrame line).toOption.toList.map Except.ok = [decodeClientFrame line] := by
    obtain ⟨frame, handed, rfl⟩ := List.mem_map.mp (flows.up.taken_prefix.subset member)
    obtain ⟨same, message, ok⟩ := flows.sends.decodes frame (flows.handed_sent.subset handed)
    rw [same, ok]
    rfl
  rw [List.flatMap_congr each, ← List.map_eq_flatMap]

theorem Flows.handed_lines (flows : Flows env stored s d) :
    (d.wire.handed.map List.dropLast).map decodeClientFrame =
      d.wire.handed.map decodeClientFrame := by
  rw [List.map_map]
  exact List.map_congr_left fun frame member =>
    (flows.sends.decodes frame (flows.handed_sent.subset member)).1

theorem received_sent (flows : Flows env stored s d) :
    (receivedFrom s d.server.output.trace).map Except.ok <+:
      d.login.client.sent.map decodeClientFrame := by
  have decoded := flows.up.taken_prefix.map decodeClientFrame
  rw [flows.handed_lines, ← received_lines flows] at decoded
  exact decoded.trans (flows.handed_sent.map decodeClientFrame)

/-- The server receives the first of the messages that the client has sent: every line that its
session reads is a frame of the client, and it decodes. -/
theorem run_asked (h : Run.run (Dialogue.step env s) (start env stored) exchanges = some d) :
    d.asked.map (· ++ [newline]) <+: d.login.client.sent ∧
      (receivedFrom s d.server.output.trace).map Except.ok = d.asked.map decodeClientFrame ∧
      (receivedFrom s d.server.output.trace).map Except.ok <+:
        d.login.client.sent.map decodeClientFrame ∧
      ¬ d.up.Overflows newline MAX_WIRE_LINE_LENGTH := by
  have flows := run_flows h
  refine ⟨?_, received_lines flows, received_sent flows, flows.up.not_overflows (by decide)⟩
  refine (lines_frames (fun frame member => ?_) flows.up.taken_prefix).trans flows.handed_sent
  exact flows.sends.framed frame (flows.handed_sent.subset member)

theorem run_asked_greeting : ∃ d, dialogueAfter greeting = some d ∧
    receivedFrom 7 d.server.output.trace = [.hello VERSION] ∧
    d.asked.map (· ++ [newline]) <+: d.login.client.sent := by
  obtain ⟨d, run, received⟩ := exists_dialogueAfter greeting
    (fun d => receivedFrom 7 d.server.output.trace = [.hello VERSION]) (by decide +kernel)
  exact ⟨d, run, received, (run_asked run).1⟩

/-- Nothing is on the way, in neither direction. -/
structure AtRest (s : SessionId) (d : Dialogue) : Prop where
  told : (d.server.output.wire s).posted = [] ∧ (d.server.output.wire s).writeQueue = []
  down : d.down.Still newline MAX_WIRE_LINE_LENGTH
  asked : d.wire.posted = [] ∧ d.wire.writeQueue = []
  up : d.up.Still newline MAX_WIRE_LINE_LENGTH

instance : Decidable (AtRest s d) :=
  decidable_of_iff
    (((d.server.output.wire s).posted = [] ∧ (d.server.output.wire s).writeQueue = []) ∧
      (d.down.send 1 = none ∧ d.down.receive newline MAX_WIRE_LINE_LENGTH 1 = none ∧
        d.down.read newline = none) ∧
      (d.wire.posted = [] ∧ d.wire.writeQueue = []) ∧
      (d.up.send 1 = none ∧ d.up.receive newline MAX_WIRE_LINE_LENGTH 1 = none ∧
        d.up.read newline = none))
    ⟨fun ⟨told, down, asked, up⟩ => ⟨told, ⟨down.1, down.2.1, down.2.2⟩, asked,
        ⟨up.1, up.2.1, up.2.2⟩⟩,
      fun ⟨told, ⟨a, b, c⟩, asked, ⟨a', b', c'⟩⟩ => ⟨told, ⟨a, b, c⟩, asked, ⟨a', b', c'⟩⟩⟩

theorem Flows.received_all (flows : Flows env stored s d) (rest : AtRest s d)
    (active : d.login.client.active = true) :
    (receivedFrom s d.server.output.trace).map Except.ok =
      d.login.client.sent.map decodeClientFrame := by
  have asked := flows.up.taken_all (by decide) rest.up
  have all := flows.sends.all active
  rw [rest.asked.1, rest.asked.2] at all
  have sent : d.login.client.sent = d.wire.handed := by simpa [WireHistory.frames] using all
  rw [received_lines flows, asked, flows.handed_lines, sent]

/-- When nothing is on the way any more, the client shows the room, its members and the list of
rooms as the server has them, and the server has received all that a client sent that is still
active; unless a message did not come through. -/
theorem run_rest (h : Run.run (Dialogue.step env s) (start env stored) exchanges = some d)
    (rest : AtRest s d)
    (through : ∀ message ∈ delivered s d.server.output.trace, Transmissible message)
    (present : s ∈ d.server.tables.sessions) (named : (d.server.tables.session s).nickname ≠ []) :
    d.login.client.screen = d.server.tables.screenOf env s ∧
      (d.login.client.active = true → (receivedFrom s d.server.output.trace).map Except.ok =
        d.login.client.sent.map decodeClientFrame) := by
  obtain ⟨flows, shown⟩ := run_shown h
  have heard := flows.down.taken_all (by decide) rest.down
  have frames := reachable_frames flows.server s
  rw [rest.told.1, rest.told.2] at frames
  have handed : framesFor s d.server.output.trace = (d.server.output.wire s).handed := by
    simpa [WireHistory.frames] using frames
  refine ⟨?_, fun active => ?_⟩
  · have messages : readLines d.heard = delivered s d.server.output.trace := by
      rw [heard, ← handed, readLines_frames through]
    have screen := shown.screen
    rw [messages] at screen
    exact screen.trans ((reachable_synced rfl flows.server).screen present named)
  · exact flows.received_all rest active

theorem run_rest_joined : ∃ d, dialogueAfter joining = some d ∧
    d.login.client.screen.users = [ascii "ann"] ∧
    d.login.client.screen = d.server.tables.screenOf .plain 7 := by
  obtain ⟨d, run, users, rest, through, present, named⟩ := exists_dialogueAfter joining
    (fun d => d.login.client.screen.users = [ascii "ann"] ∧ AtRest 7 d ∧
      (∀ message ∈ delivered 7 d.server.output.trace, Transmissible message) ∧
      7 ∈ d.server.tables.sessions ∧ (d.server.tables.session 7).nickname ≠ [])
    (by decide +kernel)
  exact ⟨d, run, users, (run_rest run rest through present named).1⟩

end Dialogue

end Chatbox.Chat
