import Chatbox.Lib.Lines
import Chatbox.Protocol.ServerCodec
import Chatbox.Chat.Drop
import Chatbox.Chat.Posting

/-!
A client and its session at the server, with the two streams of bytes between them. Each side
has a queue of frames of which one is written at a time; the bytes go out, travel and arrive in
pieces of any size; and each side reads line by line into a buffer with a limit. The other
sessions, the host and the console do what they like in between.
-/

namespace Chatbox.Chat

open Text Protocol Storage

/-- The sending half of a client. -/
structure ClientWire where
  posted : List Posted := []
  writeQueue : List Bytes := []
  handed : List Bytes := []
  outstanding : Bool := false

namespace ClientWire

variable (wire : ClientWire)

def writeNext : ClientWire :=
  { wire with handed := wire.handed ++ wire.writeQueue.take 1, outstanding := true }

/-- The handler that `send` posts, of a client that is connected and not closing. -/
def enqueue (frame : Bytes) : ClientWire :=
  let writing := !wire.writeQueue.isEmpty
  let wire := { wire with writeQueue := wire.writeQueue ++ [frame] }
  if writing then wire else wire.writeNext

/-- The completion handler of `async_write`. -/
def writeDone (ok : Bool) : ClientWire :=
  let wire := { wire with outstanding := false }
  if !ok then wire
  else
    let wire := { wire with writeQueue := wire.writeQueue.drop 1 }
    if !wire.writeQueue.isEmpty then wire.writeNext else wire

end ClientWire

/-- `if (!connected_ || closing_) return;` -/
def ChatClient.active (client : ChatClient) : Bool := client.connected && !client.closing

/-- What can happen between the two. -/
inductive Exchange where
  | server (event : Event)
  | client (event : LoginEvent)
  | posted
  | written
  | writeFailed (aborted : Bool) (message : Bytes)
  | sendUp (n : Nat)
  | receiveUp (n : Nat)
  | readUp
  | sendDown (n : Nat)
  | receiveDown (n : Nat)
  | readDown

/-- The exchange moves the login by the event. -/
def Exchange.Moves : Exchange → LoginEvent → Prop
  | .client event, other => event = other
  | .posted, other => other = .closed
  | .writeFailed aborted message, other => other = .writeError aborted message
  | .readDown, other => ∃ line, other = .line line
  | _, _ => False

/-- `asked` and `heard` are the lines that the session and the client have read. -/
structure Dialogue where
  server : ChatServer
  login : Login
  wire : ClientWire := {}
  up : Lines.Stream UInt8 := {}
  down : Lines.Stream UInt8 := {}
  asked : List Bytes := []
  heard : List Bytes := []

/-- Whether the client calls `close` in handling the event. -/
def LoginEvent.closes (before after : ChatClient) : LoginEvent → Bool
  | .close => true
  | .line _ => before.reading && !after.reading
  | _ => false

/-- The lines that the event reads. -/
def LoginEvent.lines : LoginEvent → List Bytes
  | .line text => [text]
  | _ => []

namespace Dialogue

variable (env : Env) (s : SessionId) (d : Dialogue)

/-- A step of the server; the buffers it hands to the transport go out to the client. -/
def onServer (event : Event) : Option Dialogue :=
  (Chat.step env d.server event).map fun server =>
    let handed := (server.output.wire s).handed.drop (d.server.output.wire s).handed.length
    { d with server, down := d.down.write handed.flatten }

/-- A step of the client; what it sends is posted to its executor, and so is a close. -/
def onLogin (event : LoginEvent) : Option Dialogue :=
  (d.login.step event).map fun login =>
    let frames := login.client.sent.drop d.login.client.sent.length
    let closes := if event.closes d.login.client login.client then [Posted.close] else []
    { d with
      login
      wire := { d.wire with posted := d.wire.posted ++ frames.map Posted.write ++ closes } }

/-- The client's sending half moves on. -/
def onWire (wire : ClientWire) : Dialogue :=
  { d with wire, up := d.up.write (wire.handed.drop d.wire.handed.length).flatten }

/-- A line of the session comes only from its stream, and a write ends well only when all of
it has been sent. The client connects once, before all else; its handlers run in `posted`. -/
def step (d : Dialogue) : Exchange → Option Dialogue
  | .server (.line a line) => if a = s then none else d.onServer env s (.line a line)
  | .server (.writeDone a ok) =>
      if a = s ∧ ok = true ∧ d.down.outgoing ≠ [] then none
      else d.onServer env s (.writeDone a ok)
  | .server event => d.onServer env s event
  | .client .connected => none
  | .client (.line _) => none
  | .client (.writeError _ _) => none
  | .client .closed => none
  | .client event => d.onLogin event
  | .posted =>
      match d.wire.posted with
      | [] => none
      | .write frame :: rest =>
          let wire := { d.wire with posted := rest }
          some (d.onWire (if d.login.client.active then wire.enqueue frame else wire))
      | _ :: rest => { d with wire := { d.wire with posted := rest } }.onLogin .closed
  | .written =>
      if d.wire.outstanding = true ∧ d.up.outgoing = [] then some (d.onWire (d.wire.writeDone true))
      else none
  | .writeFailed aborted message =>
      if d.wire.outstanding then
        (d.onWire (d.wire.writeDone false)).onLogin (.writeError aborted message)
      else none
  | .sendUp n => (d.up.send n).map fun up => { d with up }
  | .receiveUp n =>
      if (d.server.tables.session s).readLoop = .reading then
        (d.up.receive newline MAX_WIRE_LINE_LENGTH n).map fun up => { d with up }
      else none
  | .readUp =>
      (d.up.read newline).bind fun (line, up) =>
        { d with up, asked := d.asked ++ [line] }.onServer env s (.line s line)
  | .sendDown n => (d.down.send n).map fun down => { d with down }
  | .receiveDown n =>
      if d.login.client.reading then
        (d.down.receive newline MAX_WIRE_LINE_LENGTH n).map fun down => { d with down }
      else none
  | .readDown =>
      (d.down.read newline).bind fun (line, down) =>
        { d with down, heard := d.heard ++ [line] }.onLogin (.line line)

/-- A client that has just connected to a server that has just started, its HELLO posted. -/
def start (stored : StoredState) : Dialogue :=
  let client : ChatClient := { connected := false, reading := false }
  let client := { client.finishConnect with reading := true }
  { server := ChatServer.start env stored
    login := { client }
    wire := { posted := client.sent.map Posted.write } }

end Dialogue

section Lines

/-- A frame is a line that fits the peer's buffer. -/
structure Framed (frame : Bytes) : Prop where
  split : frame = frame.dropLast ++ [newline]
  whole : newline ∉ frame.dropLast
  length : frame.dropLast.length < MAX_WIRE_LINE_LENGTH

theorem encodeFrame_framed {payload frame : Bytes} (h : encodeFrame payload = .ok frame) :
    Framed frame ∧ frame.dropLast = encodeBlocks payload := by
  obtain ⟨-, short, rfl⟩ := encodeFrame_ok_iff.mp h
  have line : (encodeBlocks payload ++ [newline]).dropLast = encodeBlocks payload :=
    List.dropLast_concat
  refine ⟨⟨by rw [line], ?_, ?_⟩, line⟩
  · rw [line]
    exact fun member => (encodeBlocks_no_lineEnding member).1 rfl
  · have limit : maxPayloadLength = 3069 := rfl
    have room : MAX_WIRE_LINE_LENGTH = 4096 := rfl
    rw [line, length_encodeBlocks]
    omega

/-- The line of a frame is read as the frame is. -/
theorem decodeMessageFrame_line {α : Type} {payload frame : Bytes}
    (h : encodeFrame payload = .ok frame) (parser : Bytes → Result α) :
    decodeMessageFrame frame.dropLast parser = parser payload := by
  obtain ⟨some, short, -⟩ := encodeFrame_ok_iff.mp h
  have reads := @decodeFrame_encodeBlocks payload [] some short (by simp [lineEndings])
  rw [List.append_nil] at reads
  rw [(encodeFrame_framed h).2, decodeMessageFrame, reads]

theorem encodeServerFrame_framed {message : ServerMessage} {frame : Bytes}
    (h : encodeServerFrame message = .ok frame) : Framed frame :=
  (encodeFrame_framed (encodeServerFrame_ok h).2).1

theorem encodeClientFrame_framed {message : ClientMessage} {frame : Bytes}
    (h : encodeClientFrame message = .ok frame) : Framed frame :=
  (encodeFrame_framed (encodeClientFrame_ok_iff.mp h).2).1

theorem flatten_frames {frames : List Bytes} (h : ∀ frame ∈ frames, Framed frame) :
    frames.flatten = Lines.joined newline (frames.map List.dropLast) := by
  induction frames with
  | nil => rfl
  | cons frame frames ih =>
      rw [List.flatten_cons, List.map_cons, Lines.joined_cons,
        ih fun other member => h other (List.mem_cons_of_mem frame member)]
      have split := (h frame List.mem_cons_self).split
      generalize frame.dropLast = line at split
      subst split
      simp

/-- The frames that are handed over are written as lines. -/
theorem carries_handed {written : List Bytes} {frames : List Bytes} {taken : List Bytes}
    {stream : Lines.Stream UInt8}
    (h : stream.Carries newline MAX_WIRE_LINE_LENGTH (written.map List.dropLast) taken)
    (framed : ∀ frame ∈ frames, Framed frame) :
    (stream.write frames.flatten).Carries newline MAX_WIRE_LINE_LENGTH
      ((written ++ frames).map List.dropLast) taken := by
  rw [flatten_frames framed, List.map_append]
  refine h.write fun line member => ?_
  obtain ⟨frame, known, rfl⟩ := List.mem_map.mp member
  exact ⟨(framed frame known).whole, (framed frame known).length⟩

end Lines

/-- What a client does to what it has sent: it adds frames, none once it is not active, and it
does not become active again. -/
structure Sending (a b : ChatClient) : Prop where
  grows : ∃ new, b.sent = a.sent ++ new ∧
    ∀ frame ∈ new, ∃ message, encodeClientFrame message = .ok frame
  quiet : a.active = false → b.active = false ∧ b.sent = a.sent

namespace Sending

variable {a b c : ChatClient}

theorem of_same (sent : b.sent = a.sent) (active : a.active = false → b.active = false) :
    Sending a b := ⟨⟨[], by rw [sent, List.append_nil], nofun⟩, fun idle => ⟨active idle, sent⟩⟩

theorem refl (a : ChatClient) : Sending a a := of_same rfl id

theorem trans (hab : Sending a b) (hbc : Sending b c) : Sending a c := by
  obtain ⟨new, grown, frames⟩ := hab.grows
  obtain ⟨new', grown', frames'⟩ := hbc.grows
  refine ⟨⟨new ++ new', by rw [grown', grown, List.append_assoc], fun frame member => ?_⟩,
    fun idle => ?_⟩
  · exact (List.mem_append.mp member).elim (frames frame) (frames' frame)
  · obtain ⟨idle', same⟩ := hab.quiet idle
    obtain ⟨idle'', same'⟩ := hbc.quiet idle'
    exact ⟨idle'', same'.trans same⟩

theorem ite {p : Prop} [Decidable p] (hb : Sending a b) (hc : Sending a c) :
    Sending a (if p then b else c) := by
  split
  · exact hb
  · exact hc

end Sending

namespace ChatClient

variable {client : ChatClient}

theorem pushMessage_sending (msg : Bytes) : Sending client (client.pushMessage msg) :=
  .of_same rfl id

theorem send_sending (message : ClientMessage) : Sending client (client.send message) := by
  unfold send
  split
  · exact .refl client
  · next active =>
      cases h : encodeClientFrame message with
      | error e => exact pushMessage_sending _
      | ok wire =>
          refine ⟨⟨[wire], rfl, fun frame member => ?_⟩, fun idle => absurd ?_ active⟩
          · exact ⟨message, List.mem_singleton.mp member ▸ h⟩
          · simp only [ChatClient.active, Bool.and_eq_false_iff] at idle
            simpa using idle

theorem showRooms_sending (rooms : List RoomSummary) : Sending client (client.showRooms rooms) :=
  showRooms_related Sending.refl (fun _ _ _ hab hbc => hab.trans hbc)
    (fun _ msg => pushMessage_sending msg) client rooms

theorem onNegotiated_sending (message : ServerMessage) :
    Sending client (client.onNegotiated message) := by
  cases message with
  | challenge challengeHex =>
      simp only [onNegotiated]
      split
      · exact send_sending _
      · exact .of_same rfl id
  | roomList rooms =>
      refine .ite ?_ (.of_same rfl id)
      refine Sending.trans ?_ (showRooms_sending rooms)
      exact .of_same rfl id
  | roomTopic roomId topic =>
      refine .ite ?_ (.of_same rfl id)
      exact .of_same rfl id
  | roomText roomId body => exact .ite (pushMessage_sending _) (.refl client)
  | _ => exact .of_same rfl id

theorem receive_sending (message : ServerMessage) : Sending client (client.receive message) := by
  refine .ite (.refl client) ?_
  have stops : Sending client client.onUnnegotiated := .of_same rfl fun _ => by
    simp [onUnnegotiated, ChatClient.active, pushMessage]
  cases message with
  | hello version => exact onNegotiated_sending (.hello version)
  | _ => exact .ite stops (onNegotiated_sending _)

theorem receiveLine_sending (line : Bytes) : Sending client (client.receiveLine line) := by
  refine .ite (.refl client) ?_
  split
  · exact receive_sending _
  · refine .ite (.of_same rfl fun _ => ?_) (pushMessage_sending _)
    simp [ChatClient.active]

end ChatClient

namespace Login

variable {login login' : Login}

/-- After it has connected, a client sends as long as it is active. -/
theorem step_sending {event : LoginEvent} (later : event ≠ .connected)
    (h : login.step event = some login') : Sending login.client login'.client := by
  cases event with
  | connected => exact absurd rfl later
  | line line =>
      simp only [step, Option.ite_none_right_eq_some, Option.some.injEq] at h
      obtain ⟨-, rfl⟩ := h
      exact ChatClient.receiveLine_sending line
  | readError message =>
      simp only [step, Option.ite_none_right_eq_some, Option.some.injEq] at h
      obtain ⟨-, rfl⟩ := h
      refine .of_same ?_ fun _ => ?_
      · simp only [ChatClient.readError]
        split <;> split <;> rfl
      · simp only [ChatClient.readError]
        split <;> split <;> rfl
  | writeError aborted message =>
      obtain rfl := Option.some.inj h
      refine .of_same ?_ fun _ => ?_
      · simp only [ChatClient.writeError]
        split <;> rfl
      · simp only [ChatClient.writeError]
        split <;> rfl
  | setIdentity sign =>
      obtain rfl := Option.some.inj h
      exact .of_same rfl id
  | identify nick publicKeyHex =>
      obtain rfl := Option.some.inj h
      exact .ite (.of_same rfl id) (ChatClient.send_sending _)
  | send message =>
      obtain rfl := Option.some.inj h
      exact ChatClient.send_sending message
  | requestRooms =>
      obtain rfl := Option.some.inj h
      refine Sending.trans ?_ (ChatClient.send_sending .listRooms)
      exact .of_same rfl id
  | close =>
      obtain rfl := Option.some.inj h
      exact .of_same rfl fun _ => by simp [ChatClient.active]
  | closed =>
      simp only [step, Option.ite_none_right_eq_some, Option.some.injEq] at h
      obtain ⟨-, rfl⟩ := h
      exact .of_same rfl fun _ => by simp [ChatClient.active]

end Login

/-- Where the frames are that a client has sent; one that is not active any more lets go of
those that have not reached the queue. -/
structure ClientSends (client : ChatClient) (wire : ClientWire) : Prop where
  all : client.active = true → client.sent =
    wire.handed ++ (wire.writeQueue.drop 1 ++ WireHistory.frames wire.posted)
  part : wire.handed ++ wire.writeQueue.drop 1 <+: client.sent
  frames : ∀ frame ∈ client.sent, ∃ message, encodeClientFrame message = .ok frame

namespace ClientSends

variable {client client' : ChatClient} {wire : ClientWire} {rest : List Posted}

theorem framed (h : ClientSends client wire) : ∀ frame ∈ client.sent, Framed frame := by
  intro frame member
  obtain ⟨message, encodes⟩ := h.frames frame member
  exact encodeClientFrame_framed encodes

theorem decodes (h : ClientSends client wire) (frame : Bytes) (member : frame ∈ client.sent) :
    decodeClientFrame frame.dropLast = decodeClientFrame frame ∧
      ∃ message, decodeClientFrame frame = .ok message := by
  obtain ⟨message, encodes⟩ := h.frames frame member
  obtain ⟨⟨read, parses⟩, framed⟩ := encodeClientFrame_ok_iff.mp encodes
  have whole := decodeMessageFrame_encodeFrame framed parseClientMessage
  exact ⟨(decodeMessageFrame_line framed parseClientMessage).trans whole.symm, read,
    whole.trans parses⟩

theorem login (h : ClientSends client wire) (sending : Sending client client')
    (closes : List Posted) (none : WireHistory.frames closes = []) :
    ClientSends client' { wire with
      posted := wire.posted ++ (client'.sent.drop client.sent.length).map Posted.write ++ closes } := by
  obtain ⟨new, grown, encode⟩ := sending.grows
  have added : client'.sent.drop client.sent.length = new := by rw [grown, List.drop_left]
  have told : WireHistory.frames (new.map Posted.write) = new := by
    induction new with
    | nil => rfl
    | cons frame new ih => simp [WireHistory.frames, List.filterMap_map]
  rw [added]
  refine ⟨fun active => ?_, ?_, fun frame member => ?_⟩
  · have before : client.active = true := by
      cases idle : client.active with
      | true => rfl
      | false => exact (Bool.false_ne_true ((sending.quiet idle).1.symm.trans active)).elim
    rw [WireHistory.frames_append, WireHistory.frames_append, told, none, List.append_nil, grown,
      h.all before]
    simp only [List.append_assoc]
  · rw [grown]
    exact h.part.trans (List.prefix_append client.sent new)
  · rw [grown] at member
    exact (List.mem_append.mp member).elim (h.frames frame) (encode frame)

/-- A handler that does not put its frame into the queue. -/
theorem drop {handler : Posted} (h : ClientSends client wire)
    (head : wire.posted = handler :: rest)
    (idle : client.active = true → WireHistory.frames [handler] = []) :
    ClientSends client { wire with posted := rest } := by
  refine ⟨fun active => ?_, h.part, h.frames⟩
  have all := h.all active
  rw [head, ← List.singleton_append, WireHistory.frames_append, idle active] at all
  exact all

theorem enqueue {frame : Bytes} (h : ClientSends client wire)
    (head : wire.posted = .write frame :: rest) (active : client.active = true) :
    ClientSends client ({ wire with posted := rest }.enqueue frame) ∧
      wire.handed <+: ({ wire with posted := rest }.enqueue frame).handed := by
  have all := h.all active
  rw [head] at all
  have told : WireHistory.frames (.write frame :: rest) = frame :: WireHistory.frames rest := rfl
  rw [told] at all
  cases queue : wire.writeQueue with
  | nil =>
      rw [queue, List.drop_nil, List.nil_append] at all
      simp only [ClientWire.enqueue, ClientWire.writeNext]
      refine ⟨⟨fun _ => by simpa using all, ?_, h.frames⟩, List.prefix_append _ _⟩
      refine ⟨WireHistory.frames rest, ?_⟩
      rw [all]
      simp
  | cons first others =>
      rw [queue] at all
      simp only [ClientWire.enqueue]
      refine ⟨⟨fun _ => by simpa using all, ?_, h.frames⟩, List.prefix_rfl⟩
      refine ⟨WireHistory.frames rest, ?_⟩
      rw [all]
      simp

theorem writeDone (h : ClientSends client wire) (ok : Bool) :
    ClientSends client (wire.writeDone ok) ∧ wire.handed <+: (wire.writeDone ok).handed := by
  cases ok with
  | false => exact ⟨⟨h.all, h.part, h.frames⟩, List.prefix_rfl⟩
  | true =>
      have all := h.all
      have part := h.part
      cases more : wire.writeQueue.drop 1 with
      | nil =>
          rw [more] at all part
          simp only [ClientWire.writeDone, more]
          exact ⟨⟨by simpa using all, by simpa using part, h.frames⟩, List.prefix_rfl⟩
      | cons frame others =>
          rw [more] at all part
          simp only [ClientWire.writeDone, more, ClientWire.writeNext]
          exact ⟨⟨by simpa using all, by simpa using part, h.frames⟩, List.prefix_append _ _⟩

end ClientSends

namespace Dialogue

variable {env : Env} {stored : StoredState} {s : SessionId} {d d' : Dialogue}

/-- What is on the way in both directions, and what has come of the lines that were read. -/
structure Flows (env : Env) (stored : StoredState) (s : SessionId) (d : Dialogue) : Prop where
  server : Reachable env stored d.server
  down : d.down.Carries newline MAX_WIRE_LINE_LENGTH
    ((d.server.output.wire s).handed.map List.dropLast) d.heard
  up : d.up.Carries newline MAX_WIRE_LINE_LENGTH (d.wire.handed.map List.dropLast) d.asked
  sends : ClientSends d.login.client d.wire
  received : receivedFrom s d.server.output.trace =
    d.asked.flatMap fun line => (decodeClientFrame line).toOption.toList

theorem reachable_framed {server : ChatServer} (h : Reachable env stored server) (s : SessionId) :
    ∀ frame ∈ (server.output.wire s).handed, Framed frame := by
  intro frame member
  have known : frame ∈ framesFor s server.output.trace := by
    rw [reachable_frames h s]
    exact List.mem_append_left _ member
  obtain ⟨message, -, encodes⟩ := List.mem_filterMap.mp known
  cases result : encodeServerFrame message with
  | error e => simp [result, Except.toOption] at encodes
  | ok frame' =>
      simp only [result, Except.toOption, Option.some.injEq] at encodes
      exact encodes ▸ encodeServerFrame_framed result

theorem reachable_step {server server' : ChatServer} {event : Event}
    (h : Reachable env stored server) (stepped : Chat.step env server event = some server') :
    Reachable env stored server' := by
  obtain ⟨events, run⟩ := h
  exact ⟨events ++ [event], Run.run_snoc.mpr ⟨server, run, stepped⟩⟩

/-- A step of the server, which receives what its event says. -/
theorem Flows.onServer {event : Event} (server : Reachable env stored d.server)
    (down : d.down.Carries newline MAX_WIRE_LINE_LENGTH
      ((d.server.output.wire s).handed.map List.dropLast) d.heard)
    (up : d.up.Carries newline MAX_WIRE_LINE_LENGTH (d.wire.handed.map List.dropLast) d.asked)
    (sends : ClientSends d.login.client d.wire)
    (received : ∀ server', Chat.step env d.server event = some server' →
      receivedFrom s server'.output.trace =
        d.asked.flatMap fun line => (decodeClientFrame line).toOption.toList)
    (stepped : d.onServer env s event = some d') : Flows env stored s d' := by
  obtain ⟨server', moved, rfl⟩ := Option.map_eq_some_iff.mp stepped
  have reachable := reachable_step server moved
  obtain ⟨new, grown⟩ := step_handed moved s
  have added : (server'.output.wire s).handed.drop (d.server.output.wire s).handed.length = new := by
    rw [← grown, List.drop_left]
  refine ⟨reachable, ?_, up, sends, received server' moved⟩
  simp only [added]
  rw [← grown]
  refine carries_handed down fun frame member => ?_
  exact reachable_framed reachable s frame (grown ▸ List.mem_append_right _ member)

/-- The server's own steps read nothing from the session. -/
theorem Flows.quiet {event : Event} (h : Flows env stored s d)
    (other : ∀ frame, event ≠ .line s frame) (stepped : d.onServer env s event = some d') :
    Flows env stored s d' :=
  onServer h.server h.down h.up h.sends
    (fun _ moved => (step_receivedFrom moved other).trans h.received) stepped

theorem Flows.onLogin {event : LoginEvent} (h : Flows env stored s d) (later : event ≠ .connected)
    (stepped : d.onLogin event = some d') : Flows env stored s d' := by
  obtain ⟨login', moved, rfl⟩ := Option.map_eq_some_iff.mp stepped
  refine ⟨h.server, h.down, h.up, ?_, h.received⟩
  refine h.sends.login (Login.step_sending later moved) _ ?_
  split <;> rfl

theorem Flows.onWire {wire : ClientWire} (h : Flows env stored s d)
    (sends : ClientSends d.login.client wire) (grows : d.wire.handed <+: wire.handed) :
    Flows env stored s (d.onWire wire) := by
  obtain ⟨new, grown⟩ := grows
  have added : wire.handed.drop d.wire.handed.length = new := by rw [← grown, List.drop_left]
  refine ⟨h.server, h.down, ?_, sends, h.received⟩
  simp only [Dialogue.onWire, added]
  rw [← grown]
  refine carries_handed h.up fun frame member => sends.framed frame ?_
  exact (List.prefix_append _ _ |>.trans sends.part).subset (grown ▸ List.mem_append_right _ member)

theorem Flows.step {exchange : Exchange} (h : Flows env stored s d)
    (stepped : Dialogue.step env s d exchange = some d') : Flows env stored s d' := by
  cases exchange with
  | server event =>
      cases event with
      | line a line =>
          simp only [Dialogue.step, Option.ite_none_left_eq_some] at stepped
          exact h.quiet (by simp [stepped.1]) stepped.2
      | writeDone a ok =>
          simp only [Dialogue.step, Option.ite_none_left_eq_some] at stepped
          exact h.quiet (by simp) stepped.2
      | _ => exact h.quiet (by simp) stepped
  | client event =>
      cases event with
      | connected | line line | writeError aborted message | closed => cases stepped
      | _ => exact h.onLogin (by simp) stepped
  | posted =>
      simp only [Dialogue.step] at stepped
      split at stepped
      · cases stepped
      · next frame rest head =>
          obtain rfl := Option.some.inj stepped
          split
          · next active =>
              obtain ⟨sends, grows⟩ := h.sends.enqueue head active
              exact h.onWire sends grows
          · next idle =>
              exact h.onWire (h.sends.drop head fun active => absurd active idle) List.prefix_rfl
      · next handler rest other head =>
          have dropped : Flows env stored s { d with wire := { d.wire with posted := rest } } := by
            refine ⟨h.server, h.down, h.up, h.sends.drop head fun _ => ?_, h.received⟩
            cases handler with
            | write frame => exact absurd rfl (other frame)
            | _ => rfl
          exact dropped.onLogin (by simp) stepped
  | written =>
      simp only [Dialogue.step, Option.ite_none_right_eq_some, Option.some.injEq] at stepped
      obtain ⟨-, rfl⟩ := stepped
      exact h.onWire (h.sends.writeDone true).1 (h.sends.writeDone true).2
  | writeFailed aborted message =>
      simp only [Dialogue.step, Option.ite_none_right_eq_some] at stepped
      have failed := h.onWire (h.sends.writeDone false).1 (h.sends.writeDone false).2
      exact failed.onLogin (by simp) stepped.2
  | sendUp n =>
      obtain ⟨up, moved, rfl⟩ := Option.map_eq_some_iff.mp stepped
      exact ⟨h.server, h.down, h.up.send moved, h.sends, h.received⟩
  | receiveUp n =>
      simp only [Dialogue.step, Option.ite_none_right_eq_some] at stepped
      obtain ⟨up, moved, rfl⟩ := Option.map_eq_some_iff.mp stepped.2
      exact ⟨h.server, h.down, h.up.receive moved, h.sends, h.received⟩
  | readUp =>
      obtain ⟨⟨line, up⟩, moved, stepped⟩ := Option.bind_eq_some_iff.mp stepped
      refine onServer (d := { d with up, asked := d.asked ++ [line] }) h.server h.down
        (h.up.read moved) h.sends (fun server' moved => ?_) stepped
      rw [line_received moved, h.received, List.flatMap_append, List.flatMap_singleton]
  | sendDown n =>
      obtain ⟨down, moved, rfl⟩ := Option.map_eq_some_iff.mp stepped
      exact ⟨h.server, h.down.send moved, h.up, h.sends, h.received⟩
  | receiveDown n =>
      simp only [Dialogue.step, Option.ite_none_right_eq_some] at stepped
      obtain ⟨down, moved, rfl⟩ := Option.map_eq_some_iff.mp stepped.2
      exact ⟨h.server, h.down.receive moved, h.up, h.sends, h.received⟩
  | readDown =>
      obtain ⟨⟨line, down⟩, moved, stepped⟩ := Option.bind_eq_some_iff.mp stepped
      have read : Flows env stored s { d with down, heard := d.heard ++ [line] } :=
        ⟨h.server, h.down.read moved, h.up, h.sends, h.received⟩
      exact read.onLogin (by simp) stepped

/-- A step moves the login by one event, or not at all; what is heard are the lines. -/
theorem step_login {exchange : Exchange} (stepped : Dialogue.step env s d exchange = some d') :
    (d'.login = d.login ∧ d'.heard = d.heard) ∨ ∃ event, exchange.Moves event ∧
      event ≠ .connected ∧ d.login.step event = some d'.login ∧ d'.heard = d.heard ++ event.lines := by
  have onServer {a : Dialogue} {event : Event} (moved : a.onServer env s event = some d') :
      d'.login = a.login ∧ d'.heard = a.heard := by
    obtain ⟨server', -, rfl⟩ := Option.map_eq_some_iff.mp moved
    exact ⟨rfl, rfl⟩
  have onLogin {a : Dialogue} {event : LoginEvent} (moved : a.onLogin event = some d') :
      a.login.step event = some d'.login ∧ d'.heard = a.heard := by
    obtain ⟨login', advanced, rfl⟩ := Option.map_eq_some_iff.mp moved
    exact ⟨advanced, rfl⟩
  cases exchange with
  | server event =>
      cases event with
      | line a line =>
          simp only [Dialogue.step, Option.ite_none_left_eq_some] at stepped
          exact .inl (onServer stepped.2)
      | writeDone a ok =>
          simp only [Dialogue.step, Option.ite_none_left_eq_some] at stepped
          exact .inl (onServer stepped.2)
      | _ => exact .inl (onServer stepped)
  | client event =>
      cases event with
      | connected | line line | writeError aborted message | closed => cases stepped
      | _ =>
          obtain ⟨moved, heard⟩ := onLogin stepped
          exact .inr ⟨_, rfl, by simp, moved, by simpa [LoginEvent.lines] using heard⟩
  | posted =>
      simp only [Dialogue.step] at stepped
      split at stepped
      · cases stepped
      · obtain rfl := Option.some.inj stepped
        exact .inl ⟨rfl, rfl⟩
      · obtain ⟨moved, heard⟩ := onLogin stepped
        exact .inr ⟨.closed, rfl, by simp, moved, by simpa [LoginEvent.lines] using heard⟩
  | written =>
      simp only [Dialogue.step, Option.ite_none_right_eq_some, Option.some.injEq] at stepped
      obtain ⟨-, rfl⟩ := stepped
      exact .inl ⟨rfl, rfl⟩
  | writeFailed aborted message =>
      simp only [Dialogue.step, Option.ite_none_right_eq_some] at stepped
      obtain ⟨moved, heard⟩ := onLogin stepped.2
      exact .inr ⟨.writeError aborted message, rfl, by simp, moved,
        heard.trans (List.append_nil d.heard).symm⟩
  | sendUp n | sendDown n =>
      obtain ⟨stream, -, rfl⟩ := Option.map_eq_some_iff.mp stepped
      exact .inl ⟨rfl, rfl⟩
  | receiveUp n | receiveDown n =>
      simp only [Dialogue.step, Option.ite_none_right_eq_some] at stepped
      obtain ⟨stream, -, rfl⟩ := Option.map_eq_some_iff.mp stepped.2
      exact .inl ⟨rfl, rfl⟩
  | readUp =>
      obtain ⟨⟨line, up⟩, -, stepped⟩ := Option.bind_eq_some_iff.mp stepped
      have same := @onServer _ (.line s line) stepped
      exact .inl same
  | readDown =>
      obtain ⟨⟨line, down⟩, -, stepped⟩ := Option.bind_eq_some_iff.mp stepped
      obtain ⟨moved, heard⟩ := @onLogin _ (.line line) stepped
      exact .inr ⟨.line line, ⟨line, rfl⟩, by simp, moved, heard⟩

theorem flows_start (env : Env) (stored : StoredState) (s : SessionId) :
    Flows env stored s (start env stored) := by
  have handed : ((ChatServer.start env stored).output.wire s).handed = [] :=
    (start_deeds env stored).handed s
  have connects : Sending { connected := true, reading := false }
      { connected := false, reading := false : ChatClient }.finishConnect :=
    ChatClient.send_sending (.hello VERSION)
  have posted : ClientSends { connected := true, reading := false } {} :=
    ⟨fun _ => rfl, List.prefix_rfl, nofun⟩
  refine ⟨⟨[], rfl⟩, ?_, .start, ?_, start_received env stored⟩
  · rw [start, handed]
    exact .start
  · have sends := posted.login connects [] rfl
    simp only [List.append_nil, List.length_nil, List.drop_zero] at sends
    exact ⟨sends.all, sends.part, sends.frames⟩

theorem run_flows {exchanges : List Exchange}
    (h : Run.run (Dialogue.step env s) (start env stored) exchanges = some d) :
    Flows env stored s d :=
  Run.run_invariant (fun _ _ _ flows stepped => flows.step stepped) h (flows_start env stored s)

end Dialogue

end Chatbox.Chat
