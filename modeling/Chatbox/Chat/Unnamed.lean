import Chatbox.Chat.Delivery

/-!
A session without a nickname. Whatever frames it sends, nobody else notices, and it
hears nothing of the rooms, until a verified proof admits it.
-/

namespace Chatbox.Chat

open Text Protocol Storage

/-- The messages about the rooms. -/
def OfRooms : ServerMessage → Prop
  | .userList _ _ => True
  | .roomList _ => True
  | .roomJoined _ _ _ => True
  | .roomTopic _ _ => True
  | .roomText _ _ => True
  | _ => False

theorem not_ofRooms_of_aside {message : ServerMessage} (h : Aside message) : ¬ OfRooms message := by
  cases message with
  | hello | userList | roomList | roomJoined | roomTopic | roomText => exact h.elim
  | _ => exact id

/-- What concerns the session alone. -/
def Own (s : SessionId) : Effect → Prop
  | .received t _ => t = s
  | .deliver t message => t = s ∧ ¬ OfRooms message
  | .close t => t = s
  | _ => False

/-- Nothing has happened but to the session, which has kept its nickname and its
room. -/
structure Unnoticed (s : SessionId) (a b : ChatServer) : Prop where
  rooms : b.tables.rooms = a.tables.rooms
  nextRoomId : b.tables.nextRoomId = a.tables.nextRoomId
  localRoomId : b.tables.localRoomId = a.tables.localRoomId
  bannedNicks : b.tables.bannedNicks = a.tables.bannedNicks
  identities : b.tables.identities = a.tables.identities
  sessions : ∀ t, t ≠ s → (t ∈ b.tables.sessions ↔ t ∈ a.tables.sessions)
  session : ∀ t, t ≠ s → b.tables.session t = a.tables.session t
  wire : ∀ t, t ≠ s → b.output.wire t = a.output.wire t
  host : b.output.host = a.output.host
  nickname : (b.tables.session s).nickname = (a.tables.session s).nickname
  activeRoomId : (b.tables.session s).activeRoomId = (a.tables.session s).activeRoomId
  emits : Emits (Own s) a b

namespace Unnoticed

variable {s : SessionId} {a b c : ChatServer}

theorem refl (a : ChatServer) : Unnoticed s a a :=
  ⟨rfl, rfl, rfl, rfl, rfl, fun _ _ => Iff.rfl, fun _ _ => rfl, fun _ _ => rfl, rfl, rfl, rfl,
    .refl a⟩

theorem trans (hab : Unnoticed s a b) (hbc : Unnoticed s b c) : Unnoticed s a c where
  rooms := hbc.rooms.trans hab.rooms
  nextRoomId := hbc.nextRoomId.trans hab.nextRoomId
  localRoomId := hbc.localRoomId.trans hab.localRoomId
  bannedNicks := hbc.bannedNicks.trans hab.bannedNicks
  identities := hbc.identities.trans hab.identities
  sessions t ht := (hbc.sessions t ht).trans (hab.sessions t ht)
  session t ht := (hbc.session t ht).trans (hab.session t ht)
  wire t ht := (hbc.wire t ht).trans (hab.wire t ht)
  host := hbc.host.trans hab.host
  nickname := hbc.nickname.trans hab.nickname
  activeRoomId := hbc.activeRoomId.trans hab.activeRoomId
  emits := hab.emits.trans hbc.emits

end Unnoticed

namespace ChatServer

variable {env : Env} {server : ChatServer} {s : SessionId}

section Operations

theorem received_unnoticed (message : ClientMessage) :
    Unnoticed s server (server.note (.received s message)) :=
  ⟨rfl, rfl, rfl, rfl, rfl, fun _ _ => Iff.rfl, fun _ _ => rfl, fun _ _ => rfl, rfl, rfl, rfl,
    note_emits rfl⟩

theorem post_wire {output : ServerOutput} {handler : Posted} {t : SessionId} (h : t ≠ s) :
    (output.post s handler).wire t = output.wire t := Function.update_of_ne h _ _

theorem deliver_unnoticed {message : ServerMessage} (h : ¬ OfRooms message) :
    Unnoticed s server (server.deliver s message) := by
  refine ⟨rfl, rfl, rfl, rfl, rfl, fun _ _ => Iff.rfl, fun _ _ => rfl, fun t ht => ?_, ?_, rfl, rfl,
    deliver_emits ⟨rfl, h⟩⟩
  · change (server.output.deliver s message).wire t = server.output.wire t
    unfold ServerOutput.deliver
    simp only
    split
    · rfl
    · exact post_wire ht
  · change (server.output.deliver s message).host = server.output.host
    unfold ServerOutput.deliver
    simp only
    split <;> rfl

theorem close_unnoticed : Unnoticed s server (server.close s) :=
  ⟨rfl, rfl, rfl, rfl, rfl, fun _ _ => Iff.rfl, fun _ _ => rfl, fun _ ht => post_wire ht, rfl, rfl,
    rfl, close_emits rfl⟩

theorem nextReading_unnoticed : Unnoticed s server server.nextReading.2 :=
  ⟨rfl, rfl, rfl, rfl, rfl, fun _ _ => Iff.rfl, fun _ _ => rfl, fun _ _ => rfl, rfl, rfl, rfl,
    .of_eq rfl⟩

theorem updateSession_unnoticed {change : ClientSession → ClientSession}
    (nickname : ∀ session, (change session).nickname = session.nickname)
    (activeRoomId : ∀ session, (change session).activeRoomId = session.activeRoomId) :
    Unnoticed s server (server.updateSession s change) := by
  refine ⟨rfl, rfl, rfl, rfl, rfl, fun _ _ => Iff.rfl, fun t ht => Function.update_of_ne ht _ _,
    fun _ _ => rfl, rfl, ?_, ?_, .of_eq rfl⟩
  · simp only [updateSession, onTables, ServerTables.updateSession_session, if_true, nickname]
  · simp only [updateSession, onTables, ServerTables.updateSession_session, if_true, activeRoomId]

theorem stopReading_unnoticed : Unnoticed s server (server.stopReading s) :=
  updateSession_unnoticed (fun _ => rfl) fun _ => rfl

/-- A session that is in no room leaves without a trace. -/
theorem disconnect_unnoticed (outside : (server.tables.session s).activeRoomId = 0)
    (announce : Bool) : Unnoticed s server (server.disconnect env s announce) := by
  have erased : Unnoticed s server (server.onTables fun tables =>
      { tables with sessions := tables.sessions.erase s }) := by
    refine ⟨rfl, rfl, rfl, rfl, rfl, fun t ht => ?_, fun _ _ => rfl, fun _ _ => rfl, rfl, rfl, rfl,
      .of_eq rfl⟩
    exact OrderedMap.mem_erase.trans (and_iff_right ht)
  have cleared : Unnoticed s server ((server.onTables fun tables =>
      { tables with sessions := tables.sessions.erase s }).updateSession s fun session =>
        { session with activeRoomId := 0 }) := by
    refine erased.trans ⟨rfl, rfl, rfl, rfl, rfl, fun _ _ => Iff.rfl,
      fun t ht => Function.update_of_ne ht _ _, fun _ _ => rfl, rfl, ?_, ?_, .of_eq rfl⟩
    · simp [updateSession, onTables]
    · simp [updateSession, onTables, outside]
  unfold disconnect
  simp only [if_pos outside]
  exact cleared

theorem reject_unnoticed (outside : (server.tables.session s).activeRoomId = 0)
    {message : ServerMessage} (h : ¬ OfRooms message) :
    Unnoticed s server (server.reject env s message) := by
  have told : Unnoticed s server ((server.deliver s message).close s) :=
    (deliver_unnoticed h).trans close_unnoticed
  have still : (((server.deliver s message).close s).tables.session s).activeRoomId = 0 := outside
  exact (told.trans (disconnect_unnoticed still false)).trans stopReading_unnoticed

end Operations

section Handlers

variable (outside : (server.tables.session s).activeRoomId = 0)
  (unnamed : (server.tables.session s).nickname = [])

theorem onHello_unnoticed {version : UInt32} : Unnoticed s server (server.onHello env s version) := by
  unfold onHello
  split
  · exact deliver_unnoticed id
  · have negotiated : Unnoticed s server (server.updateSession s fun session =>
        { session with protocolNegotiated := version == VERSION }) :=
      updateSession_unnoticed (fun _ => rfl) fun _ => rfl
    apply negotiated.trans
    apply deliver_unnoticed
    split <;> exact id

include outside

theorem onAuthenticate_unnoticed {password : Bytes} :
    Unnoticed s server (server.onAuthenticate env s password) := by
  unfold onAuthenticate
  split
  · have authenticated : Unnoticed s server (server.updateSession s fun session =>
        { session with authenticated := true }) :=
      updateSession_unnoticed (fun _ => rfl) fun _ => rfl
    exact authenticated.trans (deliver_unnoticed id)
  · exact reject_unnoticed outside id

theorem onIdentify_unnoticed {nick publicKeyHex : Bytes} :
    Unnoticed s server (server.onIdentify env s nick publicKeyHex) := by
  unfold onIdentify
  split
  · exact deliver_unnoticed id
  · split
    · exact reject_unnoticed outside id
    · split
      · exact reject_unnoticed outside id
      · split
        · exact reject_unnoticed outside id
        · refine Unnoticed.trans nextReading_unnoticed (Unnoticed.trans ?_ (deliver_unnoticed id))
          exact updateSession_unnoticed (fun _ => rfl) fun _ => rfl

/-- A proof that does not admit the session changes nothing, not even a binding. -/
theorem onProof_unnoticed {signatureHex : Bytes}
    (refused : admitsSession env server s signatureHex = false) :
    Unnoticed s server (server.onProof env s signatureHex) := by
  obtain ⟨-, -, h⟩ | ⟨-, message, refusal, h⟩ | ⟨admits, -⟩ :=
    server.onProof_cases env s signatureHex
  · rw [h]
    exact deliver_unnoticed id
  · rw [h]
    exact reject_unnoticed outside (not_ofRooms_of_aside refusal.aside)
  · rw [refused] at admits
    cases admits

include unnamed

theorem onAdmittedMessage_unnoticed {message : ClientMessage}
    (refused : ∀ signatureHex, message = .identityProof signatureHex →
      admitsSession env server s signatureHex = false) :
    Unnoticed s server (server.onAdmittedMessage env s message) := by
  have empty : (server.tables.session s).nickname.isEmpty = true := by simp [unnamed]
  cases message with
  | identify nick publicKeyHex => exact onIdentify_unnoticed outside
  | identityProof signatureHex => exact onProof_unnoticed outside (refused signatureHex rfl)
  | disconnect =>
      have gone : Unnoticed s server (server.disconnect env s true) :=
        disconnect_unnoticed outside true
      exact (gone.trans close_unnoticed).trans stopReading_unnoticed
  | _ =>
      simp only [onAdmittedMessage, onLeave, onListRooms, onCreateRoom, onJoinRoom, onTopicRequest,
        onChat, onWhisper, onKickRequest, empty, if_true]
      exact deliver_unnoticed id

theorem onMessage_unnoticed {message : ClientMessage}
    (refused : ∀ signatureHex, message = .identityProof signatureHex →
      passesGates env server s = true → admitsSession env server s signatureHex = false) :
    Unnoticed s server (server.onMessage env s message) := by
  apply (received_unnoticed message).trans
  have outside' : ((server.note (.received s message)).tables.session s).activeRoomId = 0 := outside
  have unnamed' : ((server.note (.received s message)).tables.session s).nickname = [] := unnamed
  rcases server.onMessage_cases env s message with ⟨version, -, h⟩ | ⟨-, -, h⟩ |
    ⟨-, password, -, h⟩ | ⟨-, -, -, -, h⟩ | ⟨-, -, gates, h⟩
  · rw [h]
    exact onHello_unnoticed
  · rw [h]
    exact reject_unnoticed outside' id
  · rw [h]
    exact onAuthenticate_unnoticed outside'
  · rw [h]
    exact deliver_unnoticed id
  · rw [h]
    apply onAdmittedMessage_unnoticed outside' unnamed'
    intro signatureHex proof
    exact refused signatureHex proof gates

theorem onLine_unnoticed {line : Bytes}
    (refused : ∀ signatureHex, decodeClientFrame line = .ok (.identityProof signatureHex) →
      passesGates env server s = true → admitsSession env server s signatureHex = false) :
    Unnoticed s server (server.onLine env s line) := by
  unfold onLine
  split
  · next message decoded =>
      apply onMessage_unnoticed outside unnamed
      rintro signatureHex rfl
      exact refused signatureHex decoded
  · split
    · exact reject_unnoticed outside id
    · exact deliver_unnoticed id

end Handlers

end ChatServer

section Frames

variable {env : Env} {server server' : ChatServer} {s : SessionId}

/-- The line is a proof that passes every check and admits the session. -/
def admitsLine (env : Env) (server : ChatServer) (s : SessionId) (line : Bytes) : Bool :=
  match decodeClientFrame line with
  | .ok (.identityProof signatureHex) =>
      passesGates env server s && admitsSession env server s signatureHex
  | _ => false

/-- What the session's own client can cause: a frame, or the end of its stream. -/
def Event.isFrom (s : SessionId) : Event → Bool
  | .line t _ => t == s
  | .readError t => t == s
  | _ => false

/-- The event does not admit the session. -/
def notAdmitting (env : Env) (s : SessionId) (server : ChatServer) : Event → Bool
  | .line _ line => !admitsLine env server s line
  | _ => true

theorem step_unnoticed {event : Event} (sent : event.isFrom s = true)
    (refused : notAdmitting env s server event = true)
    (outside : (server.tables.session s).activeRoomId = 0)
    (unnamed : (server.tables.session s).nickname = [])
    (h : step env server event = some server') : Unnoticed s server server' := by
  cases event with
  | line t line =>
      obtain rfl : t = s := by simpa [Event.isFrom] using sent
      simp only [step, Option.ite_none_right_eq_some, Option.some.injEq] at h
      obtain ⟨-, rfl⟩ := h
      apply ChatServer.onLine_unnoticed outside unnamed
      intro signatureHex decoded gates
      simpa [notAdmitting, admitsLine, decoded, gates] using refused
  | readError t =>
      obtain rfl : t = s := by simpa [Event.isFrom] using sent
      simp only [step, Option.ite_none_right_eq_some, Option.some.injEq] at h
      obtain ⟨-, rfl⟩ := h
      have gone := @ChatServer.disconnect_unnoticed env server t outside
        (!(server.output.wire t).suppressLeaveNotice)
      exact gone.trans ChatServer.stopReading_unnoticed
  | _ => cases sent

/-- The session may go on sending as long as it is not admitted. -/
theorem run_unnoticed {events : List Event} (sent : ∀ event ∈ events, event.isFrom s = true)
    (refused : Run.Always (step env) (fun a event => notAdmitting env s a event = true) server
      events)
    (outside : (server.tables.session s).activeRoomId = 0)
    (unnamed : (server.tables.session s).nickname = [])
    (h : Run.run (step env) server events = some server') : Unnoticed s server server' := by
  induction events generalizing server with
  | nil =>
      obtain rfl : server = server' := by simpa [Run.run] using h
      exact .refl server
  | cons event events ih =>
      obtain ⟨middle, hstep, hrun⟩ := Run.run_cons.mp h
      have first := step_unnoticed (sent event (by simp)) refused.1 outside unnamed hstep
      refine first.trans (ih (fun e he => sent e (by simp [he])) (refused.2 middle hstep) ?_ ?_ hrun)
      · rw [first.activeRoomId, outside]
      · rw [first.nickname, unnamed]

end Frames

section Deliveries

variable {env : Env} {server server' : ChatServer} {due due' : Due} {s : SessionId}

/-- A message about the rooms goes to a session with a nickname. -/
def ToNamed (tables : ServerTables) : Effect → Prop
  | .deliver s message => OfRooms message → (tables.session s).nickname ≠ []
  | _ => True

theorem toNamed_of_mute {tables : ServerTables} {e : Effect} (h : Mute e) : ToNamed tables e := by
  cases e with
  | deliver => exact h.elim
  | _ => trivial

theorem Change.named {mover : SessionId → Prop} {a b : ServerTables}
    (h : Change env mover a b) (ha : (a.session s).nickname ≠ []) :
    (b.session s).nickname ≠ [] := by
  cases h with
  | touch t change keeps =>
      rw [ServerTables.updateSession_kept ClientSession.nickname]
      · exact ha
      · exact (keeps _).nickname
  | admission t moves unnamed named free bound =>
      rw [ServerTables.updateSession_session]
      split
      · exact named
      · exact ha
  | place t roomId moves named present =>
      rw [ServerTables.placeSession_kept ClientSession.nickname]
      · exact ha
      · rfl
  | accept | identify =>
      rw [ServerTables.updateSession_kept ClientSession.nickname]
      · exact ha
      · rfl
  | drop =>
      rw [ServerTables.dropSession_kept ClientSession.nickname]
      · exact ha
      · rfl
  | insertRoom | topic | host | bans | bind => exact ha

theorem Act.keepsName (h : Act env (due, server) (due', server'))
    (ha : (server.tables.session s).nickname ≠ []) : (server'.tables.session s).nickname ≠ [] := by
  obtain ⟨mover, changes⟩ := h.changes
  exact changes.invariant (fun _ _ change => change.named) ha

/-- Members have nicknames. -/
theorem Orderly.member_named (ho : Orderly env server) {r : RoomId}
    (h : s ∈ server.tables.members r) : (server.tables.session s).nickname ≠ [] := by
  obtain ⟨rfl, inside⟩ := (ho.consistent.member_iff s r).mp h
  exact ho.consistent.named s inside

open ChatServer in
/-- Every act tells only sessions with nicknames about the rooms. -/
theorem Act.toNamed (h : Act env (due, server) (due', server')) (ho : Orderly env server)
    (seated : Seated due server) : Emits (ToNamed server.tables) server server' := by
  have toMembers {r : RoomId} {message : ServerMessage} :
      ∀ e ∈ (server.tables.members r).toList.map fun s => Effect.deliver s message,
        ToNamed server.tables e := by
    intro e he
    obtain ⟨s, hs, rfl⟩ := List.mem_map.mp he
    exact fun _ => ho.member_named (Std.ExtTreeSet.mem_toList.mp hs)
  have withdrawn {a : ChatServer} {t : SessionId} (tables : a.tables = server.tables) :
      Emits (ToNamed server.tables) a (a.withdraw t) := by
    refine ⟨_, withdraw_trace (tables ▸ ho.consistent), ?_⟩
    split
    · simp
    · simp [ToNamed]
  cases h with
  | muted _ h => exact h.emits.mono fun _ => toNamed_of_mute
  | accept _ _ a absent => exact .of_eq rfl
  | greet _ _ a waiting => exact .one (deliver_trace _) fun rooms => False.elim rooms
  | stop _ _ a gone => exact .of_eq rfl
  | aside _ _ a message awake h =>
      exact .one (deliver_trace _) fun rooms => absurd rooms (not_ofRooms_of_aside h)
  | withdraw _ _ a calm => exact withdrawn rfl
  | expel _ _ a message calm known h =>
      have told : Emits (ToNamed server.tables) server (server.deliver a message) :=
        .one (deliver_trace _) fun rooms => absurd rooms (not_ofRooms_of_aside h)
      exact (told.trans (close_emits trivial)).trans (withdrawn rfl)
  | name _ _ a calm reading unnamed named free bound => exact .of_eq rfl
  | enter _ _ a roomId room calm mine reading named present other =>
      refine ⟨_, enterRoom_trace ho.consistent, ?_⟩
      split
      · simp [ToNamed]
      · simp [ToNamed]
  | welcome _ _ a room arrived =>
      have named : (server.tables.session a).nickname ≠ [] := by
        apply ho.consistent.named
        intro outside
        have seat := seated a room arrived
        rw [ServerTables.seatOf, if_pos outside] at seat
        cases seat
      have joined : Emits (ToNamed server.tables) server
          (server.deliver a (.roomJoined room.id room.name room.topic)) :=
        .one (deliver_trace _) fun _ => named
      refine joined.trans ⟨_, deliverHistory_trace _ _ _, fun e he => ?_⟩
      split at he
      · simp at he
      · rcases List.mem_cons.mp he with rfl | he
        · exact fun rooms => False.elim rooms
        · obtain ⟨message, -, rfl⟩ := List.mem_map.mp he
          exact fun _ => named
  | broadcastRoom _ _ roomId msg nickname calm =>
      cases present : server.tables.rooms[roomId]? with
      | none =>
          simp only [ChatServer.broadcastRoom, present]
          exact .refl server
      | some room =>
          obtain ⟨tail, htrace, mute⟩ :=
            @broadcastRoom_trace env server roomId room msg nickname present
          have members : server.tables.members roomId = room.members := by
            rw [ServerTables.members, present]
          refine ⟨_, htrace.trans (List.append_assoc _ _ _), fun e he => ?_⟩
          rcases List.mem_append.mp he with he | he
          · rcases List.mem_cons.mp he with rfl | he
            · trivial
            · exact toMembers e (members ▸ he)
          · exact toNamed_of_mute (mute e he)
  | broadcastUsers _ _ roomId calm => exact ⟨_, broadcastUsers_trace roomId, toMembers⟩
  | broadcastRoomLists _ _ =>
      refine ⟨_, broadcastRoomLists_trace, fun e he => ?_⟩
      obtain ⟨a, ha, rfl⟩ := List.mem_map.mp he
      have named := (List.mem_filter.mp ha).2
      exact fun _ => by simpa using named
  | sendRoomList _ _ a awake named => exact .one (deliver_trace _) fun _ => named
  | sendTopic _ _ a calm awake =>
      refine ⟨_, sendTopic_trace, fun e he => ?_⟩
      cases present : server.tables.rooms[(server.tables.session a).activeRoomId]? with
      | none => simp [present] at he
      | some room =>
          obtain rfl : e = _ := by simpa [present] using he
          refine fun _ => ho.consistent.named a fun outside => ?_
          have inside := (ho.consistent.rooms.key _ room present).2.1
          rw [outside] at inside
          exact absurd inside (by decide)
  | insertRoom _ _ name ownerNickname valid below fresh => exact .of_eq rfl
  | host _ _ roomId present => exact .of_eq rfl
  | topic _ _ saved roomId topic room calm valid present saving =>
      have stored : Emits (ToNamed server.tables) server saved :=
        saving.emits.mono fun _ => toNamed_of_mute
      have members : server.tables.members roomId = room.members := by
        rw [ServerTables.members, present]
      exact stored.trans ⟨_, deliverAll_trace _ _, members ▸ toMembers⟩

/-- Whoever has been told about the rooms has a nickname. -/
structure Informed (env : Env) (due : Due) (server : ChatServer) : Prop where
  orderly : Orderly env server
  seated : Seated due server
  toNamed : ∀ e ∈ server.output.trace, ToNamed server.tables e

theorem Act.informed (h : Act env (due, server) (due', server')) (hi : Informed env due server) :
    Informed env due' server' := by
  refine ⟨(Acts.one h).orderly hi.orderly, h.seated hi.orderly.consistent hi.seated, fun e he => ?_⟩
  obtain ⟨new, htrace, toNamed⟩ := h.toNamed hi.orderly hi.seated
  rw [htrace] at he
  have before : ToNamed server.tables e := (List.mem_append.mp he).elim (hi.toNamed e) (toNamed e)
  cases e with
  | deliver s message => exact fun rooms => h.keepsName (before rooms)
  | _ => trivial

theorem reachable_informed {stored : StoredState} (h : Reachable env stored server) :
    Informed env {} server := by
  obtain ⟨events, h⟩ := h
  have start : Informed env {} (ChatServer.start env stored) := by
    refine ⟨reachable_orderly ⟨[], rfl⟩, nofun, fun e he => ?_⟩
    obtain ⟨write, rfl⟩ := ChatServer.start_stores env stored e he
    trivial
  have keeps (a : ChatServer) (event : Event) (b : ChatServer) (ha : Informed env {} a)
      (hstep : step env a event = some b) : Informed env {} b :=
    Acts.invariant (fun _ _ _ _ act => act.informed) (step_settles ha.orderly hstep) ha
  exact Run.run_invariant keeps h start

end Deliveries

/-- As long as a session has no nickname it is told nothing about the rooms, and
whatever its client sends concerns nobody but the session itself, unless it is a proof
that admits it. -/
theorem reachable_unnamed (env : Env) (stored : StoredState) (server : ChatServer)
    (h : Reachable env stored server) (s : SessionId)
    (unnamed : (server.tables.session s).nickname = []) :
    (∀ message, .deliver s message ∈ server.output.trace → ¬ OfRooms message) ∧
      ∀ (events : List Event) (server' : ChatServer), (∀ e ∈ events, e.isFrom s = true) →
        Run.Always (step env) (fun a event => notAdmitting env s a event = true) server events →
        Run.run (step env) server events = some server' → Unnoticed s server server' := by
  refine ⟨fun message told rooms => ?_, fun events server' sent refused hrun => ?_⟩
  · exact (reachable_informed h).toNamed _ told rooms unnamed
  · have outside : (server.tables.session s).activeRoomId = 0 := by
      by_contra inside
      exact (reachable_consistent h).named s inside unnamed
    exact run_unnoticed sent refused outside unnamed hrun

/-- A session that has only greeted the server tries to chat and to create a room, and
is gone; the member of the lobby is not concerned. -/
theorem reachable_unnamed_two : ∃ server server',
    Reachable .plain emptyStore server ∧
      Run.run (step .plain) server [.line 1 (clientFrame (.chat (ascii "hi"))),
        .line 1 (clientFrame (.createRoom (ascii "games"))), .readError 1] = some server' ∧
      Unnoticed 1 server server' := by
  obtain ⟨server, -, reachable, unnamed, refused, runs⟩ := exists_serverAfter
    (visit 0 (ascii "ann") ++
      [.accept 1, .handshake 1 true, .line 1 (clientFrame (.hello VERSION))])
    (fun server => (server.tables.session 1).nickname = [] ∧
      Run.Always (step .plain) (fun a event => notAdmitting .plain 1 a event = true) server
        [.line 1 (clientFrame (.chat (ascii "hi"))),
          .line 1 (clientFrame (.createRoom (ascii "games"))), .readError 1] ∧
      (Run.run (step .plain) server [.line 1 (clientFrame (.chat (ascii "hi"))),
        .line 1 (clientFrame (.createRoom (ascii "games"))), .readError 1]).isSome = true)
    (by decide +kernel)
  obtain ⟨server', run⟩ := Option.isSome_iff_exists.mp runs
  exact ⟨server, server', reachable, run,
    (reachable_unnamed .plain emptyStore server reachable 1 unnamed).2 _ server' (by decide)
      refused run⟩

end Chatbox.Chat
