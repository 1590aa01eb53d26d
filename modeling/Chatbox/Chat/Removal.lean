import Chatbox.Chat.Membership
import Chatbox.Chat.Trace

/-!
What a session can still do after it has been removed from `sessions_`: its stream
stays open until the queue is written, and its frames are handled until then.
-/

namespace Chatbox.Chat

open Text Protocol Storage

namespace ServerTables

variable (tables : ServerTables)

/-- The session has been accepted and is no longer in `sessions_`. -/
def Removed (s : SessionId) : Prop :=
  (tables.session s).readLoop ≠ .absent ∧ s ∉ tables.sessions

/-- The tables are consistent, and nobody is or may come into a room who is not in
`sessions_`. -/
structure Attended (mover : SessionId → Prop) (tables : ServerTables) : Prop where
  consistent : tables.Consistent
  members : ∀ s r, s ∈ tables.members r → s ∈ tables.sessions
  movers : ∀ s, mover s → s ∈ tables.sessions

end ServerTables

open ServerTables

theorem Change.removed {env : Env} {mover : SessionId → Prop} {a b : ServerTables}
    {s : SessionId} (h : Change env mover a b) (removed : a.Removed s) : b.Removed s := by
  obtain ⟨accepted, gone⟩ := removed
  cases h with
  | touch t change keeps =>
      refine ⟨?_, gone⟩
      rw [updateSession_session]
      split
      · next e =>
          subst e
          exact fun h => accepted (((keeps _).readLoop (.inl h)).symm.trans h)
      · exact accepted
  | accept t absent =>
      have other : s ≠ t := by
        rintro rfl
        exact accepted absent
      refine ⟨?_, fun hm => ?_⟩
      · rw [updateSession_session, if_neg other]
        exact accepted
      · exact (OrderedMap.mem_insert.mp hm).elim other gone
  | identify t nick publicKeyHex challenge valid =>
      refine ⟨?_, gone⟩
      rw [updateSession_session]
      split
      · next e =>
          subst e
          exact accepted
      · exact accepted
  | admission t moves unnamed named free bound =>
      refine ⟨?_, gone⟩
      rw [updateSession_session]
      split
      · next e =>
          subst e
          exact accepted
      · exact accepted
  | place t roomId moves named present =>
      refine ⟨?_, gone⟩
      rw [placeSession_session]
      split
      · next e =>
          subst e
          exact accepted
      · exact accepted
  | drop t stays =>
      refine ⟨?_, fun hm => ?_⟩
      · rw [dropSession_session]
        split
        · next e =>
            subst e
            exact accepted
        · exact accepted
      · rw [dropSession_sessions] at hm
        exact gone (OrderedMap.mem_erase.mp hm).2
  | insertRoom | topic | host | bans | bind => exact ⟨accepted, gone⟩

theorem Change.attended {env : Env} {mover : SessionId → Prop} {a b : ServerTables}
    (h : Change env mover a b) (ha : a.Attended mover) : b.Attended mover := by
  refine ⟨h.consistent ha.consistent, fun s r hm => ?_, fun s hs => ?_⟩
  · cases h with
    | touch | identify | admission | host | bans | bind => exact ha.members s r hm
    | accept t absent => exact OrderedMap.mem_insert.mpr (.inr (ha.members s r hm))
    | place t roomId moves named present =>
        rcases (mem_placeSession present).mp hm with ⟨old, -⟩ | ⟨rfl, -⟩
        · exact ha.members s r old
        · exact ha.movers s moves
    | drop t stays =>
        obtain ⟨old, other⟩ := mem_dropSession.mp hm
        obtain ⟨rfl, hne⟩ := (ha.consistent.member_iff s r).mp old
        rw [dropSession_sessions]
        refine OrderedMap.mem_erase.mpr ⟨?_, ha.members s _ old⟩
        rintro rfl
        exact other ⟨rfl, rfl, hne⟩
    | insertRoom name ownerNickname valid below fresh =>
        rw [insertRoom_members rfl] at hm
        exact ha.members s r hm
    | topic roomId topic valid =>
        rw [updateRoom_members ?_] at hm
        · exact ha.members s r hm
        · exact fun _ => rfl
  · cases h with
    | touch | identify | admission | place | host | bans | bind | insertRoom | topic =>
        exact ha.movers s hs
    | accept t absent => exact OrderedMap.mem_insert.mpr (.inr (ha.movers s hs))
    | drop t stays =>
        rw [dropSession_sessions]
        refine OrderedMap.mem_erase.mpr ⟨?_, ha.movers s hs⟩
        rintro rfl
        exact stays hs

/-- The event is a frame of a session that is not in `sessions_`, and the frame
passes every check of PROOF, LEAVE, CREATE or JOIN. -/
def LateMove (env : Env) (server : ChatServer) (event : Event) : Prop :=
  ∃ s, s ∉ server.tables.sessions ∧ Mover env server event s

instance (env : Env) (server : ChatServer) : ∀ event, Decidable (LateMove env server event)
  | .line s line =>
      decidable_of_iff (s ∉ server.tables.sessions ∧
          (decodeClientFrame line).toOption.any (movesSession env server s) = true) (by
        cases h : decodeClientFrame line with
        | ok message => simp [LateMove, mover_line h, Except.toOption]
        | error e => simp [LateMove, not_mover_undecodable h, Except.toOption])
  | .accept _ | .handshake _ _ | .readError _ | .posted _ | .writeDone _ _
  | .registerLocalIdentity _ _ | .startLocalUser | .broadcast _ | .broadcastServer _
  | .sendPrivate _ _ _ _ | .createLocalRoom _ | .joinLocalRoom _ | .leaveLocalRoom
  | .setLocalTopic _ | .showRoomListLocal | .kickUser _ _ | .banUser _ _ | .unbanUser _
  | .createAdminRoom _ | .setAdminTopic _ _ | .kickUserInRoom _ _ _ =>
      isFalse fun ⟨_, _, _, _, he, _⟩ => by cases he

theorem step_removed {env : Env} {server server' : ChatServer} {event : Event} {s : SessionId}
    (h : step env server event = some server') (removed : server.tables.Removed s) :
    server'.tables.Removed s :=
  (step_changes h).invariant (fun _ _ hc => hc.removed) removed

/-- Without a late move every member of a room stays a session of `sessions_`. -/
theorem step_attended {env : Env} {server server' : ChatServer} {event : Event}
    (h : step env server event = some server') (timely : ¬ LateMove env server event)
    (hc : server.tables.Consistent)
    (hm : ∀ s r, s ∈ server.tables.members r → s ∈ server.tables.sessions) :
    ∀ s r, s ∈ server'.tables.members r → s ∈ server'.tables.sessions := by
  have movers (s : SessionId) (hs : Mover env server event s) : s ∈ server.tables.sessions := by
    by_contra gone
    exact timely ⟨s, gone, hs⟩
  have attended : server.roster.Attended (Mover env server event) := by
    refine ⟨consistent_roster.mpr hc, ?_, movers⟩
    simpa [ChatServer.roster] using hm
  have := ((step_changes h).invariant (fun _ _ hc => hc.attended) attended).members
  simpa [ChatServer.roster] using this

/-- The rooms are the same, and all that was sent out went to the session. -/
structure Confined (s : SessionId) (server server' : ChatServer) : Prop where
  rooms : server'.tables.rooms = server.tables.rooms
  emits : Emits (fun e => ∀ t message, e = .deliver t message → t = s) server server'

namespace Confined

variable {s : SessionId} {a b c : ChatServer}

theorem refl (a : ChatServer) : Confined s a a := ⟨rfl, .refl a⟩

theorem trans (hab : Confined s a b) (hbc : Confined s b c) : Confined s a c :=
  ⟨hbc.rooms.trans hab.rooms, hab.emits.trans hbc.emits⟩

end Confined

namespace ChatServer

variable {env : Env} {server : ChatServer} {s : SessionId}

section Confined

theorem deliver_confined (message : ServerMessage) : Confined s server (server.deliver s message) := by
  refine ⟨rfl, deliver_emits fun t m h => ?_⟩
  exact (Effect.deliver.inj h).1.symm

theorem note_confined {effect : Effect} (h : ∀ t message, effect ≠ .deliver t message) :
    Confined s server (server.note effect) :=
  ⟨rfl, note_emits fun t m e => absurd e (h t m)⟩

theorem close_confined : Confined s server (server.close s) :=
  ⟨rfl, close_emits nofun⟩

theorem updateSession_confined (change : ClientSession → ClientSession) :
    Confined s server (server.updateSession s change) := ⟨rfl, .of_eq rfl⟩

theorem nextReading_confined : Confined s server server.nextReading.2 := ⟨rfl, .of_eq rfl⟩

theorem disconnect_confined (outside : (server.tables.session s).activeRoomId = 0)
    (announce : Bool) : Confined s server (server.disconnect env s announce) := by
  obtain ⟨rooms, output⟩ := @disconnect_outside env _ _ outside announce
  exact ⟨rooms, .of_eq (by rw [output])⟩

theorem reject_confined (outside : (server.tables.session s).activeRoomId = 0)
    (message : ServerMessage) : Confined s server (server.reject env s message) := by
  have dropped : Confined s ((server.deliver s message).close s)
      (((server.deliver s message).close s).disconnect env s false) := by
    refine disconnect_confined ?_ false
    exact outside
  exact (((deliver_confined message).trans close_confined).trans dropped).trans
    (updateSession_confined _)

theorem reportError_confined {result : ChatServer × Option Bytes}
    (h : Confined s server result.1) : Confined s server (reportError s result) := by
  unfold reportError
  split
  · exact h.trans (deliver_confined _)
  · exact h

theorem broadcastRoom_absent {roomId : RoomId} {msg nickname : Bytes}
    (h : server.tables.rooms[roomId]? = none) :
    server.broadcastRoom env roomId msg nickname = server := by
  simp only [broadcastRoom, h]

theorem sendPrivateInRoom_absent {roomId : RoomId} {sender target message : Bytes}
    {mirrorToLocal : Bool} (h : server.tables.rooms[roomId]? = none) :
    server.sendPrivateInRoom env sender target message roomId mirrorToLocal = (server, false) := by
  simp only [sendPrivateInRoom, h]

theorem consumeMessageQuota_activeRoomId :
    ((server.consumeMessageQuota env s).2.tables.session s).activeRoomId =
      (server.tables.session s).activeRoomId := by
  simp [consumeMessageQuota, nextReading, updateSession, onTables, onOutput,
    ServerTables.updateSession]

theorem consumeMessageQuota_confined : Confined s server (server.consumeMessageQuota env s).2 :=
  nextReading_confined.trans (updateSession_confined _)

end Confined

/-! A session that is in no room and sends no late move reaches only itself. -/

section Outside

theorem onHello_confined {version : UInt32} : Confined s server (server.onHello env s version) := by
  unfold onHello
  split
  · exact deliver_confined _
  · exact (updateSession_confined _).trans (deliver_confined _)

theorem onLeave_confined (outside : (server.tables.session s).activeRoomId = 0)
    (timely : passesChecks env server s .leave = false) :
    Confined s server (server.onLeave env s) := by
  unfold onLeave
  split
  · exact deliver_confined _
  · next named =>
      rw [passesChecks, outside] at timely
      simp [named, DEFAULT_ROOM_ID] at timely

theorem onListRooms_confined : Confined s server (server.onListRooms env s) := by
  unfold onListRooms
  split
  · exact deliver_confined _
  · exact deliver_confined _

theorem onCreateRoom_confined {name : Bytes}
    (timely : passesChecks env server s (.createRoom name) = false) :
    Confined s server (server.onCreateRoom env s name) := by
  unfold onCreateRoom
  split
  · exact deliver_confined _
  · next named =>
      refine reportError_confined ?_
      rcases server.addRoom_cases name (server.tables.session s).nickname with
        ⟨⟨error, he⟩, -⟩ | ⟨-, hcan⟩
      · rw [createRoom, he]
        exact .refl server
      · simp [passesChecks, named, hcan] at timely

theorem onJoinRoom_confined {name : Bytes}
    (timely : passesChecks env server s (.joinRoom name) = false) :
    Confined s server (server.onJoinRoom env s name) := by
  unfold onJoinRoom
  split
  · exact deliver_confined _
  · next named =>
      refine reportError_confined ?_
      unfold joinRoom
      split
      · exact .refl server
      · next roomId room hfind =>
          split
          · exact .refl server
          · next hne => simp [passesChecks, named, hfind, hne] at timely

section NoRoom

variable (outside : (server.tables.session s).activeRoomId = 0)

include outside

theorem onAuthenticate_confined {password : Bytes} :
    Confined s server (server.onAuthenticate env s password) := by
  unfold onAuthenticate
  split
  · exact (updateSession_confined _).trans (deliver_confined _)
  · exact reject_confined outside _

theorem onIdentify_confined {nick publicKeyHex : Bytes} :
    Confined s server (server.onIdentify env s nick publicKeyHex) := by
  unfold onIdentify
  split
  · exact deliver_confined _
  · split
    · exact reject_confined outside _
    · split
      · exact reject_confined outside _
      · split
        · exact reject_confined outside _
        · exact (nextReading_confined.trans (updateSession_confined _)).trans
            (deliver_confined _)

theorem onProof_confined {signatureHex : Bytes}
    (timely : admitsSession env server s signatureHex = false) :
    Confined s server (server.onProof env s signatureHex) := by
  obtain ⟨-, -, h⟩ | ⟨-, message, -, h⟩ | ⟨admits, -⟩ :=
    server.onProof_cases env s signatureHex
  · rw [h]
    exact deliver_confined _
  · rw [h]
    exact reject_confined outside message
  · rw [timely] at admits
    cases admits

theorem onDisconnect_confined : Confined s server (server.onDisconnect env s) :=
  ((disconnect_confined outside true).trans close_confined).trans (updateSession_confined _)

variable (norooms : server.tables.rooms[(0 : RoomId)]? = none)

include norooms

theorem onTopicRequest_confined {topic : Option Bytes} :
    Confined s server (server.onTopicRequest env s topic) := by
  unfold onTopicRequest
  split
  · exact deliver_confined _
  · cases topic with
    | none =>
        simp only [sendTopic, outside, norooms]
        exact .refl server
    | some topic =>
        refine reportError_confined ?_
        unfold setTopic setTopicForRoom
        split
        · exact .refl server
        · simp only [outside, norooms]
          exact .refl server

theorem onChat_confined {body : Bytes} : Confined s server (server.onChat env s body) := by
  have quota := @consumeMessageQuota_confined env server s
  obtain h | h | h | ⟨-, session, reading, named, h⟩ := onChat_cases env server s body <;> rw [h]
  · exact deliver_confined _
  · exact quota.trans (deliver_confined _)
  · exact quota.trans (deliver_confined _)
  · refine (quota.trans nextReading_confined).trans ?_
    rw [← named, consumeMessageQuota_activeRoomId, outside, broadcastRoom_absent]
    · exact .refl _
    · exact quota.rooms.symm ▸ norooms

theorem onWhisper_confined {target body : Bytes} :
    Confined s server (server.onWhisper env s target body) := by
  have quota := @consumeMessageQuota_confined env server s
  obtain h | h | h | ⟨-, h⟩ := onWhisper_cases env server s target body <;> rw [h]
  · exact deliver_confined _
  · exact quota.trans (deliver_confined _)
  · exact quota.trans (deliver_confined _)
  · refine quota.trans ?_
    rw [sendPrivateFrom, consumeMessageQuota_activeRoomId, outside, sendPrivateInRoom_absent]
    · exact .refl _
    · exact quota.rooms.symm ▸ norooms

theorem onKickRequest_confined {nickname reason : Bytes} :
    Confined s server (server.onKickRequest env s nickname reason) := by
  unfold onKickRequest
  split
  · exact deliver_confined _
  · refine reportError_confined ?_
    simp only [kickFrom, outside, norooms]
    exact .refl server

theorem onAdmittedMessage_confined {message : ClientMessage}
    (timely : passesChecks env server s message = false) :
    Confined s server (server.onAdmittedMessage env s message) := by
  cases message with
  | hello version => exact deliver_confined _
  | authenticate password => exact deliver_confined _
  | identify nick publicKeyHex => exact onIdentify_confined outside
  | identityProof signatureHex => exact onProof_confined outside timely
  | leave => exact onLeave_confined outside timely
  | disconnect => exact onDisconnect_confined outside
  | listRooms => exact onListRooms_confined
  | createRoom name => exact onCreateRoom_confined timely
  | joinRoom name => exact onJoinRoom_confined timely
  | topicRequest topic => exact onTopicRequest_confined outside norooms
  | chat body => exact onChat_confined outside norooms
  | whisper target body => exact onWhisper_confined outside norooms
  | kickRequest nickname reason => exact onKickRequest_confined outside norooms

theorem onMessage_confined {message : ClientMessage}
    (timely : movesSession env server s message = false) :
    Confined s server (server.onMessage env s message) := by
  have received : Confined s server (server.note (.received s message)) := note_confined nofun
  refine received.trans ?_
  rcases server.onMessage_cases env s message with ⟨version, -, h⟩ | ⟨-, closed, h⟩ |
    ⟨-, password, rfl, h⟩ | ⟨-, -, -, -, h⟩ | ⟨-, -, gates, h⟩
  · rw [h]
    exact onHello_confined
  · rw [h]
    refine reject_confined ?_ _
    exact outside
  · rw [h]
    refine onAuthenticate_confined ?_
    exact outside
  · rw [h]
    exact deliver_confined _
  · rw [h]
    refine onAdmittedMessage_confined ?_ ?_ ?_
    · exact outside
    · exact norooms
    · rw [movesSession, gates, Bool.true_and] at timely
      exact timely

theorem onLine_confined {line : Bytes} (timely : ¬ Mover env server (.line s line) s) :
    Confined s server (server.onLine env s line) := by
  unfold onLine
  split
  · next message h =>
      refine onMessage_confined outside norooms ?_
      rw [mover_line h] at timely
      simpa using timely
  · split
    · exact reject_confined outside _
    · exact deliver_confined _

end NoRoom

end Outside

end ChatServer

section Runs

variable {env : Env} {stored : StoredState}

open ChatServer

/-- In a run without late moves every member of a room is in `sessions_`. -/
theorem run_attended {events : List Event} {server : ChatServer}
    (h : Run.run (step env) (ChatServer.start env stored) events = some server)
    (timely : Run.Always (step env) (fun state event => ¬ LateMove env state event)
      (ChatServer.start env stored) events) (s : SessionId) (r : RoomId)
    (hm : s ∈ server.tables.members r) : s ∈ server.tables.sessions := by
  have keeps (state : ChatServer) (event : Event) (state' : ChatServer)
      (inv : state.tables.Consistent ∧
        ∀ s r, s ∈ state.tables.members r → s ∈ state.tables.sessions)
      (hlate : ¬ LateMove env state event) (hstep : step env state event = some state') :
      state'.tables.Consistent ∧
        ∀ s r, s ∈ state'.tables.members r → s ∈ state'.tables.sessions :=
    ⟨step_consistent hstep inv.1, step_attended hstep hlate inv.1 inv.2⟩
  have empty (s : SessionId) (r : RoomId)
      (hm : s ∈ (ChatServer.start env stored).tables.members r) :
      s ∈ (ChatServer.start env stored).tables.sessions := by
    obtain ⟨rfl, hne⟩ := ((start_consistent env stored).member_iff s r).mp hm
    rw [(start_tables env stored).2.2.2] at hne
    exact absurd rfl hne
  exact (Run.run_invariant_of keeps timely h ⟨start_consistent env stored, empty⟩).2 s r hm

/-- A kick that succeeds and a ban of a connected nickname remove a session. -/
theorem kickUserInRoom_removed {server : ChatServer} {roomId : RoomId} {nick reason : Bytes}
    (h : (server.kickUserInRoom env roomId nick reason).2 = true) :
    ∃ target, target ∈ server.tables.members roomId ∧
      (server.tables.session target).nickname = nick ∧
      target ∉ (server.kickUserInRoom env roomId nick reason).1.tables.sessions := by
  rcases server.kickUserInRoom_cases env roomId nick reason with heq | ⟨target, hm, hn, -, hr⟩
  · rw [heq] at h
    cases h
  · refine ⟨target, hm, hn, ?_⟩
    have sessions := congrArg ServerTables.sessions hr
    rw [dropSession_sessions] at sessions
    change target ∉ (server.kickUserInRoom env roomId nick reason).1.roster.sessions
    rw [sessions]
    simp

/-- In a run without late moves a session that has been removed from `sessions_`
is never again in a room, and its frames change no room and reach nobody else. -/
theorem run_removed (env : Env) (stored : StoredState) (events later : List Event)
    (removal server : ChatServer)
    (hremoval : Run.run (step env) (ChatServer.start env stored) events = some removal)
    (hlater : Run.run (step env) removal later = some server)
    (timely : Run.Always (step env) (fun state event => ¬ LateMove env state event)
      (ChatServer.start env stored) (events ++ later)) :
    (∀ s r, s ∈ server.tables.members r → s ∈ server.tables.sessions) ∧
    (∀ s, removal.tables.Removed s →
      server.tables.Removed s ∧ ∀ r, s ∉ server.tables.members r) ∧
    ∀ s line next, server.tables.Removed s → step env server (.line s line) = some next →
      ¬ LateMove env server (.line s line) →
      next.tables.rooms = server.tables.rooms ∧
      Emits (fun e => ∀ t message, e = .deliver t message → t = s) server next := by
  have hrun : Run.run (step env) (ChatServer.start env stored) (events ++ later) = some server :=
    Run.run_append.mpr ⟨removal, hremoval, hlater⟩
  have attended := run_attended hrun timely
  have consistent := reachable_consistent ⟨_, hrun⟩
  refine ⟨attended, fun s removed => ?_, fun s line next removed hstep hlate => ?_⟩
  · have still : server.tables.Removed s := Run.run_invariant
      (fun _ _ _ removed hstep => step_removed hstep removed) hlater removed
    exact ⟨still, fun r hm => still.2 (attended s r hm)⟩
  · have outside : (server.tables.session s).activeRoomId = 0 := by
      by_contra hne
      exact removed.2 (attended s _ ((consistent.member_iff s _).mpr ⟨rfl, hne⟩))
    have norooms : server.tables.rooms[(0 : RoomId)]? = none := by
      rw [← Option.not_isSome_iff_eq_none, Std.ExtTreeMap.isSome_getElem?_iff_mem]
      exact fun hm => consistent.rooms.pos hm rfl
    simp only [step, Option.ite_none_right_eq_some, Option.some.injEq] at hstep
    obtain ⟨-, rfl⟩ := hstep
    have confined : Confined s server (server.onLine env s line) :=
      onLine_confined outside norooms fun hmove => hlate ⟨s, removed.2, hmove⟩
    exact ⟨confined.rooms, confined.emits⟩

/-- Two members, the first of whom creates a room; all frames to it are written
when it is banned; the notice of the ban is being written and `close` waits for it. -/
def banWhileWriting : List Event :=
  visit 7 (ascii "ann") ++ visit 8 (ascii "bob") ++
    [.line 7 (clientFrame (.createRoom (ascii "games")))] ++
    (List.replicate 16 [.posted 7, .writeDone 7 true]).flatten ++
    [.banUser (ascii "ann") [], .posted 7, .posted 7]

/-- The stream of the banned session is still open, and a LEAVE that arrives on it
puts the session into the lobby and tells the other member. -/
theorem run_removed_late_leave :
    ∃ banned server, serverAfter banWhileWriting = some banned ∧
      banned.tables.Removed 7 ∧ (banned.output.wire 7).streamOpen = true ∧
      (banned.output.wire 7).closeAfterWrite = true ∧
      step .plain banned (.line 7 (clientFrame .leave)) = some server ∧
      server.tables.Removed 7 ∧ 7 ∈ server.tables.members DEFAULT_ROOM_ID ∧
      server.output.trace.count
          (.deliver 8 (.roomText DEFAULT_ROOM_ID (ascii "[system] ann joined #lobby"))) =
        banned.output.trace.count
          (.deliver 8 (.roomText DEFAULT_ROOM_ID (ascii "[system] ann joined #lobby"))) + 1 := by
  obtain ⟨banned, hbanned, -, accepted, gone, isOpen, closing, hleave⟩ :=
    exists_serverAfter banWhileWriting (fun banned =>
      (banned.tables.session 7).readLoop ≠ .absent ∧ 7 ∉ banned.tables.sessions ∧
      (banned.output.wire 7).streamOpen = true ∧
      (banned.output.wire 7).closeAfterWrite = true ∧
      (step .plain banned (.line 7 (clientFrame .leave))).any (fun server =>
        decide ((server.tables.session 7).readLoop ≠ .absent ∧ 7 ∉ server.tables.sessions ∧
          7 ∈ server.tables.members DEFAULT_ROOM_ID ∧
          server.output.trace.count
              (.deliver 8 (.roomText DEFAULT_ROOM_ID (ascii "[system] ann joined #lobby"))) =
            banned.output.trace.count
              (.deliver 8 (.roomText DEFAULT_ROOM_ID (ascii "[system] ann joined #lobby"))) +
                1)) = true) (by decide +kernel)
  obtain ⟨server, hstep, hserver⟩ := (Option.any_eq_true _ _).mp hleave
  obtain ⟨accepted', gone', member, told⟩ := of_decide_eq_true hserver
  exact ⟨banned, server, hbanned, ⟨accepted, gone⟩, isOpen, closing, hstep, ⟨accepted', gone'⟩,
    member, told⟩

def kickOnArrival : List Event :=
  visit 7 (ascii "ann") ++ [.kickUser (ascii "ann") []]

/-- A member is kicked and goes on to chat: nothing happens to the rooms. -/
theorem run_removed_kick :
    ∃ kicked server, serverAfter kickOnArrival = some kicked ∧
      step .plain kicked (.line 7 (clientFrame (.chat (ascii "hi")))) = some server ∧
      (∀ r, 7 ∉ kicked.tables.members r) ∧ server.tables.rooms = kicked.tables.rooms := by
  obtain ⟨kicked, hkicked, -, accepted, gone, timely, hchat⟩ :=
    exists_serverAfter kickOnArrival (fun kicked =>
      (kicked.tables.session 7).readLoop ≠ .absent ∧ 7 ∉ kicked.tables.sessions ∧
      ¬ LateMove .plain kicked (.line 7 (clientFrame (.chat (ascii "hi")))) ∧
      (step .plain kicked (.line 7 (clientFrame (.chat (ascii "hi"))))).isSome = true)
      (by decide +kernel)
  obtain ⟨server, hserver⟩ := Option.isSome_iff_exists.mp hchat
  have h := run_removed .plain emptyStore kickOnArrival [] kicked kicked hkicked rfl
    (by decide +kernel)
  exact ⟨kicked, server, hkicked, hserver, (h.2.1 7 ⟨accepted, gone⟩).2,
    (h.2.2 7 _ server ⟨accepted, gone⟩ hserver timely).1⟩

end Runs

end Chatbox.Chat
