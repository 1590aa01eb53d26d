import Chatbox.Chat.Membership
import Chatbox.Chat.Trace

/-!
Operations that have nothing to do with the admission of a session. Every step
consists of at most one change of a session's credentials, made by the frame the
step handles, and of quiet operations.
-/

namespace Chatbox.Chat

open Text Protocol Storage

/-- The fields that the handshake works with. -/
def ClientSession.credentials (session : ClientSession) : ClientSession :=
  { session with activeRoomId := 0, recentMessagesByRoom := fun _ => [], readLoop := .absent }

/-- Neither the receipt of a frame nor the issue or use of a challenge. -/
def Routine : Effect → Prop
  | .received _ _ => False
  | .deliver _ (.challenge _) => False
  | .admitted _ _ _ _ => False
  | _ => True

/-- Routine effects only, no change of credentials, and who has stopped reading
does not start again. -/
structure Quiet (server server' : ChatServer) : Prop where
  emits : Emits Routine server server'
  credentials : ∀ s, (server'.tables.session s).credentials =
    (server.tables.session s).credentials
  stopped : ∀ s, (server.tables.session s).readLoop = .stopped →
    (server'.tables.session s).readLoop = .stopped

namespace Quiet

variable {a b c : ChatServer}

theorem refl (a : ChatServer) : Quiet a a := ⟨.refl a, fun _ => rfl, fun _ => id⟩

theorem trans (hab : Quiet a b) (hbc : Quiet b c) : Quiet a c :=
  ⟨hab.emits.trans hbc.emits, fun s => (hbc.credentials s).trans (hab.credentials s),
    fun s h => hbc.stopped s (hab.stopped s h)⟩

theorem ite {p : Prop} [Decidable p] (hb : Quiet a b) (hc : Quiet a c) :
    Quiet a (if p then b else c) := by
  split
  · exact hb
  · exact hc

/-- An operation that leaves the tables alone is as quiet as its effects. -/
theorem of_tables (h : b.tables = a.tables) (emits : Emits Routine a b) : Quiet a b := by
  refine ⟨emits, fun s => ?_, fun s hs => ?_⟩
  · rw [h]
  · rwa [h]

end Quiet

namespace ChatServer

variable {env : Env} {server : ChatServer} {s : SessionId}

section Primitives

theorem deliver_quiet {message : ServerMessage} (h : Routine (.deliver s message)) :
    Quiet server (server.deliver s message) := .of_tables rfl (deliver_emits h)

theorem deliverText_quiet {text : Bytes} : Quiet server (server.deliverText s text) :=
  deliver_quiet trivial

theorem note_quiet {effect : Effect} (h : Routine effect) : Quiet server (server.note effect) :=
  .of_tables rfl (note_emits h)

theorem close_quiet : Quiet server (server.close s) := .of_tables rfl (close_emits trivial)

theorem store_quiet {write : Write} : Quiet server (server.store write) :=
  .of_tables rfl (store_emits trivial)

theorem onHost_quiet {change : App.AppState → App.AppState} :
    Quiet server (server.onHost change) := .of_tables rfl (.of_eq rfl)

theorem nextReading_quiet : Quiet server server.nextReading.2 := .of_tables rfl (.of_eq rfl)

theorem deliverAll_quiet {members : List SessionId} {message : ServerMessage}
    (h : ∀ s, Routine (.deliver s message)) : Quiet server (server.deliverAll members message) :=
  .of_tables (deliverAll_tables _ _ _) (deliverAll_emits h)

theorem deliverHistory_quiet {roomId : RoomId} {name : Bytes} {history : List Bytes} :
    Quiet server (server.deliverHistory s roomId name history) := by
  refine .of_tables (deliverHistory_tables _ _ _ _ _)
    ⟨_, deliverHistory_trace roomId name history, fun e he => ?_⟩
  split at he
  · cases he
  · rcases List.mem_cons.mp he with rfl | he
    · trivial
    · obtain ⟨message, -, rfl⟩ := List.mem_map.mp he
      trivial

theorem onTables_quiet {change : ServerTables → ServerTables}
    (h : ∀ s, ((change server.tables).session s).credentials =
        (server.tables.session s).credentials ∧
      ((change server.tables).session s).readLoop = (server.tables.session s).readLoop) :
    Quiet server (server.onTables change) :=
  ⟨.of_eq rfl, fun s => (h s).1, fun s hs => (h s).2.trans hs⟩

theorem updateSession_quiet {change : ClientSession → ClientSession}
    (h : (change (server.tables.session s)).credentials = (server.tables.session s).credentials)
    (stopped : (server.tables.session s).readLoop = .stopped →
      (change (server.tables.session s)).readLoop = .stopped) :
    Quiet server (server.updateSession s change) := by
  refine ⟨.of_eq rfl, fun a => ?_, fun a ha => ?_⟩
  · by_cases e : a = s
    · subst e
      simpa [updateSession, onTables, ServerTables.updateSession] using h
    · simp [updateSession, onTables, ServerTables.updateSession, e]
  · by_cases e : a = s
    · subst e
      simpa [updateSession, onTables, ServerTables.updateSession] using stopped ha
    · simpa [updateSession, onTables, ServerTables.updateSession, e] using ha

theorem noteLeave_quiet {roomId : RoomId} : Quiet server (server.noteLeave s roomId) :=
  .ite (note_quiet trivial) (.refl server)

theorem deliverTextTo_quiet {receiver : Option SessionId} {line : Bytes} :
    Quiet server (server.deliverTextTo receiver line) := by
  cases receiver with
  | none => exact .refl server
  | some s => exact deliverText_quiet

end Primitives

section Operations

theorem storeMessage_quiet {roomId : RoomId} {nickname msg : Bytes} :
    Quiet server (server.storeMessage env roomId nickname msg) := by
  refine Quiet.trans (.of_tables ?_ (.of_eq ?_)) store_quiet
  · rfl
  · rfl

theorem broadcastRoom_quiet {roomId : RoomId} {msg nickname : Bytes} :
    Quiet server (server.broadcastRoom env roomId msg nickname) := by
  unfold broadcastRoom
  split
  · exact .refl server
  · next room h =>
      have recorded : Quiet server (server.recordMessage env roomId room msg) :=
        (onTables_quiet fun _ => ⟨rfl, rfl⟩).trans (note_quiet trivial)
      simp only
      refine Quiet.trans ?_ (.ite storeMessage_quiet (.refl _))
      refine Quiet.trans ?_ (deliverAll_quiet fun _ => trivial)
      exact recorded.trans (.ite onHost_quiet (.refl _))

theorem broadcastUsers_quiet {roomId : RoomId} :
    Quiet server (server.broadcastUsers env roomId) := by
  unfold broadcastUsers
  split
  · exact .refl server
  · simp only
    refine Quiet.trans ?_ (deliverAll_quiet fun _ => trivial)
    exact .ite onHost_quiet (.refl _)

theorem broadcastRoomLists_quiet : Quiet server (server.broadcastRoomLists env) := by
  unfold broadcastRoomLists
  simp only
  refine Quiet.trans ?_ (.ite onHost_quiet (.refl _))
  exact deliverAll_quiet fun _ => trivial

theorem announceLeft_quiet {oldId : RoomId} {nickname name : Bytes} :
    Quiet server (server.announceLeft env oldId nickname name) :=
  broadcastRoom_quiet.trans broadcastUsers_quiet

theorem announceJoined_quiet {roomId : RoomId} {nickname name : Bytes} :
    Quiet server (server.announceJoined env roomId nickname name) :=
  (broadcastRoom_quiet.trans broadcastUsers_quiet).trans broadcastRoomLists_quiet

theorem announceGone_quiet {roomId : RoomId} {nickname : Bytes} {announce : Bool} :
    Quiet server (server.announceGone env roomId nickname announce) := by
  refine Quiet.trans (Quiet.trans ?_ broadcastUsers_quiet) broadcastRoomLists_quiet
  exact .ite broadcastRoom_quiet (.refl _)

theorem broadcastServer_quiet {msg : Bytes} : Quiet server (server.broadcastServer env msg) := by
  unfold broadcastServer
  generalize server.tables.rooms.keys = ids
  induction ids generalizing server with
  | nil => exact .refl server
  | cons id ids ih => exact broadcastRoom_quiet.trans ih

theorem moveSessionToRoom_quiet {targetId : RoomId} {announceMove : Bool} :
    Quiet server (server.moveSessionToRoom env s targetId announceMove) := by
  unfold moveSessionToRoom
  simp only
  split
  · exact .refl server
  · next target h =>
      have placed (server : ChatServer) :
          Quiet server (server.onTables fun tables => tables.placeSession s targetId) := by
        refine onTables_quiet fun a => ?_
        rw [ServerTables.placeSession_session]
        split
        · next e =>
            subst e
            exact ⟨rfl, rfl⟩
        · exact ⟨rfl, rfl⟩
      refine Quiet.trans ?_ announceJoined_quiet
      refine Quiet.trans ?_ deliverHistory_quiet
      refine Quiet.trans ?_ (deliver_quiet trivial)
      refine Quiet.trans ?_ (.ite announceLeft_quiet (.refl _))
      refine Quiet.trans ?_ (note_quiet trivial)
      exact noteLeave_quiet.trans (placed _)

theorem moveLocalToRoom_quiet {targetId : RoomId} {announceMove : Bool} :
    Quiet server (server.moveLocalToRoom env targetId announceMove) := by
  unfold moveLocalToRoom
  split
  · exact .refl server
  · next target h =>
      simp only
      refine Quiet.trans ?_ announceJoined_quiet
      refine Quiet.trans ?_ (.ite onHost_quiet (.refl _))
      refine Quiet.trans ?_ onHost_quiet
      refine Quiet.trans ?_ (.ite announceLeft_quiet (.refl _))
      exact onTables_quiet fun _ => ⟨rfl, rfl⟩

theorem disconnect_quiet {announce : Bool} :
    Quiet server (server.disconnect env s announce) := by
  have cleared : Quiet server ((server.onTables fun tables =>
      { tables with sessions := tables.sessions.erase s }).updateSession s fun session =>
        { session with activeRoomId := 0 }) := by
    refine Quiet.trans (onTables_quiet ?_) (updateSession_quiet ?_ ?_)
    · exact fun _ => ⟨rfl, rfl⟩
    · rfl
    · exact id
  unfold disconnect
  simp only
  split
  · exact cleared
  · refine Quiet.trans ?_ (.ite announceGone_quiet (.refl _))
    refine Quiet.trans ?_ (onTables_quiet ?_)
    · exact cleared.trans noteLeave_quiet
    · exact fun _ => ⟨rfl, rfl⟩

theorem startLocalUser_quiet : Quiet server (server.startLocalUser env) := by
  unfold startLocalUser
  split
  · exact .refl server
  · split
    · exact .refl server
    · simp only
      refine Quiet.trans ?_ broadcastRoomLists_quiet
      refine Quiet.trans ?_ broadcastUsers_quiet
      refine Quiet.trans ?_ onHost_quiet
      exact onTables_quiet fun _ => ⟨rfl, rfl⟩

theorem persistRoom_quiet {roomId : RoomId} : Quiet server (server.persistRoom env roomId) := by
  unfold persistRoom
  split
  · exact .refl server
  · split
    · exact .refl server
    · exact nextReading_quiet.trans store_quiet

theorem addRoom_quiet {name ownerNickname : Bytes} {id : RoomId} {server' : ChatServer}
    (h : server.addRoom name ownerNickname = .ok (id, server')) : Quiet server server' := by
  rcases server.addRoom_cases name ownerNickname with ⟨⟨error, he⟩, -⟩ | ⟨heq, -⟩
  · rw [he] at h
    cases h
  · rw [heq] at h
    obtain ⟨-, rfl⟩ := Prod.mk.inj (Except.ok.inj h)
    exact onTables_quiet fun _ => ⟨rfl, rfl⟩

theorem createRoom_quiet {name : Bytes} : Quiet server (server.createRoom env s name).1 := by
  unfold createRoom
  cases h : server.addRoom name (server.tables.session s).nickname with
  | error error => exact .refl server
  | ok added => exact ((addRoom_quiet h).trans persistRoom_quiet).trans moveSessionToRoom_quiet

theorem createLocalRoom_quiet {name : Bytes} :
    Quiet server (server.createLocalRoom env name).1 := by
  unfold createLocalRoom
  split
  · exact .refl server
  · cases h : server.addRoom name env.config.localNickname with
    | error error => exact .refl server
    | ok added => exact ((addRoom_quiet h).trans persistRoom_quiet).trans moveLocalToRoom_quiet

theorem createAdminRoom_quiet {name : Bytes} :
    Quiet server (server.createAdminRoom env name).1 := by
  unfold createAdminRoom
  cases h : server.addRoom name [] with
  | error error => exact .refl server
  | ok added =>
      refine (addRoom_quiet h).trans (Quiet.trans ?_ broadcastRoomLists_quiet)
      split
      · exact persistRoom_quiet
      · exact .refl _

theorem joinRoom_quiet {name : Bytes} : Quiet server (server.joinRoom env s name).1 := by
  unfold joinRoom
  split
  · exact .refl server
  · split
    · exact .refl server
    · exact moveSessionToRoom_quiet

theorem leaveRoom_quiet : Quiet server (server.leaveRoom env s).1 := by
  unfold leaveRoom
  split
  · exact .refl server
  · exact moveSessionToRoom_quiet

theorem joinLocalRoom_quiet {name : Bytes} : Quiet server (server.joinLocalRoom env name).1 := by
  unfold joinLocalRoom
  split
  · exact .refl server
  · split
    · exact .refl server
    · exact moveLocalToRoom_quiet

theorem leaveLocalRoom_quiet : Quiet server (server.leaveLocalRoom env).1 := by
  unfold leaveLocalRoom
  split
  · exact .refl server
  · exact moveLocalToRoom_quiet

theorem setTopicForRoom_quiet {roomId : RoomId} {actor topic : Bytes} {privileged : Bool} :
    Quiet server (server.setTopicForRoom env roomId actor privileged topic).1 := by
  unfold setTopicForRoom
  split
  · exact .refl server
  · split
    · exact .refl server
    · split
      · exact .refl server
      · simp only
        refine Quiet.trans ?_ broadcastRoom_quiet
        refine Quiet.trans ?_ (.ite onHost_quiet (.refl _))
        refine Quiet.trans ?_ (deliverAll_quiet fun _ => trivial)
        refine Quiet.trans ?_ (.ite store_quiet (.refl _))
        exact onTables_quiet fun _ => ⟨rfl, rfl⟩

theorem setAdminTopic_quiet {roomName topic : Bytes} :
    Quiet server (server.setAdminTopic env roomName topic).1 := by
  unfold setAdminTopic
  split
  · exact .refl server
  · exact setTopicForRoom_quiet

theorem sendPrivateInRoom_quiet {sender target message : Bytes} {roomId : RoomId}
    {mirrorToLocal : Bool} :
    Quiet server (server.sendPrivateInRoom env sender target message roomId mirrorToLocal).1 := by
  unfold sendPrivateInRoom
  split
  · exact .refl server
  · simp only
    split
    · exact deliverTextTo_quiet.trans (.ite onHost_quiet (.refl _))
    · refine Quiet.trans ?_ (.ite deliverTextTo_quiet (.refl _))
      refine Quiet.trans ?_ deliverTextTo_quiet
      exact nextReading_quiet.trans (.ite onHost_quiet (.refl _))

theorem kickUserInRoom_quiet {roomId : RoomId} {nick reason : Bytes} :
    Quiet server (server.kickUserInRoom env roomId nick reason).1 := by
  unfold kickUserInRoom
  split
  · exact .refl server
  · split
    · exact .refl server
    · simp only
      refine Quiet.trans ?_ broadcastUsers_quiet
      refine Quiet.trans ?_ broadcastRoom_quiet
      refine Quiet.trans ?_ disconnect_quiet
      refine Quiet.trans ?_ close_quiet
      exact deliver_quiet trivial

theorem kickUser_quiet {nick reason : Bytes} : Quiet server (server.kickUser env nick reason).1 := by
  unfold kickUser
  simp only
  split
  · exact kickUserInRoom_quiet
  · exact .refl server

theorem kickUserInRoomNamed_quiet {roomName nick reason : Bytes} :
    Quiet server (server.kickUserInRoomNamed env roomName nick reason).1 := by
  unfold kickUserInRoomNamed
  split
  · exact .refl server
  · next id room h =>
      have kicked : Quiet server (server.kickUserInRoom env id nick reason).1 :=
        kickUserInRoom_quiet
      simp only
      split
      · exact kicked
      · exact kicked

theorem kickFrom_quiet {nick reason : Bytes} :
    Quiet server (server.kickFrom env s nick reason).1 := by
  unfold kickFrom
  simp only
  split
  · exact .refl server
  · split
    · exact .refl server
    · split
      · exact .refl server
      · have kicked : Quiet server (server.kickUserInRoom env
            (server.tables.session s).activeRoomId nick reason).1 := kickUserInRoom_quiet
        split
        · exact kicked
        · exact kicked

theorem saveBans_quiet : Quiet server (server.saveBans env) :=
  .ite (.refl server) (note_quiet trivial)

theorem banUser_quiet {nick reason : Bytes} : Quiet server (server.banUser env nick reason) := by
  have banned : Quiet server (server.onTables fun tables =>
      { tables with bannedNicks := tables.bannedNicks.insert nick }) :=
    onTables_quiet fun _ => ⟨rfl, rfl⟩
  unfold banUser
  simp only
  split
  · exact banned.trans (.ite (nextReading_quiet.trans store_quiet) saveBans_quiet)
  · refine Quiet.trans ?_ broadcastUsers_quiet
    refine Quiet.trans ?_ broadcastRoom_quiet
    refine Quiet.trans ?_ disconnect_quiet
    refine Quiet.trans ?_ close_quiet
    refine Quiet.trans ?_ (deliver_quiet trivial)
    exact banned.trans (.ite (nextReading_quiet.trans store_quiet) saveBans_quiet)

theorem unbanUser_quiet {nick : Bytes} : Quiet server (server.unbanUser env nick).1 := by
  unfold unbanUser
  refine Quiet.trans ?_ (.ite (.ite store_quiet saveBans_quiet) (.refl _))
  exact onTables_quiet fun _ => ⟨rfl, rfl⟩

theorem saveIdentities_quiet : Quiet server (server.saveIdentities env) :=
  .ite (.refl server) (note_quiet trivial)

theorem bindIdentity_quiet {nick publicKeyHex : Bytes} :
    Quiet server (server.bindIdentity env nick publicKeyHex).1 := by
  unfold bindIdentity
  split
  · exact .refl server
  · refine Quiet.trans ?_ (.ite store_quiet saveIdentities_quiet)
    exact onTables_quiet fun _ => ⟨rfl, rfl⟩

theorem registerLocalIdentity_quiet {nick publicKeyHex : Bytes} :
    Quiet server (server.registerLocalIdentity env nick publicKeyHex).1 := by
  unfold registerLocalIdentity
  split
  · exact .refl server
  · exact bindIdentity_quiet

end Operations

section Handlers

theorem stopReading_quiet : Quiet server (server.stopReading s) :=
  updateSession_quiet rfl fun _ => rfl

theorem reject_quiet {message : ServerMessage} (h : Routine (.deliver s message)) :
    Quiet server (server.reject env s message) :=
  (((deliver_quiet h).trans close_quiet).trans disconnect_quiet).trans stopReading_quiet

theorem reject_stopped {message : ServerMessage} :
    ((server.reject env s message).tables.session s).readLoop = .stopped := by
  simp [reject, stopReading, updateSession, onTables, ServerTables.updateSession]

theorem reportError_quiet {result : ChatServer × Option Bytes} (h : Quiet server result.1) :
    Quiet server (reportError s result) := by
  unfold reportError
  split
  · exact h.trans (deliver_quiet trivial)
  · exact h

theorem consumeMessageQuota_quiet : Quiet server (server.consumeMessageQuota env s).2 := by
  refine nextReading_quiet.trans (updateSession_quiet ?_ ?_)
  · rfl
  · exact id

theorem onLeave_quiet : Quiet server (server.onLeave env s) :=
  .ite deliverText_quiet (reportError_quiet leaveRoom_quiet)

theorem onDisconnect_quiet : Quiet server (server.onDisconnect env s) :=
  (disconnect_quiet.trans close_quiet).trans stopReading_quiet

theorem onListRooms_quiet : Quiet server (server.onListRooms env s) :=
  .ite (deliver_quiet trivial) (deliver_quiet trivial)

theorem onCreateRoom_quiet {name : Bytes} : Quiet server (server.onCreateRoom env s name) :=
  .ite (deliver_quiet trivial) (reportError_quiet createRoom_quiet)

theorem onJoinRoom_quiet {name : Bytes} : Quiet server (server.onJoinRoom env s name) :=
  .ite (deliver_quiet trivial) (reportError_quiet joinRoom_quiet)

theorem onTopicRequest_quiet {topic : Option Bytes} :
    Quiet server (server.onTopicRequest env s topic) := by
  refine .ite (deliver_quiet trivial) ?_
  cases topic with
  | none =>
      unfold sendTopic
      simp only
      split
      · exact .refl server
      · exact deliver_quiet trivial
  | some topic => exact reportError_quiet setTopicForRoom_quiet

theorem onChat_quiet {body : Bytes} : Quiet server (server.onChat env s body) := by
  have quota : Quiet server (server.consumeMessageQuota env s).2 := consumeMessageQuota_quiet
  refine .ite deliverText_quiet (quota.trans ?_)
  refine .ite deliverText_quiet (.ite deliverText_quiet ?_)
  exact nextReading_quiet.trans broadcastRoom_quiet

theorem onWhisper_quiet {target body : Bytes} :
    Quiet server (server.onWhisper env s target body) := by
  have quota : Quiet server (server.consumeMessageQuota env s).2 := consumeMessageQuota_quiet
  refine .ite deliverText_quiet (quota.trans ?_)
  exact .ite deliverText_quiet (.ite deliverText_quiet sendPrivateInRoom_quiet)

theorem onKickRequest_quiet {nickname reason : Bytes} :
    Quiet server (server.onKickRequest env s nickname reason) :=
  .ite (deliver_quiet trivial) (reportError_quiet kickFrom_quiet)

end Handlers

end ChatServer

open ChatServer

/-- What a step does to the credentials of the sessions: nothing, or what HELLO,
AUTH, IDENTIFY or PROOF of one session does. -/
inductive Progress (env : Env) (server server' : ChatServer) : Prop where
  | quiet (quiet : Quiet server server')
  | answer (s : SessionId) (message : ClientMessage)
      (idle : ∀ nick key, message = .identify nick key → passesGates env server s = false ∨
        (server.tables.session s).nickname ≠ [] ∨
        (server'.tables.session s).readLoop = .stopped)
      (quiet : Quiet (server.note (.received s message)) server')
  | greet (s : SessionId) (version : UInt32)
      (first : (server.tables.session s).protocolNegotiated = false)
      (quiet : Quiet ((server.note (.received s (.hello version))).updateSession s
        fun session => { session with protocolNegotiated := version == VERSION }) server')
  | authenticate (s : SessionId) (password : Bytes)
      (correct : env.checkPassword password = true)
      (quiet : Quiet (((server.note (.received s (.authenticate password))).updateSession s
        fun session => { session with authenticated := true }).deliver s .authAccepted) server')
  | challenge (s : SessionId) (nick key challenge : Bytes)
      (gates : passesGates env server s = true)
      (unnamed : (server.tables.session s).nickname = [])
      (quiet : Quiet (((server.note (.received s (.identify nick key))).updateSession s
        fun session =>
          { session with
            pendingNickname := nick
            pendingPublicKeyHex := key
            pendingChallenge := challenge }).deliver s (.challenge challenge)) server')
  | admission (s : SessionId) (signatureHex : Bytes) (bound : ChatServer)
      (reading : (server.tables.session s).readLoop = .reading)
      (gates : passesGates env server s = true)
      (checks : admitsSession env server s signatureHex = true)
      (binding : Quiet (server.note (.received s (.identityProof signatureHex))) bound)
      (quiet : Quiet ((bound.takeNickname s (server.tables.session s).pendingNickname).note
          (.admitted s (server.tables.session s).pendingNickname
            (server.tables.session s).pendingPublicKeyHex
            (server.tables.session s).pendingChallenge)) server')
      (key : server'.tables.identities[(server.tables.session s).pendingNickname]? =
        some (server.tables.session s).pendingPublicKeyHex)

section Progress

variable {env : Env} {server : ChatServer} {s : SessionId}

theorem onHello_progress {version : UInt32} : Progress env server
    ((server.note (.received s (.hello version))).onHello env s version) := by
  unfold onHello
  split
  · exact .answer s (.hello version) nofun (deliver_quiet trivial)
  · next h =>
      refine .greet s version ?_ (deliver_quiet ?_)
      · simpa using h
      · split <;> trivial

theorem onAuthenticate_progress {password : Bytes} : Progress env server
    ((server.note (.received s (.authenticate password))).onAuthenticate env s password) := by
  unfold onAuthenticate
  split
  · next h => exact .authenticate s password h (.refl _)
  · exact .answer s (.authenticate password) nofun (reject_quiet trivial)

theorem onIdentify_progress {nick publicKeyHex : Bytes} (gates : passesGates env server s = true) :
    Progress env server
      ((server.note (.received s (.identify nick publicKeyHex))).onIdentify env s nick
        publicKeyHex) := by
  unfold onIdentify
  split
  · next h =>
      refine .answer s _ (fun _ _ _ => .inr (.inl ?_)) (deliver_quiet trivial)
      simpa using h
  · next unnamed =>
      split
      · exact .answer s _ (fun _ _ _ => .inr (.inr reject_stopped)) (reject_quiet trivial)
      · split
        · exact .answer s _ (fun _ _ _ => .inr (.inr reject_stopped)) (reject_quiet trivial)
        · split
          · exact .answer s _ (fun _ _ _ => .inr (.inr reject_stopped)) (reject_quiet trivial)
          · refine .challenge s nick publicKeyHex
              (env.randomHex server.output.readings IDENTITY_CHALLENGE_BYTES) gates ?_ ⟨?_, ?_, ?_⟩
            · simpa using unnamed
            · refine .of_eq ?_
              simp only [deliver_trace, updateSession_trace, nextReading_trace]
              rfl
            · exact fun _ => rfl
            · exact fun _ => id

/-- Once the nickname is taken, admission is a matter of notices and of the move. -/
theorem acceptProof_quiet {nick publicKeyHex challenge : Bytes} :
    Quiet ((server.takeNickname s nick).note (.admitted s nick publicKeyHex challenge))
      (server.acceptProof env s nick publicKeyHex challenge) := by
  unfold acceptProof
  simp only
  refine Quiet.trans ?_ moveSessionToRoom_quiet
  refine Quiet.trans ?_ (deliver_quiet trivial)
  exact deliver_quiet trivial

theorem moveSessionToRoom_identities {targetId : RoomId} {announceMove : Bool} :
    (server.moveSessionToRoom env s targetId announceMove).tables.identities =
      server.tables.identities := by
  have h := congrArg ServerTables.identities
    (server.moveSessionToRoom_roster env s targetId announceMove)
  split at h
  · exact h
  · exact h

theorem onProof_progress {signatureHex : Bytes}
    (reading : (server.tables.session s).readLoop = .reading) (gates : passesGates env server s = true) :
    Progress env server
      ((server.note (.received s (.identityProof signatureHex))).onProof env s signatureHex) := by
  have answer {server' : ChatServer}
      (quiet : Quiet (server.note (.received s (.identityProof signatureHex))) server') :
      Progress env server server' := .answer s (.identityProof signatureHex) nofun quiet
  obtain ⟨-, -, h⟩ | ⟨-, message, refusal, h⟩ | ⟨admits, -, -, -, h⟩ :=
    (server.note (.received s (.identityProof signatureHex))).onProof_cases env s signatureHex
  · rw [h]
    exact answer (deliver_quiet trivial)
  · rw [h]
    exact answer (reject_quiet (by cases message <;> trivial))
  · rw [h]
    refine .admission s signatureHex _ reading gates admits bindIdentity_quiet acceptProof_quiet ?_
    rw [acceptProof, moveSessionToRoom_identities]
    rcases (server.note (.received s (.identityProof signatureHex))).bindIdentity_cases env
      (server.tables.session s).pendingNickname (server.tables.session s).pendingPublicKeyHex with
        ⟨-, key, other, hne⟩ | ⟨-, bound, same⟩ | ⟨-, -, tables⟩
    · simp_all [admitsSession]
    · rw [note_tables, same]
      exact bound
    · simp [takeNickname, updateSession, onTables, ServerTables.updateSession, tables]

theorem onAdmittedMessage_progress {message : ClientMessage}
    (reading : (server.tables.session s).readLoop = .reading)
    (gates : passesGates env server s = true)
    (other : (∀ version, message ≠ .hello version) ∧
      ∀ password, message ≠ .authenticate password) :
    Progress env server
      ((server.note (.received s message)).onAdmittedMessage env s message) := by
  cases message with
  | hello version => exact absurd rfl (other.1 version)
  | authenticate password => exact absurd rfl (other.2 password)
  | identify nick publicKeyHex => exact onIdentify_progress gates
  | identityProof signatureHex => exact onProof_progress reading gates
  | leave => exact .answer s .leave nofun onLeave_quiet
  | disconnect => exact .answer s .disconnect nofun onDisconnect_quiet
  | listRooms => exact .answer s .listRooms nofun onListRooms_quiet
  | createRoom name => exact .answer s (.createRoom name) nofun onCreateRoom_quiet
  | joinRoom name => exact .answer s (.joinRoom name) nofun onJoinRoom_quiet
  | topicRequest topic => exact .answer s (.topicRequest topic) nofun onTopicRequest_quiet
  | chat body => exact .answer s (.chat body) nofun onChat_quiet
  | whisper target body => exact .answer s (.whisper target body) nofun onWhisper_quiet
  | kickRequest nickname reason =>
      exact .answer s (.kickRequest nickname reason) nofun onKickRequest_quiet

theorem onMessage_progress (reading : (server.tables.session s).readLoop = .reading)
    (message : ClientMessage) : Progress env server (server.onMessage env s message) := by
  rcases server.onMessage_cases env s message with ⟨version, rfl, h⟩ | ⟨-, closed, h⟩ |
    ⟨-, password, rfl, h⟩ | ⟨-, -, -, closed, h⟩ | ⟨hello, auth, gates, h⟩
  · rw [h]
    exact onHello_progress
  · rw [h]
    exact .answer s message (fun _ _ _ => .inr (.inr reject_stopped)) (reject_quiet trivial)
  · rw [h]
    exact onAuthenticate_progress
  · rw [h]
    exact .answer s message (fun _ _ _ => .inl closed) (deliver_quiet trivial)
  · rw [h]
    exact onAdmittedMessage_progress reading gates ⟨hello, auth⟩

theorem onLine_progress (reading : (server.tables.session s).readLoop = .reading)
    (line : Bytes) : Progress env server (server.onLine env s line) := by
  unfold onLine
  split
  · exact onMessage_progress reading _
  · split
    · exact .quiet (reject_quiet trivial)
    · exact .quiet (deliver_quiet trivial)

end Progress

/-- Only a line from a session can be more than routine. -/
theorem step_quiet {env : Env} {server server' : ChatServer} {event : Event}
    (other : ∀ s line, event ≠ .line s line) (h : step env server event = some server') :
    Quiet server server' := by
  cases event with
  | accept s =>
      simp only [step, Option.ite_none_right_eq_some, Option.some.injEq] at h
      obtain ⟨absent, rfl⟩ := h
      refine Quiet.trans (onTables_quiet ?_) (updateSession_quiet ?_ ?_)
      · exact fun _ => ⟨rfl, rfl⟩
      · rfl
      · intro stopped
        exact absurd (absent.symm.trans stopped) (by simp)
  | handshake s ok =>
      simp only [step, Option.ite_none_right_eq_some, Option.some.injEq] at h
      obtain ⟨waiting, rfl⟩ := h
      cases ok with
      | false =>
          have closed (server : ChatServer) : Quiet server (server.onOutput fun output =>
              output.updateWire s fun wire => { wire with streamOpen := false }) :=
            .of_tables rfl (.of_eq rfl)
          exact (disconnect_quiet.trans (closed _)).trans stopReading_quiet
      | true =>
          have greeted : Quiet server (server.deliver s (.hello VERSION)) := deliver_quiet trivial
          refine greeted.trans (updateSession_quiet ?_ ?_)
          · rfl
          · intro stopped
            exact absurd (waiting.symm.trans stopped) (by simp)
  | line s line => exact absurd rfl (other s line)
  | readError s =>
      simp only [step, Option.ite_none_right_eq_some, Option.some.injEq] at h
      obtain ⟨-, rfl⟩ := h
      exact disconnect_quiet.trans stopReading_quiet
  | posted s =>
      simp only [step] at h
      split at h
      · cases h
      · cases h
        exact .of_tables rfl (.of_eq rfl)
  | writeDone s ok =>
      simp only [step, Option.ite_none_right_eq_some, Option.some.injEq] at h
      obtain ⟨-, rfl⟩ := h
      exact .of_tables rfl (.of_eq rfl)
  | registerLocalIdentity nick publicKeyHex =>
      cases h
      exact registerLocalIdentity_quiet
  | startLocalUser =>
      simp only [step, Option.ite_none_right_eq_some, Option.some.injEq] at h
      obtain ⟨-, rfl⟩ := h
      exact startLocalUser_quiet
  | broadcast msg =>
      cases h
      exact broadcastRoom_quiet
  | broadcastServer msg =>
      cases h
      exact broadcastServer_quiet
  | sendPrivate sender target message mirrorToLocal =>
      cases h
      exact sendPrivateInRoom_quiet
  | createLocalRoom name =>
      cases h
      exact createLocalRoom_quiet
  | joinLocalRoom name =>
      cases h
      exact joinLocalRoom_quiet
  | leaveLocalRoom =>
      cases h
      exact leaveLocalRoom_quiet
  | setLocalTopic topic =>
      cases h
      exact setTopicForRoom_quiet
  | showRoomListLocal =>
      cases h
      exact .of_tables rfl (.of_eq rfl)
  | kickUser nick reason =>
      cases h
      exact kickUser_quiet
  | banUser nick reason =>
      cases h
      exact banUser_quiet
  | unbanUser nick =>
      cases h
      exact unbanUser_quiet
  | createAdminRoom name =>
      cases h
      exact createAdminRoom_quiet
  | setAdminTopic roomName topic =>
      cases h
      exact setAdminTopic_quiet
  | kickUserInRoom roomName nick reason =>
      cases h
      exact kickUserInRoomNamed_quiet

theorem step_progress {env : Env} {server server' : ChatServer} {event : Event}
    (h : step env server event = some server') : Progress env server server' := by
  by_cases line : ∃ s line, event = .line s line
  · obtain ⟨s, line, rfl⟩ := line
    simp only [step, Option.ite_none_right_eq_some, Option.some.injEq] at h
    obtain ⟨reading, rfl⟩ := h
    exact onLine_progress reading line
  · refine .quiet (step_quiet (fun s text same => ?_) h)
    exact line ⟨s, text, same⟩

end Chatbox.Chat
