import Chatbox.Chat.StepChange
import Chatbox.Chat.Trace

/-!
The operations of the server as sequences of deeds: a change of the tables or of the host's
screen, a reading of a clock, a note in the trace, a message or a close that is posted to a
session. What each deed keeps, every operation keeps; and of the lines in a room all but the chat
lines are marked as the server's own.
-/

namespace Chatbox.Chat

open Text Protocol Storage

/-- A line that the server writes into a room in its own name. -/
def Marked (body : Bytes) : Prop := ascii "[system] " <+: body ∨ ascii "[SERVER] " <+: body

/-- The answers by which a login goes on. -/
def LoginAnswer : ServerMessage → Prop
  | .authAccepted | .challenge _ | .joinAccepted => True
  | _ => False

/-- Everything but the receipt of a frame, a chat line and an answer by which a login goes on. -/
def Usual : Effect → Prop
  | .received _ _ => False
  | .deliver _ .authAccepted | .deliver _ (.challenge _) | .deliver _ .joinAccepted => False
  | .recorded _ body => Marked body
  | _ => True

/-- When the frame of a session gets such an answer. -/
inductive Grants (env : Env) (server : ChatServer) (s : SessionId) :
    ClientMessage → ServerMessage → Prop where
  | greeting (version : UInt32) (first : (server.tables.session s).protocolNegotiated = false)
      (free : env.hasPassword = false) : Grants env server s (.hello version) .authAccepted
  | password (password : Bytes) (greeted : (server.tables.session s).protocolNegotiated = true)
      (correct : env.checkPassword password = true) :
      Grants env server s (.authenticate password) .authAccepted
  | challenge (nick publicKeyHex challenge : Bytes) (passes : passesGates env server s = true) :
      Grants env server s (.identify nick publicKeyHex) (.challenge challenge)
  | admission (signatureHex : Bytes) (passes : passesGates env server s = true)
      (admits : admitsSession env server s signatureHex = true) :
      Grants env server s (.identityProof signatureHex) .joinAccepted

/-- An effect that is more than a note is told to a session. -/
def Effect.Told : Effect → Prop
  | .deliver _ _ => True
  | .close _ => True
  | _ => False

/-- The messages that a session has a quota of. -/
def asksQuota : ClientMessage → Bool
  | .chat _ => true
  | .whisper _ _ => true
  | _ => false

/-- What few operations change: the ban list, the bindings, and of a session its login and its
message quota. -/
inductive Holding where
  | banList
  | bindings
  | login (s : SessionId)
  | quota (s : SessionId)

/-- A session without its room and its quota. -/
def ClientSession.login (session : ClientSession) : ClientSession :=
  { session with activeRoomId := 0, recentMessagesByRoom := fun _ => [] }

/-- The tables change only where they may. -/
structure Touches (may : Holding → Prop) (a b : ServerTables) : Prop where
  banList : may .banList ∨ b.bannedNicks = a.bannedNicks
  bindings : may .bindings ∨ b.identities = a.identities
  login : ∀ s, may (.login s) ∨ (b.session s).login = (a.session s).login
  quota : ∀ s, may (.quota s) ∨
    (b.session s).recentMessagesByRoom = (a.session s).recentMessagesByRoom

/-- One deed, whose effects satisfy `P` and which touches only what it may. -/
inductive Deed (may : Holding → Prop) (P : Effect → Prop) (server : ChatServer) :
    ChatServer → Prop where
  | tables (change : ServerTables → ServerTables)
      (touches : Touches may server.tables (change server.tables)) :
      Deed may P server (server.onTables change)
  | host (change : App.AppState → App.AppState) : Deed may P server (server.onHost change)
  | clock (readings : Nat) (lastTimestamp : Int) (later : server.output.readings ≤ readings) :
      Deed may P server (server.onOutput fun output => { output with readings, lastTimestamp })
  | note (effect : Effect) (untold : ¬ effect.Told) (h : P effect) :
      Deed may P server (server.note effect)
  | deliver (s : SessionId) (message : ServerMessage) (h : P (.deliver s message)) :
      Deed may P server (server.deliver s message)
  | close (s : SessionId) (h : P (.close s)) : Deed may P server (server.close s)
  | shut (s : SessionId) : Deed may P server (server.onOutput fun output =>
      output.updateWire s fun wire => { wire with streamOpen := false })

/-- Any number of deeds, one after the other. -/
def Deeds (may : Holding → Prop) (P : Effect → Prop) : ChatServer → ChatServer → Prop :=
  Relation.ReflTransGen (Deed may P)

theorem marked_system : Marked (ascii "[system] ") := .inl List.prefix_rfl

theorem marked_server : Marked (ascii "[SERVER] ") := .inr List.prefix_rfl

theorem Marked.append {body : Bytes} (h : Marked body) (rest : Bytes) : Marked (body ++ rest) :=
  h.imp (fun marked => marked.trans (List.prefix_append body rest))
    fun marked => marked.trans (List.prefix_append body rest)

namespace Touches

variable {may : Holding → Prop} {a b c : ServerTables}

theorem of_eq (bannedNicks : b.bannedNicks = a.bannedNicks)
    (identities : b.identities = a.identities) (session : b.session = a.session) :
    Touches may a b :=
  ⟨.inr bannedNicks, .inr identities, fun s => .inr (by rw [session]),
    fun s => .inr (by rw [session])⟩

theorem trans (h : Touches may a b) (h' : Touches may b c) : Touches may a c where
  banList := h'.banList.elim .inl fun later => h.banList.imp id later.trans
  bindings := h'.bindings.elim .inl fun later => h.bindings.imp id later.trans
  login s := (h'.login s).elim .inl fun later => (h.login s).imp id later.trans
  quota s := (h'.quota s).elim .inl fun later => (h.quota s).imp id later.trans

theorem updateSession {s : SessionId} {change : ClientSession → ClientSession}
    (login : may (.login s) ∨ ∀ session, (change session).login = session.login)
    (quota : may (.quota s) ∨
      ∀ session, (change session).recentMessagesByRoom = session.recentMessagesByRoom) :
    Touches may a (a.updateSession s change) := by
  refine ⟨.inr rfl, .inr rfl, fun t => ?_, fun t => ?_⟩
  · by_cases here : t = s
    · subst here
      exact login.imp id fun same => by simp [ServerTables.updateSession, same]
    · exact .inr (by simp [ServerTables.updateSession, here])
  · by_cases here : t = s
    · subst here
      exact quota.imp id fun same => by simp [ServerTables.updateSession, same]
    · exact .inr (by simp [ServerTables.updateSession, here])

/-- The place of a session is no holding. -/
theorem placeSession {s : SessionId} {roomId : RoomId} :
    Touches may a (a.placeSession s roomId) := by
  have moved : Touches may a
      ((a.eraseMember s (a.session s).activeRoomId).insertMember s roomId) := of_eq rfl rfl rfl
  unfold ServerTables.placeSession
  exact moved.trans (updateSession (.inr (by intro; rfl)) (.inr (by intro; rfl)))

theorem free : Touches (fun _ => True) a b :=
  ⟨.inl trivial, .inl trivial, fun _ => .inl trivial, fun _ => .inl trivial⟩

end Touches

namespace Deeds

variable {may : Holding → Prop} {P Q : Effect → Prop} {a b c : ChatServer}

theorem refl : Deeds may P a a := Relation.ReflTransGen.refl

theorem one (h : Deed may P a b) : Deeds may P a b := Relation.ReflTransGen.single h

theorem trans (h : Deeds may P a b) (h' : Deeds may P b c) : Deeds may P a c :=
  Relation.ReflTransGen.trans h h'

theorem ite {p : Prop} [Decidable p] (hb : Deeds may P a b) (hc : Deeds may P a c) :
    Deeds may P a (if p then b else c) := by
  split
  · exact hb
  · exact hc

theorem mono (h : Deeds may P a b) (weaker : ∀ e, P e → Q e) : Deeds may Q a b := by
  induction h with
  | refl => exact .refl
  | tail _ deed ih =>
      refine ih.trans (.one ?_)
      cases deed with
      | tables change touches => exact .tables change touches
      | host change => exact .host change
      | clock readings lastTimestamp later => exact .clock readings lastTimestamp later
      | note effect untold h => exact .note effect untold (weaker _ h)
      | deliver s message h => exact .deliver s message (weaker _ h)
      | close s h => exact .close s (weaker _ h)
      | shut s => exact .shut s

theorem emits (h : Deeds may P a b) : Emits P a b := by
  induction h with
  | refl => exact .refl a
  | tail _ deed ih =>
      refine ih.trans ?_
      cases deed with
      | tables change touches => exact .of_eq rfl
      | host change => exact .of_eq rfl
      | clock readings lastTimestamp later => exact .of_eq rfl
      | note effect untold h => exact ChatServer.note_emits h
      | deliver s message h => exact ChatServer.deliver_emits h
      | close s h => exact ChatServer.close_emits h
      | shut s => exact .of_eq rfl

end Deeds

namespace ChatServer

variable {may : Holding → Prop} {P : Effect → Prop}
variable {env : Env} {server : ChatServer} {s : SessionId}

section Primitives

theorem deliver_deeds {message : ServerMessage} (h : P (.deliver s message)) :
    Deeds may P server (server.deliver s message) := .one (.deliver s message h)

theorem close_deeds (h : P (.close s)) : Deeds may P server (server.close s) := .one (.close s h)

theorem onTables_deeds {change : ServerTables → ServerTables}
    (touches : Touches may server.tables (change server.tables)) :
    Deeds may P server (server.onTables change) := .one (.tables change touches)

theorem updateSession_deeds {change : ClientSession → ClientSession}
    (login : may (.login s) ∨ ∀ session, (change session).login = session.login)
    (quota : may (.quota s) ∨
      ∀ session, (change session).recentMessagesByRoom = session.recentMessagesByRoom) :
    Deeds may P server (server.updateSession s change) :=
  .one (.tables _ (.updateSession login quota))

theorem onHost_deeds {change : App.AppState → App.AppState} :
    Deeds may P server (server.onHost change) := .one (.host change)

theorem nextReading_deeds : Deeds may P server server.nextReading.2 :=
  .one (.clock (server.output.readings + 1) server.output.lastTimestamp (Nat.le_succ _))

theorem note_deeds {effect : Effect} (untold : ¬ effect.Told) (h : P effect) :
    Deeds may P server (server.note effect) := .one (.note effect untold h)

theorem store_deeds {write : Write} (h : P (.store write)) :
    Deeds may P server (server.store write) :=
  note_deeds id h

theorem deliverAll_deeds {members : List SessionId} {message : ServerMessage}
    (h : ∀ s, P (.deliver s message)) : Deeds may P server (server.deliverAll members message) := by
  induction members generalizing server with
  | nil => exact .refl
  | cons s members ih => exact (deliver_deeds (h s)).trans ih

theorem deliverTextTo_deeds {receiver : Option SessionId} {line : Bytes} :
    Deeds may Usual server (server.deliverTextTo receiver line) := by
  cases receiver with
  | none => exact .refl
  | some s => exact deliver_deeds trivial

theorem noteLeave_deeds {roomId : RoomId} : Deeds may Usual server (server.noteLeave s roomId) :=
  .ite (note_deeds id trivial) .refl

theorem deliverHistory_deeds {roomId : RoomId} {name : Bytes} {history : List Bytes} :
    Deeds may Usual server (server.deliverHistory s roomId name history) := by
  have each (server : ChatServer) : Deeds may Usual server (history.foldl (fun server message =>
      server.deliver s (.roomText roomId message)) server) := by
    induction history generalizing server with
    | nil => exact .refl
    | cons message history ih => exact (deliver_deeds trivial).trans (ih _)
  exact .ite .refl ((deliver_deeds trivial).trans (each _))

end Primitives

section Broadcasts

theorem storeMessage_deeds (common : ∀ e, Usual e → P e) {roomId : RoomId} {nickname msg : Bytes} :
    Deeds may P server (server.storeMessage env roomId nickname msg) := by
  have read : Deeds may P server (server.nextReading.2.nextMessageTimestamp env).2 :=
    .one (.clock (server.output.readings + 2) (server.nextReading.2.nextMessageTimestamp env).1
      (Nat.le_add_right _ _))
  exact read.trans (store_deeds (common _ trivial))

theorem broadcastRoom_deeds (common : ∀ e, Usual e → P e) {roomId : RoomId} {msg nickname : Bytes}
    (h : P (.recorded roomId msg)) :
    Deeds may P server (server.broadcastRoom env roomId msg nickname) := by
  unfold broadcastRoom
  split
  · exact .refl
  · next room present =>
      have recorded : Deeds may P server (server.recordMessage env roomId room msg) :=
        (onTables_deeds (.of_eq rfl rfl rfl)).trans (note_deeds id h)
      refine Deeds.trans ?_ (.ite (storeMessage_deeds common) .refl)
      refine Deeds.trans ?_ (deliverAll_deeds fun _ => common _ trivial)
      exact recorded.trans (.ite onHost_deeds .refl)

/-- A notice to a room. -/
theorem notice_deeds {roomId : RoomId} {msg : Bytes} (h : Marked msg) :
    Deeds may Usual server (server.broadcastRoom env roomId msg []) :=
  broadcastRoom_deeds (fun _ => id) h

theorem broadcastUsers_deeds {roomId : RoomId} :
    Deeds may Usual server (server.broadcastUsers env roomId) := by
  unfold broadcastUsers
  split
  · exact .refl
  · simp only
    refine Deeds.trans ?_ (deliverAll_deeds fun _ => trivial)
    exact .ite onHost_deeds .refl

theorem broadcastRoomLists_deeds : Deeds may Usual server (server.broadcastRoomLists env) := by
  unfold broadcastRoomLists
  simp only
  refine Deeds.trans ?_ (.ite onHost_deeds .refl)
  exact deliverAll_deeds fun _ => trivial

theorem announceLeft_deeds {oldId : RoomId} {nickname name : Bytes} :
    Deeds may Usual server (server.announceLeft env oldId nickname name) :=
  (notice_deeds (((marked_system.append _).append _).append _)).trans broadcastUsers_deeds

theorem announceJoined_deeds {roomId : RoomId} {nickname name : Bytes} :
    Deeds may Usual server (server.announceJoined env roomId nickname name) :=
  ((notice_deeds (((marked_system.append _).append _).append _)).trans
    broadcastUsers_deeds).trans broadcastRoomLists_deeds

theorem announceGone_deeds {roomId : RoomId} {nickname : Bytes} {announce : Bool} :
    Deeds may Usual server (server.announceGone env roomId nickname announce) := by
  refine Deeds.trans (Deeds.trans ?_ broadcastUsers_deeds)
    broadcastRoomLists_deeds
  exact .ite (notice_deeds ((marked_system.append _).append _)) .refl

theorem broadcastServer_deeds {msg : Bytes} :
    Deeds may Usual server (server.broadcastServer env msg) := by
  unfold broadcastServer
  generalize server.tables.rooms.keys = ids
  induction ids generalizing server with
  | nil => exact .refl
  | cons id ids ih => exact (notice_deeds (marked_server.append msg)).trans ih

end Broadcasts

section Moves

theorem moveSessionToRoom_deeds {targetId : RoomId} {announceMove : Bool} :
    Deeds may Usual server (server.moveSessionToRoom env s targetId announceMove) := by
  unfold moveSessionToRoom
  simp only
  split
  · exact .refl
  · refine Deeds.trans ?_ announceJoined_deeds
    refine Deeds.trans ?_ deliverHistory_deeds
    refine Deeds.trans ?_ (deliver_deeds trivial)
    refine Deeds.trans ?_ (.ite announceLeft_deeds .refl)
    refine Deeds.trans ?_ (note_deeds id trivial)
    exact noteLeave_deeds.trans (onTables_deeds .placeSession)

theorem moveLocalToRoom_deeds {targetId : RoomId} {announceMove : Bool} :
    Deeds may Usual server (server.moveLocalToRoom env targetId announceMove) := by
  unfold moveLocalToRoom
  split
  · exact .refl
  · simp only
    refine Deeds.trans ?_ announceJoined_deeds
    refine Deeds.trans ?_ (.ite onHost_deeds .refl)
    refine Deeds.trans ?_ onHost_deeds
    exact (onTables_deeds (.of_eq rfl rfl rfl)).trans (.ite announceLeft_deeds .refl)

theorem disconnect_deeds {announce : Bool} :
    Deeds may Usual server (server.disconnect env s announce) := by
  have cleared : Deeds may Usual server ((server.onTables fun tables =>
      { tables with sessions := tables.sessions.erase s }).updateSession s fun session =>
        { session with activeRoomId := 0 }) :=
        (onTables_deeds (.of_eq rfl rfl rfl)).trans
          (updateSession_deeds (.inr (by intro; rfl)) (.inr (by intro; rfl)))
  unfold disconnect
  simp only
  split
  · exact cleared
  · refine Deeds.trans ?_ (.ite announceGone_deeds .refl)
    exact (cleared.trans noteLeave_deeds).trans (onTables_deeds (.of_eq rfl rfl rfl))

theorem startLocalUser_deeds : Deeds may Usual server (server.startLocalUser env) := by
  unfold startLocalUser
  split
  · exact .refl
  · split
    · exact .refl
    · simp only
      refine Deeds.trans ?_ broadcastRoomLists_deeds
      refine Deeds.trans ?_ broadcastUsers_deeds
      exact (onTables_deeds (.of_eq rfl rfl rfl)).trans onHost_deeds

end Moves

section Rooms

theorem persistRoom_deeds {roomId : RoomId} :
    Deeds may Usual server (server.persistRoom env roomId) := by
  unfold persistRoom
  split
  · exact .refl
  · split
    · exact .refl
    · exact nextReading_deeds.trans (store_deeds trivial)

theorem addRoom_deeds {name ownerNickname : Bytes} {id : RoomId} {server' : ChatServer}
    (h : server.addRoom name ownerNickname = .ok (id, server')) :
    Deeds may Usual server server' := by
  unfold addRoom at h
  split at h
  · cases h
  · split at h
    · cases h
    · split at h
      · cases h
      · obtain ⟨-, rfl⟩ := Prod.mk.inj (Except.ok.inj h)
        exact onTables_deeds (.of_eq rfl rfl rfl)

theorem createRoom_deeds {name : Bytes} :
    Deeds may Usual server (server.createRoom env s name).1 := by
  unfold createRoom
  cases h : server.addRoom name (server.tables.session s).nickname with
  | error error => exact .refl
  | ok added => exact ((addRoom_deeds h).trans persistRoom_deeds).trans moveSessionToRoom_deeds

theorem createLocalRoom_deeds {name : Bytes} :
    Deeds may Usual server (server.createLocalRoom env name).1 := by
  unfold createLocalRoom
  split
  · exact .refl
  · cases h : server.addRoom name env.config.localNickname with
    | error error => exact .refl
    | ok added => exact ((addRoom_deeds h).trans persistRoom_deeds).trans moveLocalToRoom_deeds

theorem createAdminRoom_deeds {name : Bytes} :
    Deeds may Usual server (server.createAdminRoom env name).1 := by
  unfold createAdminRoom
  cases h : server.addRoom name [] with
  | error error => exact .refl
  | ok added =>
      refine (addRoom_deeds h).trans (Deeds.trans ?_ broadcastRoomLists_deeds)
      split
      · exact persistRoom_deeds
      · exact .refl

theorem joinRoom_deeds {name : Bytes} : Deeds may Usual server (server.joinRoom env s name).1 := by
  unfold joinRoom
  split
  · exact .refl
  · split
    · exact .refl
    · exact moveSessionToRoom_deeds

theorem leaveRoom_deeds : Deeds may Usual server (server.leaveRoom env s).1 := by
  unfold leaveRoom
  split
  · exact .refl
  · exact moveSessionToRoom_deeds

theorem joinLocalRoom_deeds {name : Bytes} :
    Deeds may Usual server (server.joinLocalRoom env name).1 := by
  unfold joinLocalRoom
  split
  · exact .refl
  · split
    · exact .refl
    · exact moveLocalToRoom_deeds

theorem leaveLocalRoom_deeds : Deeds may Usual server (server.leaveLocalRoom env).1 := by
  unfold leaveLocalRoom
  split
  · exact .refl
  · exact moveLocalToRoom_deeds

theorem showRoomListLocal_deeds : Deeds may Usual server (server.showRoomListLocal env) := by
  unfold showRoomListLocal
  exact onHost_deeds

theorem sendTopic_deeds : Deeds may Usual server (server.sendTopic s) := by
  unfold sendTopic
  simp only
  split
  · exact .refl
  · exact deliver_deeds trivial

theorem setTopicForRoom_deeds {roomId : RoomId} {actor topic : Bytes} {privileged : Bool} :
    Deeds may Usual server (server.setTopicForRoom env roomId actor privileged topic).1 := by
  unfold setTopicForRoom
  split
  · exact .refl
  · split
    · exact .refl
    · split
      · exact .refl
      · simp only
        refine Deeds.trans ?_
          (notice_deeds (((marked_system.append _).append _).append _))
        refine Deeds.trans ?_ (.ite onHost_deeds .refl)
        refine Deeds.trans ?_ (deliverAll_deeds fun _ => trivial)
        exact (onTables_deeds (.of_eq rfl rfl rfl)).trans (.ite (store_deeds trivial) .refl)

theorem setAdminTopic_deeds {roomName topic : Bytes} :
    Deeds may Usual server (server.setAdminTopic env roomName topic).1 := by
  unfold setAdminTopic
  split
  · exact .refl
  · exact setTopicForRoom_deeds

end Rooms

section Private

theorem sendPrivateInRoom_deeds {sender target message : Bytes} {roomId : RoomId}
    {mirrorToLocal : Bool} :
    Deeds may Usual server
      (server.sendPrivateInRoom env sender target message roomId mirrorToLocal).1 := by
  unfold sendPrivateInRoom
  split
  · exact .refl
  · simp only
    split
    · exact deliverTextTo_deeds.trans (.ite onHost_deeds .refl)
    · refine Deeds.trans ?_ (.ite deliverTextTo_deeds .refl)
      refine Deeds.trans ?_ deliverTextTo_deeds
      exact nextReading_deeds.trans (.ite onHost_deeds .refl)

end Private

section Moderation

theorem kickUserInRoom_deeds {roomId : RoomId} {nick reason : Bytes} :
    Deeds may Usual server (server.kickUserInRoom env roomId nick reason).1 := by
  unfold kickUserInRoom
  split
  · exact .refl
  · split
    · exact .refl
    · simp only
      refine Deeds.trans ?_ broadcastUsers_deeds
      refine Deeds.trans ?_
        (notice_deeds (((marked_system.append _).append _).append _))
      refine Deeds.trans ?_ disconnect_deeds
      exact (deliver_deeds trivial).trans (close_deeds trivial)

theorem kickUser_deeds {nick reason : Bytes} :
    Deeds may Usual server (server.kickUser env nick reason).1 := by
  unfold kickUser
  simp only
  split
  · exact kickUserInRoom_deeds
  · exact .refl

theorem kickUserInRoomNamed_deeds {roomName nick reason : Bytes} :
    Deeds may Usual server (server.kickUserInRoomNamed env roomName nick reason).1 := by
  unfold kickUserInRoomNamed
  split
  · exact .refl
  · next id room found =>
      have kicked : Deeds may Usual server (server.kickUserInRoom env id nick reason).1 :=
        kickUserInRoom_deeds
      simp only
      split
      · exact kicked
      · exact kicked

theorem kickFrom_deeds {nick reason : Bytes} :
    Deeds may Usual server (server.kickFrom env s nick reason).1 := by
  have kicked : Deeds may Usual server (server.kickUserInRoom env
      (server.tables.session s).activeRoomId nick reason).1 := kickUserInRoom_deeds
  unfold kickFrom
  simp only
  split
  · exact .refl
  · split
    · exact .refl
    · split
      · exact .refl
      · split
        · exact kicked
        · exact kicked

theorem saveBans_deeds : Deeds may Usual server (server.saveBans env) :=
  .ite .refl (note_deeds id trivial)

theorem banUser_deeds {nick reason : Bytes} (bans : may .banList) :
    Deeds may Usual server (server.banUser env nick reason) := by
  have banned : Deeds may Usual server (server.onTables fun tables =>
      { tables with bannedNicks := tables.bannedNicks.insert nick }) := onTables_deeds
      ⟨.inl bans, .inr rfl, fun _ => .inr rfl, fun _ => .inr rfl⟩
  unfold banUser
  simp only
  split
  · exact banned.trans (.ite (nextReading_deeds.trans (store_deeds trivial)) saveBans_deeds)
  · refine Deeds.trans ?_ broadcastUsers_deeds
    refine Deeds.trans ?_ (notice_deeds ((marked_system.append _).append _))
    refine Deeds.trans ?_ disconnect_deeds
    refine Deeds.trans ?_ (close_deeds trivial)
    refine Deeds.trans ?_ (deliver_deeds trivial)
    exact banned.trans (.ite (nextReading_deeds.trans (store_deeds trivial)) saveBans_deeds)

theorem unbanUser_deeds {nick : Bytes} (bans : may .banList) :
    Deeds may Usual server (server.unbanUser env nick).1 := by
  unfold unbanUser
  refine Deeds.trans ?_ (.ite (.ite (store_deeds trivial) saveBans_deeds) .refl)
  exact onTables_deeds
      ⟨.inl bans, .inr rfl, fun _ => .inr rfl, fun _ => .inr rfl⟩

theorem bindIdentity_deeds {nick publicKeyHex : Bytes} (binds : may .bindings) :
    Deeds may Usual server (server.bindIdentity env nick publicKeyHex).1 := by
  have saved (server : ChatServer) : Deeds may Usual server (server.saveIdentities env) :=
    .ite .refl (note_deeds id trivial)
  unfold bindIdentity
  split
  · exact .refl
  · refine Deeds.trans ?_ (.ite (store_deeds trivial) (saved _))
    exact onTables_deeds ⟨.inr rfl, .inl binds, fun _ => .inr rfl, fun _ => .inr rfl⟩

theorem registerLocalIdentity_deeds {nick publicKeyHex : Bytes} (binds : may .bindings) :
    Deeds may Usual server (server.registerLocalIdentity env nick publicKeyHex).1 := by
  unfold registerLocalIdentity
  split
  · exact .refl
  · exact bindIdentity_deeds binds

end Moderation

section Handlers

theorem stopReading_deeds (own : may (.login s)) : Deeds may P server (server.stopReading s) :=
  updateSession_deeds (.inl own) (.inr (by intro; rfl))

theorem reject_deeds (own : may (.login s)) {message : ServerMessage}
    (h : Usual (.deliver s message)) : Deeds may Usual server (server.reject env s message) :=
  (((deliver_deeds h).trans (close_deeds trivial)).trans disconnect_deeds).trans
    (stopReading_deeds own)

theorem reportError_deeds {result : ChatServer × Option Bytes}
    (h : Deeds may Usual server result.1) : Deeds may Usual server (reportError s result) := by
  unfold reportError
  split
  · exact h.trans (deliver_deeds trivial)
  · exact h

theorem consumeMessageQuota_deeds (asks : may (.quota s)) :
    Deeds may P server (server.consumeMessageQuota env s).2 :=
  nextReading_deeds.trans (updateSession_deeds (.inr (by intro; rfl)) (.inl asks))

theorem onHello_deeds (own : may (.login s)) (common : ∀ e, Usual e → P e) {version : UInt32}
    (grants : ∀ answer, Grants env server s (.hello version) answer → P (.deliver s answer)) :
    Deeds may P server (server.onHello env s version) := by
  unfold onHello
  split
  · exact deliver_deeds (common _ trivial)
  · next first =>
      refine (updateSession_deeds (.inl own) (.inr (by intro; rfl))).trans (deliver_deeds ?_)
      cases password : env.hasPassword with
      | true => exact common _ trivial
      | false => exact grants _ (.greeting version (by simpa using first) password)

theorem onAuthenticate_deeds (own : may (.login s)) (common : ∀ e, Usual e → P e)
    {password : Bytes}
    (h : env.checkPassword password = true → P (.deliver s .authAccepted)) :
    Deeds may P server (server.onAuthenticate env s password) := by
  unfold onAuthenticate
  split
  · next correct =>
      exact (updateSession_deeds (.inl own) (.inr (by intro; rfl))).trans
        (deliver_deeds (h correct))
  · refine Deeds.mono (reject_deeds own ?_) common
    trivial

theorem onIdentify_deeds (own : may (.login s)) (common : ∀ e, Usual e → P e)
    {nick publicKeyHex : Bytes} (h : ∀ challenge, P (.deliver s (.challenge challenge))) :
    Deeds may P server (server.onIdentify env s nick publicKeyHex) := by
  have turned {message : ServerMessage} (usual : Usual (.deliver s message)) :
      Deeds may P server (server.reject env s message) := (reject_deeds own usual).mono common
  refine .ite (deliver_deeds (common _ trivial)) ?_
  split
  · exact turned trivial
  · refine .ite (turned trivial) (.ite (turned trivial) ?_)
    exact (nextReading_deeds.trans
      (updateSession_deeds (.inl own) (.inr (by intro; rfl)))).trans (deliver_deeds (h _))

theorem acceptProof_deeds (own : may (.login s)) (common : ∀ e, Usual e → P e)
    {nick publicKeyHex challenge : Bytes} (h : P (.deliver s .joinAccepted)) :
    Deeds may P server (server.acceptProof env s nick publicKeyHex challenge) := by
  refine Deeds.trans ?_ (moveSessionToRoom_deeds.mono common)
  refine Deeds.trans ?_ (deliver_deeds h)
  refine Deeds.trans ?_ (deliver_deeds (common _ trivial))
  exact (updateSession_deeds (.inl own) (.inr (by intro; rfl))).trans
    (note_deeds id (common _ trivial))

theorem onProof_deeds (own : may (.login s)) (binds : may .bindings)
    (common : ∀ e, Usual e → P e) {signatureHex : Bytes}
    (h : admitsSession env server s signatureHex = true → P (.deliver s .joinAccepted)) :
    Deeds may P server (server.onProof env s signatureHex) := by
  obtain ⟨-, -, same⟩ | ⟨-, message, refusal, same⟩ | ⟨admits, -, -, -, same⟩ :=
    server.onProof_cases env s signatureHex
  · exact same ▸ deliver_deeds (common _ trivial)
  · refine same ▸ (reject_deeds own ?_).mono common
    cases message with
    | joinRejected | banned | nicknameTaken => trivial
    | _ => exact refusal.elim
  · rw [same]
    exact ((bindIdentity_deeds binds).mono common).trans (acceptProof_deeds own common (h admits))

theorem onLeave_deeds : Deeds may Usual server (server.onLeave env s) :=
  .ite (deliver_deeds trivial) (reportError_deeds leaveRoom_deeds)

theorem onDisconnect_deeds (own : may (.login s)) :
    Deeds may Usual server (server.onDisconnect env s) :=
  (disconnect_deeds.trans (close_deeds trivial)).trans (stopReading_deeds own)

theorem onListRooms_deeds : Deeds may Usual server (server.onListRooms env s) :=
  .ite (deliver_deeds trivial) (deliver_deeds trivial)

theorem onCreateRoom_deeds {name : Bytes} :
    Deeds may Usual server (server.onCreateRoom env s name) :=
  .ite (deliver_deeds trivial) (reportError_deeds createRoom_deeds)

theorem onJoinRoom_deeds {name : Bytes} : Deeds may Usual server (server.onJoinRoom env s name) :=
  .ite (deliver_deeds trivial) (reportError_deeds joinRoom_deeds)

theorem onTopicRequest_deeds {topic : Option Bytes} :
    Deeds may Usual server (server.onTopicRequest env s topic) := by
  refine .ite (deliver_deeds trivial) ?_
  cases topic with
  | none => exact sendTopic_deeds
  | some topic => exact reportError_deeds setTopicForRoom_deeds

theorem onWhisper_deeds (asks : may (.quota s)) {target body : Bytes} :
    Deeds may Usual server (server.onWhisper env s target body) := by
  have quota : Deeds may Usual server (server.consumeMessageQuota env s).2 :=
    consumeMessageQuota_deeds asks
  refine .ite (deliver_deeds trivial) (quota.trans ?_)
  refine .ite (deliver_deeds trivial) (.ite (deliver_deeds trivial) sendPrivateInRoom_deeds)

theorem onKickRequest_deeds {nickname reason : Bytes} :
    Deeds may Usual server (server.onKickRequest env s nickname reason) :=
  .ite (deliver_deeds trivial) (reportError_deeds kickFrom_deeds)

/-- The line of a chat message. -/
def chatLine (env : Env) (reading : Nat) (nickname body : Bytes) : Bytes :=
  ascii "[" ++ env.timestamp reading ++ ascii "] " ++ nickname ++ ascii ": " ++ body

/-- What a session's chat message puts into a history. -/
def SaidBy (env : Env) (server : ChatServer) (s : SessionId) (body : Bytes) (roomId : RoomId)
    (line : Bytes) : Prop :=
  isValidText body MAX_CHAT_LENGTH = true ∧ (server.tables.session s).nickname ≠ [] ∧
    roomId = (server.tables.session s).activeRoomId ∧
    ∃ reading, line = chatLine env reading (server.tables.session s).nickname body

theorem consumeMessageQuota_spec : ∃ recent,
    (server.consumeMessageQuota env s).2.tables.session s =
      { server.tables.session s with recentMessagesByRoom := recent } :=
  ⟨_, Function.update_self _ _ _⟩

theorem onChat_deeds (asks : may (.quota s)) (common : ∀ e, Usual e → P e) {body : Bytes}
    (h : ∀ roomId line, SaidBy env server s body roomId line → P (.recorded roomId line)) :
    Deeds may P server (server.onChat env s body) := by
  have quota : Deeds may P server (server.consumeMessageQuota env s).2 :=
    consumeMessageQuota_deeds asks
  have answer {server : ChatServer} {text : Bytes} :
      Deeds may P server (server.deliverText s text) := deliver_deeds (common _ trivial)
  by_cases named : (server.tables.session s).nickname = []
  · have waits : server.onChat env s body =
        server.deliverText s (ascii "[system] Join before sending messages") := by
      simp [onChat, named]
    exact waits ▸ answer
  · rcases server.onChat_cases env s body with same | same | same |
      ⟨valid, session, reading, after, same⟩
    · exact same ▸ answer
    · exact same ▸ quota.trans answer
    · exact same ▸ quota.trans answer
    · obtain ⟨recent, kept⟩ := @consumeMessageQuota_spec env server s
      have kept := after.symm.trans kept
      rw [same]
      refine (quota.trans nextReading_deeds).trans (broadcastRoom_deeds common (h _ _ ?_))
      exact ⟨valid, named, by rw [kept], reading, by rw [kept]; rfl⟩

/-- What follows the receipt of a frame. -/
theorem onMessage_deeds (own : may (.login s)) (common : ∀ e, Usual e → P e)
    {message : ClientMessage}
    (binds : (∃ signatureHex, message = .identityProof signatureHex) → may .bindings)
    (asks : asksQuota message = true → may (.quota s))
    (grants : ∀ answer, Grants env server s message answer → P (.deliver s answer))
    (h : ∀ body roomId line, message = .chat body → SaidBy env server s body roomId line →
      P (.recorded roomId line)) :
    Deeds may P (server.note (.received s message)) (server.onMessage env s message) := by
  have lift {server server' : ChatServer} (deeds : Deeds may Usual server server') :
      Deeds may P server server' := deeds.mono common
  rcases server.onMessage_cases env s message with ⟨version, rfl, same⟩ | ⟨-, -, same⟩ |
    ⟨greeted, password, rfl, same⟩ | ⟨-, -, -, -, same⟩ | ⟨hello, auth, passes, same⟩
  · rw [same]
    refine onHello_deeds own common fun answer granted => grants answer ?_
    cases granted with
    | greeting version first free => exact .greeting version first free
  · exact same ▸ lift (reject_deeds own trivial)
  · rw [same]
    exact onAuthenticate_deeds own common fun correct =>
      grants _ (.password password greeted correct)
  · exact same ▸ deliver_deeds (common _ trivial)
  · rw [same]
    cases message with
    | hello version => exact absurd rfl (hello version)
    | authenticate password => exact absurd rfl (auth password)
    | identify nick publicKeyHex =>
        exact onIdentify_deeds own common fun challenge =>
          grants _ (.challenge nick publicKeyHex challenge passes)
    | identityProof signatureHex =>
        exact onProof_deeds own (binds ⟨signatureHex, rfl⟩) common fun admits =>
          grants _ (.admission signatureHex passes admits)
    | leave => exact lift onLeave_deeds
    | disconnect => exact lift (onDisconnect_deeds own)
    | listRooms => exact lift onListRooms_deeds
    | createRoom name => exact lift onCreateRoom_deeds
    | joinRoom name => exact lift onJoinRoom_deeds
    | topicRequest topic => exact lift onTopicRequest_deeds
    | chat body => exact onChat_deeds (asks rfl) common fun roomId line => h body roomId line rfl
    | whisper target body => exact lift (onWhisper_deeds (asks rfl))
    | kickRequest nickname reason => exact lift onKickRequest_deeds

end Handlers

end ChatServer

open ChatServer

/-- A line that an event puts into a history in the name of a session or of the host. -/
inductive Said (env : Env) (server : ChatServer) : Event → RoomId → Bytes → Prop where
  | chat (s : SessionId) (frame body line : Bytes) (roomId : RoomId)
      (decodes : decodeClientFrame frame = .ok (.chat body))
      (said : SaidBy env server s body roomId line) : Said env server (.line s frame) roomId line
  | host (line : Bytes) : Said env server (.broadcast line)
      (if server.tables.localRoomId = 0 then DEFAULT_ROOM_ID else server.tables.localRoomId) line

/-- What an event leaves in the trace: at most the receipt of its own frame, no answer by which a
login goes on but its own, and no line in a history but its own and the server's. -/
def Caused (env : Env) (server : ChatServer) (event : Event) : Effect → Prop
  | .received s message => ∃ frame, event = .line s frame ∧ decodeClientFrame frame = .ok message
  | .deliver s answer => LoginAnswer answer → ∃ frame message, event = .line s frame ∧
      decodeClientFrame frame = .ok message ∧ Grants env server s message answer
  | .recorded roomId line => Marked line ∨ Said env server event roomId line
  | _ => True

/-- What an event may change of the holdings. -/
def Event.touches : Event → Holding → Prop
  | .accept s, held | .handshake s _, held | .readError s, held => held = .login s
  | .line s frame, held => held = .login s ∨
      ∃ message, decodeClientFrame frame = .ok message ∧
        (held = .bindings ∧ (∃ signatureHex, message = .identityProof signatureHex) ∨
          held = .quota s ∧ asksQuota message = true)
  | .registerLocalIdentity _ _, held => held = .bindings
  | .banUser _ _, held | .unbanUser _, held => held = .banList
  | _, _ => False

section Steps

variable {env : Env} {server server' : ChatServer} {event : Event}

/-- A server starts by deeds from nothing. -/
theorem start_deeds (env : Env) (stored : StoredState) :
    Deeds (fun _ => True) Usual {} (start env stored) := by
  unfold start
  simp only
  split
  · exact @onTables_deeds (fun _ => True) _ {} (fun _ => _) .free
  · refine Deeds.trans ?_ persistRoom_deeds
    refine Deeds.trans ?_ (onTables_deeds (.of_eq rfl rfl rfl))
    exact @onTables_deeds (fun _ => True) _ {} (fun _ => _) .free

theorem Usual.caused {e : Effect} (h : Usual e) : Caused env server event e := by
  cases e with
  | received s message => exact h.elim
  | deliver s message =>
      intro answer
      cases message with
      | authAccepted | challenge | joinAccepted => exact h.elim
      | _ => exact answer.elim
  | recorded roomId body => exact .inl h
  | _ => trivial

theorem onLine_deeds {s : SessionId} {frame : Bytes} :
    Deeds (Event.line s frame).touches (Caused env server (.line s frame)) server
      (server.onLine env s frame) := by
  have own : (Event.line s frame).touches (.login s) := .inl rfl
  unfold onLine
  split
  · next message decodes =>
      refine (note_deeds id ?_).trans
        (onMessage_deeds own (fun _ => Usual.caused) (fun proof => ?_) (fun asks => ?_) ?_ ?_)
      · exact ⟨frame, rfl, decodes⟩
      · exact .inr ⟨message, decodes, .inl ⟨rfl, proof⟩⟩
      · exact .inr ⟨message, decodes, .inr ⟨rfl, asks⟩⟩
      · exact fun answer granted _ => ⟨frame, message, rfl, decodes, granted⟩
      · intro body roomId line same said
        exact .inr (.chat s frame body line roomId (same ▸ decodes) said)
  · split
    · refine Deeds.mono (reject_deeds own ?_) fun _ => Usual.caused
      trivial
    · exact deliver_deeds fun answer => answer.elim

/-- Every step but the running of a posted handler and the end of a write is made of deeds. -/
theorem step_deeds (h : step env server event = some server')
    (calls : (∀ s, event ≠ .posted s) ∧ ∀ s ok, event ≠ .writeDone s ok) :
    Deeds event.touches (Caused env server event) server server' := by
  have lift {a b : ChatServer} (deeds : Deeds event.touches Usual a b) :
      Deeds event.touches (Caused env server event) a b :=
    deeds.mono fun _ => Usual.caused
  cases event with
  | accept s =>
      simp only [step, Option.ite_none_right_eq_some, Option.some.injEq] at h
      obtain ⟨-, rfl⟩ := h
      exact (onTables_deeds (.of_eq rfl rfl rfl)).trans
        (updateSession_deeds (.inl rfl) (.inr (by intro; rfl)))
  | handshake s ok =>
      simp only [step, Option.ite_none_right_eq_some, Option.some.injEq] at h
      obtain ⟨-, rfl⟩ := h
      cases ok with
      | false =>
          have shut (server : ChatServer) : Deeds (Event.handshake s false).touches Usual server
              (server.onOutput fun output =>
                output.updateWire s fun wire => { wire with streamOpen := false }) :=
            .one (.shut s)
          exact lift ((disconnect_deeds.trans (shut _)).trans (stopReading_deeds rfl))
      | true =>
          exact lift ((deliver_deeds trivial).trans
            (updateSession_deeds (.inl rfl) (.inr (by intro; rfl))))
  | line s frame =>
      simp only [step, Option.ite_none_right_eq_some, Option.some.injEq] at h
      obtain ⟨-, rfl⟩ := h
      exact onLine_deeds
  | readError s =>
      simp only [step, Option.ite_none_right_eq_some, Option.some.injEq] at h
      obtain ⟨-, rfl⟩ := h
      exact lift (disconnect_deeds.trans (stopReading_deeds rfl))
  | posted s => exact absurd rfl (calls.1 s)
  | writeDone s ok => exact absurd rfl (calls.2 s ok)
  | registerLocalIdentity nick publicKeyHex =>
      cases h
      exact lift (registerLocalIdentity_deeds rfl)
  | startLocalUser =>
      simp only [step, Option.ite_none_right_eq_some, Option.some.injEq] at h
      obtain ⟨-, rfl⟩ := h
      exact lift startLocalUser_deeds
  | broadcast msg =>
      cases h
      exact broadcastRoom_deeds (fun _ => Usual.caused) (.inr (.host msg))
  | broadcastServer msg =>
      cases h
      exact lift broadcastServer_deeds
  | sendPrivate sender target message mirrorToLocal =>
      cases h
      exact lift sendPrivateInRoom_deeds
  | createLocalRoom name =>
      cases h
      exact lift createLocalRoom_deeds
  | joinLocalRoom name =>
      cases h
      exact lift joinLocalRoom_deeds
  | leaveLocalRoom =>
      cases h
      exact lift leaveLocalRoom_deeds
  | setLocalTopic topic =>
      cases h
      exact lift setTopicForRoom_deeds
  | showRoomListLocal =>
      cases h
      exact lift showRoomListLocal_deeds
  | kickUser nick reason =>
      cases h
      exact lift kickUser_deeds
  | banUser nick reason =>
      cases h
      exact lift (banUser_deeds rfl)
  | unbanUser nick =>
      cases h
      exact lift (unbanUser_deeds rfl)
  | createAdminRoom name =>
      cases h
      exact lift createAdminRoom_deeds
  | setAdminTopic roomName topic =>
      cases h
      exact lift setAdminTopic_deeds
  | kickUserInRoom roomName nick reason =>
      cases h
      exact lift kickUserInRoomNamed_deeds

/-- A step is made of deeds, or concerns one wire only. -/
theorem step_deeds_or (h : step env server event = some server') :
    Deeds event.touches (Caused env server event) server server' ∨
      server'.tables = server.tables ∧ server'.output.trace = server.output.trace ∧
        server'.output.readings = server.output.readings := by
  by_cases calls : (∀ s, event ≠ .posted s) ∧ ∀ s ok, event ≠ .writeDone s ok
  · exact .inl (step_deeds h calls)
  · refine .inr ?_
    cases event with
    | posted s =>
        simp only [step] at h
        split at h
        · cases h
        · cases h
          exact ⟨rfl, rfl, rfl⟩
    | writeDone s ok =>
        simp only [step, Option.ite_none_right_eq_some, Option.some.injEq] at h
        obtain ⟨-, rfl⟩ := h
        exact ⟨rfl, rfl, rfl⟩
    | _ => exact absurd (by simp) calls

/-- What a step adds to the trace. -/
theorem step_caused (h : step env server event = some server') :
    Emits (Caused env server event) server server' := by
  obtain deeds | ⟨-, same, -⟩ := step_deeds_or h
  · exact deeds.emits
  · exact .of_eq same

end Steps

end Chatbox.Chat
