import Chatbox.Chat.Session
import Chatbox.Lib.OrderedMap

/-!
What each operation does to the tables. Deliveries and notices change nothing but
histories, so the operations are described on the roster: the tables without the
messages kept for each room.
-/

namespace Chatbox.Chat

open Text Protocol Storage

def Room.withoutHistory (room : Room) : Room := { room with recentMessages := [] }

namespace ServerTables

variable (tables : ServerTables)

def roster : ServerTables :=
  { tables with rooms := tables.rooms.map fun _ room => room.withoutHistory }

/-- The members of a room, none where there is no room. -/
def members (roomId : RoomId) : SessionSet :=
  match tables.rooms[roomId]? with
  | none => ∅
  | some room => room.members

/-- `disconnect` without its notices. -/
def dropSession (s : SessionId) : ServerTables :=
  let oldId := (tables.session s).activeRoomId
  let tables := { tables with sessions := tables.sessions.erase s }
  let tables := tables.updateSession s fun session => { session with activeRoomId := 0 }
  if oldId = 0 then tables else tables.eraseMember s oldId

def insertRoom (id : RoomId) (room : Room) : ServerTables :=
  { tables with nextRoomId := id + 1, rooms := tables.rooms.insertIfNew id room }

section Projection

@[simp] theorem roster_sessions : tables.roster.sessions = tables.sessions := rfl

@[simp] theorem roster_session : tables.roster.session = tables.session := rfl

@[simp] theorem roster_nextRoomId : tables.roster.nextRoomId = tables.nextRoomId := rfl

@[simp] theorem roster_localRoomId : tables.roster.localRoomId = tables.localRoomId := rfl

@[simp] theorem roster_bannedNicks : tables.roster.bannedNicks = tables.bannedNicks := rfl

@[simp] theorem roster_identities : tables.roster.identities = tables.identities := rfl

theorem roster_getElem? (roomId : RoomId) :
    tables.roster.rooms[roomId]? = tables.rooms[roomId]?.map Room.withoutHistory := by
  simp [roster]

@[simp] theorem roster_size : tables.roster.rooms.size = tables.rooms.size := by
  simp [roster]

@[simp] theorem roster_mem {roomId : RoomId} :
    roomId ∈ tables.roster.rooms ↔ roomId ∈ tables.rooms := by
  simp [roster]

@[simp] theorem roster_members : tables.roster.members = tables.members := by
  funext roomId
  simp only [members, roster_getElem?]
  cases tables.rooms[roomId]? <;> rfl

@[simp] theorem roster_isMember : tables.roster.isMember = tables.isMember := by
  funext s roomId
  simp only [isMember, roster_getElem?]
  cases tables.rooms[roomId]? <;> rfl

@[simp] theorem roster_hostIn : tables.roster.hostIn = tables.hostIn := rfl

@[simp] theorem roster_userNicknames : tables.roster.userNicknames = tables.userNicknames := rfl

@[simp] theorem roster_sessionNamed : tables.roster.sessionNamed = tables.sessionNamed := rfl

@[simp] theorem roster_nicknameTaken : tables.roster.nicknameTaken = tables.nicknameTaken := rfl

@[simp] theorem roster_isBanned : tables.roster.isBanned = tables.isBanned := rfl

@[simp] theorem roster_identityAvailableFor :
    tables.roster.identityAvailableFor = tables.identityAvailableFor := rfl

@[simp] theorem roster_roomList : tables.roster.roomList = tables.roomList := by
  funext env
  simp only [roomList, roster, Std.ExtTreeMap.toList_map, List.map_map]
  rfl

theorem roster_updateSession (s : SessionId) (change : ClientSession → ClientSession) :
    (tables.updateSession s change).roster = tables.roster.updateSession s change := rfl

theorem roster_updateRoom (roomId : RoomId) {change change' : Room → Room}
    (h : ∀ room, (change room).withoutHistory = change' room.withoutHistory) :
    (tables.updateRoom roomId change).roster = tables.roster.updateRoom roomId change' := by
  simp only [roster, updateRoom, OrderedMap.map_modify _ _ h]

@[simp] theorem roster_eraseMember (s : SessionId) (roomId : RoomId) :
    (tables.eraseMember s roomId).roster = tables.roster.eraseMember s roomId :=
  tables.roster_updateRoom roomId fun _ => rfl

@[simp] theorem roster_insertMember (s : SessionId) (roomId : RoomId) :
    (tables.insertMember s roomId).roster = tables.roster.insertMember s roomId :=
  tables.roster_updateRoom roomId fun _ => rfl

@[simp] theorem roster_placeSession (s : SessionId) (target : RoomId) :
    (tables.placeSession s target).roster = tables.roster.placeSession s target := by
  simp only [placeSession, roster_updateSession, roster_insertMember, roster_eraseMember,
    roster_session]

@[simp] theorem roster_dropSession (s : SessionId) :
    (tables.dropSession s).roster = tables.roster.dropSession s := by
  by_cases h : (tables.session s).activeRoomId = 0
  · have h' : (tables.roster.session s).activeRoomId = 0 := h
    simp only [dropSession, if_pos h, if_pos h']
    rfl
  · have h' : (tables.roster.session s).activeRoomId ≠ 0 := h
    simp only [dropSession, if_neg h, if_neg h', roster_eraseMember]
    rfl

end Projection

end ServerTables

namespace ChatServer

variable (env : Env) (server : ChatServer) (s : SessionId)

def roster : ServerTables := server.tables.roster

section Quiet

/-- An optional quiet step is quiet. -/
theorem ite_tables {c : Prop} [Decidable c] {a b : ChatServer} (h : a.tables = b.tables) :
    (if c then a else b).tables = b.tables := by
  split
  · exact h
  · rfl

theorem ite_roster {c : Prop} [Decidable c] {a b : ChatServer} (h : a.roster = b.roster) :
    (if c then a else b).roster = b.roster := by
  split
  · exact h
  · rfl

@[simp] theorem deliver_tables (message : ServerMessage) :
    (server.deliver s message).tables = server.tables := rfl

@[simp] theorem deliverText_tables (text : Bytes) :
    (server.deliverText s text).tables = server.tables := rfl

@[simp] theorem note_tables (effect : Effect) : (server.note effect).tables = server.tables := rfl

@[simp] theorem close_tables : (server.close s).tables = server.tables := rfl

@[simp] theorem onOutput_tables (change : ServerOutput → ServerOutput) :
    (server.onOutput change).tables = server.tables := rfl

@[simp] theorem onHost_tables (change : App.AppState → App.AppState) :
    (server.onHost change).tables = server.tables := rfl

@[simp] theorem store_tables (write : Write) : (server.store write).tables = server.tables := rfl

@[simp] theorem nextReading_tables : server.nextReading.2.tables = server.tables := rfl

@[simp] theorem deliverAll_tables (members : List SessionId) (message : ServerMessage) :
    (server.deliverAll members message).tables = server.tables := by
  induction members generalizing server with
  | nil => rfl
  | cons s members ih => exact ih (server.deliver s message)

@[simp] theorem deliverHistory_tables (roomId : RoomId) (name : Bytes) (history : List Bytes) :
    (server.deliverHistory s roomId name history).tables = server.tables := by
  have each (server : ChatServer) : (history.foldl (fun server message =>
      server.deliver s (.roomText roomId message)) server).tables = server.tables := by
    induction history generalizing server with
    | nil => rfl
    | cons message history ih => exact ih (server.deliver s _)
  unfold deliverHistory
  split
  · rfl
  · exact each _

@[simp] theorem noteLeave_tables (roomId : RoomId) :
    (server.noteLeave s roomId).tables = server.tables := by
  unfold noteLeave
  split <;> rfl

@[simp] theorem storeMessage_tables (roomId : RoomId) (nickname msg : Bytes) :
    (server.storeMessage env roomId nickname msg).tables = server.tables := rfl

@[simp] theorem broadcastUsers_tables (roomId : RoomId) :
    (server.broadcastUsers env roomId).tables = server.tables := by
  unfold broadcastUsers
  split
  · rfl
  · simp only [deliverAll_tables]
    split <;> rfl

@[simp] theorem broadcastRoomLists_tables :
    (server.broadcastRoomLists env).tables = server.tables := by
  unfold broadcastRoomLists
  simp only
  split
  · exact deliverAll_tables _ _ _
  · exact deliverAll_tables _ _ _

@[simp] theorem sendRoomList_tables : (server.sendRoomList env s).tables = server.tables := rfl

@[simp] theorem persistRoom_tables (roomId : RoomId) :
    (server.persistRoom env roomId).tables = server.tables := by
  unfold persistRoom
  split
  · rfl
  · split <;> rfl

@[simp] theorem showRoomListLocal_tables :
    (server.showRoomListLocal env).tables = server.tables := rfl

@[simp] theorem sendTopic_tables : (server.sendTopic s).tables = server.tables := by
  unfold sendTopic
  simp only
  split <;> rfl

@[simp] theorem saveBans_tables : (server.saveBans env).tables = server.tables := by
  unfold saveBans
  split <;> rfl

@[simp] theorem saveIdentities_tables : (server.saveIdentities env).tables = server.tables := by
  unfold saveIdentities
  split <;> rfl

@[simp] theorem reportError_tables (result : ChatServer × Option Bytes) :
    (reportError s result).tables = result.1.tables := by
  unfold reportError
  split <;> rfl

@[simp] theorem deliverTextTo_tables (receiver : Option SessionId) (line : Bytes) :
    (server.deliverTextTo receiver line).tables = server.tables := by
  cases receiver <;> rfl

@[simp] theorem sendPrivateInRoom_tables (sender target message : Bytes) (roomId : RoomId)
    (mirrorToLocal : Bool) :
    (server.sendPrivateInRoom env sender target message roomId mirrorToLocal).1.tables =
      server.tables := by
  unfold sendPrivateInRoom
  split
  · rfl
  · simp only
    split
    · rw [ite_tables (onHost_tables _ _), deliverTextTo_tables]
    · rw [ite_tables (deliverTextTo_tables _ _ _), deliverTextTo_tables,
        ite_tables (onHost_tables _ _), nextReading_tables]

end Quiet

section Notices

@[simp] theorem deliver_roster (message : ServerMessage) :
    (server.deliver s message).roster = server.roster := rfl

@[simp] theorem close_roster : (server.close s).roster = server.roster := rfl

@[simp] theorem note_roster (effect : Effect) : (server.note effect).roster = server.roster := rfl

@[simp] theorem nextReading_roster : server.nextReading.2.roster = server.roster := rfl

@[simp] theorem reportError_roster (result : ChatServer × Option Bytes) :
    (reportError s result).roster = result.1.roster := by
  simp only [roster, reportError_tables]

@[simp] theorem onHost_roster (change : App.AppState → App.AppState) :
    (server.onHost change).roster = server.roster := rfl

theorem recordMessage_roster {roomId : RoomId} {room : Room}
    (h : server.tables.rooms[roomId]? = some room) (msg : Bytes) :
    (server.recordMessage env roomId room msg).roster = server.roster := by
  have same (recentMessages : List Bytes) := OrderedMap.map_insert_same h
    (show ({ room with recentMessages } : Room).withoutHistory = room.withoutHistory from rfl)
  simp only [roster, ServerTables.roster, recordMessage, note, onTables, onOutput, same]

@[simp] theorem broadcastRoom_roster (roomId : RoomId) (msg nickname : Bytes) :
    (server.broadcastRoom env roomId msg nickname).roster = server.roster := by
  unfold broadcastRoom
  split
  · rfl
  · next room h =>
      simp only
      rw [roster, ite_tables (storeMessage_tables _ _ _ _ _), deliverAll_tables,
        ite_tables (onHost_tables _ _)]
      exact server.recordMessage_roster env h msg

@[simp] theorem broadcastUsers_roster (roomId : RoomId) :
    (server.broadcastUsers env roomId).roster = server.roster := by
  simp only [roster, broadcastUsers_tables]

@[simp] theorem broadcastRoomLists_roster :
    (server.broadcastRoomLists env).roster = server.roster := by
  simp only [roster, broadcastRoomLists_tables]

@[simp] theorem announceLeft_roster (oldId : RoomId) (nickname name : Bytes) :
    (server.announceLeft env oldId nickname name).roster = server.roster := by
  simp only [announceLeft, broadcastUsers_roster, broadcastRoom_roster]

@[simp] theorem announceJoined_roster (roomId : RoomId) (nickname name : Bytes) :
    (server.announceJoined env roomId nickname name).roster = server.roster := by
  simp only [announceJoined, broadcastRoomLists_roster, broadcastUsers_roster,
    broadcastRoom_roster]

@[simp] theorem announceGone_roster (roomId : RoomId) (nickname : Bytes) (announce : Bool) :
    (server.announceGone env roomId nickname announce).roster = server.roster := by
  simp only [announceGone, broadcastRoomLists_roster, broadcastUsers_roster]
  exact ite_roster (broadcastRoom_roster _ _ _ _ _)

@[simp] theorem broadcast_roster (msg : Bytes) :
    (server.broadcast env msg).roster = server.roster := by
  simp only [broadcast, broadcastRoom_roster]

@[simp] theorem broadcastServer_roster (msg : Bytes) :
    (server.broadcastServer env msg).roster = server.roster := by
  unfold broadcastServer
  generalize server.tables.rooms.keys = ids
  induction ids generalizing server with
  | nil => rfl
  | cons id ids ih => rw [List.foldl_cons, ih, broadcastRoom_roster]

end Notices

section Moves

theorem moveSessionToRoom_roster (targetId : RoomId) (announceMove : Bool) :
    (server.moveSessionToRoom env s targetId announceMove).roster =
      if targetId ∈ server.tables.rooms then server.roster.placeSession s targetId
      else server.roster := by
  unfold moveSessionToRoom
  simp only
  split
  · next h =>
      have absent : targetId ∉ server.tables.rooms := by
        simp [← Std.ExtTreeMap.isSome_getElem?_iff_mem, h]
      rw [if_neg absent]
  · next target h =>
      have present : targetId ∈ server.tables.rooms :=
        Std.ExtTreeMap.isSome_getElem?_iff_mem.mp (by rw [h]; rfl)
      rw [announceJoined_roster, if_pos present, roster, deliverHistory_tables, deliver_tables,
        ← roster, ite_roster (announceLeft_roster _ _ _ _ _), roster, note_tables, onTables, ServerTables.roster_placeSession,
        noteLeave_tables, ← roster]

theorem moveLocalToRoom_roster (targetId : RoomId) (announceMove : Bool) :
    (server.moveLocalToRoom env targetId announceMove).roster =
      if targetId ∈ server.tables.rooms then { server.roster with localRoomId := targetId }
      else server.roster := by
  unfold moveLocalToRoom
  split
  · next h =>
      have absent : targetId ∉ server.tables.rooms := by
        simp [← Std.ExtTreeMap.isSome_getElem?_iff_mem, h]
      rw [if_neg absent]
  · next target h =>
      have present : targetId ∈ server.tables.rooms :=
        Std.ExtTreeMap.isSome_getElem?_iff_mem.mp (by rw [h]; rfl)
      simp only
      rw [announceJoined_roster, if_pos present, ite_roster (onHost_roster _ _), roster, onHost_tables,
        ← roster, ite_roster (announceLeft_roster _ _ _ _ _)]
      rfl

theorem disconnect_roster (announce : Bool) :
    (server.disconnect env s announce).roster = server.roster.dropSession s := by
  have tables : server.roster.dropSession s = (server.tables.dropSession s).roster :=
    (server.tables.roster_dropSession s).symm
  rw [tables]
  unfold disconnect ServerTables.dropSession
  simp only
  by_cases h : (server.tables.session s).activeRoomId = 0
  · simp only [if_pos h]
    rfl
  · simp only [if_neg h]
    rw [ite_roster (announceGone_roster _ _ _ _ _), roster, onTables, noteLeave_tables]
    rfl

theorem startLocalUser_roster :
    (server.startLocalUser env).roster = server.roster ∨
      DEFAULT_ROOM_ID ∈ server.tables.rooms ∧
      (server.startLocalUser env).roster =
        { server.roster with localRoomId := DEFAULT_ROOM_ID } := by
  unfold startLocalUser
  split
  · exact .inl rfl
  · split
    · exact .inl rfl
    · next lobby h =>
        have present : DEFAULT_ROOM_ID ∈ server.tables.rooms :=
          Std.ExtTreeMap.isSome_getElem?_iff_mem.mp (by rw [h]; rfl)
        refine .inr ⟨present, ?_⟩
        simp only [broadcastRoomLists_roster, broadcastUsers_roster]
        rfl

end Moves

end ChatServer

end Chatbox.Chat
