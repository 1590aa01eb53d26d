import Chatbox.Chat.Registry
import Chatbox.Chat.Sendable
import Chatbox.Storage.Kept

/-!
What a server says that only clients drive. Room names, topics and remembered lines
are bounded, and they stay so; every message that is built from them is accepted by the
encoder, and what goes to the database is bounded again when it comes back.
-/

namespace Chatbox.Chat

open Text Protocol Storage

/-- A room about which everything can be said. -/
structure Room.Sound (r : RoomId) (room : Room) : Prop where
  id : room.id = r
  known : r ≠ 0
  name : isValidRoomName room.name = true
  topic : isValidRoomTopic room.topic = true
  recent : ∀ line ∈ room.recentMessages, Line line

structure RoomsSound (rooms : RoomMap) : Prop where
  size : rooms.size ≤ MAX_ROOMS
  room : ∀ (r : RoomId) (room : Room), rooms[r]? = some room → room.Sound r

/-- The two kinds of messages that may be too long: user lists, and the answers to
frames that could not be decoded. -/
def Exempt (message : ServerMessage) : Prop :=
  (∃ roomId nicknames, message = .userList roomId nicknames) ∨
    ∃ line e, decodeClientFrame line = .error e ∧ message = ChatServer.invalidFrame e

/-- A write that leaves such rooms in the database. -/
def WriteSound (known : RoomId → Prop) : Write → Prop
  | .storeRoom room =>
      known room.id ∧ isValidRoomName room.name = true ∧ isValidRoomTopic room.topic = true
  | .updateRoomTopic _ topic => isValidRoomTopic topic = true
  | .storeMessage message => Line message.body
  | _ => True

def Effect.Sound (rooms : RoomMap) : Effect → Prop
  | .deliver _ message => Encodable message ∨ Exempt message
  | .store write => WriteSound (· ∈ rooms) write
  | _ => True

/-- The second server has sent on from the first nothing but what can be sent. -/
structure Speaks (a b : ChatServer) : Prop where
  rooms : RoomsSound b.tables.rooms
  grows : ∀ r : RoomId, r ∈ a.tables.rooms → r ∈ b.tables.rooms
  emits : Emits (Effect.Sound b.tables.rooms) a b

theorem Effect.Sound.mono {rooms rooms' : RoomMap} (grows : ∀ r : RoomId, r ∈ rooms → r ∈ rooms')
    {e : Effect} (h : e.Sound rooms) : e.Sound rooms' := by
  cases e with
  | store write =>
      cases write with
      | storeRoom room => exact ⟨grows _ h.1, h.2⟩
      | _ => exact h
  | _ => exact h

namespace Speaks

variable {a b c : ChatServer}

theorem refl (h : RoomsSound a.tables.rooms) : Speaks a a := ⟨h, fun _ => id, .refl a⟩

theorem trans (hab : Speaks a b) (hbc : Speaks b c) : Speaks a c :=
  ⟨hbc.rooms, fun r h => hbc.grows r (hab.grows r h),
    (hab.emits.mono fun _ => Effect.Sound.mono hbc.grows).trans hbc.emits⟩

theorem andThen (hab : Speaks a b) (hbc : RoomsSound b.tables.rooms → Speaks b c) : Speaks a c :=
  hab.trans (hbc hab.rooms)

theorem ite {p : Prop} [Decidable p] (hb : Speaks a b) (hc : Speaks a c) :
    Speaks a (if p then b else c) := by
  split
  · exact hb
  · exact hc

/-- An operation that leaves the rooms alone. -/
theorem of_rooms (h : RoomsSound a.tables.rooms) (same : b.tables.rooms = a.tables.rooms)
    (emits : Emits (Effect.Sound a.tables.rooms) a b) : Speaks a b := by
  refine ⟨?_, fun r => ?_, ?_⟩
  · rwa [same]
  · rw [same]
    exact id
  · rwa [same]

end Speaks

namespace RoomsSound

variable {rooms : RoomMap} {r roomId : RoomId}

theorem modify (h : RoomsSound rooms) {change : Room → Room}
    (keeps : ∀ room, room.Sound roomId → (change room).Sound roomId) :
    RoomsSound (rooms.modify roomId change) := by
  refine ⟨by simpa [Std.ExtTreeMap.size_modify] using h.size, fun r room hroom => ?_⟩
  rw [OrderedMap.getElem?_modify] at hroom
  split at hroom
  · next e =>
      subst e
      obtain ⟨old, hold, rfl⟩ := Option.map_eq_some_iff.mp hroom
      exact keeps old (h.room _ old hold)
  · exact h.room r room hroom

theorem members (h : RoomsSound rooms) {change : Room → SessionSet} :
    RoomsSound (rooms.modify roomId fun room => { room with members := change room }) :=
  h.modify fun _ sound => ⟨sound.id, sound.known, sound.name, sound.topic, sound.recent⟩

theorem remember (h : RoomsSound rooms) {room : Room} (present : rooms[roomId]? = some room)
    {recentMessages : List Bytes} (lines : ∀ line ∈ recentMessages, Line line) :
    RoomsSound (rooms.insert roomId { room with recentMessages }) := by
  have known : roomId ∈ rooms := Std.ExtTreeMap.isSome_getElem?_iff_mem.mp (by rw [present]; rfl)
  refine ⟨?_, fun r room' hroom => ?_⟩
  · rw [Std.ExtTreeMap.size_insert, if_pos (Std.ExtTreeMap.contains_iff_mem.mpr known)]
    exact h.size
  · rw [OrderedMap.getElem?_insert] at hroom
    split at hroom
    · next e =>
        subst e
        obtain rfl := Option.some.inj hroom
        have sound := h.room _ room present
        exact ⟨sound.id, sound.known, sound.name, sound.topic, lines⟩
    · exact h.room r room' hroom

theorem insertIfNew (h : RoomsSound rooms) {room : Room} (sound : room.Sound roomId)
    (below : rooms.size < MAX_ROOMS) : RoomsSound (rooms.insertIfNew roomId room) := by
  refine ⟨?_, fun r room' hroom => ?_⟩
  · have := @Std.ExtTreeMap.size_insertIfNew_le _ _ _ rooms _ roomId room
    omega
  · rw [OrderedMap.getElem?_insertIfNew] at hroom
    split at hroom
    · next e =>
        subst e
        obtain rfl := Option.some.inj hroom
        cases old : rooms[roomId]? with
        | none => exact sound
        | some old' => exact h.room _ old' old
    · exact h.room r room' hroom

end RoomsSound

namespace ChatServer

variable {env : Env} {server : ChatServer} {s : SessionId}

section Primitives

theorem deliver_speaks (h : RoomsSound server.tables.rooms) {message : ServerMessage}
    (hm : Encodable message ∨ Exempt message) : Speaks server (server.deliver s message) :=
  .of_rooms h rfl (deliver_emits hm)

theorem deliverText_speaks (h : RoomsSound server.tables.rooms) {text : Bytes} (line : Line text) :
    Speaks server (server.deliverText s text) := deliver_speaks h (.inl (encodable_text line))

theorem close_speaks (h : RoomsSound server.tables.rooms) : Speaks server (server.close s) :=
  .of_rooms h rfl (close_emits trivial)

theorem note_speaks (h : RoomsSound server.tables.rooms) {effect : Effect}
    (he : effect.Sound server.tables.rooms) : Speaks server (server.note effect) :=
  .of_rooms h rfl (note_emits he)

theorem onHost_speaks (h : RoomsSound server.tables.rooms) {change : App.AppState → App.AppState} :
    Speaks server (server.onHost change) := .of_rooms h rfl (.of_eq rfl)

theorem nextReading_speaks (h : RoomsSound server.tables.rooms) :
    Speaks server server.nextReading.2 := .of_rooms h rfl (.of_eq rfl)

theorem updateSession_speaks (h : RoomsSound server.tables.rooms)
    {change : ClientSession → ClientSession} : Speaks server (server.updateSession s change) :=
  .of_rooms h rfl (.of_eq rfl)

theorem deliverAll_speaks (h : RoomsSound server.tables.rooms) {members : List SessionId}
    {message : ServerMessage} (hm : Encodable message ∨ Exempt message) :
    Speaks server (server.deliverAll members message) :=
  .of_rooms h (by rw [deliverAll_tables]) (deliverAll_emits fun _ => hm)

theorem deliverTextTo_speaks (h : RoomsSound server.tables.rooms) {receiver : Option SessionId}
    {text : Bytes} (line : Line text) : Speaks server (server.deliverTextTo receiver text) := by
  cases receiver with
  | none => exact .refl h
  | some s => exact deliverText_speaks h line

theorem noteLeave_speaks (h : RoomsSound server.tables.rooms) {roomId : RoomId} :
    Speaks server (server.noteLeave s roomId) := .ite (note_speaks h trivial) (.refl h)

theorem deliverHistory_speaks (h : RoomsSound server.tables.rooms) {roomId : RoomId} {room : Room}
    (sound : room.Sound roomId) :
    Speaks server (server.deliverHistory s room.id room.name room.recentMessages) := by
  refine .of_rooms h (by rw [deliverHistory_tables])
    ⟨_, deliverHistory_trace room.id room.name room.recentMessages, fun e he => ?_⟩
  split at he
  · cases he
  · rcases List.mem_cons.mp he with rfl | he
    · exact .inl (encodable_text (line_recent sound.name))
    · obtain ⟨line, mem, rfl⟩ := List.mem_map.mp he
      exact .inl (encodable_roomText (sound.id ▸ sound.known) (sound.recent line mem))

end Primitives

section Broadcasts

theorem recordMessage_speaks (h : RoomsSound server.tables.rooms) {roomId : RoomId} {room : Room}
    (present : server.tables.rooms[roomId]? = some room) {msg : Bytes} (line : Line msg) :
    Speaks server (server.recordMessage env roomId room msg) := by
  have sound := h.room roomId room present
  have all : ∀ text ∈ room.recentMessages ++ [msg], Line text :=
    forall_mem_append_single sound.recent line
  have lines : ∀ text ∈ (if (room.recentMessages ++ [msg]).length > env.historyLimit then
      (room.recentMessages ++ [msg]).drop 1 else room.recentMessages ++ [msg]), Line text := by
    split
    · exact fun text mem => all text (List.mem_of_mem_drop mem)
    · exact all
  refine ⟨h.remember present lines, fun r hr => ?_, .one rfl trivial⟩
  exact Std.ExtTreeMap.mem_insert.mpr (.inr hr)

theorem storeMessage_speaks (h : RoomsSound server.tables.rooms) {roomId : RoomId}
    {nickname msg : Bytes} (line : Line msg) :
    Speaks server (server.storeMessage env roomId nickname msg) :=
  .of_rooms h rfl (.one rfl line)

/-- A line for a room, to its members, its history and the database. -/
theorem broadcastRoom_speaks (h : RoomsSound server.tables.rooms) {roomId : RoomId}
    {msg nickname : Bytes} (line : Line msg) :
    Speaks server (server.broadcastRoom env roomId msg nickname) := by
  unfold broadcastRoom
  split
  · exact .refl h
  · next room present =>
      have recorded : Speaks server (server.recordMessage env roomId room msg) :=
        recordMessage_speaks h present line
      have known := (h.room roomId room present).known
      simp only
      refine .andThen (.andThen (recorded.andThen fun h => ?_) fun h =>
        deliverAll_speaks h (.inl (encodable_roomText known line))) fun h =>
          .ite (storeMessage_speaks h line) (.refl h)
      exact .ite (onHost_speaks h) (.refl h)

theorem roomList_encodable {tables : ServerTables} (h : RoomsSound tables.rooms) :
    Encodable (.roomList (tables.roomList env)) := by
  apply encodable_roomList
  · simp only [ServerTables.roomList, List.length_map, Std.ExtTreeMap.length_toList]
    exact h.size
  · intro summary hs
    obtain ⟨item, hitem, rfl⟩ := List.mem_map.mp hs
    have sound := h.room item.1 item.2 (Std.ExtTreeMap.mem_toList_iff_getElem?_eq_some.mp hitem)
    exact ⟨sound.known, sound.name⟩

theorem broadcastUsers_speaks (h : RoomsSound server.tables.rooms) {roomId : RoomId} :
    Speaks server (server.broadcastUsers env roomId) := by
  refine .of_rooms h (by rw [broadcastUsers_tables]) ⟨_, broadcastUsers_trace roomId, ?_⟩
  intro e he
  obtain ⟨s, -, rfl⟩ := List.mem_map.mp he
  exact .inr (.inl ⟨_, _, rfl⟩)

theorem broadcastRoomLists_speaks (h : RoomsSound server.tables.rooms) :
    Speaks server (server.broadcastRoomLists env) := by
  refine .of_rooms h (by rw [broadcastRoomLists_tables]) ⟨_, broadcastRoomLists_trace, ?_⟩
  intro e he
  obtain ⟨s, -, rfl⟩ := List.mem_map.mp he
  exact .inl (roomList_encodable h)

end Broadcasts

section Moves

variable {name nick topic : Bytes} {roomId : RoomId}

theorem onTables_speaks {change : ServerTables → ServerTables}
    (h : RoomsSound (change server.tables).rooms)
    (grows : ∀ r : RoomId, r ∈ server.tables.rooms → r ∈ (change server.tables).rooms) :
    Speaks server (server.onTables change) := ⟨h, grows, .of_eq rfl⟩

theorem mem_updateRoom {tables : ServerTables} {change : Room → Room} {r : RoomId} :
    r ∈ (tables.updateRoom roomId change).rooms ↔ r ∈ tables.rooms := by
  simp [ServerTables.updateRoom, Std.ExtTreeMap.mem_modify]

theorem announceLeft_speaks (h : RoomsSound server.tables.rooms) (hn : Part 31 nick)
    (hr : isValidRoomName name = true) :
    Speaks server (server.announceLeft env roomId nick name) :=
  (broadcastRoom_speaks h (line_leftFor hn hr)).andThen fun h => broadcastUsers_speaks h

theorem announceJoined_speaks (h : RoomsSound server.tables.rooms) (hn : Part 31 nick)
    (hr : isValidRoomName name = true) :
    Speaks server (server.announceJoined env roomId nick name) :=
  ((broadcastRoom_speaks h (line_joined hn hr)).andThen fun h => broadcastUsers_speaks h).andThen
    fun h => broadcastRoomLists_speaks h

theorem announceGone_speaks (h : RoomsSound server.tables.rooms) (hn : Part 31 nick)
    {announce : Bool} : Speaks server (server.announceGone env roomId nick announce) := by
  have left : Speaks server (if announce && !nick.isEmpty then
      server.broadcastRoom env roomId (ascii "[system] " ++ nick ++ ascii " left") []
    else server) := .ite (broadcastRoom_speaks h (line_left hn)) (.refl h)
  exact (left.andThen fun h => broadcastUsers_speaks h).andThen fun h =>
    broadcastRoomLists_speaks h

theorem placeSession_speaks (h : RoomsSound server.tables.rooms) :
    Speaks server (server.onTables fun tables => tables.placeSession s roomId) := by
  refine onTables_speaks (RoomsSound.modify (RoomsSound.modify h ?_) ?_) ?_
  · exact fun _ sound => ⟨sound.id, sound.known, sound.name, sound.topic, sound.recent⟩
  · exact fun _ sound => ⟨sound.id, sound.known, sound.name, sound.topic, sound.recent⟩
  · intro r hr
    exact mem_updateRoom.mpr (mem_updateRoom.mpr hr)

theorem moveSessionToRoom_speaks (h : RoomsSound server.tables.rooms)
    (hn : Part 31 (server.tables.session s).nickname) {announceMove : Bool} :
    Speaks server (server.moveSessionToRoom env s roomId announceMove) := by
  unfold moveSessionToRoom
  simp only
  split
  · exact .refl h
  · next target present =>
      have sound := h.room roomId target present
      have joined : Encodable (.roomJoined target.id target.name target.topic) :=
        encodable_roomJoined (sound.id ▸ sound.known) sound.name sound.topic
      have placed : Speaks server ((server.noteLeave s
          (server.tables.session s).activeRoomId).onTables fun tables =>
            tables.placeSession s roomId) :=
        (noteLeave_speaks h).andThen fun h => placeSession_speaks h
      have entered : Speaks server (((server.noteLeave s
          (server.tables.session s).activeRoomId).onTables fun tables =>
            tables.placeSession s roomId).note (.enter s roomId target.recentMessages)) :=
        placed.andThen fun h => note_speaks h trivial
      refine .andThen (.andThen (.andThen (entered.andThen fun h => ?_) fun h =>
        deliver_speaks h (.inl joined)) fun h => deliverHistory_speaks h sound) fun h =>
          announceJoined_speaks h hn sound.name
      exact .ite (announceLeft_speaks h hn sound.name) (.refl h)

theorem disconnect_speaks (h : RoomsSound server.tables.rooms)
    (hn : Part 31 (server.tables.session s).nickname) {announce : Bool} :
    Speaks server (server.disconnect env s announce) := by
  unfold disconnect
  simp only
  have dropped : Speaks server ((server.onTables fun tables =>
      { tables with sessions := tables.sessions.erase s }).updateSession s fun session =>
        { session with activeRoomId := 0 }) := .of_rooms h rfl (.of_eq rfl)
  apply Speaks.ite dropped
  have erased : Speaks server ((((server.onTables fun tables =>
      { tables with sessions := tables.sessions.erase s }).updateSession s fun session =>
        { session with activeRoomId := 0 }).noteLeave s
          (server.tables.session s).activeRoomId).onTables fun tables =>
            tables.eraseMember s (server.tables.session s).activeRoomId) := by
    refine (dropped.andThen fun h => noteLeave_speaks h).andThen fun h => onTables_speaks ?_ ?_
    · exact RoomsSound.modify h fun _ sound =>
        ⟨sound.id, sound.known, sound.name, sound.topic, sound.recent⟩
    · exact fun r hr => mem_updateRoom.mpr hr
  exact .ite (erased.andThen fun h => announceGone_speaks h hn) erased

end Moves

section Rooms

variable {name nick topic target body reason : Bytes} {roomId : RoomId}

/-- What an operation reports can be sent too. -/
def Reports (result : ChatServer × Option Bytes) : Prop := ∀ error, result.2 = some error → Line error

theorem reportError_speaks {result : ChatServer × Option Bytes} (h : Speaks server result.1)
    (reports : Reports result) : Speaks server (reportError s result) := by
  unfold reportError
  split
  · next error he =>
      exact h.andThen fun h => deliver_speaks h (.inl (encodable_serverError (reports error he)))
  · exact h

theorem reports_none : Reports (server, none) := nofun

theorem reports_line {error : Bytes} (line : Line error) : Reports (server, some error) := by
  intro error' he
  cases he
  exact line

/-- A text without a variable part. -/
theorem literal_line {text : Bytes} (h : isValidText text MAX_LINE_LENGTH = true) : Line text := h

theorem persistRoom_speaks (h : RoomsSound server.tables.rooms) :
    Speaks server (server.persistRoom env roomId) := by
  unfold persistRoom
  split
  · exact .refl h
  · split
    · exact .refl h
    · next room present =>
        have sound := h.room roomId room present
        have known : room.id ∈ server.tables.rooms := by
          rw [sound.id]
          exact Std.ExtTreeMap.isSome_getElem?_iff_mem.mp (by rw [present]; rfl)
        exact (nextReading_speaks h).andThen fun h =>
          note_speaks h ⟨known, sound.name, sound.topic⟩

theorem line_exists (hr : Part MAX_ROOM_NAME_LENGTH name) :
    Line (ascii "A room named '" ++ name ++ ascii "' already exists") :=
  (((Part.literal (by decide)).append hr).append (Part.literal (by decide))).line (by simp [ascii])
    (by decide)

theorem line_noSuchRoom (hr : Part MAX_ROOM_NAME_LENGTH name) : Line (noSuchRoom name) :=
  (((Part.literal (by decide)).append hr).append (Part.literal (by decide))).line
    (by simp [ascii]) (by decide)

theorem line_already (hr : Part MAX_ROOM_NAME_LENGTH name) :
    Line (ascii "Already in room '" ++ name ++ ascii "'") :=
  (((Part.literal (by decide)).append hr).append (Part.literal (by decide))).line (by simp [ascii])
    (by decide)

theorem createRoom_speaks (h : RoomsSound server.tables.rooms)
    (wf : server.tables.RoomsWellFormed) (hn : Part 31 (server.tables.session s).nickname)
    (hr : Part MAX_ROOM_NAME_LENGTH name) :
    Speaks server (server.createRoom env s name).1 ∧ Reports (server.createRoom env s name) := by
  unfold createRoom
  rcases server.addRoom_cases name (server.tables.session s).nickname with
    ⟨⟨error, he⟩, -⟩ | ⟨added, can⟩
  · rw [he]
    refine ⟨.refl h, reports_line ?_⟩
    unfold addRoom at he
    split at he
    · cases he
      exact literal_line (by decide)
    · split at he
      · cases he
        exact literal_line (by decide)
      · split at he
        · cases he
          exact line_exists hr
        · cases he
  · rw [added]
    refine ⟨?_, reports_none⟩
    simp only [canAddRoom, Bool.and_eq_true, decide_eq_true_eq] at can
    have known : server.tables.nextRoomId ≠ 0 := by
      have wider := @ServerTables.RoomsWellFormed.insertRoom _ wf name [] can.1.2
      apply wider.pos
      simp [ServerTables.insertRoom]
    have sound : Room.Sound server.tables.nextRoomId
        { id := server.tables.nextRoomId, name,
          ownerNickname := (server.tables.session s).nickname } :=
      ⟨rfl, known, can.1.1, rfl, by simp⟩
    refine .andThen (.andThen (onTables_speaks (h.insertIfNew sound can.1.2) ?_) fun h =>
      persistRoom_speaks h) fun h => moveSessionToRoom_speaks h ?_
    · exact fun r hr => Std.ExtTreeMap.mem_insertIfNew.mpr (.inr hr)
    · rw [persistRoom_tables]
      exact hn

theorem joinRoom_speaks (h : RoomsSound server.tables.rooms)
    (hn : Part 31 (server.tables.session s).nickname) (hr : Part MAX_ROOM_NAME_LENGTH name) :
    Speaks server (server.joinRoom env s name).1 ∧ Reports (server.joinRoom env s name) := by
  unfold joinRoom
  split
  · exact ⟨.refl h, reports_line (line_noSuchRoom hr)⟩
  · split
    · exact ⟨.refl h, reports_line (line_already hr)⟩
    · exact ⟨moveSessionToRoom_speaks h hn, reports_none⟩

theorem leaveRoom_speaks (h : RoomsSound server.tables.rooms)
    (hn : Part 31 (server.tables.session s).nickname) :
    Speaks server (server.leaveRoom env s).1 ∧ Reports (server.leaveRoom env s) := by
  unfold leaveRoom
  split
  · exact ⟨.refl h, reports_line (literal_line (by decide))⟩
  · exact ⟨moveSessionToRoom_speaks h hn, reports_none⟩

theorem sendTopic_speaks (h : RoomsSound server.tables.rooms) :
    Speaks server (server.sendTopic s) := by
  unfold sendTopic
  simp only
  split
  · exact .refl h
  · next room present =>
      have sound := h.room _ room present
      exact deliver_speaks h (.inl (encodable_roomTopic sound.known sound.topic))

theorem setTopicForRoom_speaks (h : RoomsSound server.tables.rooms) (hn : Part 31 nick)
    {privileged : Bool} :
    Speaks server (server.setTopicForRoom env roomId nick privileged topic).1 ∧
      Reports (server.setTopicForRoom env roomId nick privileged topic) := by
  unfold setTopicForRoom
  split
  · exact ⟨.refl h, reports_line (literal_line (by decide))⟩
  · next ht =>
      have valid : isValidRoomTopic topic = true := by simpa using ht
      split
      · exact ⟨.refl h, reports_line (literal_line (by decide))⟩
      · next room present =>
          split
          · exact ⟨.refl h, reports_line (literal_line (by decide))⟩
          · refine ⟨?_, reports_none⟩
            have known := (h.room roomId room present).known
            have set : Speaks server (server.onTables fun tables =>
                tables.updateRoom roomId fun room => { room with topic }) := by
              refine onTables_speaks (h.modify fun _ sound => ?_) fun r hr => mem_updateRoom.mpr hr
              exact ⟨sound.id, sound.known, sound.name, valid, sound.recent⟩
            refine Speaks.andThen ?_ fun h => broadcastRoom_speaks h (line_topic hn valid)
            refine Speaks.andThen ?_ fun h => .ite (onHost_speaks h) (.refl h)
            refine Speaks.andThen ?_ fun h =>
              deliverAll_speaks h (.inl (encodable_roomTopic known valid))
            exact set.andThen fun h => .ite (note_speaks h valid) (.refl h)

end Rooms

section Private

variable {sender target body nick reason : Bytes} {roomId : RoomId}

theorem sendPrivateInRoom_speaks (h : RoomsSound server.tables.rooms) (hs : Part 31 sender)
    (ht : Part 31 target) (hb : Part MAX_CHAT_LENGTH body) {mirrorToLocal : Bool} :
    Speaks server (server.sendPrivateInRoom env sender target body roomId mirrorToLocal).1 := by
  unfold sendPrivateInRoom
  split
  · exact .refl h
  · simp only
    split
    · exact (deliverTextTo_speaks h (line_notHere ht)).andThen fun h =>
        .ite (onHost_speaks h) (.refl h)
    · refine Speaks.andThen ?_ fun h =>
        .ite (deliverTextTo_speaks h (line_whisper _ hs ht hb)) (.refl h)
      refine Speaks.andThen ?_ fun h => deliverTextTo_speaks h (line_whisper _ hs ht hb)
      exact (nextReading_speaks h).andThen fun h => .ite (onHost_speaks h) (.refl h)

theorem kickUserInRoom_speaks (h : RoomsSound server.tables.rooms)
    (hn : isValidNickname nick = true)
    (hr : reason = [] ∨ isValidText reason MAX_CHAT_LENGTH = true) :
    Speaks server (server.kickUserInRoom env roomId nick reason).1 := by
  unfold kickUserInRoom
  split
  · exact .refl h
  · split
    · exact .refl h
    · next target found =>
        have named : (server.tables.session target).nickname = nick := by
          simpa using List.find?_some found
        have part : Part 31 nick := .nickname (.inr hn)
        refine .andThen (.andThen (.andThen (.andThen
          (deliver_speaks h (.inl (encodable_kick hn hr))) fun h => close_speaks h) fun h =>
            disconnect_speaks h ?_) fun h => broadcastRoom_speaks h
              (line_kicked part (.validText hr))) fun h => broadcastUsers_speaks h
        exact named ▸ part

theorem kickFrom_speaks (h : RoomsSound server.tables.rooms)
    (hn : isValidNickname nick = true)
    (hr : reason = [] ∨ isValidText reason MAX_CHAT_LENGTH = true) :
    Speaks server (server.kickFrom env s nick reason).1 ∧
      Reports (server.kickFrom env s nick reason) := by
  have refused : Line (ascii "Only this room's creator can kick members") :=
    literal_line (by decide)
  have missing : Line (ascii "User '" ++ nick ++ ascii "' is not in this room") :=
    (((Part.literal (by decide)).append (.nickname (.inr hn))).append
      (Part.literal (by decide))).line (by simp [ascii]) (by decide)
  unfold kickFrom
  simp only
  split
  · exact ⟨.refl h, reports_line refused⟩
  · split
    · exact ⟨.refl h, reports_line refused⟩
    · split
      · exact ⟨.refl h, reports_line (literal_line (by decide))⟩
      · split
        · exact ⟨kickUserInRoom_speaks h hn hr, reports_line missing⟩
        · exact ⟨kickUserInRoom_speaks h hn hr, reports_none⟩

end Private

section Handlers

variable {nick publicKeyHex : Bytes}

theorem stopReading_speaks (h : RoomsSound server.tables.rooms) :
    Speaks server (server.stopReading s) := updateSession_speaks h

theorem reject_speaks (h : RoomsSound server.tables.rooms)
    (hn : Part 31 (server.tables.session s).nickname) {message : ServerMessage}
    (hm : Encodable message ∨ Exempt message) : Speaks server (server.reject env s message) :=
  (((deliver_speaks h hm).andThen fun h => close_speaks h).andThen fun h =>
    disconnect_speaks h hn).andThen fun h => stopReading_speaks h

theorem identityAvailableFor_line {tables : ServerTables} {error : Bytes}
    (h : tables.identityAvailableFor nick publicKeyHex = some error) : Line error := by
  unfold ServerTables.identityAvailableFor at h
  split at h
  · cases h
    exact literal_line (by decide)
  · split at h
    · cases h
      exact literal_line (by decide)
    · split at h
      · split at h
        · cases h
          exact literal_line (by decide)
        · cases h
      · cases h

theorem consumeMessageQuota_speaks (h : RoomsSound server.tables.rooms) :
    Speaks server (server.consumeMessageQuota env s).2 :=
  (nextReading_speaks h).andThen fun h => updateSession_speaks h

theorem consumeMessageQuota_nickname (a : SessionId) :
    ((server.consumeMessageQuota env s).2.tables.session a).nickname =
      (server.tables.session a).nickname := by
  simp only [consumeMessageQuota, updateSession, onTables, ServerTables.updateSession,
    nextReading_tables, Function.update_apply]
  split
  · next same => rw [same]
  · rfl

theorem bindIdentity_speaks (h : RoomsSound server.tables.rooms) :
    Speaks server (server.bindIdentity env nick publicKeyHex).1 := by
  unfold bindIdentity
  split
  · exact .refl h
  · have bound : Speaks server (server.onTables fun tables =>
        { tables with identities := tables.identities.insert nick publicKeyHex }) :=
      onTables_speaks h fun _ => id
    refine bound.andThen fun h => .ite (note_speaks h trivial) ?_
    unfold saveIdentities
    exact .ite (.refl h) (note_speaks h trivial)

theorem bindIdentity_session :
    (server.bindIdentity env nick publicKeyHex).1.tables.session = server.tables.session := by
  unfold bindIdentity
  split
  · rfl
  · simp only
    split
    · rfl
    · rw [saveIdentities_tables]
      rfl

theorem acceptProof_speaks (h : RoomsSound server.tables.rooms) (hn : Part 31 nick)
    (key : isHexOfLen publicKeyHex cryptoSignPublicKeyBytes = true) {challenge : Bytes} :
    Speaks server (server.acceptProof env s nick publicKeyHex challenge) := by
  have accepted : Encodable .joinAccepted := encodable_word (by simp)
  unfold acceptProof takeNickname
  refine Speaks.andThen ?_ fun h => moveSessionToRoom_speaks h ?_
  · refine Speaks.andThen ?_ fun h => deliver_speaks h (.inl accepted)
    refine Speaks.andThen ?_ fun h => deliver_speaks h (.inl (encodable_identityAccepted key))
    exact (updateSession_speaks h).andThen fun h => note_speaks h trivial
  · simpa [updateSession, onTables, ServerTables.updateSession] using hn

theorem verify_key {env : Env} {challenge signatureHex : Bytes}
    (h : env.verifyIdentitySignature publicKeyHex challenge signatureHex = true) :
    isHexOfLen publicKeyHex cryptoSignPublicKeyBytes = true := by
  unfold Env.verifyIdentitySignature at h
  split at h
  · cases h
  · next valid =>
      simp only [Bool.or_eq_true, Bool.not_eq_true', not_or, Bool.not_eq_false] at valid
      exact valid.1

/-- The nicknames of the sessions, those being proven included, are short. -/
structure ShortNames (tables : ServerTables) : Prop where
  nickname : ∀ s : SessionId, Part 31 (tables.session s).nickname
  pending : ∀ s : SessionId, Part 31 (tables.session s).pendingNickname

theorem shortNames_of_consistent {tables : ServerTables} (h : tables.Consistent) :
    ShortNames tables := ⟨fun s => .nickname (h.valid s), fun s => .nickname (h.pending s)⟩

theorem onHello_speaks (h : RoomsSound server.tables.rooms) {version : UInt32} :
    Speaks server (server.onHello env s version) := by
  unfold onHello
  split
  · exact deliver_speaks h (.inl (encodable_serverError (literal_line (by decide))))
  · refine (updateSession_speaks h).andThen fun h => deliver_speaks h (.inl ?_)
    split
    · exact encodable_word (by simp)
    · exact encodable_word (by simp)

theorem onAuthenticate_speaks (h : RoomsSound server.tables.rooms) (names : ShortNames server.tables)
    {password : Bytes} : Speaks server (server.onAuthenticate env s password) := by
  unfold onAuthenticate
  split
  · exact (updateSession_speaks h).andThen fun h =>
      deliver_speaks h (.inl (encodable_word (by simp)))
  · exact reject_speaks h (names.nickname s) (.inl (encodable_word (by simp)))

theorem onIdentify_speaks (h : RoomsSound server.tables.rooms) (names : ShortNames server.tables) :
    Speaks server (server.onIdentify env s nick publicKeyHex) := by
  have refused (message : ServerMessage) (hm : Encodable message) :
      Speaks server (server.reject env s message) :=
    reject_speaks h (names.nickname s) (.inl hm)
  unfold onIdentify
  split
  · exact deliver_speaks h (.inl (encodable_joinRejected (literal_line (by decide))))
  · split
    · next error he => exact refused _ (encodable_joinRejected (identityAvailableFor_line he))
    · split
      · exact refused _ (encodable_word (by simp))
      · split
        · exact refused _ (encodable_word (by simp))
        · exact ((nextReading_speaks h).andThen fun h => updateSession_speaks h).andThen fun h =>
            deliver_speaks h (.inl (encodable_challenge env _))

theorem onProof_speaks (h : RoomsSound server.tables.rooms) (names : ShortNames server.tables)
    {signatureHex : Bytes} : Speaks server (server.onProof env s signatureHex) := by
  have refused (message : ServerMessage) (hm : Encodable message) :
      Speaks server (server.reject env s message) :=
    reject_speaks h (names.nickname s) (.inl hm)
  unfold onProof
  simp only
  split
  · exact deliver_speaks h (.inl (encodable_joinRejected (literal_line (by decide))))
  · split
    · exact refused _ (encodable_joinRejected (literal_line (by decide)))
    · split
      · exact refused _ (encodable_joinRejected (literal_line (by decide)))
      · next verified =>
          have key := verify_key (by simpa using verified)
          split
          · exact refused _ (encodable_word (by simp))
          · split
            · exact refused _ (encodable_word (by simp))
            · split
              · refine (bindIdentity_speaks h).andThen fun h => reject_speaks h ?_ (.inl ?_)
                · rw [bindIdentity_session]
                  exact names.nickname s
                · exact encodable_joinRejected (literal_line (by decide))
              · exact (bindIdentity_speaks h).andThen fun h =>
                  acceptProof_speaks h (names.pending s) key

theorem onChat_speaks (h : RoomsSound server.tables.rooms) (names : ShortNames server.tables)
    {body : Bytes} : Speaks server (server.onChat env s body) := by
  have quota : Speaks server (server.consumeMessageQuota env s).2 := consumeMessageQuota_speaks h
  obtain same | same | same | ⟨valid, session, reading, named, same⟩ :=
    onChat_cases env server s body <;> rw [same]
  · exact deliverText_speaks h (literal_line (by decide))
  · exact quota.andThen fun h => deliverText_speaks h (literal_line (by decide))
  · exact quota.andThen fun h => deliverText_speaks h (literal_line (by decide))
  · refine (quota.andThen fun h => nextReading_speaks h).andThen fun h =>
      broadcastRoom_speaks h (line_chat _ ?_ (.validText (.inr valid)))
    rw [← named, consumeMessageQuota_nickname]
    exact names.nickname s

theorem onWhisper_speaks (h : RoomsSound server.tables.rooms) (names : ShortNames server.tables)
    {target body : Bytes} : Speaks server (server.onWhisper env s target body) := by
  have quota : Speaks server (server.consumeMessageQuota env s).2 := consumeMessageQuota_speaks h
  obtain same | same | same | ⟨valid, same⟩ :=
    onWhisper_cases env server s target body <;> rw [same]
  · exact deliverText_speaks h (literal_line (by decide))
  · exact quota.andThen fun h => deliverText_speaks h (literal_line (by decide))
  · exact quota.andThen fun h => deliverText_speaks h (literal_line (by decide))
  · refine quota.andThen fun h => sendPrivateInRoom_speaks h ?_
      (.nickname (.inr valid.1)) (.validText (.inr valid.2))
    rw [consumeMessageQuota_nickname]
    exact names.nickname s

/-- A room command of a session that may have joined. -/
theorem command_speaks (h : RoomsSound server.tables.rooms) {joined : Prop} [Decidable joined]
    {error : Bytes} (line : Line error) {result : ChatServer × Option Bytes}
    (speaks : Speaks server result.1 ∧ Reports result) :
    Speaks server (if joined then server.deliver s (.serverError error)
      else reportError s result) :=
  .ite (deliver_speaks h (.inl (encodable_serverError line)))
    (reportError_speaks speaks.1 speaks.2)

theorem onAdmittedMessage_speaks (h : RoomsSound server.tables.rooms)
    (hc : server.tables.Consistent) {payload : Bytes} {message : ClientMessage}
    (line : ClientLine payload message) :
    Speaks server (server.onAdmittedMessage env s message) := by
  have names := shortNames_of_consistent hc
  have ignored : Speaks server (server.deliverText s
      (ascii "[system] Ignored message in the current session state")) :=
    deliverText_speaks h (literal_line (by decide))
  cases line with
  | hello => exact ignored
  | authenticate => exact ignored
  | identify => exact onIdentify_speaks h names
  | identityProof => exact onProof_speaks h names
  | leave =>
      have moved := @leaveRoom_speaks env _ _ h (names.nickname s)
      exact .ite (deliverText_speaks h (literal_line (by decide)))
        (reportError_speaks moved.1 moved.2)
  | disconnect =>
      exact ((disconnect_speaks h (names.nickname s)).andThen fun h => close_speaks h).andThen
        fun h => stopReading_speaks h
  | listRooms =>
      exact .ite (deliver_speaks h (.inl (encodable_serverError (literal_line (by decide)))))
        (deliver_speaks h (.inl (roomList_encodable h)))
  | createRoom name =>
      exact command_speaks h (literal_line (by decide))
        (createRoom_speaks h hc.rooms (names.nickname s) (.roomName name))
  | joinRoom name =>
      exact command_speaks h (literal_line (by decide))
        (joinRoom_speaks h (names.nickname s) (.roomName name))
  | topicQuestion =>
      exact .ite (deliver_speaks h (.inl (encodable_serverError (literal_line (by decide)))))
        (sendTopic_speaks h)
  | topicRequest some valid =>
      exact command_speaks h (literal_line (by decide))
        (setTopicForRoom_speaks h (names.nickname s))
  | chat => exact onChat_speaks h names
  | whisper => exact onWhisper_speaks h names
  | kickAlone name =>
      exact command_speaks h (literal_line (by decide)) (kickFrom_speaks h name (.inl rfl))
  | kickRequest name reason =>
      exact command_speaks h (literal_line (by decide)) (kickFrom_speaks h name reason)

theorem onMessage_speaks (h : RoomsSound server.tables.rooms) (hc : server.tables.Consistent)
    {payload : Bytes} {message : ClientMessage} (line : ClientLine payload message) :
    Speaks server (server.onMessage env s message) := by
  have names := shortNames_of_consistent hc
  have received : Speaks server (server.note (.received s message)) := note_speaks h trivial
  refine received.andThen fun h => ?_
  rcases server.onMessage_cases env s message with ⟨version, -, e⟩ | ⟨-, -, e⟩ |
    ⟨-, password, -, e⟩ | ⟨-, -, -, -, e⟩ | ⟨-, -, -, e⟩
  · rw [e]
    exact onHello_speaks h
  · rw [e]
    exact reject_speaks h (names.nickname s)
      (.inl (encodable_serverError (literal_line (by decide))))
  · rw [e]
    exact onAuthenticate_speaks h names
  · rw [e]
    exact deliver_speaks h (.inl (encodable_word (by simp)))
  · rw [e]
    exact onAdmittedMessage_speaks h hc line

theorem onLine_speaks (h : RoomsSound server.tables.rooms) (hc : server.tables.Consistent)
    (line : Bytes) : Speaks server (server.onLine env s line) := by
  unfold onLine
  split
  · next message decoded =>
      obtain ⟨payload, line⟩ := decodeClientFrame_ok decoded
      exact onMessage_speaks h hc line
  · next e failed =>
      have exempt : Exempt (invalidFrame e) := .inr ⟨line, e, failed, rfl⟩
      exact .ite (reject_speaks h ((shortNames_of_consistent hc).nickname s) (.inr exempt))
        (deliver_speaks h (.inr exempt))

end Handlers

end ChatServer

/-- The events that clients bring about, with those of their connections. -/
def Event.ofClients : Event → Bool
  | .accept _ | .handshake _ _ | .line _ _ | .readError _ | .posted _ | .writeDone _ _ => true
  | _ => false

open ChatServer in
theorem step_speaks {env : Env} {server server' : ChatServer} {event : Event}
    (clients : event.ofClients = true) (hc : server.tables.Consistent)
    (h : RoomsSound server.tables.rooms) (hstep : step env server event = some server') :
    Speaks server server' := by
  have names := shortNames_of_consistent hc
  cases event with
  | accept s =>
      simp only [step, Option.ite_none_right_eq_some, Option.some.injEq] at hstep
      obtain ⟨-, rfl⟩ := hstep
      exact .of_rooms h rfl (.of_eq rfl)
  | handshake s ok =>
      simp only [step, Option.ite_none_right_eq_some, Option.some.injEq] at hstep
      obtain ⟨-, rfl⟩ := hstep
      cases ok with
      | false =>
          have gone : Speaks server (server.disconnect env s false) :=
            disconnect_speaks h (names.nickname s)
          exact gone.andThen fun h => .of_rooms h rfl (.of_eq rfl)
      | true =>
          exact (deliver_speaks h (.inl (encodable_word (by simp)))).andThen fun h =>
            updateSession_speaks h
  | line s line =>
      simp only [step, Option.ite_none_right_eq_some, Option.some.injEq] at hstep
      obtain ⟨-, rfl⟩ := hstep
      exact onLine_speaks h hc line
  | readError s =>
      simp only [step, Option.ite_none_right_eq_some, Option.some.injEq] at hstep
      obtain ⟨-, rfl⟩ := hstep
      exact (disconnect_speaks h (names.nickname s)).andThen fun h => stopReading_speaks h
  | posted s =>
      simp only [step] at hstep
      split at hstep
      · cases hstep
      · cases hstep
        exact .of_rooms h rfl (.of_eq rfl)
  | writeDone s ok =>
      simp only [step, Option.ite_none_right_eq_some, Option.some.injEq] at hstep
      obtain ⟨-, rfl⟩ := hstep
      exact .of_rooms h rfl (.of_eq rfl)
  | _ => cases clients

/-- What clients make the server do, it can say. -/
theorem run_speaks {env : Env} {server server' : ChatServer} {events : List Event}
    (clients : ∀ event ∈ events, event.ofClients = true) (hc : server.tables.Consistent)
    (h : RoomsSound server.tables.rooms)
    (hrun : Run.run (step env) server events = some server') : Speaks server server' := by
  induction events generalizing server with
  | nil =>
      obtain rfl : server = server' := by simpa [Run.run] using hrun
      exact .refl h
  | cons event events ih =>
      obtain ⟨next, hstep, hrun⟩ := Run.run_cons.mp hrun
      have first := step_speaks (clients event List.mem_cons_self) hc h hstep
      exact first.trans (ih (fun event mem => clients event (List.mem_cons_of_mem _ mem))
        (step_consistent hstep hc) first.rooms hrun)

end Chatbox.Chat
