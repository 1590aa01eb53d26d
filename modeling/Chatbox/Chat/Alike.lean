import Chatbox.Chat.Trace

/-!
Two servers that differ only in what some sessions, and maybe the host, have been told.
No operation looks at a message that has been sent, so what is done to both leaves them
alike: the rooms, the history, what is stored and what everybody else is told are the
same in both.
-/

namespace Chatbox.Chat

open Text Protocol Storage

/-- Those whose messages may differ. -/
structure Hidden where
  session : SessionId → Bool
  host : Bool

/-- Effects that the others may see. -/
def Hidden.shows (hidden : Hidden) : Effect → Bool
  | .deliver s _ => !hidden.session s
  | .received s (.whisper _ _) => !hidden.session s
  | _ => true

def Posted.blank : Posted → Posted
  | .write _ => .write []
  | .close => .close
  | .abort => .abort

/-- A wire without the frames on it. -/
def SessionWire.blank (wire : SessionWire) : SessionWire :=
  { wire with
    posted := wire.posted.map Posted.blank
    writeQueue := wire.writeQueue.map fun _ => []
    handed := wire.handed.map fun _ => [] }

namespace SessionWire

variable (wire : SessionWire)

/-- What a handler does depends on the frames no more than their number. -/
theorem runPosted_blank (handler : Posted) :
    (wire.runPosted handler).blank = wire.blank.runPosted handler.blank := by
  cases handler with
  | write frame =>
      cases queue : wire.writeQueue <;> simp [runPosted, blank, Posted.blank, writeNext, queue]
  | close => cases queue : wire.writeQueue <;> simp [runPosted, blank, Posted.blank, queue]
  | abort => rfl

theorem writeDone_blank (ok : Bool) : (wire.writeDone ok).blank = wire.blank.writeDone ok := by
  cases ok with
  | false => rfl
  | true =>
      unfold writeDone
      cases queue : wire.writeQueue with
      | nil => cases closing : wire.closeAfterWrite <;> simp [blank, queue, closing]
      | cons frame queue' =>
          cases queue' <;> cases closing : wire.closeAfterWrite <;>
            simp [blank, queue, closing, writeNext]

end SessionWire

/-- The servers differ in the messages to the hidden ones only. -/
structure Alike (hidden : Hidden) (a b : ChatServer) : Prop where
  tables : b.tables = a.tables
  readings : b.output.readings = a.output.readings
  lastTimestamp : b.output.lastTimestamp = a.output.lastTimestamp
  wire : ∀ s, hidden.session s = false → b.output.wire s = a.output.wire s
  blank : ∀ s, (b.output.wire s).blank = (a.output.wire s).blank
  host : hidden.host = false → b.output.host = a.output.host
  trace : b.output.trace.filter hidden.shows = a.output.trace.filter hidden.shows

/-- The servers are alike and the answers the same. -/
structure Agree {β : Type} (hidden : Hidden) (x y : ChatServer × β) : Prop where
  server : Alike hidden x.1 y.1
  answer : y.2 = x.2

namespace ChatServer

variable {server : ChatServer} {s : SessionId} {message : ServerMessage}

theorem deliver_of_error {e : Failure} (h : encodeServerFrame message = .error e) :
    server.deliver s message = server.note (.deliver s message) := by
  simp only [deliver, ServerOutput.deliver, h]
  rfl

theorem deliver_of_ok {frame : Bytes} (h : encodeServerFrame message = .ok frame) :
    server.deliver s message =
      (server.note (.deliver s message)).onOutput fun output => output.post s (.write frame) := by
  simp only [deliver, ServerOutput.deliver, h]
  rfl

end ChatServer

namespace Alike

variable {hidden : Hidden} {a b c d : ChatServer} {s : SessionId}

theorem refl (a : ChatServer) : Alike hidden a a :=
  ⟨rfl, rfl, rfl, fun _ _ => rfl, fun _ => rfl, fun _ => rfl, rfl⟩

/-- Both take the same branch. -/
theorem ite {p q : Prop} [Decidable p] [Decidable q] (same : q ↔ p) (hab : Alike hidden a b)
    (hcd : Alike hidden c d) : Alike hidden (if p then a else c) (if q then b else d) := by
  by_cases h : p
  · rwa [if_pos h, if_pos (same.mpr h)]
  · rwa [if_neg h, if_neg fun hq => h (same.mp hq)]

/-- Both give the same answer. -/
theorem agree {β : Type} (h : Alike hidden a b) (answer : β) :
    Agree hidden (a, answer) (b, answer) := ⟨h, rfl⟩

theorem ite_agree {β : Type} {p q : Prop} [Decidable p] [Decidable q]
    {x y z w : ChatServer × β} (same : q ↔ p) (hxy : Agree hidden x y) (hzw : Agree hidden z w) :
    Agree hidden (if p then x else z) (if q then y else w) := by
  by_cases h : p
  · rwa [if_pos h, if_pos (same.mpr h)]
  · rwa [if_neg h, if_neg fun hq => h (same.mp hq)]

section Primitives

variable (h : Alike hidden a b)

include h

theorem onTables (change : ServerTables → ServerTables) :
    Alike hidden (a.onTables change) (b.onTables change) := by
  refine ⟨?_, h.readings, h.lastTimestamp, h.wire, h.blank, h.host, h.trace⟩
  exact congrArg change h.tables

theorem updateSession (s : SessionId) (change : ClientSession → ClientSession) :
    Alike hidden (a.updateSession s change) (b.updateSession s change) := h.onTables _

theorem note (effect : Effect) : Alike hidden (a.note effect) (b.note effect) := by
  refine ⟨h.tables, h.readings, h.lastTimestamp, h.wire, h.blank, h.host, ?_⟩
  change (b.output.trace ++ [effect]).filter _ = (a.output.trace ++ [effect]).filter _
  rw [List.filter_append, List.filter_append, h.trace]

/-- Effects that nobody else sees. -/
theorem noteHidden {effect effect' : Effect} (unseen : hidden.shows effect = false)
    (unseen' : hidden.shows effect' = false) :
    Alike hidden (a.note effect) (b.note effect') := by
  refine ⟨h.tables, h.readings, h.lastTimestamp, h.wire, h.blank, h.host, ?_⟩
  change (b.output.trace ++ [effect']).filter _ = (a.output.trace ++ [effect]).filter _
  rw [List.filter_append, List.filter_append, h.trace]
  simp [unseen, unseen']

/-- The wires of one session change, in a way that the others cannot tell apart. -/
theorem setWire (s : SessionId) {change change' : SessionWire → SessionWire}
    (seen : hidden.session s = false → change' (b.output.wire s) = change (a.output.wire s))
    (blind : (change' (b.output.wire s)).blank = (change (a.output.wire s)).blank) :
    Alike hidden (a.onOutput fun output => output.updateWire s change)
      (b.onOutput fun output => output.updateWire s change') := by
  refine ⟨h.tables, h.readings, h.lastTimestamp, fun t visible => ?_, fun t => ?_, h.host, h.trace⟩
  · by_cases e : t = s
    · subst e
      simpa [ChatServer.onOutput, ServerOutput.updateWire] using seen visible
    · simpa [ChatServer.onOutput, ServerOutput.updateWire, e] using h.wire t visible
  · by_cases e : t = s
    · subst e
      simpa [ChatServer.onOutput, ServerOutput.updateWire] using blind
    · simpa [ChatServer.onOutput, ServerOutput.updateWire, e] using h.blank t

theorem updateWire (s : SessionId) (change : SessionWire → SessionWire)
    (blind : ∀ v w : SessionWire, v.blank = w.blank → (change v).blank = (change w).blank) :
    Alike hidden (a.onOutput fun output => output.updateWire s change)
      (b.onOutput fun output => output.updateWire s change) :=
  h.setWire s (fun visible => congrArg change (h.wire s visible)) (blind _ _ (h.blank s))

theorem post (s : SessionId) (handler : Posted) :
    Alike hidden (a.onOutput fun output => output.post s handler)
      (b.onOutput fun output => output.post s handler) := by
  refine h.updateWire s _ fun v w same => ?_
  simp only [SessionWire.blank, SessionWire.mk.injEq, List.map_append] at same ⊢
  simp [same]

/-- A frame that nobody else sees. -/
theorem postHidden (unseen : hidden.session s = true) (frame frame' : Bytes) :
    Alike hidden (a.onOutput fun output => output.post s (.write frame))
      (b.onOutput fun output => output.post s (.write frame')) := by
  refine h.setWire s (fun visible => ?_) ?_
  · rw [unseen] at visible
    cases visible
  · have blank := h.blank s
    simp only [SessionWire.blank, SessionWire.mk.injEq] at blank
    simp [SessionWire.blank, Posted.blank, blank]

theorem onHost (change : App.AppState → App.AppState) :
    Alike hidden (a.onHost change) (b.onHost change) :=
  ⟨h.tables, h.readings, h.lastTimestamp, h.wire, h.blank,
    fun visible => congrArg change (h.host visible), h.trace⟩

theorem onHostHidden (unseen : hidden.host = true) (change change' : App.AppState → App.AppState) :
    Alike hidden (a.onHost change) (b.onHost change') := by
  refine ⟨h.tables, h.readings, h.lastTimestamp, h.wire, h.blank, fun visible => ?_, h.trace⟩
  rw [unseen] at visible
  cases visible

theorem nextReading : Alike hidden a.nextReading.2 b.nextReading.2 :=
  ⟨h.tables, congrArg (· + 1) h.readings, h.lastTimestamp, h.wire, h.blank, h.host, h.trace⟩

theorem deliver (s : SessionId) (message : ServerMessage) :
    Alike hidden (a.deliver s message) (b.deliver s message) := by
  have noted := h.note (.deliver s message)
  cases encoded : encodeServerFrame message with
  | error e => rwa [ChatServer.deliver_of_error encoded, ChatServer.deliver_of_error encoded]
  | ok frame =>
      rw [ChatServer.deliver_of_ok encoded, ChatServer.deliver_of_ok encoded]
      exact noted.post s (.write frame)

/-- Messages that nobody else sees, both of which can be sent. -/
theorem deliverHidden (unseen : hidden.session s = true) {message message' : ServerMessage}
    {frame frame' : Bytes} (encoded : encodeServerFrame message = .ok frame)
    (encoded' : encodeServerFrame message' = .ok frame') :
    Alike hidden (a.deliver s message) (b.deliver s message') := by
  have noted : Alike hidden (a.note (.deliver s message)) (b.note (.deliver s message')) :=
    h.noteHidden (by simp [Hidden.shows, unseen]) (by simp [Hidden.shows, unseen])
  rw [ChatServer.deliver_of_ok encoded, ChatServer.deliver_of_ok encoded']
  exact noted.postHidden unseen frame frame'

theorem deliverAll (members : List SessionId) (message : ServerMessage) :
    Alike hidden (a.deliverAll members message) (b.deliverAll members message) := by
  induction members generalizing a b with
  | nil => exact h
  | cons s members ih => exact ih (h.deliver s message)

theorem close (s : SessionId) : Alike hidden (a.close s) (b.close s) :=
  (h.note (.close s)).post s .close

theorem store (write : Write) : Alike hidden (a.store write) (b.store write) := h.note _

theorem deliverTextTo (receiver : Option SessionId) (line : Bytes) :
    Alike hidden (a.deliverTextTo receiver line) (b.deliverTextTo receiver line) := by
  cases receiver with
  | none => exact h
  | some s => exact h.deliver s _

end Primitives

section Broadcasts

variable (h : Alike hidden a b) (env : Env)

include h

theorem nextMessageTimestamp : (b.nextMessageTimestamp env).1 = (a.nextMessageTimestamp env).1 ∧
    Alike hidden (a.nextMessageTimestamp env).2 (b.nextMessageTimestamp env).2 := by
  have later := h.nextReading
  have candidate : (b.nextMessageTimestamp env).1 = (a.nextMessageTimestamp env).1 := by
    simp only [ChatServer.nextMessageTimestamp, ChatServer.nextReading, ChatServer.onOutput,
      h.readings, h.lastTimestamp]
  exact ⟨candidate, later.tables, later.readings, candidate, later.wire, later.blank, later.host,
    later.trace⟩

theorem storeMessage (roomId : RoomId) (nickname msg : Bytes) :
    Alike hidden (a.storeMessage env roomId nickname msg)
      (b.storeMessage env roomId nickname msg) := by
  have reading : b.nextReading.1 = a.nextReading.1 := h.readings
  obtain ⟨sentAt, stamped⟩ := h.nextReading.nextMessageTimestamp env
  simp only [ChatServer.storeMessage, reading, sentAt]
  exact stamped.store _

theorem ifHost (roomId : RoomId) (change : App.AppState → App.AppState) :
    Alike hidden (if a.tables.hostIn env roomId then a.onHost change else a)
      (if b.tables.hostIn env roomId then b.onHost change else b) :=
  ite (by rw [h.tables]) (h.onHost change) h

theorem broadcastRoom (roomId : RoomId) (msg nickname : Bytes) :
    Alike hidden (a.broadcastRoom env roomId msg nickname)
      (b.broadcastRoom env roomId msg nickname) := by
  unfold ChatServer.broadcastRoom
  rw [h.tables]
  cases a.tables.rooms[roomId]? with
  | none => exact h
  | some room =>
      have recorded : Alike hidden (a.recordMessage env roomId room msg)
          (b.recordMessage env roomId room msg) := (h.onTables _).note _
      have sent := (recorded.ifHost env roomId (·.pushMessage msg)).deliverAll
        room.members.toList (.roomText roomId msg)
      exact ite Iff.rfl (sent.storeMessage env roomId nickname msg) sent

theorem broadcastUsers (roomId : RoomId) :
    Alike hidden (a.broadcastUsers env roomId) (b.broadcastUsers env roomId) := by
  unfold ChatServer.broadcastUsers
  rw [h.tables]
  cases a.tables.rooms[roomId]? with
  | none => exact h
  | some room =>
      have shown := h.ifHost env roomId
        (·.updateRoomUsers roomId (a.tables.userNicknames env roomId room.members))
      rw [h.tables] at shown
      exact shown.deliverAll _ _

theorem broadcastRoomLists :
    Alike hidden (a.broadcastRoomLists env) (b.broadcastRoomLists env) := by
  unfold ChatServer.broadcastRoomLists
  rw [h.tables]
  have sent := h.deliverAll
    (a.tables.sessions.toList.filter fun s => !(a.tables.session s).nickname.isEmpty)
    (.roomList (a.tables.roomList env))
  exact ite (by rw [sent.tables]) (sent.onHost _) sent

theorem sendRoomList (s : SessionId) :
    Alike hidden (a.sendRoomList env s) (b.sendRoomList env s) := by
  unfold ChatServer.sendRoomList
  rw [h.tables]
  exact h.deliver s _

theorem broadcast (msg : Bytes) : Alike hidden (a.broadcast env msg) (b.broadcast env msg) := by
  unfold ChatServer.broadcast
  rw [h.tables]
  exact h.broadcastRoom env _ msg []

theorem broadcastServer (msg : Bytes) :
    Alike hidden (a.broadcastServer env msg) (b.broadcastServer env msg) := by
  unfold ChatServer.broadcastServer
  rw [h.tables]
  generalize a.tables.rooms.keys = ids
  induction ids generalizing a b with
  | nil => exact h
  | cons id ids ih => exact ih (h.broadcastRoom env id _ [])

end Broadcasts

section Moves

variable (h : Alike hidden a b) (env : Env)

include h

theorem noteLeave (s : SessionId) (roomId : RoomId) :
    Alike hidden (a.noteLeave s roomId) (b.noteLeave s roomId) :=
  ite (by rw [h.tables]) (h.note _) h

theorem announceLeft (oldId : RoomId) (nickname targetName : Bytes) :
    Alike hidden (a.announceLeft env oldId nickname targetName)
      (b.announceLeft env oldId nickname targetName) :=
  (h.broadcastRoom env oldId _ []).broadcastUsers env oldId

theorem deliverHistory (s : SessionId) (roomId : RoomId) (name : Bytes) (history : List Bytes) :
    Alike hidden (a.deliverHistory s roomId name history)
      (b.deliverHistory s roomId name history) := by
  have each {c d : ChatServer} (h : Alike hidden c d) : Alike hidden
      (history.foldl (fun server message => server.deliver s (.roomText roomId message)) c)
      (history.foldl (fun server message => server.deliver s (.roomText roomId message)) d) := by
    induction history generalizing c d with
    | nil => exact h
    | cons message history ih => exact ih (h.deliver s _)
  exact ite Iff.rfl h (each (h.deliver s _))

theorem announceJoined (roomId : RoomId) (nickname name : Bytes) :
    Alike hidden (a.announceJoined env roomId nickname name)
      (b.announceJoined env roomId nickname name) :=
  ((h.broadcastRoom env roomId _ []).broadcastUsers env roomId).broadcastRoomLists env

theorem moveSessionToRoom (s : SessionId) (targetId : RoomId) (announceMove : Bool) :
    Alike hidden (a.moveSessionToRoom env s targetId announceMove)
      (b.moveSessionToRoom env s targetId announceMove) := by
  unfold ChatServer.moveSessionToRoom
  rw [h.tables]
  cases a.tables.rooms[targetId]? with
  | none => exact h
  | some target =>
      have entered := (((h.noteLeave s (a.tables.session s).activeRoomId).onTables
        fun tables => tables.placeSession s targetId).note
          (.enter s targetId target.recentMessages))
      have told := ite (p := announceMove && (a.tables.session s).activeRoomId != 0) Iff.rfl
        (entered.announceLeft env (a.tables.session s).activeRoomId
          (a.tables.session s).nickname target.name) entered
      exact ((told.deliver s _).deliverHistory s _ _ _).announceJoined env _ _ _

theorem moveLocalToRoom (targetId : RoomId) (announceMove : Bool) :
    Alike hidden (a.moveLocalToRoom env targetId announceMove)
      (b.moveLocalToRoom env targetId announceMove) := by
  unfold ChatServer.moveLocalToRoom
  rw [h.tables]
  cases a.tables.rooms[targetId]? with
  | none => exact h
  | some target =>
      have placed := h.onTables fun tables => { tables with localRoomId := targetId }
      have told := ite (p := announceMove && a.tables.localRoomId != 0) Iff.rfl
        (placed.announceLeft env a.tables.localRoomId env.config.localNickname target.name) placed
      have shown := told.onHost (·.activateRoom target.id target.name target.topic)
      exact (ite Iff.rfl (shown.onHost _) shown).announceJoined env _ _ _

theorem announceGone (roomId : RoomId) (nickname : Bytes) (announce : Bool) :
    Alike hidden (a.announceGone env roomId nickname announce)
      (b.announceGone env roomId nickname announce) :=
  ((ite Iff.rfl (h.broadcastRoom env roomId _ []) h).broadcastUsers env roomId).broadcastRoomLists
    env

theorem disconnect (s : SessionId) (announce : Bool) :
    Alike hidden (a.disconnect env s announce) (b.disconnect env s announce) := by
  unfold ChatServer.disconnect
  rw [h.tables]
  have left := (h.onTables fun tables => { tables with sessions := tables.sessions.erase s
    }).updateSession s fun session => { session with activeRoomId := 0 }
  have erased := (left.noteLeave s (a.tables.session s).activeRoomId).onTables
    fun tables => tables.eraseMember s (a.tables.session s).activeRoomId
  exact ite Iff.rfl left
    (ite (by rw [left.tables]) (erased.announceGone env _ _ announce) erased)

theorem startLocalUser : Alike hidden (a.startLocalUser env) (b.startLocalUser env) := by
  unfold ChatServer.startLocalUser
  rw [h.tables]
  refine ite Iff.rfl h ?_
  cases a.tables.rooms[DEFAULT_ROOM_ID]? with
  | none => exact h
  | some lobby =>
      have placed := h.onTables fun tables => { tables with localRoomId := DEFAULT_ROOM_ID }
      have shown := placed.onHost (·.activateRoom lobby.id lobby.name lobby.topic)
      exact (shown.broadcastUsers env _).broadcastRoomLists env

end Moves

section Rooms

variable (h : Alike hidden a b) (env : Env)

include h

theorem persistRoom (roomId : RoomId) :
    Alike hidden (a.persistRoom env roomId) (b.persistRoom env roomId) := by
  have reading : b.nextReading.1 = a.nextReading.1 := h.readings
  unfold ChatServer.persistRoom
  rw [h.tables]
  refine ite Iff.rfl h ?_
  cases a.tables.rooms[roomId]? with
  | none => exact h
  | some room =>
      simp only [reading]
      exact h.nextReading.store _

/-- Both refuse the room, with the same error, or both add it. -/
theorem addRoom (name ownerNickname : Bytes) :
    (∃ error, a.addRoom name ownerNickname = .error error ∧
      b.addRoom name ownerNickname = .error error) ∨
    ∃ id c d, a.addRoom name ownerNickname = .ok (id, c) ∧
      b.addRoom name ownerNickname = .ok (id, d) ∧ Alike hidden c d := by
  unfold ChatServer.addRoom
  rw [h.tables]
  split_ifs with invalid full named
  · exact .inl ⟨_, rfl, rfl⟩
  · exact .inl ⟨_, rfl, rfl⟩
  · exact .inl ⟨_, rfl, rfl⟩
  · exact .inr ⟨_, _, _, rfl, rfl, h.onTables _⟩

theorem createRoom (s : SessionId) (name : Bytes) :
    Agree hidden (a.createRoom env s name) (b.createRoom env s name) := by
  unfold ChatServer.createRoom
  rw [h.tables]
  obtain ⟨error, ha, hb⟩ | ⟨id, c, d, ha, hb, hcd⟩ :=
    h.addRoom name (a.tables.session s).nickname
  · rw [ha, hb]
    exact h.agree _
  · rw [ha, hb]
    exact ((hcd.persistRoom env id).moveSessionToRoom env s id true).agree _

theorem createLocalRoom (name : Bytes) :
    Agree hidden (a.createLocalRoom env name) (b.createLocalRoom env name) := by
  unfold ChatServer.createLocalRoom
  refine ite_agree Iff.rfl (h.agree _) ?_
  obtain ⟨error, ha, hb⟩ | ⟨id, c, d, ha, hb, hcd⟩ := h.addRoom name env.config.localNickname
  · rw [ha, hb]
    exact h.agree _
  · rw [ha, hb]
    exact ((hcd.persistRoom env id).moveLocalToRoom env id true).agree _

theorem createAdminRoom (name : Bytes) :
    Agree hidden (a.createAdminRoom env name) (b.createAdminRoom env name) := by
  unfold ChatServer.createAdminRoom
  obtain ⟨error, ha, hb⟩ | ⟨id, c, d, ha, hb, hcd⟩ := h.addRoom name []
  · rw [ha, hb]
    exact h.agree _
  · rw [ha, hb]
    simp only
    rw [hcd.tables]
    cases c.tables.findRoomByName name with
    | none => exact (hcd.broadcastRoomLists env).agree _
    | some found => exact ((hcd.persistRoom env found.1).broadcastRoomLists env).agree _

theorem joinRoom (s : SessionId) (name : Bytes) :
    Agree hidden (a.joinRoom env s name) (b.joinRoom env s name) := by
  unfold ChatServer.joinRoom
  rw [h.tables]
  cases a.tables.findRoomByName name with
  | none => exact h.agree _
  | some found =>
      exact ite_agree Iff.rfl (h.agree _) ((h.moveSessionToRoom env s found.1 true).agree _)

theorem leaveRoom (s : SessionId) :
    Agree hidden (a.leaveRoom env s) (b.leaveRoom env s) :=
  ite_agree (by rw [h.tables]) (h.agree _)
    ((h.moveSessionToRoom env s DEFAULT_ROOM_ID true).agree _)

theorem joinLocalRoom (name : Bytes) :
    Agree hidden (a.joinLocalRoom env name) (b.joinLocalRoom env name) := by
  unfold ChatServer.joinLocalRoom
  rw [h.tables]
  cases a.tables.findRoomByName name with
  | none => exact h.agree _
  | some found =>
      exact ite_agree Iff.rfl (h.agree _) ((h.moveLocalToRoom env found.1 true).agree _)

theorem leaveLocalRoom : Agree hidden (a.leaveLocalRoom env) (b.leaveLocalRoom env) :=
  ite_agree (by rw [h.tables]) (h.agree _)
    ((h.moveLocalToRoom env DEFAULT_ROOM_ID true).agree _)

theorem showRoomListLocal :
    Alike hidden (a.showRoomListLocal env) (b.showRoomListLocal env) := by
  unfold ChatServer.showRoomListLocal
  rw [h.tables]
  exact h.onHost _

theorem sendTopic (s : SessionId) : Alike hidden (a.sendTopic s) (b.sendTopic s) := by
  simp only [ChatServer.sendTopic, h.tables]
  cases a.tables.rooms[(a.tables.session s).activeRoomId]? with
  | none => exact h
  | some room => exact h.deliver s _

theorem setTopicForRoom (roomId : RoomId) (actor : Bytes) (privileged : Bool) (topic : Bytes) :
    Agree hidden (a.setTopicForRoom env roomId actor privileged topic)
      (b.setTopicForRoom env roomId actor privileged topic) := by
  unfold ChatServer.setTopicForRoom
  refine ite_agree Iff.rfl (h.agree _) ?_
  rw [h.tables]
  cases a.tables.rooms[roomId]? with
  | none => exact h.agree _
  | some room =>
      refine ite_agree Iff.rfl (h.agree _) ?_
      have changed := h.onTables fun tables =>
        tables.updateRoom roomId fun room => { room with topic }
      have stored := ite (p := env.config.hasStorage) Iff.rfl
        (changed.store (.updateRoomTopic roomId topic)) changed
      have told := (stored.deliverAll room.members.toList (.roomTopic roomId topic)).ifHost env
        roomId (·.updateRoomTopic roomId topic)
      exact (told.broadcastRoom env roomId _ []).agree _

theorem setTopic (s : SessionId) (topic : Bytes) :
    Agree hidden (a.setTopic env s topic) (b.setTopic env s topic) := by
  unfold ChatServer.setTopic
  rw [h.tables]
  exact h.setTopicForRoom env _ _ false topic

theorem setLocalTopic (topic : Bytes) :
    Agree hidden (a.setLocalTopic env topic) (b.setLocalTopic env topic) := by
  unfold ChatServer.setLocalTopic
  rw [h.tables]
  exact h.setTopicForRoom env _ _ true topic

theorem setAdminTopic (roomName topic : Bytes) :
    Agree hidden (a.setAdminTopic env roomName topic) (b.setAdminTopic env roomName topic) := by
  unfold ChatServer.setAdminTopic
  rw [h.tables]
  cases a.tables.findRoomByName roomName with
  | none => exact h.agree _
  | some found => exact h.setTopicForRoom env found.1 _ true topic

end Rooms

section Private

variable (h : Alike hidden a b) (env : Env)

include h

theorem memberNamed (room : Room) (nick : Bytes) :
    b.memberNamed room nick = a.memberNamed room nick := by
  unfold ChatServer.memberNamed
  rw [h.tables]

theorem roomOfNickname (nick : Bytes) : b.roomOfNickname nick = a.roomOfNickname nick := by
  unfold ChatServer.roomOfNickname
  rw [h.tables]

theorem sendPrivateInRoom (sender target message : Bytes) (roomId : RoomId)
    (mirrorToLocal : Bool) :
    Agree hidden (a.sendPrivateInRoom env sender target message roomId mirrorToLocal)
      (b.sendPrivateInRoom env sender target message roomId mirrorToLocal) := by
  have reading : b.nextReading.1 = a.nextReading.1 := h.readings
  unfold ChatServer.sendPrivateInRoom
  rw [h.tables]
  cases a.tables.rooms[roomId]? with
  | none => exact h.agree _
  | some room =>
      simp only [h.memberNamed, reading]
      refine ite_agree Iff.rfl ?_ ?_
      · have told := h.deliverTextTo (a.memberNamed room sender)
          (ascii "[system] User '" ++ target ++ ascii "' is not in this room")
        exact (ite Iff.rfl (told.onHost _) told).agree _
      · have shown := ite (p := a.tables.hostIn env roomId && target == env.config.localNickname ||
          mirrorToLocal) Iff.rfl (h.nextReading.onHost (·.pushMessage (ascii "[PRIVATE " ++
            env.timestamp a.nextReading.1 ++ ascii "] " ++ sender ++ ascii " -> " ++ target ++
              ascii ": " ++ message))) h.nextReading
        have told := shown.deliverTextTo (a.memberNamed room target) (ascii "[PRIVATE " ++
            env.timestamp a.nextReading.1 ++ ascii "] " ++ sender ++ ascii " -> " ++ target ++
              ascii ": " ++ message)
        exact (ite Iff.rfl (told.deliverTextTo _ _) told).agree _

theorem sendPrivate (sender target message : Bytes) (mirrorToLocal : Bool) :
    Agree hidden (a.sendPrivate env sender target message mirrorToLocal)
      (b.sendPrivate env sender target message mirrorToLocal) := by
  unfold ChatServer.sendPrivate
  rw [h.roomOfNickname]
  exact h.sendPrivateInRoom env sender target message _ mirrorToLocal

theorem sendPrivateFrom (s : SessionId) (target message : Bytes) :
    Agree hidden (a.sendPrivateFrom env s target message)
      (b.sendPrivateFrom env s target message) := by
  unfold ChatServer.sendPrivateFrom
  rw [h.tables]
  exact h.sendPrivateInRoom env _ target message _ false

end Private

section Moderation

variable (h : Alike hidden a b) (env : Env)

include h

theorem kickUserInRoom (roomId : RoomId) (nick reason : Bytes) :
    Agree hidden (a.kickUserInRoom env roomId nick reason)
      (b.kickUserInRoom env roomId nick reason) := by
  unfold ChatServer.kickUserInRoom
  rw [h.tables]
  cases a.tables.rooms[roomId]? with
  | none => exact h.agree _
  | some room =>
      simp only
      cases room.members.toList.find? fun s => (a.tables.session s).nickname == nick with
      | none => exact h.agree _
      | some target =>
          have gone := ((h.deliver target (.kick nick reason)).close target).disconnect env target
            false
          exact ((gone.broadcastRoom env roomId _ []).broadcastUsers env roomId).agree _

theorem kickUser (nick reason : Bytes) :
    Agree hidden (a.kickUser env nick reason) (b.kickUser env nick reason) := by
  simp only [ChatServer.kickUser, h.roomOfNickname]
  exact ite_agree Iff.rfl (h.kickUserInRoom env _ nick reason) (h.agree _)

theorem kickUserInRoomNamed (roomName nick reason : Bytes) :
    Agree hidden (a.kickUserInRoomNamed env roomName nick reason)
      (b.kickUserInRoomNamed env roomName nick reason) := by
  unfold ChatServer.kickUserInRoomNamed
  rw [h.tables]
  cases a.tables.findRoomByName roomName with
  | none => exact h.agree _
  | some found =>
      obtain ⟨kicked, answer⟩ := h.kickUserInRoom env found.1 nick reason
      simp only [answer]
      exact ite_agree Iff.rfl (kicked.agree _) (kicked.agree _)

theorem kickFrom (requester : SessionId) (nick reason : Bytes) :
    Agree hidden (a.kickFrom env requester nick reason)
      (b.kickFrom env requester nick reason) := by
  simp only [ChatServer.kickFrom, h.tables]
  cases a.tables.rooms[(a.tables.session requester).activeRoomId]? with
  | none => exact h.agree _
  | some room =>
      refine ite_agree Iff.rfl (h.agree _) (ite_agree Iff.rfl (h.agree _) ?_)
      obtain ⟨kicked, answer⟩ :=
        h.kickUserInRoom env (a.tables.session requester).activeRoomId nick reason
      simp only [answer]
      exact ite_agree Iff.rfl (kicked.agree _) (kicked.agree _)

theorem saveBans : Alike hidden (a.saveBans env) (b.saveBans env) := by
  unfold ChatServer.saveBans
  rw [h.tables]
  exact ite Iff.rfl h (h.note _)

theorem banUser (nick reason : Bytes) :
    Alike hidden (a.banUser env nick reason) (b.banUser env nick reason) := by
  have banned := h.onTables fun tables =>
    { tables with bannedNicks := tables.bannedNicks.insert nick }
  have reading : b.output.readings = a.output.readings := h.readings
  have stored := ite (p := env.config.hasStorage) Iff.rfl
    (banned.nextReading.store (.storeBan
      { nickname := nick, reason, createdAt := env.currentUnixSeconds a.output.readings,
        expiresAt := none }))
    (banned.saveBans env)
  unfold ChatServer.banUser
  simp only [ChatServer.nextReading, ChatServer.onTables, reading] at stored ⊢
  rw [stored.tables]
  cases ServerTables.sessionNamed _ nick with
  | none => exact stored
  | some target =>
      have gone := ((stored.deliver target
        (.kick nick (if reason.isEmpty then ascii "banned" else reason))).close target).disconnect
          env target false
      exact (gone.broadcastRoom env _ _ []).broadcastUsers env _

theorem unbanUser (nick : Bytes) :
    Agree hidden (a.unbanUser env nick) (b.unbanUser env nick) := by
  have lifted := h.onTables fun tables =>
    { tables with bannedNicks := tables.bannedNicks.erase nick }
  simp only [ChatServer.unbanUser, h.tables]
  refine (ite Iff.rfl ?_ lifted).agree _
  exact ite Iff.rfl (lifted.store _) (lifted.saveBans env)

theorem saveIdentities : Alike hidden (a.saveIdentities env) (b.saveIdentities env) := by
  unfold ChatServer.saveIdentities
  rw [h.tables]
  exact ite Iff.rfl h (h.note _)

theorem bindIdentity (nick publicKeyHex : Bytes) :
    Agree hidden (a.bindIdentity env nick publicKeyHex)
      (b.bindIdentity env nick publicKeyHex) := by
  unfold ChatServer.bindIdentity
  rw [h.tables]
  cases a.tables.identities[nick]? with
  | some key => exact h.agree _
  | none =>
      have bound := h.onTables fun tables =>
        { tables with identities := tables.identities.insert nick publicKeyHex }
      exact (ite Iff.rfl (bound.store _) (bound.saveIdentities env)).agree _

theorem registerLocalIdentity (nick publicKeyHex : Bytes) :
    Agree hidden (a.registerLocalIdentity env nick publicKeyHex)
      (b.registerLocalIdentity env nick publicKeyHex) := by
  unfold ChatServer.registerLocalIdentity
  rw [h.tables]
  cases a.tables.identityAvailableFor nick publicKeyHex with
  | some error => exact h.agree _
  | none => exact h.bindIdentity env nick publicKeyHex

end Moderation

section ReadLoop

variable (h : Alike hidden a b) (env : Env) (s : SessionId)

include h

theorem stopReading : Alike hidden (a.stopReading s) (b.stopReading s) := h.updateSession s _

theorem reject (message : ServerMessage) :
    Alike hidden (a.reject env s message) (b.reject env s message) :=
  (((h.deliver s message).close s).disconnect env s false).stopReading s

omit h in
theorem reportError {x y : ChatServer × Option Bytes} (h : Agree hidden x y) :
    Alike hidden (ChatServer.reportError s x) (ChatServer.reportError s y) := by
  unfold ChatServer.reportError
  rw [h.answer]
  cases x.2 with
  | none => exact h.server
  | some error => exact h.server.deliver s _

theorem consumeMessageQuota :
    (b.consumeMessageQuota env s).1 = (a.consumeMessageQuota env s).1 ∧
      Alike hidden (a.consumeMessageQuota env s).2 (b.consumeMessageQuota env s).2 := by
  have reading : b.nextReading.1 = a.nextReading.1 := h.readings
  have tables : b.nextReading.2.tables = a.nextReading.2.tables := h.tables
  simp only [ChatServer.consumeMessageQuota, reading, tables]
  exact ⟨trivial, h.nextReading.updateSession s _⟩

theorem onHello (version : UInt32) :
    Alike hidden (a.onHello env s version) (b.onHello env s version) :=
  ite (by rw [h.tables]) (h.deliver s _) ((h.updateSession s _).deliver s _)

theorem onAuthenticate (password : Bytes) :
    Alike hidden (a.onAuthenticate env s password) (b.onAuthenticate env s password) :=
  ite Iff.rfl ((h.updateSession s _).deliver s _) (h.reject env s _)

theorem onIdentify (nick publicKeyHex : Bytes) :
    Alike hidden (a.onIdentify env s nick publicKeyHex) (b.onIdentify env s nick publicKeyHex) := by
  have reading : b.nextReading.1 = a.nextReading.1 := h.readings
  unfold ChatServer.onIdentify
  rw [h.tables]
  refine ite Iff.rfl (h.deliver s _) ?_
  cases a.tables.identityAvailableFor nick publicKeyHex with
  | some error => exact h.reject env s _
  | none =>
      refine ite Iff.rfl (h.reject env s _) (ite Iff.rfl (h.reject env s _) ?_)
      simp only [reading]
      exact (h.nextReading.updateSession s _).deliver s _

theorem acceptProof (nick publicKeyHex challenge : Bytes) :
    Alike hidden (a.acceptProof env s nick publicKeyHex challenge)
      (b.acceptProof env s nick publicKeyHex challenge) := by
  have admitted := (h.updateSession s fun session =>
    { session with
      nickname := nick
      pendingNickname := []
      pendingPublicKeyHex := []
      pendingChallenge := [] }).note (.admitted s nick publicKeyHex challenge)
  exact ((admitted.deliver s _).deliver s _).moveSessionToRoom env s DEFAULT_ROOM_ID false

theorem onProof (signatureHex : Bytes) :
    Alike hidden (a.onProof env s signatureHex) (b.onProof env s signatureHex) := by
  simp only [ChatServer.onProof, h.tables]
  refine ite Iff.rfl (h.deliver s _) (ite Iff.rfl (h.reject env s _) (ite Iff.rfl
    (h.reject env s _) (ite Iff.rfl (h.reject env s _) (ite Iff.rfl (h.reject env s _) ?_))))
  obtain ⟨bound, answer⟩ := h.bindIdentity env (a.tables.session s).pendingNickname
    (a.tables.session s).pendingPublicKeyHex
  simp only [answer]
  exact ite Iff.rfl (bound.reject env s _) (bound.acceptProof env s _ _ _)

theorem onLeave : Alike hidden (a.onLeave env s) (b.onLeave env s) :=
  ite (by rw [h.tables]) (h.deliver s _) (reportError s (h.leaveRoom env s))

theorem onDisconnect : Alike hidden (a.onDisconnect env s) (b.onDisconnect env s) :=
  ((h.disconnect env s true).close s).stopReading s

theorem onListRooms : Alike hidden (a.onListRooms env s) (b.onListRooms env s) :=
  ite (by rw [h.tables]) (h.deliver s _) (h.sendRoomList env s)

theorem onCreateRoom (name : Bytes) :
    Alike hidden (a.onCreateRoom env s name) (b.onCreateRoom env s name) :=
  ite (by rw [h.tables]) (h.deliver s _) (reportError s (h.createRoom env s name))

theorem onJoinRoom (name : Bytes) :
    Alike hidden (a.onJoinRoom env s name) (b.onJoinRoom env s name) :=
  ite (by rw [h.tables]) (h.deliver s _) (reportError s (h.joinRoom env s name))

theorem onTopicRequest (topic : Option Bytes) :
    Alike hidden (a.onTopicRequest env s topic) (b.onTopicRequest env s topic) := by
  refine ite (by rw [h.tables]) (h.deliver s _) ?_
  cases topic with
  | none => exact h.sendTopic s
  | some topic => exact reportError s (h.setTopic env s topic)

theorem onChat (body : Bytes) : Alike hidden (a.onChat env s body) (b.onChat env s body) := by
  obtain ⟨answer, counted⟩ := h.consumeMessageQuota env s
  have reading : (b.consumeMessageQuota env s).2.nextReading.1 =
      (a.consumeMessageQuota env s).2.nextReading.1 := counted.readings
  have tables : (b.consumeMessageQuota env s).2.nextReading.2.tables =
      (a.consumeMessageQuota env s).2.nextReading.2.tables := counted.tables
  refine ite (by rw [h.tables]) (h.deliver s _) ?_
  simp only [answer, reading, tables]
  refine ite Iff.rfl (counted.deliver s _) (ite Iff.rfl (counted.deliver s _) ?_)
  exact counted.nextReading.broadcastRoom env _ _ _

theorem onWhisper (target body : Bytes) :
    Alike hidden (a.onWhisper env s target body) (b.onWhisper env s target body) := by
  obtain ⟨answer, counted⟩ := h.consumeMessageQuota env s
  refine ite (by rw [h.tables]) (h.deliver s _) ?_
  simp only [answer]
  refine ite Iff.rfl (counted.deliver s _) (ite Iff.rfl (counted.deliver s _) ?_)
  exact (counted.sendPrivateFrom env s target body).server

theorem onKickRequest (nickname reason : Bytes) :
    Alike hidden (a.onKickRequest env s nickname reason) (b.onKickRequest env s nickname reason) :=
  ite (by rw [h.tables]) (h.deliver s _) (reportError s (h.kickFrom env s nickname reason))

theorem onAdmittedMessage (message : ClientMessage) :
    Alike hidden (a.onAdmittedMessage env s message) (b.onAdmittedMessage env s message) := by
  cases message with
  | identify nick publicKeyHex => exact h.onIdentify env s nick publicKeyHex
  | identityProof signatureHex => exact h.onProof env s signatureHex
  | leave => exact h.onLeave env s
  | disconnect => exact h.onDisconnect env s
  | listRooms => exact h.onListRooms env s
  | createRoom name => exact h.onCreateRoom env s name
  | joinRoom name => exact h.onJoinRoom env s name
  | topicRequest topic => exact h.onTopicRequest env s topic
  | chat body => exact h.onChat env s body
  | whisper target body => exact h.onWhisper env s target body
  | kickRequest nickname reason => exact h.onKickRequest env s nickname reason
  | hello version => exact h.deliver s _
  | authenticate password => exact h.deliver s _

theorem onMessage (message : ClientMessage) :
    Alike hidden (a.onMessage env s message) (b.onMessage env s message) := by
  have read := h.note (.received s message)
  have gated (message : ClientMessage) : Alike hidden
      (if env.hasPassword && !((a.note (.received s message)).tables.session s).authenticated then
        (a.note (.received s message)).deliver s .authRequired
      else (a.note (.received s message)).onAdmittedMessage env s message)
      (if env.hasPassword && !((b.note (.received s message)).tables.session s).authenticated then
        (b.note (.received s message)).deliver s .authRequired
      else (b.note (.received s message)).onAdmittedMessage env s message) :=
    ite (by rw [(h.note (.received s message)).tables])
      ((h.note (.received s message)).deliver s _)
      ((h.note (.received s message)).onAdmittedMessage env s message)
  cases message with
  | hello version => exact read.onHello env s version
  | authenticate password =>
      exact ite (by rw [read.tables]) (read.reject env s _) (read.onAuthenticate env s password)
  | _ => exact ite (by rw [read.tables]) (read.reject env s _) (gated _)

theorem onLine (line : Bytes) : Alike hidden (a.onLine env s line) (b.onLine env s line) := by
  unfold ChatServer.onLine
  cases decodeClientFrame line with
  | ok message => exact h.onMessage env s message
  | error e => exact ite Iff.rfl (h.reject env s _) (h.deliver s _)

theorem accept : Alike hidden (a.accept s) (b.accept s) := (h.onTables _).updateSession s _

theorem onHandshake (ok : Bool) :
    Alike hidden (a.onHandshake env s ok) (b.onHandshake env s ok) := by
  refine ite Iff.rfl ?_ ((h.deliver s _).updateSession s _)
  refine ((h.disconnect env s false).updateWire s _ fun v w same => ?_).stopReading s
  simp only [SessionWire.blank, SessionWire.mk.injEq] at same ⊢
  simp [same]

theorem onReadError : Alike hidden (a.onReadError env s) (b.onReadError env s) := by
  have suppressed := congrArg SessionWire.suppressLeaveNotice (h.blank s)
  simp only [SessionWire.blank] at suppressed
  unfold ChatServer.onReadError
  rw [suppressed]
  exact (h.disconnect env s _).stopReading s

end ReadLoop

section Steps

variable {env : Env}

/-- Both sessions have a handler to run or neither has. -/
theorem runPosted (h : Alike hidden a b) (s : SessionId) {handler : Posted} {rest : List Posted}
    (ha : (a.output.wire s).posted = handler :: rest) :
    ∃ handler' rest', (b.output.wire s).posted = handler' :: rest' ∧
      Alike hidden
        (a.onOutput fun output => output.updateWire s fun wire =>
          { wire with posted := rest }.runPosted handler)
        (b.onOutput fun output => output.updateWire s fun wire =>
          { wire with posted := rest' }.runPosted handler') := by
  have blank := h.blank s
  have posted := congrArg SessionWire.posted blank
  simp only [SessionWire.blank, ha, List.map_cons] at posted
  obtain ⟨handler', rest', hb, kind, kinds⟩ := List.map_eq_cons_iff.mp posted
  refine ⟨handler', rest', hb, h.setWire s (fun visible => ?_) ?_⟩
  · have same := h.wire s visible
    rw [same, ha] at hb
    cases hb
    simp only [same]
  · rw [SessionWire.runPosted_blank, SessionWire.runPosted_blank, kind]
    refine congrArg (fun wire : SessionWire => wire.runPosted handler.blank) ?_
    simp only [SessionWire.blank, SessionWire.mk.injEq] at blank ⊢
    simp [blank, kinds]

theorem answered (hcd : Alike hidden c d) {e : ChatServer} (h : some c = some e) :
    ∃ e', some d = some e' ∧ Alike hidden e e' := by
  cases h
  exact ⟨d, rfl, hcd⟩

theorem guarded {p q : Prop} [Decidable p] [Decidable q] (same : q ↔ p) (hcd : Alike hidden c d)
    {e : ChatServer} (h : (if p then some c else none) = some e) :
    ∃ e', (if q then some d else none) = some e' ∧ Alike hidden e e' := by
  by_cases hp : p
  · rw [if_pos hp] at h
    rw [if_pos (same.mpr hp)]
    exact answered hcd h
  · rw [if_neg hp] at h
    cases h

/-- What one server can do, the other can, and they stay alike. -/
theorem step (h : Alike hidden a b) {event : Event} (stepped : step env a event = some c) :
    ∃ d, Chat.step env b event = some d ∧ Alike hidden c d := by
  cases event with
  | accept s => exact guarded (by rw [h.tables]) (h.accept s) stepped
  | handshake s ok => exact guarded (by rw [h.tables]) (h.onHandshake env s ok) stepped
  | line s line => exact guarded (by rw [h.tables]) (h.onLine env s line) stepped
  | readError s => exact guarded (by rw [h.tables]) (h.onReadError env s) stepped
  | posted s =>
      cases ha : (a.output.wire s).posted with
      | nil => simp [Chat.step, ha] at stepped
      | cons handler rest =>
          obtain ⟨handler', rest', hb, alike⟩ := h.runPosted s ha
          simp only [Chat.step, ha, hb] at stepped ⊢
          exact answered alike stepped
  | writeDone s ok =>
      have outstanding := congrArg SessionWire.outstanding (h.blank s)
      simp only [SessionWire.blank] at outstanding
      refine guarded (by rw [outstanding]) (h.updateWire s _ fun v w same => ?_) stepped
      rw [SessionWire.writeDone_blank, SessionWire.writeDone_blank, same]
  | registerLocalIdentity nick publicKeyHex =>
      exact answered (h.registerLocalIdentity env nick publicKeyHex).server stepped
  | startLocalUser => exact guarded (by rw [h.tables]) (h.startLocalUser env) stepped
  | broadcast msg => exact answered (h.broadcast env msg) stepped
  | broadcastServer msg => exact answered (h.broadcastServer env msg) stepped
  | sendPrivate sender target message mirrorToLocal =>
      exact answered (h.sendPrivate env sender target message mirrorToLocal).server stepped
  | createLocalRoom name => exact answered (h.createLocalRoom env name).server stepped
  | joinLocalRoom name => exact answered (h.joinLocalRoom env name).server stepped
  | leaveLocalRoom => exact answered (h.leaveLocalRoom env).server stepped
  | setLocalTopic topic => exact answered (h.setLocalTopic env topic).server stepped
  | showRoomListLocal => exact answered (h.showRoomListLocal env) stepped
  | kickUser nick reason => exact answered (h.kickUser env nick reason).server stepped
  | banUser nick reason => exact answered (h.banUser env nick reason) stepped
  | unbanUser nick => exact answered (h.unbanUser env nick).server stepped
  | createAdminRoom name => exact answered (h.createAdminRoom env name).server stepped
  | setAdminTopic roomName topic =>
      exact answered (h.setAdminTopic env roomName topic).server stepped
  | kickUserInRoom roomName nick reason =>
      exact answered (h.kickUserInRoomNamed env roomName nick reason).server stepped

/-- Runs that receive the same, from servers that are alike. -/
theorem run (h : Alike hidden a b) {events : List Event}
    (ran : Run.run (Chat.step env) a events = some c) :
    ∃ d, Run.run (Chat.step env) b events = some d ∧ Alike hidden c d :=
  @Run.run_simulation _ _ (Chat.step env) _ (Chat.step env) (Alike hidden)
    (fun _ _ _ _ alike stepped => alike.step stepped) _ _ _ _ ran h

end Steps

end Alike

end Chatbox.Chat
