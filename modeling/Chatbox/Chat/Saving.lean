import Chatbox.Chat.Membership
import Chatbox.Chat.Trace
import Chatbox.Storage.Kept

/-!
What a server with a database keeps in memory and what it hands to the database go
together: the writes of an operation do to what was kept before what the operation does
to the tables.
-/

namespace Chatbox.Chat

open Text Protocol Storage

/-- What of the tables is meant to survive. -/
def ServerTables.kept (tables : ServerTables) : Kept where
  rooms roomId := tables.rooms[roomId]?.map fun room =>
    { name := room.name
      topic := room.topic
      ownerNickname := room.ownerNickname
      recentMessages := room.recentMessages }
  identities nick := tables.identities[nick]?
  banned nick := tables.bannedNicks.contains nick

/-- Messages with later and later times on the way from one output to the other, none
before the clock was read. -/
structure Dated (env : Env) (a : ServerOutput) (messages : List StoredMessage) (b : ServerOutput) :
    Prop where
  readings : a.readings ≤ b.readings
  grows : a.lastTimestamp ≤ b.lastTimestamp
  order : messages.Pairwise fun m n => m.sentAt < n.sentAt
  inside : ∀ message ∈ messages,
    a.lastTimestamp < message.sentAt ∧ message.sentAt ≤ b.lastTimestamp
  read : ∀ message ∈ messages,
    ∃ reading < b.readings, env.systemNow reading ≤ message.sentAt

/-- The writes handed over on the way from one server to the other. -/
structure Saved (env : Env) (a b : ChatServer) (writes : List Write) : Prop where
  kept : b.tables.kept = writes.foldl (Kept.write env.historyLimit) a.tables.kept
  dated : Dated env a.output (sentMessages writes) b.output
  lasting : ∀ write ∈ writes, write.Lasting

/-- Everything that has changed has been handed over. -/
def Saves (env : Env) (a b : ChatServer) : Prop :=
  ∃ new, b.output.trace = a.output.trace ++ new ∧ Saved env a b (handedWrites new)

section Dates

variable {env : Env} {a b c : ServerOutput} {messages messages' : List StoredMessage}

theorem Dated.none (readings : a.readings ≤ b.readings)
    (clock : b.lastTimestamp = a.lastTimestamp) : Dated env a [] b :=
  ⟨readings, clock.ge, .nil, nofun, nofun⟩

theorem Dated.append (h : Dated env a messages b) (h' : Dated env b messages' c) :
    Dated env a (messages ++ messages') c := by
  refine ⟨h.readings.trans h'.readings, h.grows.trans h'.grows,
    List.pairwise_append.mpr ⟨h.order, h'.order, ?_⟩, ?_, ?_⟩
  · intro m hm n hn
    exact (h.inside m hm).2.trans_lt (h'.inside n hn).1
  · intro message mem
    obtain mem | mem := List.mem_append.mp mem
    · exact ⟨(h.inside message mem).1, (h.inside message mem).2.trans h'.grows⟩
    · exact ⟨h.grows.trans_lt (h'.inside message mem).1, (h'.inside message mem).2⟩
  · intro message mem
    obtain mem | mem := List.mem_append.mp mem
    · obtain ⟨reading, before, read⟩ := h.read message mem
      exact ⟨reading, before.trans_le h'.readings, read⟩
    · exact h'.read message mem

end Dates

/-- An effect that hands nothing over. -/
def Silent (effect : Effect) : Prop := ∀ write, effect ≠ .store write

/-- Nothing that is kept has changed, and nothing is handed over. -/
structure Still (a b : ChatServer) : Prop where
  kept : b.tables.kept = a.tables.kept
  readings : a.output.readings ≤ b.output.readings
  clock : b.output.lastTimestamp = a.output.lastTimestamp
  emits : Emits Silent a b

theorem handedWrites_silent {new : List Effect} (silent : ∀ e ∈ new, Silent e) :
    handedWrites new = [] := by
  refine List.filterMap_eq_nil_iff.mpr fun e mem => ?_
  cases e with
  | store write => exact absurd rfl (silent _ mem write)
  | _ => rfl

namespace Still

variable {a b c : ChatServer}

theorem refl (a : ChatServer) : Still a a := ⟨rfl, Nat.le_refl _, rfl, .refl a⟩

theorem trans (hab : Still a b) (hbc : Still b c) : Still a c :=
  ⟨hbc.kept.trans hab.kept, hab.readings.trans hbc.readings, hbc.clock.trans hab.clock,
    hab.emits.trans hbc.emits⟩

theorem ite {p : Prop} [Decidable p] (hb : Still a b) (hc : Still a c) :
    Still a (if p then b else c) := by
  split
  · exact hb
  · exact hc

/-- The same thing done once for everything in a list. -/
theorem foldl {α : Type} {act : ChatServer → α → ChatServer}
    (each : ∀ server x, Still server (act server x)) (xs : List α) (a : ChatServer) :
    Still a (xs.foldl act a) := by
  induction xs generalizing a with
  | nil => exact .refl a
  | cons x xs ih => exact (each a x).trans (ih (act a x))

end Still

namespace Saves

variable {env : Env} {a b c : ChatServer}

theorem of_still (h : Still a b) : Saves env a b := by
  obtain ⟨new, trace, silent⟩ := h.emits
  refine ⟨new, trace, ?_⟩
  rw [handedWrites_silent silent]
  exact ⟨h.kept, .none h.readings h.clock, nofun⟩

theorem refl (a : ChatServer) : Saves env a a := .of_still (.refl a)

theorem trans (hab : Saves env a b) (hbc : Saves env b c) : Saves env a c := by
  obtain ⟨new, trace, saved⟩ := hab
  obtain ⟨new', trace', saved'⟩ := hbc
  have split : handedWrites (new ++ new') = handedWrites new ++ handedWrites new' :=
    List.filterMap_append
  refine ⟨new ++ new', by rw [trace', trace, List.append_assoc], ?_, ?_, ?_⟩
  · rw [split, List.foldl_append, ← saved.kept, saved'.kept]
  · rw [split, sentMessages_append]
    exact saved.dated.append saved'.dated
  · intro write mem
    rw [split] at mem
    exact (List.mem_append.mp mem).elim (saved.lasting write) (saved'.lasting write)

theorem thenStill (hab : Saves env a b) (hbc : Still b c) : Saves env a c :=
  hab.trans (.of_still hbc)

theorem ite {p : Prop} [Decidable p] (hb : Saves env a b) (hc : Saves env a c) :
    Saves env a (if p then b else c) := by
  split
  · exact hb
  · exact hc

/-- One write is handed over at the end, and what has changed is what it means. -/
theorem of_write {mid : ChatServer} {write : Write} (emits : Emits Silent a mid)
    (trace : b.output.trace = mid.output.trace ++ [.store write])
    (kept : b.tables.kept = a.tables.kept.write env.historyLimit write)
    (dated : Dated env a.output (sentMessages [write]) b.output)
    (lasting : write.Lasting) : Saves env a b := by
  obtain ⟨new, before, silent⟩ := emits
  have one : handedWrites (new ++ [.store write]) = [write] := by
    have split : handedWrites (new ++ [.store write]) =
        handedWrites new ++ handedWrites [.store write] := List.filterMap_append
    rw [split, handedWrites_silent silent]
    rfl
  refine ⟨new ++ [.store write], by rw [trace, before, List.append_assoc], ?_⟩
  rw [one]
  refine ⟨kept, dated, fun write' mem => ?_⟩
  obtain rfl := List.mem_singleton.mp mem
  exact lasting

end Saves

namespace ChatServer

variable {env : Env} {server : ChatServer} {s : SessionId} {roomId : RoomId} {room : Room}

section Primitives

theorem deliver_still (s : SessionId) (message : ServerMessage) :
    Still server (server.deliver s message) := by
  have clocks : (server.output.deliver s message).readings = server.output.readings ∧
      (server.output.deliver s message).lastTimestamp = server.output.lastTimestamp := by
    unfold ServerOutput.deliver
    simp only
    split
    · exact ⟨rfl, rfl⟩
    · exact ⟨rfl, rfl⟩
  exact ⟨rfl, clocks.1.ge, clocks.2, deliver_emits nofun⟩

theorem close_still (s : SessionId) : Still server (server.close s) :=
  ⟨rfl, Nat.le_refl _, rfl, close_emits nofun⟩

theorem note_still {effect : Effect} (silent : Silent effect) :
    Still server (server.note effect) := ⟨rfl, Nat.le_refl _, rfl, note_emits silent⟩

theorem onHost_still (change : App.AppState → App.AppState) :
    Still server (server.onHost change) := ⟨rfl, Nat.le_refl _, rfl, .of_eq rfl⟩

theorem nextReading_still : Still server server.nextReading.2 :=
  ⟨rfl, Nat.le_succ _, rfl, .of_eq rfl⟩

theorem updateSession_still (s : SessionId) (change : ClientSession → ClientSession) :
    Still server (server.updateSession s change) := ⟨rfl, Nat.le_refl _, rfl, .of_eq rfl⟩

theorem onTables_still {change : ServerTables → ServerTables}
    (kept : (change server.tables).kept = server.tables.kept) :
    Still server (server.onTables change) := ⟨kept, Nat.le_refl _, rfl, .of_eq rfl⟩

theorem updateWire_still (s : SessionId) (change : SessionWire → SessionWire) :
    Still server (server.onOutput fun output => output.updateWire s change) :=
  ⟨rfl, Nat.le_refl _, rfl, .of_eq rfl⟩

theorem deliverAll_still (members : List SessionId) (message : ServerMessage) :
    Still server (server.deliverAll members message) :=
  .foldl (fun _ s => deliver_still s message) members server

theorem deliverTextTo_still (receiver : Option SessionId) (line : Bytes) :
    Still server (server.deliverTextTo receiver line) := by
  cases receiver with
  | none => exact .refl server
  | some s => exact deliver_still s _

theorem noteLeave_still (s : SessionId) (roomId : RoomId) :
    Still server (server.noteLeave s roomId) := .ite (note_still nofun) (.refl server)

theorem deliverHistory_still (s : SessionId) (roomId : RoomId) (name : Bytes)
    (history : List Bytes) : Still server (server.deliverHistory s roomId name history) :=
  .ite (.refl server)
    ((deliver_still s _).trans (.foldl (fun _ _ => deliver_still s _) history _))

end Primitives

section Broadcasts

theorem kept_recordMessage (present : server.tables.rooms[roomId]? = some room) (msg : Bytes)
    {message : StoredMessage} (there : message.roomId = roomId) (body : message.body = msg) :
    (server.recordMessage env roomId room msg).tables.kept =
      server.tables.kept.write env.historyLimit (.storeMessage message) := by
  refine Kept.ext ?_ rfl rfl
  funext r
  simp only [ServerTables.kept, Kept.write, there, body]
  change Option.map _ (server.tables.rooms.insert roomId _)[r]? = _
  rw [OrderedMap.getElem?_insert]
  by_cases same : roomId = r
  · subst same
    rw [if_pos rfl, Function.update_self, present]
    rfl
  · rw [if_neg same, Function.update_of_ne (Ne.symm same)]

/-- The time of a message is later than those before it, whatever the clock does. -/
theorem storeMessage_dated (roomId : RoomId) (nickname msg : Bytes) :
    ∃ message : StoredMessage, message.roomId = roomId ∧ message.body = msg ∧
      (server.storeMessage env roomId nickname msg).output.trace =
        server.output.trace ++ [.store (.storeMessage message)] ∧
      Dated env server.output [message]
        (server.storeMessage env roomId nickname msg).output := by
  have readings : (server.storeMessage env roomId nickname msg).output.readings =
      server.output.readings + 2 := rfl
  have clock : (server.storeMessage env roomId nickname msg).output.lastTimestamp =
      max (env.systemNow (server.output.readings + 1)) (server.output.lastTimestamp + 1) := rfl
  have later := le_max_right (env.systemNow (server.output.readings + 1))
    (server.output.lastTimestamp + 1)
  refine ⟨_, rfl, rfl, rfl, by omega, by omega, List.pairwise_singleton _ _,
    fun message mem => ?_, fun message mem => ⟨server.output.readings + 1, by omega, ?_⟩⟩
  · obtain rfl := List.mem_singleton.mp mem
    exact ⟨Int.add_one_le_iff.mp later, Int.le_refl _⟩
  · obtain rfl := List.mem_singleton.mp mem
    exact le_max_left _ _

/-- A message is added to the history and handed over. -/
theorem broadcastRoom_saves (storage : env.config.hasStorage = true) (roomId : RoomId)
    (msg nickname : Bytes) : Saves env server (server.broadcastRoom env roomId msg nickname) := by
  unfold broadcastRoom
  split
  · exact .refl server
  · next room present =>
      simp only
      rw [if_pos storage]
      generalize hsent : ChatServer.deliverAll _ _ _ = sent
      have recorded : Emits Silent server (server.recordMessage env roomId room msg) :=
        .one rfl nofun
      have still : Still (server.recordMessage env roomId room msg) sent := by
        rw [← hsent]
        exact (Still.ite (onHost_still _) (.refl _)).trans (deliverAll_still _ _)
      obtain ⟨message, there, body, trace, dated⟩ :=
        @storeMessage_dated env sent roomId nickname msg
      have until_sent : Dated env server.output [] sent.output := .none still.readings still.clock
      refine .of_write (recorded.trans still.emits) trace ?_ (until_sent.append dated) nofun
      rw [ServerTables.kept, storeMessage_tables]
      exact still.kept.trans (kept_recordMessage present msg there body)

theorem broadcastUsers_still (roomId : RoomId) :
    Still server (server.broadcastUsers env roomId) := by
  unfold broadcastUsers
  split
  · exact .refl server
  · exact (Still.ite (onHost_still _) (.refl _)).trans (deliverAll_still _ _)

theorem broadcastRoomLists_still : Still server (server.broadcastRoomLists env) :=
  .ite ((deliverAll_still _ _).trans (onHost_still _)) (deliverAll_still _ _)

end Broadcasts

section Moves

theorem announceLeft_saves (storage : env.config.hasStorage = true) (oldId : RoomId)
    (nickname targetName : Bytes) :
    Saves env server (server.announceLeft env oldId nickname targetName) :=
  (broadcastRoom_saves storage oldId _ []).thenStill (broadcastUsers_still oldId)

theorem announceJoined_saves (storage : env.config.hasStorage = true) (roomId : RoomId)
    (nickname name : Bytes) :
    Saves env server (server.announceJoined env roomId nickname name) :=
  ((broadcastRoom_saves storage roomId _ []).thenStill (broadcastUsers_still roomId)).thenStill
    broadcastRoomLists_still

theorem announceGone_saves (storage : env.config.hasStorage = true) (roomId : RoomId)
    (nickname : Bytes) (announce : Bool) :
    Saves env server (server.announceGone env roomId nickname announce) :=
  ((Saves.ite (broadcastRoom_saves storage roomId _ []) (.refl server)).thenStill
    (broadcastUsers_still roomId)).thenStill broadcastRoomLists_still

/-- Who is in a room is not kept. -/
theorem kept_members (tables : ServerTables) (roomId : RoomId) (members : Room → SessionSet) :
    (tables.updateRoom roomId fun room => { room with members := members room }).kept =
      tables.kept := by
  refine Kept.ext ?_ rfl rfl
  funext r
  simp only [ServerTables.kept, ServerTables.updateRoom, OrderedMap.getElem?_modify]
  split
  · rw [Option.map_map]
    rfl
  · rfl

theorem kept_placeSession (tables : ServerTables) (s : SessionId) (roomId : RoomId) :
    (tables.placeSession s roomId).kept = tables.kept :=
  (kept_members (tables.eraseMember s (tables.session s).activeRoomId) roomId fun room =>
    room.members.insert s).trans (kept_members tables _ fun room => room.members.erase s)

theorem moveSessionToRoom_saves (storage : env.config.hasStorage = true) (s : SessionId)
    (targetId : RoomId) (announceMove : Bool) :
    Saves env server (server.moveSessionToRoom env s targetId announceMove) := by
  unfold moveSessionToRoom
  simp only
  split
  · exact .refl server
  · next target present =>
      have entered : Still server (((server.noteLeave s
          (server.tables.session s).activeRoomId).onTables fun tables =>
            tables.placeSession s targetId).note (.enter s targetId target.recentMessages)) :=
        ((noteLeave_still s _).trans (onTables_still (kept_placeSession _ s targetId))).trans
          (note_still nofun)
      refine ((Saves.ite ?_ (.of_still entered)).thenStill
        ((deliver_still s _).trans (deliverHistory_still s _ _ _))).trans
          (announceJoined_saves storage _ _ _)
      exact (Saves.of_still entered).trans (announceLeft_saves storage _ _ _)

theorem moveLocalToRoom_saves (storage : env.config.hasStorage = true) (targetId : RoomId)
    (announceMove : Bool) :
    Saves env server (server.moveLocalToRoom env targetId announceMove) := by
  unfold moveLocalToRoom
  simp only
  split
  · exact .refl server
  · next target present =>
      have placed : Still server (server.onTables fun tables =>
          { tables with localRoomId := targetId }) := onTables_still rfl
      have told := Saves.ite (p := announceMove && server.tables.localRoomId != 0)
        ((Saves.of_still placed).trans (announceLeft_saves storage server.tables.localRoomId
          env.config.localNickname target.name)) (.of_still placed)
      refine ((told.thenStill (onHost_still (·.activateRoom target.id target.name
        target.topic))).thenStill ?_).trans (announceJoined_saves storage _ _ _)
      exact .ite (onHost_still _) (.refl _)

theorem disconnect_saves (storage : env.config.hasStorage = true) (s : SessionId)
    (announce : Bool) : Saves env server (server.disconnect env s announce) := by
  unfold disconnect
  simp only
  have left : Still server ((server.onTables fun tables =>
      { tables with sessions := tables.sessions.erase s }).updateSession s fun session =>
        { session with activeRoomId := 0 }) := (onTables_still rfl).trans (updateSession_still s _)
  refine .ite (.of_still left) ?_
  have erased : Still server ((((server.onTables fun tables =>
      { tables with sessions := tables.sessions.erase s }).updateSession s fun session =>
        { session with activeRoomId := 0 }).noteLeave s
          (server.tables.session s).activeRoomId).onTables fun tables =>
            tables.eraseMember s (server.tables.session s).activeRoomId) :=
    (left.trans (noteLeave_still s _)).trans
      (onTables_still (kept_members _ _ fun room => room.members.erase s))
  exact .ite ((Saves.of_still erased).trans (announceGone_saves storage _ _ _)) (.of_still erased)

theorem startLocalUser_still : Still server (server.startLocalUser env) := by
  unfold startLocalUser
  refine .ite (.refl server) ?_
  split
  · exact .refl server
  · exact (((onTables_still rfl).trans (onHost_still _)).trans (broadcastUsers_still _)).trans
      broadcastRoomLists_still

end Moves

section Rooms

/-- A room that is new, without a history, is handed over with its id. -/
theorem persistRoom_saves (storage : env.config.hasStorage = true)
    (fresh : roomId ∉ server.tables.rooms) (own : room.id = roomId)
    (empty : room.recentMessages = []) {added : ChatServer}
    (rooms : ∀ r : RoomId, added.tables.rooms[r]? =
      if roomId = r then some room else server.tables.rooms[r]?)
    (identities : added.tables.identities = server.tables.identities)
    (bans : added.tables.bannedNicks = server.tables.bannedNicks)
    (output : added.output = server.output) :
    Saves env server (added.persistRoom env roomId) := by
  have present := (rooms roomId).trans (if_pos rfl)
  have silent : Emits Silent server added.nextReading.2 := .of_eq (congrArg (·.trace) output)
  simp only [persistRoom, storage, present, Bool.not_true, Bool.false_eq_true, if_false]
  refine .of_write silent rfl (Kept.ext ?_ ?_ ?_) ?_ nofun
  · funext r
    change (added.tables.rooms[r]?).map _ = _
    rw [rooms]
    simp only [Kept.write, ServerTables.kept, own, Std.ExtTreeMap.getElem?_eq_none fresh]
    by_cases same : roomId = r
    · subst same
      rw [if_pos rfl, Function.update_self, Option.map_some, empty]
      rfl
    · rw [if_neg same, Function.update_of_ne (Ne.symm same)]
  · funext nick
    exact congrArg (·[nick]?) identities
  · funext nick
    exact congrArg (·.contains nick) bans
  · refine .none ?_ ?_
    · change server.output.readings ≤ added.output.readings + 1
      rw [output]
      exact Nat.le_succ _
    · exact congrArg (·.lastTimestamp) output

theorem insertRoom_getElem? {tables : ServerTables} {id : RoomId} (fresh : id ∉ tables.rooms)
    (room : Room) (r : RoomId) :
    (tables.insertRoom id room).rooms[r]? = if id = r then some room else tables.rooms[r]? := by
  rw [ServerTables.insertRoom, OrderedMap.getElem?_insertIfNew]
  split
  · next same =>
      subst same
      rw [Std.ExtTreeMap.getElem?_eq_none fresh]
      rfl
  · rfl

theorem addRoom_saves (storage : env.config.hasStorage = true)
    (fresh : server.tables.nextRoomId ∉ server.tables.rooms) (name ownerNickname : Bytes) :
    Saves env server ((server.onTables fun tables =>
      tables.insertRoom server.tables.nextRoomId
        { id := server.tables.nextRoomId, name, ownerNickname }).persistRoom env
          server.tables.nextRoomId) :=
  persistRoom_saves storage fresh rfl rfl (insertRoom_getElem? fresh _) rfl rfl rfl

theorem createRoom_saves (storage : env.config.hasStorage = true)
    (wf : server.tables.RoomsWellFormed) (s : SessionId) (name : Bytes) :
    Saves env server (server.createRoom env s name).1 := by
  unfold createRoom
  rcases server.addRoom_cases name (server.tables.session s).nickname with
    ⟨⟨error, refused⟩, -⟩ | ⟨added, -⟩
  · rw [refused]
    exact .refl server
  · rw [added]
    exact (addRoom_saves storage wf.fresh _ _).trans (moveSessionToRoom_saves storage s _ true)

theorem createLocalRoom_saves (storage : env.config.hasStorage = true)
    (wf : server.tables.RoomsWellFormed) (name : Bytes) :
    Saves env server (server.createLocalRoom env name).1 := by
  unfold createLocalRoom
  split
  · exact .refl server
  · rcases server.addRoom_cases name env.config.localNickname with
      ⟨⟨error, refused⟩, -⟩ | ⟨added, -⟩
    · rw [refused]
      exact .refl server
    · rw [added]
      exact (addRoom_saves storage wf.fresh _ _).trans (moveLocalToRoom_saves storage _ true)

/-- A room that is added under a new name is the one with that name. -/
theorem findRoomByName_insertRoom {tables : ServerTables} {id : RoomId} {room : Room}
    (unknown : id ∉ tables.rooms) (unnamed : tables.findRoomByName room.name = none) :
    (tables.insertRoom id room).findRoomByName room.name = some (id, room) := by
  have lookup := insertRoom_getElem? unknown room
  have listed : (id, room) ∈ (tables.insertRoom id room).rooms.toList :=
    Std.ExtTreeMap.mem_toList_iff_getElem?_eq_some.mpr ((lookup id).trans (if_pos rfl))
  cases found : (tables.insertRoom id room).findRoomByName room.name with
  | none =>
      have other := List.find?_eq_none.mp found (id, room) listed
      simp at other
  | some item =>
      have named := List.find?_some found
      have present := Std.ExtTreeMap.mem_toList_iff_getElem?_eq_some.mp
        (List.mem_of_find?_eq_some found)
      rw [lookup] at present
      split at present
      · next same => rw [Option.some.inj present, same]
      · have old := List.find?_eq_none.mp unnamed item
          (Std.ExtTreeMap.mem_toList_iff_getElem?_eq_some.mpr present)
        exact absurd named old

/-- The room is looked up by its name again, and found. -/
theorem createAdminRoom_saves (storage : env.config.hasStorage = true)
    (wf : server.tables.RoomsWellFormed) (name : Bytes) :
    Saves env server (server.createAdminRoom env name).1 := by
  unfold createAdminRoom
  rcases server.addRoom_cases name [] with ⟨⟨error, refused⟩, -⟩ | ⟨added, can⟩
  · rw [refused]
    exact .refl server
  · rw [added]
    simp only [canAddRoom, Bool.and_eq_true, Option.isNone_iff_eq_none] at can
    have found : ServerTables.findRoomByName (server.onTables fun tables =>
        tables.insertRoom server.tables.nextRoomId
          { id := server.tables.nextRoomId, name, ownerNickname := [] }).tables name =
        some (server.tables.nextRoomId,
          { id := server.tables.nextRoomId, name, ownerNickname := [] }) :=
      findRoomByName_insertRoom wf.fresh can.2
    simp only [found]
    exact (addRoom_saves storage wf.fresh _ _).thenStill broadcastRoomLists_still

theorem joinRoom_saves (storage : env.config.hasStorage = true) (s : SessionId) (name : Bytes) :
    Saves env server (server.joinRoom env s name).1 := by
  unfold joinRoom
  split
  · exact .refl server
  · split
    · exact .refl server
    · exact moveSessionToRoom_saves storage s _ true

theorem leaveRoom_saves (storage : env.config.hasStorage = true) (s : SessionId) :
    Saves env server (server.leaveRoom env s).1 := by
  unfold leaveRoom
  split
  · exact .refl server
  · exact moveSessionToRoom_saves storage s _ true

theorem joinLocalRoom_saves (storage : env.config.hasStorage = true) (name : Bytes) :
    Saves env server (server.joinLocalRoom env name).1 := by
  unfold joinLocalRoom
  split
  · exact .refl server
  · split
    · exact .refl server
    · exact moveLocalToRoom_saves storage _ true

theorem leaveLocalRoom_saves (storage : env.config.hasStorage = true) :
    Saves env server (server.leaveLocalRoom env).1 := by
  unfold leaveLocalRoom
  split
  · exact .refl server
  · exact moveLocalToRoom_saves storage _ true

theorem showRoomListLocal_still : Still server (server.showRoomListLocal env) := by
  unfold showRoomListLocal
  exact onHost_still _

theorem sendTopic_still (s : SessionId) : Still server (server.sendTopic s) := by
  unfold sendTopic
  simp only
  split
  · exact .refl server
  · exact deliver_still s _

theorem kept_topic (tables : ServerTables) (roomId : RoomId) (topic : Bytes) (limit : Nat) :
    (tables.updateRoom roomId fun room => { room with topic }).kept =
      tables.kept.write limit (.updateRoomTopic roomId topic) := by
  refine Kept.ext ?_ rfl rfl
  funext r
  simp only [ServerTables.kept, ServerTables.updateRoom, OrderedMap.getElem?_modify, Kept.write]
  by_cases same : roomId = r
  · subst same
    rw [if_pos rfl, Function.update_self, Option.map_map, Option.map_map]
    rfl
  · rw [if_neg same, Function.update_of_ne (Ne.symm same)]

theorem setTopicForRoom_saves (storage : env.config.hasStorage = true) (roomId : RoomId)
    (actor : Bytes) (privileged : Bool) (topic : Bytes) :
    Saves env server (server.setTopicForRoom env roomId actor privileged topic).1 := by
  unfold setTopicForRoom
  split
  · exact .refl server
  · split
    · exact .refl server
    · split
      · exact .refl server
      · next room present owner =>
          simp only
          have silent : Emits Silent server (server.onTables fun tables =>
            tables.updateRoom roomId fun room => { room with topic }) := .of_eq rfl
          have stored : Saves env server ((server.onTables fun tables =>
              tables.updateRoom roomId fun room => { room with topic }).store
                (.updateRoomTopic roomId topic)) :=
            .of_write silent rfl (kept_topic _ roomId topic _) (.none (Nat.le_refl _) rfl) nofun
          have told := stored.thenStill (deliverAll_still room.members.toList
            (.roomTopic roomId topic))
          exact (told.thenStill (.ite (onHost_still _) (.refl _))).trans
            (broadcastRoom_saves storage roomId _ [])

theorem setAdminTopic_saves (storage : env.config.hasStorage = true) (roomName topic : Bytes) :
    Saves env server (server.setAdminTopic env roomName topic).1 := by
  unfold setAdminTopic
  split
  · exact .refl server
  · exact setTopicForRoom_saves storage _ _ true topic

end Rooms

section Moderation

theorem sendPrivateInRoom_still (sender target message : Bytes) (roomId : RoomId)
    (mirrorToLocal : Bool) :
    Still server (server.sendPrivateInRoom env sender target message roomId mirrorToLocal).1 := by
  unfold sendPrivateInRoom
  split
  · exact .refl server
  · simp only
    split
    · exact .ite ((deliverTextTo_still _ _).trans (onHost_still _)) (deliverTextTo_still _ _)
    · have told (receiver : Option SessionId) (line : Bytes) (app : App.AppState → App.AppState)
          {p : Prop} [Decidable p] : Still server
            ((if p then server.nextReading.2.onHost app else server.nextReading.2).deliverTextTo
              receiver line) :=
        (nextReading_still.trans (.ite (onHost_still _) (.refl _))).trans
          (deliverTextTo_still receiver line)
      exact .ite ((told _ _ _).trans (deliverTextTo_still _ _)) (told _ _ _)

theorem kickUserInRoom_saves (storage : env.config.hasStorage = true) (roomId : RoomId)
    (nick reason : Bytes) : Saves env server (server.kickUserInRoom env roomId nick reason).1 := by
  unfold kickUserInRoom
  split
  · exact .refl server
  · split
    · exact .refl server
    · next target found =>
        have closed : Still server ((server.deliver target (.kick nick reason)).close target) :=
          (deliver_still target _).trans (close_still target)
        exact (((Saves.of_still closed).trans (disconnect_saves storage target false)).trans
          (broadcastRoom_saves storage roomId _ [])).thenStill (broadcastUsers_still roomId)

theorem kickUser_saves (storage : env.config.hasStorage = true) (nick reason : Bytes) :
    Saves env server (server.kickUser env nick reason).1 := by
  unfold kickUser
  simp only
  split
  · exact kickUserInRoom_saves storage _ nick reason
  · exact .refl server

theorem kickUserInRoomNamed_saves (storage : env.config.hasStorage = true)
    (roomName nick reason : Bytes) :
    Saves env server (server.kickUserInRoomNamed env roomName nick reason).1 := by
  unfold kickUserInRoomNamed
  split
  · exact .refl server
  · simp only
    split
    · exact kickUserInRoom_saves storage _ nick reason
    · exact kickUserInRoom_saves storage _ nick reason

theorem kickFrom_saves (storage : env.config.hasStorage = true) (requester : SessionId)
    (nick reason : Bytes) : Saves env server (server.kickFrom env requester nick reason).1 := by
  unfold kickFrom
  simp only
  split
  · exact .refl server
  · split
    · exact .refl server
    · split
      · exact .refl server
      · split
        · exact kickUserInRoom_saves storage _ nick reason
        · exact kickUserInRoom_saves storage _ nick reason

theorem banUser_saves (storage : env.config.hasStorage = true) (nick reason : Bytes) :
    Saves env server (server.banUser env nick reason) := by
  unfold banUser
  simp only
  rw [if_pos storage]
  generalize hstored : ChatServer.store _ _ = stored
  have saved : Saves env server stored := by
    rw [← hstored]
    refine .of_write (.of_eq rfl) rfl ?_ (.none (Nat.le_succ _) rfl) ?_
    · refine Kept.ext rfl rfl ?_
      funext n
      change (server.tables.bannedNicks.insert nick).contains n = _
      simp only [Kept.write, ServerTables.kept, Std.ExtTreeSet.contains_insert]
      by_cases same : n = nick
      · subst same
        simp
      · simp [Function.update_of_ne same, Ne.symm same]
    · rintro ban e
      cases e
      rfl
  split
  · exact saved
  · next target found =>
      have closed : Still stored ((stored.deliver target
          (.kick nick (if reason.isEmpty then ascii "banned" else reason))).close target) :=
        (deliver_still target _).trans (close_still target)
      exact (((saved.thenStill closed).trans (disconnect_saves storage target false)).trans
        (broadcastRoom_saves storage _ _ [])).thenStill (broadcastUsers_still _)

theorem unbanUser_saves (storage : env.config.hasStorage = true) (nick : Bytes) :
    Saves env server (server.unbanUser env nick).1 := by
  unfold unbanUser
  simp only
  rw [if_pos storage]
  split
  · refine .of_write (.of_eq rfl) rfl ?_ (.none (Nat.le_refl _) rfl) nofun
    refine Kept.ext rfl rfl ?_
    funext n
    change (server.tables.bannedNicks.erase nick).contains n = _
    simp only [Kept.write, ServerTables.kept, Std.ExtTreeSet.contains_erase]
    by_cases same : n = nick
    · subst same
      simp
    · simp [Function.update_of_ne same, Ne.symm same]
  · next absent =>
      refine .of_still (onTables_still (Kept.ext rfl rfl ?_))
      funext n
      change (server.tables.bannedNicks.erase nick).contains n = server.tables.bannedNicks.contains n
      rw [Std.ExtTreeSet.contains_erase]
      by_cases same : n = nick
      · subst same
        rw [Bool.eq_false_iff.mpr absent]
        simp
      · simp [Ne.symm same]

theorem bindIdentity_saves (storage : env.config.hasStorage = true) (nick publicKeyHex : Bytes) :
    Saves env server (server.bindIdentity env nick publicKeyHex).1 := by
  unfold bindIdentity
  split
  · exact .refl server
  · simp only
    rw [if_pos storage]
    refine .of_write (.of_eq rfl) rfl ?_ (.none (Nat.le_refl _) rfl) nofun
    refine Kept.ext rfl ?_ rfl
    funext n
    change (server.tables.identities.insert nick publicKeyHex)[n]? = _
    simp only [Kept.write, ServerTables.kept, OrderedMap.getElem?_insert]
    by_cases same : nick = n
    · subst same
      simp
    · simp [Function.update_of_ne (Ne.symm same), same]

theorem registerLocalIdentity_saves (storage : env.config.hasStorage = true)
    (nick publicKeyHex : Bytes) :
    Saves env server (server.registerLocalIdentity env nick publicKeyHex).1 := by
  unfold registerLocalIdentity
  split
  · exact .refl server
  · exact bindIdentity_saves storage nick publicKeyHex

end Moderation

section ReadLoop

theorem stopReading_still (s : SessionId) : Still server (server.stopReading s) :=
  updateSession_still s _

theorem reject_saves (storage : env.config.hasStorage = true) (s : SessionId)
    (message : ServerMessage) : Saves env server (server.reject env s message) :=
  ((Saves.of_still ((deliver_still s message).trans (close_still s))).trans
    (disconnect_saves storage s false)).thenStill (stopReading_still s)

theorem reportError_saves {result : ChatServer × Option Bytes} (s : SessionId)
    (h : Saves env server result.1) : Saves env server (reportError s result) := by
  unfold reportError
  split
  · exact h.thenStill (deliver_still s _)
  · exact h

theorem consumeMessageQuota_still (s : SessionId) :
    Still server (server.consumeMessageQuota env s).2 :=
  nextReading_still.trans (updateSession_still s _)

/-- What a session without a nickname is answered. -/
theorem answer_saves {p : Prop} [Decidable p] (s : SessionId) (message : ServerMessage)
    {b : ChatServer} (h : Saves env server b) :
    Saves env server (if p then server.deliver s message else b) :=
  .ite (.of_still (deliver_still s message)) h

theorem onHello_still (s : SessionId) (version : UInt32) :
    Still server (server.onHello env s version) :=
  .ite (deliver_still s _) ((updateSession_still s _).trans (deliver_still s _))

theorem onAuthenticate_saves (storage : env.config.hasStorage = true) (s : SessionId)
    (password : Bytes) : Saves env server (server.onAuthenticate env s password) :=
  .ite (.of_still ((updateSession_still s _).trans (deliver_still s _))) (reject_saves storage s _)

theorem onIdentify_saves (storage : env.config.hasStorage = true) (s : SessionId)
    (nick publicKeyHex : Bytes) :
    Saves env server (server.onIdentify env s nick publicKeyHex) := by
  unfold onIdentify
  refine answer_saves s _ ?_
  split
  · exact reject_saves storage s _
  · refine .ite (reject_saves storage s _) (.ite (reject_saves storage s _) ?_)
    exact .of_still ((nextReading_still.trans (updateSession_still s _)).trans (deliver_still s _))

theorem acceptProof_saves (storage : env.config.hasStorage = true) (s : SessionId)
    (nick publicKeyHex challenge : Bytes) :
    Saves env server (server.acceptProof env s nick publicKeyHex challenge) := by
  have admitted : Still server
      ((server.takeNickname s nick).note (.admitted s nick publicKeyHex challenge)) :=
    (updateSession_still s _).trans (note_still nofun)
  have told := (admitted.trans (deliver_still s (.identityAccepted
    (identityFingerprint publicKeyHex)))).trans (deliver_still s .joinAccepted)
  exact (Saves.of_still told).trans (moveSessionToRoom_saves storage s DEFAULT_ROOM_ID false)

theorem onProof_saves (storage : env.config.hasStorage = true) (s : SessionId)
    (signatureHex : Bytes) : Saves env server (server.onProof env s signatureHex) := by
  unfold onProof
  refine answer_saves s _ (.ite (reject_saves storage s _) (.ite (reject_saves storage s _)
    (.ite (reject_saves storage s _) (.ite (reject_saves storage s _) ?_))))
  have bound := @bindIdentity_saves env server storage (server.tables.session s).pendingNickname
    (server.tables.session s).pendingPublicKeyHex
  exact .ite (bound.trans (reject_saves storage s _)) (bound.trans (acceptProof_saves storage s _ _ _))

theorem onDisconnect_saves (storage : env.config.hasStorage = true) (s : SessionId) :
    Saves env server (server.onDisconnect env s) :=
  (disconnect_saves storage s true).thenStill ((close_still s).trans (stopReading_still s))

theorem onTopicRequest_saves (storage : env.config.hasStorage = true) (s : SessionId)
    (topic : Option Bytes) : Saves env server (server.onTopicRequest env s topic) := by
  refine answer_saves s _ ?_
  cases topic with
  | none => exact .of_still (sendTopic_still s)
  | some topic => exact reportError_saves s (setTopicForRoom_saves storage _ _ false topic)

theorem onChat_saves (storage : env.config.hasStorage = true) (s : SessionId) (body : Bytes) :
    Saves env server (server.onChat env s body) := by
  have counted := @consumeMessageQuota_still env server s
  refine answer_saves s _ (.ite (.of_still (counted.trans (deliver_still s _)))
    (.ite (.of_still (counted.trans (deliver_still s _))) ?_))
  exact (Saves.of_still (counted.trans nextReading_still)).trans (broadcastRoom_saves storage _ _ _)

theorem onWhisper_still (s : SessionId) (target body : Bytes) :
    Still server (server.onWhisper env s target body) := by
  have counted := @consumeMessageQuota_still env server s
  exact .ite (deliver_still s _) (.ite (counted.trans (deliver_still s _))
    (.ite (counted.trans (deliver_still s _)) (counted.trans (sendPrivateInRoom_still _ _ _ _ _))))

theorem onAdmittedMessage_saves (storage : env.config.hasStorage = true)
    (wf : server.tables.RoomsWellFormed) (s : SessionId) (message : ClientMessage) :
    Saves env server (server.onAdmittedMessage env s message) := by
  cases message with
  | identify nick publicKeyHex => exact onIdentify_saves storage s nick publicKeyHex
  | identityProof signatureHex => exact onProof_saves storage s signatureHex
  | leave => exact answer_saves s _ (reportError_saves s (leaveRoom_saves storage s))
  | disconnect => exact onDisconnect_saves storage s
  | listRooms => exact answer_saves s _ (.of_still (deliver_still s _))
  | createRoom name => exact answer_saves s _ (reportError_saves s (createRoom_saves storage wf s name))
  | joinRoom name => exact answer_saves s _ (reportError_saves s (joinRoom_saves storage s name))
  | topicRequest topic => exact onTopicRequest_saves storage s topic
  | chat body => exact onChat_saves storage s body
  | whisper target body => exact .of_still (onWhisper_still s target body)
  | kickRequest nickname reason =>
      exact answer_saves s _ (reportError_saves s (kickFrom_saves storage s nickname reason))
  | hello version => exact .of_still (deliver_still s _)
  | authenticate password => exact .of_still (deliver_still s _)

theorem onMessage_saves (storage : env.config.hasStorage = true)
    (wf : server.tables.RoomsWellFormed) (s : SessionId) (message : ClientMessage) :
    Saves env server (server.onMessage env s message) := by
  have read : Saves env server (server.note (.received s message)) := .of_still (note_still nofun)
  refine read.trans ?_
  rcases server.onMessage_cases env s message with ⟨version, -, e⟩ | ⟨-, -, e⟩ |
    ⟨-, password, -, e⟩ | ⟨-, -, -, -, e⟩ | ⟨-, -, -, e⟩
  · rw [e]
    exact .of_still (onHello_still s version)
  · rw [e]
    exact reject_saves storage s _
  · rw [e]
    exact onAuthenticate_saves storage s password
  · rw [e]
    exact .of_still (deliver_still s _)
  · rw [e]
    exact @onAdmittedMessage_saves env (server.note (.received s message)) storage wf s message

theorem onLine_saves (storage : env.config.hasStorage = true)
    (wf : server.tables.RoomsWellFormed) (s : SessionId) (line : Bytes) :
    Saves env server (server.onLine env s line) := by
  unfold onLine
  split
  · exact onMessage_saves storage wf s _
  · exact .ite (reject_saves storage s _) (.of_still (deliver_still s _))

theorem onHandshake_saves (storage : env.config.hasStorage = true) (s : SessionId) (ok : Bool) :
    Saves env server (server.onHandshake env s ok) := by
  refine .ite ?_ (.of_still ((deliver_still s _).trans (updateSession_still s _)))
  exact (disconnect_saves storage s false).thenStill
    ((updateWire_still s _).trans (stopReading_still s))

end ReadLoop

end ChatServer

open ChatServer in
theorem step_saves {env : Env} {server server' : ChatServer} {event : Event}
    (storage : env.config.hasStorage = true) (wf : server.tables.RoomsWellFormed)
    (stepped : step env server event = some server') : Saves env server server' := by
  have answered {b : ChatServer} (h : Saves env server b) (e : some b = some server') :
      Saves env server server' := by
    cases e
    exact h
  have guarded {p : Prop} [Decidable p] {b : ChatServer} (h : Saves env server b)
      (e : (if p then some b else none) = some server') : Saves env server server' := by
    split at e
    · exact answered h e
    · cases e
  cases event with
  | accept s => exact guarded (.of_still ((onTables_still rfl).trans (updateSession_still s _))) stepped
  | handshake s ok => exact guarded (onHandshake_saves storage s ok) stepped
  | line s line => exact guarded (onLine_saves storage wf s line) stepped
  | readError s =>
      exact guarded ((disconnect_saves storage s _).thenStill (stopReading_still s)) stepped
  | posted s =>
      simp only [step] at stepped
      split at stepped
      · cases stepped
      · exact answered (.of_still (updateWire_still s _)) stepped
  | writeDone s ok => exact guarded (.of_still (updateWire_still s _)) stepped
  | registerLocalIdentity nick publicKeyHex =>
      exact answered (registerLocalIdentity_saves storage nick publicKeyHex) stepped
  | startLocalUser => exact guarded (.of_still startLocalUser_still) stepped
  | broadcast msg => exact answered (broadcastRoom_saves storage _ msg []) stepped
  | broadcastServer msg =>
      refine answered ?_ stepped
      unfold broadcastServer
      generalize server.tables.rooms.keys = ids
      clear stepped answered guarded wf
      induction ids generalizing server with
      | nil => exact .refl server
      | cons id ids ih => exact (broadcastRoom_saves storage id _ []).trans ih
  | sendPrivate sender target message mirrorToLocal =>
      exact answered (.of_still (sendPrivateInRoom_still _ _ _ _ _)) stepped
  | createLocalRoom name => exact answered (createLocalRoom_saves storage wf name) stepped
  | joinLocalRoom name => exact answered (joinLocalRoom_saves storage name) stepped
  | leaveLocalRoom => exact answered (leaveLocalRoom_saves storage) stepped
  | setLocalTopic topic => exact answered (setTopicForRoom_saves storage _ _ true topic) stepped
  | showRoomListLocal => exact answered (.of_still showRoomListLocal_still) stepped
  | kickUser nick reason => exact answered (kickUser_saves storage nick reason) stepped
  | banUser nick reason => exact answered (banUser_saves storage nick reason) stepped
  | unbanUser nick => exact answered (unbanUser_saves storage nick) stepped
  | createAdminRoom name => exact answered (createAdminRoom_saves storage wf name) stepped
  | setAdminTopic roomName topic => exact answered (setAdminTopic_saves storage roomName topic) stepped
  | kickUserInRoom roomName nick reason =>
      exact answered (kickUserInRoomNamed_saves storage roomName nick reason) stepped

theorem run_saves {env : Env} {server server' : ChatServer} {events : List Event}
    (storage : env.config.hasStorage = true) (consistent : server.tables.Consistent)
    (ran : Run.run (step env) server events = some server') : Saves env server server' := by
  have both := Run.run_invariant
    (fun a event b (h : a.tables.Consistent ∧ Saves env server a) stepped =>
      ⟨step_consistent stepped h.1, h.2.trans (step_saves storage h.1.rooms stepped)⟩)
    ran ⟨consistent, .refl server⟩
  exact both.2

end Chatbox.Chat
