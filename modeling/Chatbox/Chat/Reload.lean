import Chatbox.Chat.Speaking

/-!
Starting again on a database that servers driven by clients have left. What such a
server stored can be said again, so that the rooms it starts with are sound, and so is
all that follows.
-/

namespace Chatbox.Chat

open Text Protocol Storage

/-- A database that has just been made: it has the lobby. -/
def newDatabase (createdAt : Int) : Database where
  rooms :=
    [{ id := DEFAULT_ROOM_ID
       name := ascii "lobby"
       topic := ascii "Welcome to the lobby"
       ownerNickname := []
       createdAt }]
  identities := []
  bans := []
  messages := []
  roomIds := List.nodup_singleton _
  roomNames := List.nodup_singleton _
  nicknames := List.nodup_nil
  banned := List.nodup_nil
  messageIds := List.nodup_nil
  messageRooms := nofun

def RowIds (db : Database) : Prop := ∀ room ∈ db.rooms, 0 < room.id ∧ room.id.toNat < 2 ^ 63

instance (db : Database) : Decidable (RowIds db) := inferInstanceAs (Decidable (∀ _ ∈ _, _))

theorem mem_loadRooms {db : Database} {row : StoredRoom} (h : row ∈ db.loadRooms) :
    ∃ room ∈ db.rooms, row =
      { room with
        name := columnText room.name
        topic := columnText room.topic
        ownerNickname := columnText room.ownerNickname } := by
  obtain ⟨room, hm, rfl⟩ := List.mem_map.mp h
  exact ⟨room, (List.mem_insertionSort _).mp hm, rfl⟩

/-- What `load_persistent_state` reads of a database. -/
def openedStore (db : Database) (now : Int) (rowIds : RowIds db) : StoredState where
  rooms := db.loadRooms
  history roomId limit := (loadHistory db.messages roomId limit none).messages
  identities := db.loadIdentities
  bans := (db.loadBans now).1.map fun ban => ban.nickname
  rowIds := by
    intro row h
    obtain ⟨room, hm, rfl⟩ := mem_loadRooms h
    exact rowIds room hm

/-- The databases that so many runs of servers driven by clients leave: each run opens one and
executes writes that the server has handed over, in any order and not always all. -/
inductive LeftByClients : Nat → Database → Prop where
  | created (createdAt : Int) : LeftByClients 0 (newDatabase createdAt)
  | ran {runs : Nat} {db db' : Database} {env : Env} {now : Int} {events : List Event}
      {server : ChatServer} {writes : List Write} (rowIds : RowIds db)
      (before : LeftByClients runs db)
      (storage : env.config.hasStorage = true)
      (clients : ∀ event ∈ events, event.ofClients = true)
      (run : Run.run (step env) (ChatServer.start env (openedStore db now rowIds)) events =
        some server)
      (written : ∀ write ∈ writes, .store write ∈ server.output.trace)
      (executed : (db.loadBans now).2.executeAll writes = .ok db') : LeftByClients (runs + 1) db'

/-- A server without a database, or with such a one. -/
def FromClients (env : Env) (stored : StoredState) : Prop :=
  env.config.hasStorage = true →
    ∃ runs db now rowIds, LeftByClients runs db ∧ stored = openedStore db now rowIds

/-- A database whose rooms are known, and whose texts can be said. -/
structure Durable (known : Finset RoomId) (db : Database) : Prop where
  room : ∀ room ∈ db.rooms,
    room.id ∈ known ∧ isValidRoomName room.name = true ∧ isValidRoomTopic room.topic = true
  message : ∀ message ∈ db.messages, Line message.body

section Writes

variable {known : Finset RoomId} {db db' : Database} {write : Write} {writes : List Write}

theorem executeWrite_durable (h : Durable known db) (sound : WriteSound (· ∈ known) write)
    (executed : db.executeWrite write = .ok db') : Durable known db' := by
  cases write with
  | storeRoom room =>
      simp only [Database.executeWrite, Database.storeRoom] at executed
      split at executed
      · obtain rfl := Except.ok.inj executed
        refine ⟨fun row mem => ?_, h.message⟩
        obtain before | rfl | ⟨old, before, rfl⟩ := Table.mem_upsert mem
        · exact h.room row before
        · exact sound
        · exact ⟨(h.room old before).1, sound.2⟩
      · cases executed
  | updateRoomTopic roomId topic =>
      obtain rfl := Except.ok.inj executed
      refine ⟨fun row mem => ?_, h.message⟩
      obtain before | ⟨old, before, rfl⟩ := Table.mem_update mem
      · exact h.room row before
      · exact ⟨(h.room old before).1, (h.room old before).2.1, sound⟩
  | storeIdentity nickname publicKey =>
      obtain rfl := Except.ok.inj executed
      exact ⟨h.room, h.message⟩
  | storeBan ban =>
      obtain rfl := Except.ok.inj executed
      exact ⟨h.room, h.message⟩
  | removeBan nickname =>
      obtain rfl := Except.ok.inj executed
      exact ⟨h.room, h.message⟩
  | storeMessage message =>
      simp only [Database.executeWrite, Database.storeMessage] at executed
      split at executed
      · obtain rfl := Except.ok.inj executed
        exact h
      · split at executed
        · obtain rfl := Except.ok.inj executed
          exact ⟨h.room, forall_mem_append_single h.message sound⟩
        · cases executed

theorem executeAll_durable (h : Durable known db)
    (sound : ∀ write ∈ writes, WriteSound (· ∈ known) write)
    (executed : db.executeAll writes = .ok db') : Durable known db' := by
  induction writes generalizing db with
  | nil =>
      cases executed
      exact h
  | cons write writes ih =>
      rw [Database.executeAll, List.foldlM_cons] at executed
      cases first : db.executeWrite write with
      | error detail =>
          rw [first] at executed
          cases executed
      | ok next =>
          rw [first] at executed
          exact ih (executeWrite_durable h (sound write List.mem_cons_self) first)
            (fun write mem => sound write (List.mem_cons_of_mem _ mem)) executed

end Writes

section Start

variable {known : Finset RoomId} {db : Database} {env : Env} {stored : StoredState}

theorem Part.columnText {limit : Nat} {text : Bytes} (h : Part limit text) :
    columnText text = text := by
  apply columnText_eq
  intro nul
  rcases h.printable 0 nul with plain | tab
  · cases plain
  · cases tab

theorem mem_loadHistory {messages : List StoredMessage} {roomId : RoomId} {limit : Nat}
    {message : StoredMessage} (h : message ∈ (loadHistory messages roomId limit none).messages) :
    ∃ row ∈ messages, message = row.read := by
  have rows {page : List StoredMessage} (sub : page ⊆ (((messages.filter
      (HistoryCursor.selects roomId none)).insertionSort StoredMessage.Newest).take
        (clampLimit limit + 1)).map StoredMessage.read) (mem : message ∈ page) :
      ∃ row ∈ messages, message = row.read := by
    obtain ⟨row, hrow, rfl⟩ := List.mem_map.mp (sub mem)
    have sorted := (List.mem_insertionSort _).mp (List.mem_of_mem_take hrow)
    exact ⟨row, (List.mem_filter.mp sorted).1, rfl⟩
  simp only [loadHistory] at h
  split at h
  · exact rows (List.dropLast_subset _) h
  · exact rows (List.Subset.refl _) h

/-- Rooms with known ids are no more than these. -/
theorem size_le_card {rooms : RoomMap} (h : ∀ r : RoomId, r ∈ rooms → r ∈ known) :
    rooms.size ≤ known.card := by
  have nodup : rooms.keys.Nodup := Std.ExtTreeMap.nodup_keys
  rw [← Std.ExtTreeMap.length_keys, ← List.toFinset_card_of_nodup nodup]
  apply Finset.card_le_card
  intro r hr
  exact h r (Std.ExtTreeMap.mem_keys.mp (List.mem_toFinset.mp hr))

theorem loadRooms_sound (h : Durable known db) {now : Int} {rowIds : RowIds db} {r : RoomId}
    {room : Room}
    (hroom : (ChatServer.loadRooms env (openedStore db now rowIds)).1[r]? = some room) :
    r ∈ known ∧ room.Sound r := by
  rw [loadRooms_getElem?] at hroom
  obtain ⟨row, found, rfl⟩ := Option.map_eq_some_iff.mp hroom
  obtain rfl : row.id = r := by simpa using List.find?_some found
  obtain ⟨stored, hm, rfl⟩ := mem_loadRooms (List.mem_of_find?_eq_some found)
  obtain ⟨inside, name, topic⟩ := h.room stored hm
  refine ⟨inside, rfl, ?_, ?_, ?_, ?_⟩
  · intro zero
    have positive := (rowIds stored hm).1
    rw [show stored.id = 0 from zero] at positive
    exact absurd positive (by decide)
  · simpa only [loadedRoom, (Part.roomName name).columnText] using name
  · simpa only [loadedRoom, (Part.roomTopic topic).columnText] using topic
  · intro line hl
    obtain ⟨message, hmessage, rfl⟩ := List.mem_map.mp hl
    obtain ⟨row, hrow, rfl⟩ := mem_loadHistory (List.mem_reverse.mp hmessage)
    have body := h.message row hrow
    rw [StoredMessage.read, (Part.validText (.inr body)).columnText]
    exact body

/-- The start reads rooms that are sound, and writes at most the lobby. -/
theorem start_sound (card : known.card ≤ MAX_ROOMS) (lobby : DEFAULT_ROOM_ID ∈ known)
    (loaded : env.config.hasStorage = true → ∀ (r : RoomId) (room : Room),
      (ChatServer.loadRooms env stored).1[r]? = some room → r ∈ known ∧ room.Sound r) :
    RoomsSound (ChatServer.start env stored).tables.rooms ∧
      ∀ e ∈ (ChatServer.start env stored).output.trace,
        e.Sound (ChatServer.start env stored).tables.rooms := by
  have sound (rooms : RoomMap) (all : ∀ (r : RoomId) (room : Room), rooms[r]? = some room →
      r ∈ known ∧ room.Sound r) : RoomsSound rooms := by
    refine ⟨(size_le_card fun r hr => ?_).trans card, fun r room hroom => (all r room hroom).2⟩
    obtain ⟨room, hroom⟩ := Option.isSome_iff_exists.mp
      (Std.ExtTreeMap.isSome_getElem?_iff_mem.mpr hr)
    exact (all r room hroom).1
  have initial : ∀ (rooms : RoomMap) (nextRoomId : RoomId),
      (if env.config.hasStorage then ChatServer.loadRooms env stored
        else (∅, DEFAULT_ROOM_ID + 1)) = (rooms, nextRoomId) →
      ∀ (r : RoomId) (room : Room), rooms[r]? = some room → r ∈ known ∧ room.Sound r := by
    intro rooms nextRoomId h r room hroom
    split at h
    · next storage =>
        rw [h] at loaded
        exact loaded storage r room hroom
    · obtain ⟨rfl, rfl⟩ := Prod.mk.inj h
      simp at hroom
  unfold ChatServer.start
  split
  next rooms nextRoomId h =>
  have all := initial rooms nextRoomId h
  simp only
  split
  · exact ⟨sound rooms all, nofun⟩
  · have name : isValidRoomName (ascii "lobby") = true := by decide
    have topic : isValidRoomTopic (ascii "Welcome to the lobby") = true := by decide
    have first : RoomsSound (rooms.insert DEFAULT_ROOM_ID (firstLobby env)) := by
      apply sound
      intro r room hroom
      rw [OrderedMap.getElem?_insert] at hroom
      split at hroom
      · next e =>
          subst e
          obtain rfl := Option.some.inj hroom
          exact ⟨lobby, rfl, by decide, name, topic, nofun⟩
      · exact all r room hroom
    generalize hserver : ChatServer.onTables _ _ = server
    have rooms : server.tables.rooms = rooms.insert DEFAULT_ROOM_ID (firstLobby env) := by
      rw [← hserver]
      rfl
    have none : server.output.trace = [] := by
      rw [← hserver]
      rfl
    rw [← rooms] at first
    have stored : Speaks server (server.persistRoom env DEFAULT_ROOM_ID) :=
      ChatServer.persistRoom_speaks first
    obtain ⟨new, trace, all⟩ := stored.emits
    refine ⟨stored.rooms, ?_⟩
    rw [trace, none]
    exact all

end Start

section Ids

variable {db : Database} {env : Env} {stored : StoredState} {tables tables' : ServerTables}
  {server : ChatServer} {bound : Nat}

/-- No more ids have been given out above the bound than there are rooms. -/
def ServerTables.NextWithin (bound : Nat) (tables : ServerTables) : Prop :=
  tables.nextRoomId.toNat ≤ bound + tables.rooms.size

theorem Change.nextWithin {mover : SessionId → Prop} (h : Change env mover tables tables')
    (wf : tables.RoomsWellFormed) (within : tables.NextWithin bound) :
    tables'.NextWithin bound := by
  have updated (roomId : RoomId) (change : Room → Room) :
      (tables.updateRoom roomId change).NextWithin bound := by
    simpa [ServerTables.NextWithin, ServerTables.updateRoom, Std.ExtTreeMap.size_modify] using
      within
  cases h with
  | place s roomId moves named present =>
      simpa [ServerTables.NextWithin, ServerTables.placeSession, ServerTables.insertMember,
        ServerTables.eraseMember, ServerTables.updateRoom, ServerTables.updateSession,
        Std.ExtTreeMap.size_modify] using within
  | drop s stays =>
      unfold ServerTables.dropSession
      dsimp only
      split
      · exact within
      · exact updated _ _
  | insertRoom name ownerNickname valid below fresh =>
      have next := UInt64.toNat_add tables.nextRoomId 1
      have wraps := Nat.mod_le (tables.nextRoomId.toNat + (1 : UInt64).toNat) (2 ^ 64)
      rw [UInt64.toNat_one] at next wraps
      simp only [ServerTables.NextWithin, ServerTables.insertRoom,
        Std.ExtTreeMap.size_insertIfNew, if_neg wf.fresh] at within ⊢
      omega
  | topic roomId topic valid => exact updated _ _
  | touch | accept | identify | admission | host | bans | bind => exact within

theorem run_nextWithin {events : List Event}
    (start : (ChatServer.start env stored).tables.NextWithin bound)
    (run : Run.run (step env) (ChatServer.start env stored) events = some server) :
    server.tables.NextWithin bound := by
  have roster (server : ChatServer) :
      server.roster.NextWithin bound ↔ server.tables.NextWithin bound := by
    simp [ServerTables.NextWithin, ChatServer.roster]
  have changed (mover : SessionId → Prop) (a b : ServerTables) (change : Change env mover a b)
      (held : a.Consistent ∧ a.NextWithin bound) : b.Consistent ∧ b.NextWithin bound :=
    ⟨change.consistent held.1, change.nextWithin held.1.rooms held.2⟩
  have keeps (a : ChatServer) (event : Event) (b : ChatServer)
      (held : a.roster.Consistent ∧ a.roster.NextWithin bound)
      (stepped : step env a event = some b) :
      b.roster.Consistent ∧ b.roster.NextWithin bound :=
    (step_changes stepped).invariant (changed _) held
  have first := start_consistent env stored
  exact (roster server).mp (Run.run_invariant keeps run
    ⟨consistent_roster.mpr first, (roster _).mpr start⟩).2

theorem loadRooms_next (some_ : 2 ≤ bound) (rows : ∀ row ∈ stored.rooms, row.id.toNat < bound) :
    (ChatServer.loadRooms env stored).2.toNat ≤ bound := by
  rw [loadRooms_eq]
  refine List.foldlRecOn (motive := fun loaded : RoomMap × RoomId => loaded.2.toNat ≤ bound) _ _
    some_ fun loaded within row mem => ?_
  have next := UInt64.toNat_add row.id 1
  have wraps := Nat.mod_le (row.id.toNat + (1 : UInt64).toNat) (2 ^ 64)
  have own := rows row mem
  rw [UInt64.toNat_one] at next wraps
  change (if loaded.2 ≤ row.id + 1 then row.id + 1 else loaded.2).toNat ≤ bound
  split
  · omega
  · exact within

theorem start_nextWithin (storage : env.config.hasStorage = true) (some_ : 2 ≤ bound)
    (rows : ∀ row ∈ stored.rooms, row.id.toNat < bound) :
    (ChatServer.start env stored).tables.NextWithin bound := by
  have next : (ChatServer.start env stored).tables.nextRoomId =
      (ChatServer.loadRooms env stored).2 := by
    simp only [ChatServer.start, if_pos storage]
    split
    · rfl
    · rw [ChatServer.persistRoom_tables]
      rfl
  rw [ServerTables.NextWithin, next]
  exact (loadRooms_next some_ rows).trans (Nat.le_add_right _ _)

/-- A run gives out no more ids than there may be rooms. -/
theorem run_ids {events : List Event} {r : RoomId} (storage : env.config.hasStorage = true)
    (some_ : 2 ≤ bound) (rows : ∀ row ∈ stored.rooms, row.id.toNat < bound)
    (run : Run.run (step env) (ChatServer.start env stored) events = some server)
    (size : server.tables.rooms.size ≤ MAX_ROOMS) (mem : r ∈ server.tables.rooms) :
    r ≠ 0 ∧ r.toNat < bound + MAX_ROOMS := by
  have wellFormed := (reachable_consistent ⟨events, run⟩).rooms
  have within := run_nextWithin (start_nextWithin storage some_ rows) run
  obtain ⟨room, present⟩ := Option.isSome_iff_exists.mp
    (Std.ExtTreeMap.isSome_getElem?_iff_mem.mpr mem)
  obtain ⟨-, -, below⟩ := wellFormed.key r room present
  rw [UInt64.lt_iff_toNat_lt] at below
  rw [ServerTables.NextWithin] at within
  exact ⟨wellFormed.pos mem, by omega⟩

end Ids

section Runs

variable {db : Database} {env : Env} {stored : StoredState} {server : ChatServer}
  {events : List Event} {runs : Nat}

/-- A run that begins with sound rooms says nothing that cannot be said. -/
theorem run_sound {known : Finset RoomId} (card : known.card ≤ MAX_ROOMS)
    (lobby : DEFAULT_ROOM_ID ∈ known)
    (loaded : env.config.hasStorage = true → ∀ (r : RoomId) (room : Room),
      (ChatServer.loadRooms env stored).1[r]? = some room → r ∈ known ∧ room.Sound r)
    (clients : ∀ event ∈ events, event.ofClients = true)
    (run : Run.run (step env) (ChatServer.start env stored) events = some server) :
    RoomsSound server.tables.rooms ∧
      (∀ r : RoomId, r ∈ (ChatServer.start env stored).tables.rooms → r ∈ server.tables.rooms) ∧
      ∀ e ∈ server.output.trace, e.Sound server.tables.rooms := by
  obtain ⟨rooms, first⟩ := start_sound card lobby loaded
  have speaks := run_speaks clients (start_consistent env stored) rooms run
  obtain ⟨new, trace, later⟩ := speaks.emits
  refine ⟨speaks.rooms, speaks.grows, fun e mem => ?_⟩
  rw [trace] at mem
  exact (List.mem_append.mp mem).elim (fun mem => (first e mem).mono speaks.grows) (later e)

theorem mem_start_rooms (storage : env.config.hasStorage = true) {r : RoomId}
    (h : r ∈ (ChatServer.loadRooms env stored).1) :
    r ∈ (ChatServer.start env stored).tables.rooms := by
  simp only [ChatServer.start, if_pos storage]
  split
  · exact h
  · rw [ChatServer.persistRoom_tables]
    exact Std.ExtTreeMap.mem_insert.mpr (.inr h)

theorem mem_loadRooms_of_row {now : Int} {rowIds : RowIds db} {row : StoredRoom}
    (h : row ∈ db.rooms) :
    row.id ∈ (ChatServer.loadRooms env (openedStore db now rowIds)).1 := by
  have read : { row with
      name := columnText row.name
      topic := columnText row.topic
      ownerNickname := columnText row.ownerNickname } ∈ db.loadRooms :=
    List.mem_map.mpr ⟨row, (List.mem_insertionSort _).mpr h, rfl⟩
  rw [← Std.ExtTreeMap.isSome_getElem?_iff_mem, loadRooms_getElem?, Option.isSome_map,
    List.find?_isSome]
  exact ⟨_, read, beq_self_eq_true row.id⟩

/-- The databases that clients leave are durable, with no more rooms than there may be, and
each run has given out as many ids at most. -/
theorem LeftByClients.durable (h : LeftByClients runs db) :
    ∃ known : Finset RoomId, known.card ≤ MAX_ROOMS ∧ DEFAULT_ROOM_ID ∈ known ∧
      (∀ r ∈ known, r ≠ 0 ∧ r.toNat < 2 + runs * MAX_ROOMS) ∧ Durable known db := by
  induction h with
  | created createdAt =>
      refine ⟨{DEFAULT_ROOM_ID}, by decide, by decide, fun r mem => ?_, fun room mem => ?_, nofun⟩
      · obtain rfl := Finset.mem_singleton.mp mem
        decide
      obtain rfl := List.mem_singleton.mp mem
      have name : isValidRoomName (ascii "lobby") = true := by decide
      have topic : isValidRoomTopic (ascii "Welcome to the lobby") = true := by decide
      exact ⟨Finset.mem_singleton_self _, name, topic⟩
  | @ran runs db db' env now events server writes rowIds before storage clients run written
      executed ih =>
      obtain ⟨known, card, lobby, ids, durable⟩ := ih
      obtain ⟨sound, grows, effects⟩ :=
        run_sound card lobby (fun _ _ _ => loadRooms_sound durable) clients run
      have wellFormed := (reachable_consistent ⟨events, run⟩).rooms
      have inside (r : RoomId) : r ∈ server.tables.rooms.keys.toFinset ↔ r ∈ server.tables.rooms := by
        rw [List.mem_toFinset, Std.ExtTreeMap.mem_keys]
      refine ⟨server.tables.rooms.keys.toFinset, ?_, (inside _).mpr wellFormed.lobby, ?_, ?_⟩
      · refine (List.toFinset_card_le _).trans ?_
        rw [Std.ExtTreeMap.length_keys]
        exact sound.size
      · intro r mem
        have rows (row : StoredRoom) (mem : row ∈ (openedStore db now rowIds).rooms) :
            row.id.toNat < 2 + runs * MAX_ROOMS := by
          obtain ⟨stored, hm, rfl⟩ := mem_loadRooms mem
          exact (ids stored.id (durable.room stored hm).1).2
        rw [Nat.succ_mul, ← Nat.add_assoc]
        exact run_ids storage (Nat.le_add_right _ _) rows run sound.size ((inside r).mp mem)
      · have kept : Durable server.tables.rooms.keys.toFinset (db.loadBans now).2 := by
          refine ⟨fun row mem => ⟨(inside _).mpr (grows _ ?_), (durable.room row mem).2⟩,
            durable.message⟩
          exact mem_start_rooms storage (mem_loadRooms_of_row mem)
        refine executeAll_durable kept (fun write mem => ?_) executed
        have stored := effects _ (written write mem)
        cases write with
        | storeRoom room => exact ⟨(inside _).mpr stored.1, stored.2⟩
        | _ => exact stored

/-- The ids of the rows fit for longer than anybody starts the server. -/
theorem LeftByClients.rowIds (h : LeftByClients runs db) (few : runs < 2 ^ 57) : RowIds db := by
  obtain ⟨known, -, -, ids, durable⟩ := h.durable
  intro room mem
  obtain ⟨nonzero, below⟩ := ids room.id (durable.room room mem).1
  rw [show MAX_ROOMS = 32 from rfl] at below
  exact ⟨UInt64.pos_iff_ne_zero.mpr nonzero, by omega⟩

theorem FromClients.run_sound (before : FromClients env stored)
    (clients : ∀ event ∈ events, event.ofClients = true)
    (run : Run.run (step env) (ChatServer.start env stored) events = some server) :
    ∀ e ∈ server.output.trace, e.Sound server.tables.rooms := by
  by_cases storage : env.config.hasStorage = true
  · obtain ⟨runs, db, now, rowIds, left, rfl⟩ := before storage
    obtain ⟨known, card, lobby, -, durable⟩ := left.durable
    exact (Chat.run_sound card lobby (fun _ _ _ => loadRooms_sound durable) clients run).2.2
  · have none : env.config.hasStorage = true → ∀ (r : RoomId) (room : Room),
        (ChatServer.loadRooms env stored).1[r]? = some room →
          r ∈ ({DEFAULT_ROOM_ID} : Finset RoomId) ∧ room.Sound r := fun h => absurd h storage
    exact (Chat.run_sound (by decide) (by decide) none clients run).2.2

end Runs

/-- Whatever clients do, now and before the server was started again, every message
but a user list and the answer to an undecodable frame is accepted by the encoder. -/
theorem run_delivered (env : Env) (stored : StoredState) (before : FromClients env stored)
    (events : List Event) (clients : ∀ event ∈ events, event.ofClients = true)
    (server : ChatServer)
    (run : Run.run (step env) (ChatServer.start env stored) events = some server)
    (s : SessionId) (message : ServerMessage)
    (delivered : .deliver s message ∈ server.output.trace)
    (users : ∀ roomId nicknames, message ≠ .userList roomId nicknames)
    (decoded : ∀ line e, decodeClientFrame line = .error e →
      message ≠ ChatServer.invalidFrame e) :
    ∃ frame, encodeServerFrame message = .ok frame := by
  have sound : Encodable message ∨ Exempt message := before.run_sound clients run _ delivered
  rcases sound with encodable | ⟨roomId, nicknames, same⟩ | ⟨line, e, failed, same⟩
  · exact encodable
  · exact absurd same (users roomId nicknames)
  · exact absurd same (decoded line e failed)

theorem rowIds_newDatabase (createdAt : Int) : RowIds (newDatabase createdAt) := by
  intro room mem
  obtain rfl := List.mem_singleton.mp mem
  have lobby : 0 < DEFAULT_ROOM_ID ∧ DEFAULT_ROOM_ID.toNat < 2 ^ 63 := by decide
  exact lobby

/-- A client has said hello; the server is started again, and the client comes back. -/
theorem run_delivered_again : ∃ stored server, FromClients .stored stored ∧
    Run.run (step .stored) (ChatServer.start .stored stored) (visit 7 (ascii "ann")) =
      some server ∧
    .deliver 7 (.roomText 1 (ascii "[12:30:00] ann: hello")) ∈ server.output.trace ∧
    ∃ frame, encodeServerFrame (.roomText 1 (ascii "[12:30:00] ann: hello")) = .ok frame := by
  have runs : (Run.run (step .stored) (ChatServer.start .stored (openedStore (newDatabase 0) 0
      (rowIds_newDatabase 0))) (visit 7 (ascii "ann") ++ [.line 7 (clientFrame (.chat (ascii "hello")))])).any (fun server =>
        match (newDatabase 0).executeAll (handedWrites server.output.trace) with
        | .error _ => false
        | .ok db =>
            if rowIds : RowIds db then
              (Run.run (step .stored) (ChatServer.start .stored (openedStore db 0 rowIds))
                (visit 7 (ascii "ann"))).any fun server =>
                  decide (Effect.deliver 7 (.roomText 1 (ascii "[12:30:00] ann: hello")) ∈
                    server.output.trace)
            else false) = true := by decide +kernel
  obtain ⟨first, run, then_⟩ := (Option.any_eq_true _ _).mp runs
  split at then_
  · cases then_
  · next db executed =>
      split at then_
      · next rowIds' =>
          obtain ⟨server, again, delivered⟩ := (Option.any_eq_true _ _).mp then_
          have before : FromClients .stored (openedStore db 0 rowIds') := fun _ =>
            ⟨1, db, 0, rowIds', .ran (rowIds_newDatabase 0) (.created 0) rfl (by decide) run
              (fun _ => mem_handedWrites) executed, rfl⟩
          exact ⟨_, server, before, again, of_decide_eq_true delivered,
            run_delivered .stored _ before _ (by decide) server again 7 _
              (of_decide_eq_true delivered) nofun fun _ _ _ => nofun⟩
      · cases then_

end Chatbox.Chat
