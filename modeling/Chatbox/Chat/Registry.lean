import Chatbox.Chat.Membership

/-!
The table of rooms. Three operations create rooms, each with its own checks of the
limit, the name and the next id, and two kinds of operations change topics; whatever
is done, the table stays well formed, and an operation that fails does nothing.
-/

namespace Chatbox.Chat

open Text Protocol Storage

/-- What every table of rooms satisfies. -/
structure Registry (tables : ServerTables) : Prop where
  wellFormed : tables.RoomsWellFormed
  size : tables.rooms.size ≤ MAX_ROOMS
  name : ∀ (r : RoomId) (room : Room), tables.rooms[r]? = some room →
    isValidRoomName room.name = true
  topic : ∀ (r : RoomId) (room : Room), tables.rooms[r]? = some room →
    isValidRoomTopic room.topic = true
  distinct : ∀ (r r' : RoomId) (room room' : Room), tables.rooms[r]? = some room →
    tables.rooms[r']? = some room' →
    ServerTables.normalizedRoomName room.name = ServerTables.normalizedRoomName room'.name →
    r = r'

/-- A table of rooms as the server leaves it in its database. -/
structure StoredRegistry (stored : StoredState) : Prop where
  count : stored.rooms.length ≤ MAX_ROOMS
  ids : (stored.rooms.map fun room => room.id).Nodup
  name : ∀ room ∈ stored.rooms, isValidRoomName room.name = true
  topic : ∀ room ∈ stored.rooms, isValidRoomTopic room.topic = true
  distinct : (stored.rooms.map fun room => ServerTables.normalizedRoomName room.name).Nodup
  lobby : stored.rooms = [] ∨ ∃ room ∈ stored.rooms, room.id = DEFAULT_ROOM_ID

/-- The operations on the table of rooms, as the sessions, the host and the console
call them. -/
inductive RoomOperation where
  | createRoom (s : SessionId) (name : Bytes)
  | createLocalRoom (name : Bytes)
  | createAdminRoom (name : Bytes)
  | setTopic (s : SessionId) (topic : Bytes)
  | setLocalTopic (topic : Bytes)
  | setAdminTopic (roomName topic : Bytes)

def RoomOperation.call (env : Env) (server : ChatServer) : RoomOperation → ChatServer × Option Bytes
  | .createRoom s name => server.createRoom env s name
  | .createLocalRoom name => server.createLocalRoom env name
  | .createAdminRoom name => server.createAdminRoom env name
  | .setTopic s topic => server.setTopic env s topic
  | .setLocalTopic topic => server.setLocalTopic env topic
  | .setAdminTopic roomName topic => server.setAdminTopic env roomName topic

/-- A step of the server, or a call of one of the operations at any moment. -/
def stepOrCall (env : Env) (server : ChatServer) : Event ⊕ RoomOperation → Option ChatServer
  | .inl event => step env server event
  | .inr operation => some (operation.call env server).1

namespace Registry

variable {tables tables' : ServerTables} {roomId : RoomId}

/-- Rooms that keep their names and come with valid topics keep the rest. -/
theorem transfer (h : Registry tables) (wellFormed : tables'.RoomsWellFormed)
    (size : tables'.rooms.size = tables.rooms.size)
    (look : ∀ (r : RoomId) (room' : Room), tables'.rooms[r]? = some room' →
      ∃ room, tables.rooms[r]? = some room ∧ room'.name = room.name ∧
        (isValidRoomTopic room.topic = true → isValidRoomTopic room'.topic = true)) :
    Registry tables' := by
  refine ⟨wellFormed, size ▸ h.size, ?_, ?_, ?_⟩
  · intro r room' hroom'
    obtain ⟨room, hroom, hname, -⟩ := look r room' hroom'
    exact hname ▸ h.name r room hroom
  · intro r room' hroom'
    obtain ⟨room, hroom, -, htopic⟩ := look r room' hroom'
    exact htopic (h.topic r room hroom)
  · intro r₁ r₂ room₁' room₂' hroom₁' hroom₂' same
    obtain ⟨room₁, hroom₁, hname₁, -⟩ := look r₁ room₁' hroom₁'
    obtain ⟨room₂, hroom₂, hname₂, -⟩ := look r₂ room₂' hroom₂'
    rw [hname₁, hname₂] at same
    exact h.distinct r₁ r₂ room₁ room₂ hroom₁ hroom₂ same

/-- The histories of the rooms play no part. -/
theorem roster_iff : Registry tables.roster ↔ Registry tables := by
  constructor
  · intro h
    apply h.transfer (roomsWellFormed_roster.mp h.wellFormed) (tables.roster_size).symm
    intro r room hroom
    exact ⟨room.withoutHistory, by rw [ServerTables.roster_getElem?, hroom]; rfl, rfl, id⟩
  · intro h
    apply h.transfer (roomsWellFormed_roster.mpr h.wellFormed) tables.roster_size
    intro r room hroom
    rw [ServerTables.roster_getElem?] at hroom
    obtain ⟨room', hroom', rfl⟩ := Option.map_eq_some_iff.mp hroom
    exact ⟨room', hroom', rfl, id⟩

theorem updateRoom (h : Registry tables) {change : Room → Room}
    (id : ∀ room, (change room).id = room.id) (name : ∀ room, (change room).name = room.name)
    (topic : ∀ room, isValidRoomTopic room.topic = true →
      isValidRoomTopic (change room).topic = true) :
    Registry (tables.updateRoom roomId change) := by
  apply h.transfer (h.wellFormed.updateRoom id)
  · simp [ServerTables.updateRoom, Std.ExtTreeMap.size_modify]
  · intro r room hroom
    rw [ServerTables.updateRoom_getElem?] at hroom
    split at hroom
    · obtain ⟨before, hbefore, rfl⟩ := Option.map_eq_some_iff.mp hroom
      exact ⟨before, hbefore, name before, topic before⟩
    · exact ⟨room, hroom, rfl, fun valid => valid⟩

theorem eraseMember (h : Registry tables) (s : SessionId) (roomId : RoomId) :
    Registry (tables.eraseMember s roomId) :=
  h.updateRoom (fun _ => rfl) (fun _ => rfl) fun _ => id

theorem insertMember (h : Registry tables) (s : SessionId) (roomId : RoomId) :
    Registry (tables.insertMember s roomId) :=
  h.updateRoom (fun _ => rfl) (fun _ => rfl) fun _ => id

/-- Only the rooms and the next id matter. -/
theorem congr (h : Registry tables) (rooms : tables'.rooms = tables.rooms)
    (next : tables'.nextRoomId = tables.nextRoomId) : Registry tables' := by
  have wellFormed : tables'.RoomsWellFormed := by
    refine ⟨?_, ?_, ?_⟩
    · rw [rooms, next]
      exact h.wellFormed.key
    · rw [rooms, next]
      exact h.wellFormed.bound
    · rw [rooms]
      exact h.wellFormed.lobby
  apply h.transfer wellFormed (by rw [rooms])
  intro r room hroom
  rw [rooms] at hroom
  exact ⟨room, hroom, rfl, id⟩

theorem placeSession (h : Registry tables) (s : SessionId) (roomId : RoomId) :
    Registry (tables.placeSession s roomId) :=
  ((h.eraseMember s _).insertMember s roomId).congr rfl rfl

theorem dropSession (h : Registry tables) (s : SessionId) : Registry (tables.dropSession s) := by
  have outside : Registry
      ({ tables with sessions := tables.sessions.erase s }.updateSession s fun session =>
        { session with activeRoomId := 0 }) := h.congr rfl rfl
  unfold ServerTables.dropSession
  simp only
  split
  · exact outside
  · exact outside.eraseMember s _

/-- A room with a new name may be added below the limit. -/
theorem insertRoom (h : Registry tables) {name ownerNickname : Bytes}
    (valid : isValidRoomName name = true) (below : tables.rooms.size < MAX_ROOMS)
    (fresh : tables.findRoomByName name = none) :
    Registry (tables.insertRoom tables.nextRoomId
      { id := tables.nextRoomId, name, ownerNickname }) := by
  have look (r : RoomId) (room : Room)
      (hroom : (tables.insertRoom tables.nextRoomId
        { id := tables.nextRoomId, name, ownerNickname }).rooms[r]? = some room) :
      r = tables.nextRoomId ∧ room.name = name ∧ room.topic = [] ∨
        tables.rooms[r]? = some room := by
    simp only [ServerTables.insertRoom, OrderedMap.getElem?_insertIfNew] at hroom
    split at hroom
    · next e =>
        subst e
        cases hold : tables.rooms[tables.nextRoomId]? with
        | some old =>
            have inside := (h.wellFormed.key _ old hold).2.2
            exact absurd inside (UInt64.lt_irrefl _)
        | none =>
            rw [hold] at hroom
            obtain rfl := Option.some.inj hroom
            exact .inl ⟨rfl, rfl, rfl⟩
    · exact .inr hroom
  have other (r : RoomId) (room : Room) (hroom : tables.rooms[r]? = some room) :
      ServerTables.normalizedRoomName room.name ≠ ServerTables.normalizedRoomName name := by
    have absent := List.find?_eq_none.mp fresh (r, room)
      (Std.ExtTreeMap.mem_toList_iff_getElem?_eq_some.mpr hroom)
    simpa using absent
  refine ⟨h.wellFormed.insertRoom below, ?_, fun r room hroom => ?_, fun r room hroom => ?_,
    fun r r' room room' hroom hroom' same => ?_⟩
  · simp only [ServerTables.insertRoom, Std.ExtTreeMap.size_insertIfNew]
    split
    · exact h.size
    · exact below
  · rcases look r room hroom with ⟨-, hname, -⟩ | old
    · exact hname ▸ valid
    · exact h.name r room old
  · rcases look r room hroom with ⟨-, -, htopic⟩ | old
    · rw [htopic]
      rfl
    · exact h.topic r room old
  · rcases look r room hroom with ⟨rfl, hname, -⟩ | old
    · rcases look r' room' hroom' with ⟨rfl, -, -⟩ | old'
      · rfl
      · exact absurd same.symm (hname ▸ other r' room' old')
    · rcases look r' room' hroom' with ⟨rfl, hname, -⟩ | old'
      · exact absurd same (hname ▸ other r room old)
      · exact h.distinct r r' room room' old old' same

end Registry

theorem Change.registry {env : Env} {mover : SessionId → Prop} {a b : ServerTables}
    (h : Change env mover a b) (ha : Registry a) : Registry b := by
  cases h with
  | touch t change keeps => exact ha.congr rfl rfl
  | accept t absent => exact ha.congr rfl rfl
  | identify t nick publicKeyHex challenge valid reading => exact ha.congr rfl rfl
  | admission t moves unnamed named free bound => exact ha.congr rfl rfl
  | place t roomId moves named present => exact ha.placeSession t roomId
  | drop t stays => exact ha.dropSession t
  | insertRoom name ownerNickname valid below fresh => exact ha.insertRoom valid below fresh
  | topic roomId topic valid => exact ha.updateRoom (fun _ => rfl) (fun _ => rfl) fun _ _ => valid
  | host roomId present => exact ha.congr rfl rfl
  | bans bannedNicks => exact ha.congr rfl rfl
  | bind nick publicKeyHex unbound => exact ha.congr rfl rfl

theorem Changes.registry {env : Env} {mover : SessionId → Prop} {a b : ServerTables}
    (h : Changes env mover a b) (ha : Registry a) : Registry b :=
  h.invariant (fun _ _ hc => hc.registry) ha

section Operations

variable {env : Env} {server server' : ChatServer}

/-- A session may create a room whatever its state is. -/
theorem createRoom_registry (s : SessionId) (name : Bytes) (h : Registry server.roster) :
    Registry (server.createRoom env s name).1.roster := by
  unfold ChatServer.createRoom
  cases added : server.addRoom name (server.tables.session s).nickname with
  | error error => exact h
  | ok result =>
      obtain ⟨id, server'⟩ := result
      have changes := (ChatServer.addRoom_changes env (fun _ => True) added).2.2.2.2
      have stored : Registry (server'.persistRoom env id).roster := by
        rw [ChatServer.persistRoom_roster]
        exact changes.registry h
      simp only
      rw [ChatServer.moveSessionToRoom_roster]
      split
      · exact stored.placeSession s id
      · exact stored

theorem call_registry (operation : RoomOperation) (h : Registry server.roster) :
    Registry (operation.call env server).1.roster := by
  have changed {tables : ServerTables}
      (changes : Changes env (fun _ => True) server.roster tables) : Registry tables :=
    changes.registry h
  cases operation with
  | createRoom s name => exact createRoom_registry s name h
  | createLocalRoom name => exact changed ChatServer.createLocalRoom_changes
  | createAdminRoom name => exact changed ChatServer.createAdminRoom_changes
  | setTopic s topic => exact changed ChatServer.setTopicForRoom_changes
  | setLocalTopic topic => exact changed ChatServer.setTopicForRoom_changes
  | setAdminTopic roomName topic => exact changed ChatServer.setAdminTopic_changes

theorem setTopicForRoom_failed {roomId : RoomId} {actor topic error : Bytes} {privileged : Bool}
    (h : (server.setTopicForRoom env roomId actor privileged topic).2 = some error) :
    (server.setTopicForRoom env roomId actor privileged topic).1 = server := by
  unfold ChatServer.setTopicForRoom at h ⊢
  split
  · rfl
  · next valid =>
      rw [if_neg valid] at h
      split
      · rfl
      · next room hroom =>
          rw [hroom] at h
          simp only at h
          split
          · rfl
          · next allowed =>
              rw [if_neg allowed] at h
              cases h

/-- An operation that reports an error has done nothing at all. -/
theorem call_failed (operation : RoomOperation) {error : Bytes}
    (h : (operation.call env server).2 = some error) :
    (operation.call env server).1 = server := by
  cases operation with
  | createRoom s name =>
      simp only [RoomOperation.call, ChatServer.createRoom] at h ⊢
      split
      · rfl
      · next added =>
          rw [added] at h
          cases h
  | createLocalRoom name =>
      simp only [RoomOperation.call, ChatServer.createLocalRoom] at h ⊢
      split
      · rfl
      · next host =>
          rw [if_neg host] at h
          split
          · rfl
          · next added =>
              rw [added] at h
              cases h
  | createAdminRoom name =>
      simp only [RoomOperation.call, ChatServer.createAdminRoom] at h ⊢
      split
      · rfl
      · next added =>
          rw [added] at h
          cases h
  | setTopic s topic => exact setTopicForRoom_failed h
  | setLocalTopic topic => exact setTopicForRoom_failed h
  | setAdminTopic roomName topic =>
      simp only [RoomOperation.call, ChatServer.setAdminTopic] at h ⊢
      split
      · rfl
      · next id room found =>
          rw [found] at h
          exact setTopicForRoom_failed h

theorem stepOrCall_registry {act : Event ⊕ RoomOperation}
    (step : stepOrCall env server act = some server') (h : Registry server.roster) :
    Registry server'.roster := by
  cases act with
  | inl event => exact (step_changes step).registry h
  | inr operation =>
      cases step
      exact call_registry operation h

end Operations

section Start

/-- The room that a row of the database becomes. -/
def loadedRoom (env : Env) (stored : StoredState) (row : StoredRoom) : Room :=
  { id := row.id
    name := row.name
    topic := row.topic
    ownerNickname := row.ownerNickname
    recentMessages := (stored.history row.id env.historyLimit).reverse.map (·.body) }

/-- One turn of the loop over the rows. -/
def loadRow (env : Env) (stored : StoredState) (loaded : RoomMap × RoomId) (row : StoredRoom) :
    RoomMap × RoomId :=
  (loaded.1.insertIfNew row.id (loadedRoom env stored row), max loaded.2 (row.id + 1))

theorem loadRooms_eq (env : Env) (stored : StoredState) :
    ChatServer.loadRooms env stored =
      stored.rooms.foldl (loadRow env stored) (∅, DEFAULT_ROOM_ID + 1) := rfl

theorem loadRooms_getElem? (env : Env) (stored : StoredState) (r : RoomId) :
    (ChatServer.loadRooms env stored).1[r]? =
      (stored.rooms.find? fun row => row.id == r).map (loadedRoom env stored) := by
  have from_rows (rows : List StoredRoom) (loaded : RoomMap × RoomId) :
      (rows.foldl (loadRow env stored) loaded).1[r]? =
        loaded.1[r]?.or ((rows.find? fun row => row.id == r).map (loadedRoom env stored)) := by
    induction rows generalizing loaded with
    | nil => simp
    | cons row rows ih =>
        rw [List.foldl_cons, ih, loadRow, OrderedMap.getElem?_insertIfNew, List.find?_cons]
        by_cases hr : row.id = r
        · cases loaded.1[r]? <;> simp [hr]
        · have other : (row.id == r) = false := by simpa using hr
          simp [hr, other]
  rw [loadRooms_eq, from_rows]
  simp

theorem loadRooms_size (env : Env) (stored : StoredState) :
    (ChatServer.loadRooms env stored).1.size ≤ stored.rooms.length := by
  have from_rows (rows : List StoredRoom) (loaded : RoomMap × RoomId) :
      (rows.foldl (loadRow env stored) loaded).1.size ≤ loaded.1.size + rows.length := by
    induction rows generalizing loaded with
    | nil => simp
    | cons row rows ih =>
        have grows : (loadRow env stored loaded row).1.size ≤ loaded.1.size + 1 :=
          Std.ExtTreeMap.size_insertIfNew_le
        rw [List.foldl_cons, List.length_cons]
        have := ih (loadRow env stored loaded row)
        omega
  rw [loadRooms_eq]
  simpa using from_rows stored.rooms (∅, DEFAULT_ROOM_ID + 1)

/-- The lobby of a server whose database has none. -/
def firstLobby (env : Env) : Room :=
  { id := DEFAULT_ROOM_ID
    name := ascii "lobby"
    topic := ascii "Welcome to the lobby"
    ownerNickname := env.config.localNickname }

/-- The rooms a server starts with: those of the database if there are any, and the
lobby alone if there are none. -/
theorem start_rooms (env : Env) {stored : StoredState} (h : StoredRegistry stored) :
    (ChatServer.start env stored).tables.rooms = (ChatServer.loadRooms env stored).1 ∨
      ∃ lobby : Room, (ChatServer.start env stored).tables.rooms =
          (∅ : RoomMap).insert DEFAULT_ROOM_ID lobby ∧
        lobby.name = ascii "lobby" ∧ lobby.topic = ascii "Welcome to the lobby" := by
  have found : (∃ room ∈ stored.rooms, room.id = DEFAULT_ROOM_ID) →
      (ChatServer.loadRooms env stored).1[DEFAULT_ROOM_ID]? ≠ none := by
    rintro ⟨room, hm, hid⟩ absent
    rw [loadRooms_getElem?, Option.map_eq_none_iff, List.find?_eq_none] at absent
    exact absent room hm (by simp [hid])
  unfold ChatServer.start
  by_cases storage : env.config.hasStorage = true
  · simp only [if_pos storage]
    split
    · exact .inl rfl
    · next absent =>
        rw [ChatServer.persistRoom_tables]
        refine .inr ⟨firstLobby env, ?_, rfl, rfl⟩
        have none : stored.rooms = [] := h.lobby.resolve_right fun present =>
          found present absent
        simp only [ChatServer.onTables, loadRooms_eq, none]
        rfl
  · simp only [if_neg storage]
    split
    · next present => simp at present
    · rw [ChatServer.persistRoom_tables]
      exact .inr ⟨firstLobby env, rfl, rfl, rfl⟩

theorem start_registry (env : Env) {stored : StoredState} (h : StoredRegistry stored) :
    Registry (ChatServer.start env stored).tables := by
  have wellFormed := (start_tables env stored).1
  rcases start_rooms env h with loaded | ⟨lobby, only, hname, htopic⟩
  · have row (r : RoomId) (room : Room)
        (hroom : (ChatServer.start env stored).tables.rooms[r]? = some room) :
        ∃ row ∈ stored.rooms, row.id = r ∧ row.name = room.name ∧ row.topic = room.topic := by
      rw [loaded, loadRooms_getElem?] at hroom
      obtain ⟨row, hrow, rfl⟩ := Option.map_eq_some_iff.mp hroom
      exact ⟨row, List.mem_of_find?_eq_some hrow, by simpa using List.find?_some hrow, rfl, rfl⟩
    refine ⟨wellFormed, ?_, ?_, ?_, ?_⟩
    · rw [loaded]
      exact (loadRooms_size env stored).trans h.count
    · intro r room hroom
      obtain ⟨row, hm, -, hname, -⟩ := row r room hroom
      exact hname ▸ h.name row hm
    · intro r room hroom
      obtain ⟨row, hm, -, -, htopic⟩ := row r room hroom
      exact htopic ▸ h.topic row hm
    · intro r₁ r₂ room₁ room₂ hroom₁ hroom₂ same
      obtain ⟨row₁, hm₁, rfl, hname₁, -⟩ := row r₁ room₁ hroom₁
      obtain ⟨row₂, hm₂, rfl, hname₂, -⟩ := row r₂ room₂ hroom₂
      rw [← hname₁, ← hname₂] at same
      rw [List.inj_on_of_nodup_map h.distinct hm₁ hm₂ same]
  · have lobby_of (r : RoomId) (room : Room)
        (hroom : (ChatServer.start env stored).tables.rooms[r]? = some room) :
        r = DEFAULT_ROOM_ID ∧ room = lobby := by
      rw [only, OrderedMap.getElem?_insert] at hroom
      split at hroom
      · next e => exact ⟨e.symm, (Option.some.inj hroom).symm⟩
      · simp at hroom
    refine ⟨wellFormed, ?_, ?_, ?_, ?_⟩
    · rw [only, Std.ExtTreeMap.size_insert]
      decide
    · intro r room hroom
      obtain ⟨-, rfl⟩ := lobby_of r room hroom
      rw [hname]
      decide
    · intro r room hroom
      obtain ⟨-, rfl⟩ := lobby_of r room hroom
      rw [htopic]
      decide
    · intro r₁ r₂ room₁ room₂ hroom₁ hroom₂ _
      rw [(lobby_of r₁ room₁ hroom₁).1, (lobby_of r₂ room₂ hroom₂).1]

end Start

/-- In every state of a server that began with the rooms of earlier runs, whatever
operations are called in between, the table of rooms is well formed; and an
operation that reports an error changes nothing. -/
theorem run_registry (env : Env) (stored : StoredState) (h : StoredRegistry stored)
    (acts : List (Event ⊕ RoomOperation)) (server : ChatServer)
    (run : Run.run (stepOrCall env) (ChatServer.start env stored) acts = some server) :
    (DEFAULT_ROOM_ID ∈ server.tables.rooms ∧
      server.tables.rooms.size ≤ MAX_ROOMS ∧
      (∀ (r : RoomId) (room : Room), server.tables.rooms[r]? = some room →
        room.id = r ∧ r < server.tables.nextRoomId ∧ isValidRoomName room.name = true ∧
          isValidRoomTopic room.topic = true) ∧
      ∀ (r r' : RoomId) (room room' : Room), server.tables.rooms[r]? = some room →
        server.tables.rooms[r']? = some room' →
        ServerTables.normalizedRoomName room.name = ServerTables.normalizedRoomName room'.name →
        r = r') ∧
    ∀ (operation : RoomOperation) (error : Bytes), (operation.call env server).2 = some error →
      (operation.call env server).1 = server := by
  have registry : Registry server.tables := by
    apply Registry.roster_iff.mp
    have each (a : ChatServer) (act : Event ⊕ RoomOperation) (b : ChatServer)
        (kept : Registry a.roster) (step : stepOrCall env a act = some b) : Registry b.roster :=
      stepOrCall_registry step kept
    exact Run.run_invariant each run (Registry.roster_iff.mpr (start_registry env h))
  refine ⟨⟨registry.wellFormed.lobby, registry.size, ?_, registry.distinct⟩,
    fun operation error => call_failed operation⟩
  intro r room hroom
  obtain ⟨id, -, below⟩ := registry.wellFormed.key r room hroom
  exact ⟨id, below, registry.name r room hroom, registry.topic r room hroom⟩

/-- A server with a database. -/
def Env.stored : Env := { Env.plain with config := { hasStorage := true } }

/-- A database that an earlier run has left with two rooms. -/
def gamesStore : StoredState where
  rooms :=
    [{ id := 1, name := ascii "lobby", topic := ascii "Hello", ownerNickname := [], createdAt := 1 },
      { id := 7, name := ascii "Games", topic := [], ownerNickname := ascii "ann", createdAt := 2 }]
  history _ _ := []
  identities := []
  bans := []
  rowIds := by decide

theorem gamesStore_registry : StoredRegistry gamesStore where
  count := by decide
  ids := by decide
  name := by decide
  topic := by decide
  distinct := by decide
  lobby := .inr (by decide)

/-- A third room gets the next id, and a room with a name in use is refused. -/
theorem run_registry_games : ∃ server,
    Run.run (stepOrCall .stored) (ChatServer.start .stored gamesStore)
      [.inr (.createAdminRoom (ascii "chess"))] = some server ∧
    server.tables.nextRoomId = 9 ∧ server.tables.rooms.size ≤ MAX_ROOMS ∧
    (RoomOperation.call .stored server (.createAdminRoom (ascii "GAMES"))).1 = server := by
  obtain ⟨server, run, next, refused⟩ : ∃ server,
      Run.run (stepOrCall .stored) (ChatServer.start .stored gamesStore)
        [.inr (.createAdminRoom (ascii "chess"))] = some server ∧
      server.tables.nextRoomId = 9 ∧
      (RoomOperation.call .stored server (.createAdminRoom (ascii "GAMES"))).2 =
        some (ascii "A room named 'GAMES' already exists") := by
    have := (Option.any_eq_true (fun server : ChatServer =>
      decide (server.tables.nextRoomId = 9 ∧
        (RoomOperation.call .stored server (.createAdminRoom (ascii "GAMES"))).2 =
          some (ascii "A room named 'GAMES' already exists")))
      (Run.run (stepOrCall .stored) (ChatServer.start .stored gamesStore)
        [.inr (.createAdminRoom (ascii "chess"))])).mp (by decide +kernel)
    obtain ⟨server, run, h⟩ := this
    exact ⟨server, run, of_decide_eq_true h⟩
  have kept := run_registry .stored gamesStore gamesStore_registry
    [.inr (.createAdminRoom (ascii "chess"))] server run
  exact ⟨server, run, next, kept.1.2.1, kept.2 _ _ refused⟩

end Chatbox.Chat
