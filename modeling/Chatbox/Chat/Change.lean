import Chatbox.Chat.Roster

/-!
The few ways in which a step changes the roster. Every step of the server is a
sequence of them, and only the frame of a session that passes all the checks of
its command admits that session or moves it.
-/

namespace Chatbox.Chat

open Text Protocol Storage

/-- The session has not begun to read. -/
def ReadLoop.Early (loop : ReadLoop) : Prop := loop = .absent ∨ loop = .handshake

/-- The session keeps its names, its identity data and its room. -/
structure KeepsIdentity (session session' : ClientSession) : Prop where
  nickname : session'.nickname = session.nickname
  pendingNickname : session'.pendingNickname = session.pendingNickname
  pendingPublicKeyHex : session'.pendingPublicKeyHex = session.pendingPublicKeyHex
  activeRoomId : session'.activeRoomId = session.activeRoomId
  readLoop : session'.readLoop.Early → session'.readLoop = session.readLoop

/-- One change of the roster; `mover` tells which sessions may be admitted or
moved. -/
inductive Change (env : Env) (mover : SessionId → Prop) : ServerTables → ServerTables → Prop where
  | touch (tables : ServerTables) (s : SessionId) (change : ClientSession → ClientSession)
      (keeps : ∀ session, KeepsIdentity session (change session)) :
      Change env mover tables (tables.updateSession s change)
  | accept (tables : ServerTables) (s : SessionId)
      (absent : (tables.session s).readLoop = .absent) :
      Change env mover tables
        ({ tables with sessions := tables.sessions.insert s }.updateSession s fun session =>
          { session with readLoop := .handshake })
  | identify (tables : ServerTables) (s : SessionId) (nick publicKeyHex challenge : Bytes)
      (valid : isValidNickname nick = true)
      (reading : (tables.session s).readLoop = .reading) :
      Change env mover tables (tables.updateSession s fun session =>
        { session with
          pendingNickname := nick
          pendingPublicKeyHex := publicKeyHex
          pendingChallenge := challenge })
  | admission (tables : ServerTables) (s : SessionId) (moves : mover s)
      (unnamed : (tables.session s).nickname = [])
      (named : (tables.session s).pendingNickname ≠ [])
      (free : tables.nicknameTaken env (tables.session s).pendingNickname = false)
      (bound : tables.identities[(tables.session s).pendingNickname]? =
        some (tables.session s).pendingPublicKeyHex) :
      Change env mover tables (tables.updateSession s fun session =>
        { session with
          nickname := (tables.session s).pendingNickname
          pendingNickname := []
          pendingPublicKeyHex := []
          pendingChallenge := [] })
  | place (tables : ServerTables) (s : SessionId) (roomId : RoomId) (moves : mover s)
      (named : (tables.session s).nickname ≠ []) (present : roomId ∈ tables.rooms) :
      Change env mover tables (tables.placeSession s roomId)
  | drop (tables : ServerTables) (s : SessionId) (stays : ¬ mover s) :
      Change env mover tables (tables.dropSession s)
  | insertRoom (tables : ServerTables) (name ownerNickname : Bytes)
      (valid : isValidRoomName name = true) (below : tables.rooms.size < MAX_ROOMS)
      (fresh : tables.findRoomByName name = none) :
      Change env mover tables (tables.insertRoom tables.nextRoomId
        { id := tables.nextRoomId, name, ownerNickname })
  | topic (tables : ServerTables) (roomId : RoomId) (topic : Bytes)
      (valid : isValidRoomTopic topic = true) :
      Change env mover tables (tables.updateRoom roomId fun room => { room with topic })
  | host (tables : ServerTables) (roomId : RoomId) (present : roomId ∈ tables.rooms) :
      Change env mover tables { tables with localRoomId := roomId }
  | bans (tables : ServerTables) (bannedNicks : Std.ExtTreeSet Bytes) :
      Change env mover tables { tables with bannedNicks }
  | bind (tables : ServerTables) (nick publicKeyHex : Bytes)
      (unbound : tables.identities[nick]? = none) :
      Change env mover tables
        { tables with identities := tables.identities.insert nick publicKeyHex }

abbrev Changes (env : Env) (mover : SessionId → Prop) : ServerTables → ServerTables → Prop :=
  Relation.ReflTransGen (Change env mover)

namespace Changes

variable {env : Env} {mover : SessionId → Prop} {a b c : ServerTables}

theorem of_eq (h : b = a) : Changes env mover a b := by
  rw [h]

theorem one (h : Change env mover a b) : Changes env mover a b := Relation.ReflTransGen.single h

theorem then_eq (h : Changes env mover a b) (e : c = b) : Changes env mover a c := by
  rwa [e]

/-- What every change keeps, a sequence of changes keeps. -/
theorem invariant {Inv : ServerTables → Prop}
    (keeps : ∀ a b, Change env mover a b → Inv a → Inv b)
    (h : Changes env mover a b) (start : Inv a) : Inv b := by
  induction h with
  | refl => exact start
  | tail _ hc ih => exact keeps _ _ hc ih

end Changes

namespace ChatServer

variable {env : Env} {server : ChatServer} {s : SessionId} {mover : SessionId → Prop}

section Operations

theorem updateSession_changes {change : ClientSession → ClientSession}
    (keeps : ∀ session, KeepsIdentity session (change session)) :
    Changes env mover server.roster (server.updateSession s change).roster :=
  .one (.touch _ s change keeps)

theorem moveSessionToRoom_changes {targetId : RoomId} (moves : mover s)
    (named : (server.tables.session s).nickname ≠ []) (announceMove : Bool) :
    Changes env mover server.roster
      (server.moveSessionToRoom env s targetId announceMove).roster := by
  rw [moveSessionToRoom_roster]
  split
  · next present =>
      exact .one (.place _ s targetId moves named (ServerTables.roster_mem _ |>.mpr present))
  · exact .of_eq rfl

theorem moveLocalToRoom_changes {targetId : RoomId} {announceMove : Bool} :
    Changes env mover server.roster
      (server.moveLocalToRoom env targetId announceMove).roster := by
  rw [moveLocalToRoom_roster]
  split
  · next present => exact .one (.host _ targetId (ServerTables.roster_mem _ |>.mpr present))
  · exact .of_eq rfl

theorem disconnect_changes (stays : ¬ mover s) {announce : Bool} :
    Changes env mover server.roster (server.disconnect env s announce).roster := by
  rw [disconnect_roster]
  exact .one (.drop _ s stays)

theorem startLocalUser_changes :
    Changes env mover server.roster (server.startLocalUser env).roster := by
  rcases server.startLocalUser_roster env with h | ⟨present, h⟩
  · exact .of_eq h
  · rw [h]
    exact .one (.host _ DEFAULT_ROOM_ID (ServerTables.roster_mem _ |>.mpr present))

theorem findRoomByName_roster (tables : ServerTables) (name : Bytes) :
    (tables.roster.findRoomByName name).isSome = (tables.findRoomByName name).isSome := by
  simp only [ServerTables.findRoomByName, ServerTables.roster, Std.ExtTreeMap.toList_map,
    List.find?_map, Option.isSome_map]
  rfl

/-- The three conditions under which a room can be created. -/
def canAddRoom (server : ChatServer) (name : Bytes) : Bool :=
  isValidRoomName name && decide (server.tables.rooms.size < MAX_ROOMS) &&
    (server.tables.findRoomByName name).isNone

theorem addRoom_cases (server : ChatServer) (name ownerNickname : Bytes) :
    (∃ error, server.addRoom name ownerNickname = .error error) ∧
        server.canAddRoom name = false ∨
      server.addRoom name ownerNickname =
          .ok (server.tables.nextRoomId, server.onTables fun tables =>
            tables.insertRoom server.tables.nextRoomId
              { id := server.tables.nextRoomId, name, ownerNickname }) ∧
        server.canAddRoom name = true := by
  unfold addRoom canAddRoom
  split
  · next h => exact .inl ⟨⟨_, rfl⟩, by simp_all⟩
  · next hvalid =>
      split
      · next h => exact .inl ⟨⟨_, rfl⟩, by simp [h]⟩
      · next hsize =>
          split
          · next h => exact .inl ⟨⟨_, rfl⟩, by simp_all⟩
          · next hname => exact .inr ⟨rfl, by simp_all⟩

theorem addRoom_changes (env : Env) (mover : SessionId → Prop) {name ownerNickname : Bytes}
    {id : RoomId} {server' : ChatServer}
    (h : server.addRoom name ownerNickname = .ok (id, server')) :
    server.canAddRoom name = true ∧ id = server.tables.nextRoomId ∧
      server'.tables.session = server.tables.session ∧ id ∈ server'.tables.rooms ∧
      Changes env mover server.roster server'.roster := by
  rcases server.addRoom_cases name ownerNickname with ⟨⟨error, he⟩, -⟩ | ⟨heq, hcan⟩
  · rw [he] at h
    cases h
  · rw [heq] at h
    obtain ⟨rfl, rfl⟩ := Prod.mk.inj (Except.ok.inj h)
    refine ⟨hcan, rfl, rfl, ?_, ?_⟩
    · simp [onTables, ServerTables.insertRoom]
    · simp only [canAddRoom, Bool.and_eq_true, decide_eq_true_eq, Option.isNone_iff_eq_none]
        at hcan
      obtain ⟨⟨valid, below⟩, fresh⟩ := hcan
      have fresh' : server.tables.roster.findRoomByName name = none := by
        have := findRoomByName_roster server.tables name
        rw [fresh] at this
        simpa using this
      refine (Changes.one (.insertRoom server.roster name ownerNickname valid ?_ fresh')).then_eq
        ?_
      · simpa [roster] using below
      · simp only [roster, onTables, ServerTables.insertRoom, ServerTables.roster,
          OrderedMap.map_insertIfNew]
        rfl

theorem persistRoom_roster (roomId : RoomId) :
    (server.persistRoom env roomId).roster = server.roster := by
  simp only [roster, persistRoom_tables]

theorem createRoom_changes {name : Bytes} (moves : server.canAddRoom name = true → mover s)
    (named : (server.tables.session s).nickname ≠ []) :
    Changes env mover server.roster (server.createRoom env s name).1.roster := by
  unfold createRoom
  cases h : server.addRoom name (server.tables.session s).nickname with
  | error error => exact .of_eq rfl
  | ok added =>
      obtain ⟨id, server'⟩ := added
      obtain ⟨hcan, -, hsession, -, hc⟩ := addRoom_changes env mover h
      refine (hc.then_eq (persistRoom_roster id)).trans
        (moveSessionToRoom_changes (moves hcan) ?_ true)
      rwa [persistRoom_tables, hsession]

theorem createLocalRoom_changes {name : Bytes} :
    Changes env mover server.roster (server.createLocalRoom env name).1.roster := by
  unfold createLocalRoom
  split
  · exact .of_eq rfl
  · cases h : server.addRoom name env.config.localNickname with
    | error error => exact .of_eq rfl
    | ok added =>
        obtain ⟨id, server'⟩ := added
        have hc := (addRoom_changes env mover h).2.2.2.2
        exact (hc.then_eq (persistRoom_roster id)).trans moveLocalToRoom_changes

theorem createAdminRoom_changes {name : Bytes} :
    Changes env mover server.roster (server.createAdminRoom env name).1.roster := by
  unfold createAdminRoom
  cases h : server.addRoom name [] with
  | error error => exact .of_eq rfl
  | ok added =>
      obtain ⟨id, server'⟩ := added
      refine (addRoom_changes env mover h).2.2.2.2.then_eq ?_
      simp only [broadcastRoomLists_roster]
      split
      · exact persistRoom_roster _
      · rfl

theorem joinRoom_changes {name : Bytes}
    (moves : ∀ item, server.tables.findRoomByName name = some item →
      (server.tables.session s).activeRoomId ≠ item.1 → mover s)
    (named : (server.tables.session s).nickname ≠ []) :
    Changes env mover server.roster (server.joinRoom env s name).1.roster := by
  unfold joinRoom
  split
  · exact .of_eq rfl
  · next roomId room h =>
      split
      · exact .of_eq rfl
      · next hne => exact moveSessionToRoom_changes (moves _ h hne) named true

theorem leaveRoom_changes
    (moves : (server.tables.session s).activeRoomId ≠ DEFAULT_ROOM_ID → mover s)
    (named : (server.tables.session s).nickname ≠ []) :
    Changes env mover server.roster (server.leaveRoom env s).1.roster := by
  unfold leaveRoom
  split
  · exact .of_eq rfl
  · next hne => exact moveSessionToRoom_changes (moves hne) named true

theorem joinLocalRoom_changes {name : Bytes} :
    Changes env mover server.roster (server.joinLocalRoom env name).1.roster := by
  unfold joinLocalRoom
  split
  · exact .of_eq rfl
  · split
    · exact .of_eq rfl
    · exact moveLocalToRoom_changes

theorem leaveLocalRoom_changes :
    Changes env mover server.roster (server.leaveLocalRoom env).1.roster := by
  unfold leaveLocalRoom
  split
  · exact .of_eq rfl
  · exact moveLocalToRoom_changes

theorem setTopicForRoom_changes {roomId : RoomId} {actor topic : Bytes} {privileged : Bool} :
    Changes env mover server.roster
      (server.setTopicForRoom env roomId actor privileged topic).1.roster := by
  unfold setTopicForRoom
  split
  · exact .of_eq rfl
  · next hvalid =>
      split
      · exact .of_eq rfl
      · split
        · exact .of_eq rfl
        · have valid : isValidRoomTopic topic = true := by simpa using hvalid
          refine (Changes.one (.topic server.roster roomId topic valid)).then_eq ?_
          simp only
          rw [broadcastRoom_roster, ite_roster (onHost_roster _ _), roster, deliverAll_tables,
            ite_tables (store_tables _ _)]
          exact server.tables.roster_updateRoom roomId fun _ => rfl

theorem setAdminTopic_changes {roomName topic : Bytes} :
    Changes env mover server.roster (server.setAdminTopic env roomName topic).1.roster := by
  unfold setAdminTopic
  split
  · exact .of_eq rfl
  · exact setTopicForRoom_changes

/-- A kick removes a member with the nickname, or changes nothing at all. -/
theorem kickUserInRoom_cases (env : Env) (server : ChatServer) (roomId : RoomId) (nick reason : Bytes) :
    server.kickUserInRoom env roomId nick reason = (server, false) ∨
      ∃ target, target ∈ server.tables.members roomId ∧
        (server.tables.session target).nickname = nick ∧
        (server.kickUserInRoom env roomId nick reason).2 = true ∧
        (server.kickUserInRoom env roomId nick reason).1.roster =
          server.roster.dropSession target := by
  unfold kickUserInRoom
  split
  · exact .inl rfl
  · next room hroom =>
      split
      · exact .inl rfl
      · next target htarget =>
          refine .inr ⟨target, ?_, ?_, rfl, ?_⟩
          · have := List.mem_of_find?_eq_some htarget
            simpa [ServerTables.members, hroom] using this
          · simpa using List.find?_some htarget
          · simp only
            rw [broadcastUsers_roster, broadcastRoom_roster, disconnect_roster]
            rfl

theorem kickUserInRoom_changes (stays : ∀ s, ¬ mover s) {roomId : RoomId}
    {nick reason : Bytes} : Changes env mover server.roster
      (server.kickUserInRoom env roomId nick reason).1.roster := by
  rcases server.kickUserInRoom_cases env roomId nick reason with h | ⟨target, -, -, -, h⟩
  · rw [h]
  · rw [h]
    exact .one (.drop _ target (stays target))

theorem kickUser_changes (stays : ∀ s, ¬ mover s) {nick reason : Bytes} :
    Changes env mover server.roster (server.kickUser env nick reason).1.roster := by
  unfold kickUser
  simp only
  split
  · exact kickUserInRoom_changes stays
  · exact .of_eq rfl

theorem kickUserInRoomNamed_changes (stays : ∀ s, ¬ mover s) {roomName nick reason : Bytes} :
    Changes env mover server.roster
      (server.kickUserInRoomNamed env roomName nick reason).1.roster := by
  unfold kickUserInRoomNamed
  split
  · exact .of_eq rfl
  · next id room h =>
      have hk : Changes env mover server.roster
          (server.kickUserInRoom env id nick reason).1.roster := kickUserInRoom_changes stays
      simp only
      split
      · exact hk
      · exact hk

theorem kickFrom_changes (stays : ∀ s, ¬ mover s) {nick reason : Bytes} :
    Changes env mover server.roster (server.kickFrom env s nick reason).1.roster := by
  unfold kickFrom
  simp only
  split
  · exact .of_eq rfl
  · split
    · exact .of_eq rfl
    · split
      · exact .of_eq rfl
      · have hk : Changes env mover server.roster (server.kickUserInRoom env
            (server.tables.session s).activeRoomId nick reason).1.roster :=
          kickUserInRoom_changes stays
        split
        · exact hk
        · exact hk

theorem banUser_roster (nick reason : Bytes) :
    (server.banUser env nick reason).roster =
      match server.tables.sessionNamed nick with
      | none => { server.roster with bannedNicks := server.tables.bannedNicks.insert nick }
      | some target =>
          { server.roster with bannedNicks := server.tables.bannedNicks.insert nick }.dropSession
            target := by
  have stored (server : ChatServer) :
      (if env.config.hasStorage = true then
        server.nextReading.2.store (.storeBan
          { nickname := nick, reason, createdAt := env.currentUnixSeconds server.nextReading.1,
            expiresAt := none })
        else server.saveBans env).tables = server.tables := by
    split
    · rfl
    · exact saveBans_tables env server
  unfold banUser
  simp only [stored]
  cases h : server.tables.sessionNamed nick with
  | none =>
      have h' : (server.onTables fun tables =>
        { tables with bannedNicks := tables.bannedNicks.insert nick }).tables.sessionNamed nick =
          none := h
      simp only [h', roster, stored]
      rfl
  | some target =>
      have h' : (server.onTables fun tables =>
        { tables with bannedNicks := tables.bannedNicks.insert nick }).tables.sessionNamed nick =
          some target := h
      simp only [h', broadcastUsers_roster, broadcastRoom_roster, disconnect_roster]
      simp only [roster, close_tables, deliver_tables, stored]
      rfl

theorem banUser_changes (stays : ∀ s, ¬ mover s) {nick reason : Bytes} :
    Changes env mover server.roster (server.banUser env nick reason).roster := by
  rw [banUser_roster]
  have banned : Changes env mover server.roster
      { server.roster with bannedNicks := server.tables.bannedNicks.insert nick } :=
    .one (.bans server.roster _)
  split
  · exact banned
  · next target _ => exact banned.tail (.drop _ target (stays target))

theorem unbanUser_changes {nick : Bytes} :
    Changes env mover server.roster (server.unbanUser env nick).1.roster := by
  have written (server : ChatServer) :
      (if env.config.hasStorage = true then server.store (.removeBan nick)
        else server.saveBans env).tables = server.tables := by
    split
    · rfl
    · exact saveBans_tables env server
  unfold unbanUser
  simp only
  refine (Changes.one (.bans server.roster (server.tables.bannedNicks.erase nick))).then_eq ?_
  rw [roster, ite_tables (written _)]
  rfl

/-- Binding fails on another key, and otherwise leaves the nickname bound to this
one, with no other binding changed. -/
theorem bindIdentity_cases (env : Env) (server : ChatServer) (nick publicKeyHex : Bytes) :
    (server.bindIdentity env nick publicKeyHex = (server, false) ∧
        ∃ key, server.tables.identities[nick]? = some key ∧ key ≠ publicKeyHex) ∨
      ((server.bindIdentity env nick publicKeyHex).2 = true ∧
        server.tables.identities[nick]? = some publicKeyHex ∧
        (server.bindIdentity env nick publicKeyHex).1 = server) ∨
      ((server.bindIdentity env nick publicKeyHex).2 = true ∧
        server.tables.identities[nick]? = none ∧
        (server.bindIdentity env nick publicKeyHex).1.tables =
          { server.tables with
            identities := server.tables.identities.insert nick publicKeyHex }) := by
  unfold bindIdentity
  split
  · next key h =>
      by_cases hk : key = publicKeyHex
      · subst hk
        exact .inr (.inl ⟨by simp, h, rfl⟩)
      · exact .inl ⟨by simp [hk], key, h, hk⟩
  · next h =>
      refine .inr (.inr ⟨rfl, h, ?_⟩)
      simp only
      split
      · rfl
      · exact saveIdentities_tables env _

theorem bindIdentity_changes {nick publicKeyHex : Bytes} :
    Changes env mover server.roster (server.bindIdentity env nick publicKeyHex).1.roster := by
  rcases server.bindIdentity_cases env nick publicKeyHex with
    ⟨h, -⟩ | ⟨-, -, h⟩ | ⟨-, unbound, h⟩
  · rw [h]
  · rw [h]
  · refine (Changes.one (.bind server.roster nick publicKeyHex unbound)).then_eq ?_
    rw [roster, h]
    rfl

theorem registerLocalIdentity_changes {nick publicKeyHex : Bytes} :
    Changes env mover server.roster
      (server.registerLocalIdentity env nick publicKeyHex).1.roster := by
  unfold registerLocalIdentity
  split
  · exact .of_eq rfl
  · exact bindIdentity_changes

end Operations

end ChatServer

end Chatbox.Chat
