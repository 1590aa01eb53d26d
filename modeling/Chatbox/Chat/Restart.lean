import Chatbox.Chat.Reload
import Chatbox.Chat.Saving

/-!
A server that is started again on its database. It finds in the database what the
server before it had in its tables: the rooms with their histories, the identities and
the bans.
-/

namespace Chatbox.Chat

open Text Protocol Storage

section Loading

/-- The tables as they are read, before the lobby is looked for. -/
def loadedTables (env : Env) (stored : StoredState) : ServerTables where
  rooms := (ChatServer.loadRooms env stored).1
  nextRoomId := (ChatServer.loadRooms env stored).2
  identities := stored.identities.foldl (fun identities entry =>
    identities.insert entry.1 entry.2) ∅
  bannedNicks := stored.bans.foldl (fun bans nickname => bans.insert nickname) ∅

variable {env : Env} {stored : StoredState} {db : Database} {now : Int} {rowIds : RowIds db}

theorem start_of_lobby (storage : env.config.hasStorage = true)
    (lobby : DEFAULT_ROOM_ID ∈ (loadedTables env stored).rooms) :
    ChatServer.start env stored = { tables := loadedTables env stored } := by
  obtain ⟨room, present⟩ := Option.isSome_iff_exists.mp
    (Std.ExtTreeMap.isSome_getElem?_iff_mem.mpr lobby)
  replace present : (ChatServer.loadRooms env stored).1[DEFAULT_ROOM_ID]? = some room := present
  simp only [ChatServer.start, if_pos storage, present]
  rfl

theorem start_of_no_lobby (storage : env.config.hasStorage = true)
    (absent : DEFAULT_ROOM_ID ∉ (loadedTables env stored).rooms) :
    ChatServer.start env stored =
      (ChatServer.onTables { tables := loadedTables env stored } fun tables =>
        { tables with rooms := tables.rooms.insert DEFAULT_ROOM_ID (firstLobby env) }).persistRoom
          env DEFAULT_ROOM_ID := by
  have missing : (ChatServer.loadRooms env stored).1[DEFAULT_ROOM_ID]? = none :=
    Std.ExtTreeMap.getElem?_eq_none absent
  simp only [ChatServer.start, if_pos storage, missing]
  rfl

/-- What is read of a database is what is kept in it. -/
theorem loadedTables_kept (plain : db.Plain) (bound : env.historyLimit ≤ MAX_HISTORY_PAGE) :
    (loadedTables env (openedStore db now rowIds)).kept = db.kept env.historyLimit := by
  refine Kept.ext ?_ ?_ ?_
  · funext r
    change ((ChatServer.loadRooms env (openedStore db now rowIds)).1[r]?).map _ = _
    rw [loadRooms_getElem?, Option.map_map]
    change (db.loadRooms.find? fun row => row.id == r).map _ = _
    rw [plain.loadRooms_find]
    apply Option.map_congr
    intro row found
    have own : row.id = r := (Table.find_some found).2
    have recent := plain.loadHistory_recentOf (le_max_left 1 _) bound row.id
    simp only [Function.comp_apply, loadedRoom, ← own]
    exact congrArg _ recent
  · funext nick
    have distinct : (db.loadIdentities.map Prod.fst).Nodup :=
      (plain.loadIdentities_perm.map Prod.fst).nodup_iff.mpr db.nicknames
    change (db.loadIdentities.foldl (fun identities entry => identities.insert entry.1 entry.2)
      (∅ : Std.ExtTreeMap Bytes Bytes))[nick]? = _
    rw [OrderedMap.getElem?_foldl_insert db.loadIdentities ∅ nick distinct,
      Std.ExtTreeMap.getElem?_empty, Option.or_none]
    exact congrArg _ (Table.find_perm plain.loadIdentities_perm.symm db.nicknames).symm
  · funext nick
    change (((db.loadBans now).1.map fun ban => ban.nickname).foldl (fun bans nickname =>
      bans.insert nickname) (∅ : Std.ExtTreeSet Bytes)).contains nick = _
    rw [Bool.eq_iff_iff, Std.ExtTreeSet.contains_iff_mem, OrderedMap.mem_foldl_insert,
      (plain.loadBans_perm now).mem_iff]
    simp only [Std.ExtTreeSet.not_mem_empty, or_false, Database.kept, Option.isSome_iff_ne_none,
      ne_eq, Table.find_none, not_not]

/-- The start hands over the lobby if it was not there. -/
theorem start_saves (storage : env.config.hasStorage = true) :
    Saves env { tables := loadedTables env stored } (ChatServer.start env stored) := by
  by_cases lobby : DEFAULT_ROOM_ID ∈ (loadedTables env stored).rooms
  · rw [start_of_lobby storage lobby]
    exact .refl _
  · rw [start_of_no_lobby storage lobby]
    refine @ChatServer.persistRoom_saves env { tables := loadedTables env stored } DEFAULT_ROOM_ID
      (firstLobby env) storage lobby rfl rfl _ (fun r => ?_) rfl rfl rfl
    change ((loadedTables env stored).rooms.insert DEFAULT_ROOM_ID (firstLobby env))[r]? = _
    rw [OrderedMap.getElem?_insert]

end Loading

section Restarting

variable {env : Env} {db db' : Database} {now : Int} {rowIds : RowIds db} {server : ChatServer}
  {events : List Event}

/-- The database after all that a run has handed over. -/
theorem run_kept (storage : env.config.hasStorage = true)
    (bound : env.historyLimit ≤ MAX_HISTORY_PAGE) (plain : db.Plain)
    (ran : Run.run (step env) (ChatServer.start env (openedStore db now rowIds)) events =
      some server)
    (clock : ∀ old ∈ db.messages, ∀ reading < server.output.readings,
      old.sentAt < env.systemNow reading)
    (texts : ∀ write ∈ handedWrites server.output.trace, ∀ text ∈ write.texts, (0 : UInt8) ∉ text)
    (ids : ((db.messages ++ sentMessages (handedWrites server.output.trace)).map
      fun message => message.id).Nodup)
    (executed : (db.loadBans now).2.executeAll (handedWrites server.output.trace) = .ok db') :
    db'.kept env.historyLimit = server.tables.kept ∧ db'.Plain := by
  have saves := (start_saves storage).trans
    (run_saves storage (start_consistent env (openedStore db now rowIds)) ran)
  obtain ⟨new, trace, saved⟩ := saves
  replace trace : server.output.trace = new := trace
  subst trace
  obtain ⟨kept, plain'⟩ := @executeAll_kept db db' env.historyLimit _
    (le_max_left 1 _) plain texts saved.lasting ids
    saved.dated.order
    (fun old mem message sent => by
      obtain ⟨reading, before, read⟩ := saved.dated.read message sent
      exact (clock old mem reading before).trans_le read)
    (by rwa [Database.loadBans, plain.cleanupBans_eq now] at executed)
  refine ⟨?_, plain'⟩
  rw [kept, saved.kept, loadedTables_kept plain bound]

/-- Servers that keep the same have the same rooms, apart from who is in them. -/
theorem rooms_of_kept {a b : ServerTables} (kept : a.kept = b.kept) (wfa : a.RoomsWellFormed)
    (wfb : b.RoomsWellFormed)
    (empty : ∀ (r : RoomId) (room : Room), a.rooms[r]? = some room → room.members = ∅)
    (r : RoomId) : a.rooms[r]? = b.rooms[r]?.map fun room => { room with members := ∅ } := by
  have looks := congrArg (fun kept => kept.rooms r) kept
  simp only [ServerTables.kept] at looks
  cases ha : a.rooms[r]? with
  | none =>
      rw [ha] at looks
      rw [Option.map_eq_none_iff.mp looks.symm]
      rfl
  | some room =>
      rw [ha] at looks
      obtain ⟨room', hb, fields⟩ := Option.map_eq_some_iff.mp looks.symm
      simp only [KeptRoom.mk.injEq] at fields
      obtain ⟨name, topic, owner, recent⟩ := fields
      have id := (wfa.key r room ha).1.trans (wfb.key r room' hb).1.symm
      have members := empty r room ha
      cases room
      cases room'
      simp only at name topic owner recent id members
      simp only [hb, Option.map_some, name, topic, owner, recent, id, members]

end Restarting

/-- Started again, a server has the rooms, the identities and the bans it had, and the
database is again one of texts and of bans that last. -/
theorem run_restarted (env env' : Env) (db db' : Database) (now now' : Int) (rowIds : RowIds db)
    (rowIds' : RowIds db') (events : List Event) (server : ChatServer)
    (storage : env.config.hasStorage = true) (storage' : env'.config.hasStorage = true)
    (limit : 1 ≤ env.config.historyLimit ∧ env.config.historyLimit ≤ MAX_HISTORY_PAGE)
    (same : env'.config.historyLimit = env.config.historyLimit) (plain : db.Plain)
    (ran : Run.run (step env) (ChatServer.start env (openedStore db now rowIds)) events =
      some server)
    (clock : ∀ old ∈ db.messages, ∀ reading < server.output.readings,
      old.sentAt < env.systemNow reading)
    (texts : ∀ write ∈ handedWrites server.output.trace, ∀ text ∈ write.texts, (0 : UInt8) ∉ text)
    (ids : ((db.messages ++ sentMessages (handedWrites server.output.trace)).map
      fun message => message.id).Nodup)
    (executed : (db.loadBans now).2.executeAll (handedWrites server.output.trace) = .ok db') :
    let restarted := ChatServer.start env' (openedStore db' now' rowIds')
    (∀ r : RoomId, restarted.tables.rooms[r]? =
        server.tables.rooms[r]?.map fun room => { room with members := ∅ }) ∧
      restarted.tables.identities = server.tables.identities ∧
      restarted.tables.bannedNicks = server.tables.bannedNicks ∧ db'.Plain := by
  have bound : env.historyLimit ≤ MAX_HISTORY_PAGE := max_le (by decide) limit.2
  have again : env'.historyLimit = env.historyLimit := by rw [Env.historyLimit, same]; rfl
  obtain ⟨left, plain'⟩ := run_kept storage bound plain ran clock texts ids executed
  have wf := (reachable_consistent ⟨events, ran⟩).rooms
  have found : (loadedTables env' (openedStore db' now' rowIds')).kept = server.tables.kept := by
    rw [loadedTables_kept plain' (again ▸ bound), again, left]
  have lobby : DEFAULT_ROOM_ID ∈ (loadedTables env' (openedStore db' now' rowIds')).rooms := by
    have looks := congrArg (fun kept => (kept.rooms DEFAULT_ROOM_ID).isSome) found
    simp only [ServerTables.kept, Option.isSome_map] at looks
    rw [← Std.ExtTreeMap.isSome_getElem?_iff_mem, looks, Std.ExtTreeMap.isSome_getElem?_iff_mem]
    exact wf.lobby
  have started := start_tables env' (openedStore db' now' rowIds')
  rw [start_of_lobby storage' lobby] at started ⊢
  refine ⟨rooms_of_kept found started.1 wf started.2.1, ?_, ?_, plain'⟩
  · exact Std.ExtTreeMap.ext_getElem? fun nick => congrFun (congrArg Kept.identities found) nick
  · exact Std.ExtTreeSet.ext_contains fun nick => congrFun (congrArg Kept.banned found) nick

theorem newDatabase_plain (createdAt : Int) : (newDatabase createdAt).Plain := by
  refine ⟨fun room mem => ?_, nofun, nofun, nofun⟩
  obtain rfl := List.mem_singleton.mp mem
  have lobby : (0 : UInt8) ∉ ascii "lobby" ∧ (0 : UInt8) ∉ ascii "Welcome to the lobby" := by decide
  exact ⟨lobby.1, lobby.2, List.not_mem_nil⟩

/-- The lobby of an earlier day, with one message. -/
def earlierDatabase : Database :=
  { newDatabase 0 with
    messages :=
      [{ id := ascii "0f", roomId := DEFAULT_ROOM_ID, nickname := ascii "bob"
         body := ascii "[09:00:00] bob: bye", sentAt := 5 }]
    messageIds := List.nodup_singleton _
    messageRooms := by decide }

def laterEnv : Env := { Env.stored with systemNow := fun reading => 1000 + reading }

theorem earlierDatabase_plain : earlierDatabase.Plain :=
  { newDatabase_plain 0 with messages := by decide }

theorem rowIds_earlierDatabase : RowIds earlierDatabase := by decide

/-- A client comes, chats, makes a room and changes its topic, and the console bans
somebody. -/
def evening : List Event :=
  visit 7 (ascii "ann") ++
    [.line 7 (clientFrame (.chat (ascii "hello"))),
      .line 7 (clientFrame (.createRoom (ascii "games"))),
      .line 7 (clientFrame (.topicRequest (some (ascii "chess")))),
      .banUser (ascii "eve") []]

theorem run_restarted_evening : ∃ server db', ∃ rowIds' : RowIds db',
    Run.run (step laterEnv) (ChatServer.start laterEnv
      (openedStore earlierDatabase 0 rowIds_earlierDatabase)) evening = some server ∧
    (earlierDatabase.loadBans 0).2.executeAll (handedWrites server.output.trace) = .ok db' ∧
    (∀ r : RoomId, (ChatServer.start laterEnv (openedStore db' 0 rowIds')).tables.rooms[r]? =
      server.tables.rooms[r]?.map fun room => { room with members := ∅ }) := by
  have runs : (Run.run (step laterEnv) (ChatServer.start laterEnv (openedStore earlierDatabase 0
      rowIds_earlierDatabase)) evening).any (fun server : ChatServer =>
        decide (∀ write ∈ handedWrites server.output.trace, ∀ text ∈ write.texts,
            (0 : UInt8) ∉ text) &&
          decide ((earlierDatabase.messages ++ sentMessages (handedWrites server.output.trace)).map
            fun message => message.id).Nodup &&
          match (earlierDatabase.loadBans 0).2.executeAll (handedWrites server.output.trace) with
          | .error _ => false
          | .ok db' => decide (RowIds db')) = true := by decide +kernel
  obtain ⟨server, ran, checks⟩ := (Option.any_eq_true _ _).mp runs
  simp only [Bool.and_eq_true, decide_eq_true_eq] at checks
  obtain ⟨⟨texts, ids⟩, stored⟩ := checks
  split at stored
  · cases stored
  · next db' executed =>
      have rowIds' : RowIds db' := of_decide_eq_true stored
      have clock : ∀ old ∈ earlierDatabase.messages, ∀ reading < server.output.readings,
          old.sentAt < laterEnv.systemNow reading := by
        intro old mem reading _
        obtain rfl := List.mem_singleton.mp mem
        change (5 : Int) < 1000 + reading
        omega
      exact ⟨server, db', rowIds', ran, executed, (run_restarted laterEnv laterEnv earlierDatabase
        db' 0 0 rowIds_earlierDatabase rowIds' evening server rfl rfl (by decide) rfl
        earlierDatabase_plain ran clock texts ids executed).1⟩

end Chatbox.Chat
