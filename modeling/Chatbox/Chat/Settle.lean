import Chatbox.Chat.Act

/-!
Every operation, and so every step, is a sequence of acts after which nothing is due.
-/

namespace Chatbox.Chat

open Text Protocol Storage

/-- A sequence of acts that starts and ends with nothing due. -/
abbrev Settles (env : Env) (server server' : ChatServer) : Prop :=
  Acts env (({} : Due), server) (({} : Due), server')

namespace ChatServer

variable {env : Env} {server : ChatServer} {s : SessionId} {due : Due}

section Muted

theorem onHost_muted {change : App.AppState → App.AppState} :
    Muted env server (server.onHost change) := .of_tables rfl (.of_eq rfl)

theorem nextReading_muted : Muted env server server.nextReading.2 := .of_tables rfl (.of_eq rfl)

theorem store_muted {write : Write} : Muted env server (server.store write) :=
  .of_tables rfl (store_emits trivial)

theorem note_muted {effect : Effect} (h : Mute effect) : Muted env server (server.note effect) :=
  .of_tables rfl (note_emits h)

theorem close_muted : Muted env server (server.close s) := .of_tables rfl (close_emits trivial)

theorem updateSession_muted {change : ClientSession → ClientSession}
    (keeps : ∀ session, KeepsIdentity session (change session))
    (loop : ∀ session, (change session).readLoop = session.readLoop) :
    Muted env server (server.updateSession s change) := by
  refine ⟨updateSession_changes keeps, rfl, rfl, rfl, fun a => ?_, fun a => ?_, fun a => ?_,
    .of_eq rfl⟩
  · exact ServerTables.updateSession_kept ClientSession.nickname (keeps _).nickname
  · exact ServerTables.updateSession_kept ClientSession.activeRoomId (keeps _).activeRoomId
  · exact ServerTables.updateSession_kept ClientSession.readLoop (loop _)

theorem persistRoom_muted {roomId : RoomId} : Muted env server (server.persistRoom env roomId) := by
  unfold persistRoom
  split
  · exact .refl server
  · split
    · exact .refl server
    · exact nextReading_muted.trans store_muted

theorem saveBans_muted : Muted env server (server.saveBans env) :=
  .ite (.refl server) (note_muted trivial)

theorem bans_muted {bannedNicks : Std.ExtTreeSet Bytes} :
    Muted env server (server.onTables fun tables => { tables with bannedNicks }) :=
  ⟨.one (.bans _ _), rfl, rfl, rfl, fun _ => rfl, fun _ => rfl, fun _ => rfl, .of_eq rfl⟩

theorem unbanUser_muted {nick : Bytes} : Muted env server (server.unbanUser env nick).1 := by
  unfold unbanUser
  refine Muted.trans ?_ (.ite (.ite store_muted saveBans_muted) (.refl _))
  exact bans_muted

theorem saveIdentities_muted : Muted env server (server.saveIdentities env) :=
  .ite (.refl server) (note_muted trivial)

theorem bindIdentity_muted {nick publicKeyHex : Bytes} :
    Muted env server (server.bindIdentity env nick publicKeyHex).1 := by
  unfold bindIdentity
  split
  · exact .refl server
  · next unbound =>
      refine Muted.trans ?_ (.ite store_muted saveIdentities_muted)
      exact ⟨.one (.bind _ _ _ unbound), rfl, rfl, rfl, fun _ => rfl, fun _ => rfl, fun _ => rfl,
        .of_eq rfl⟩

theorem registerLocalIdentity_muted {nick publicKeyHex : Bytes} :
    Muted env server (server.registerLocalIdentity env nick publicKeyHex).1 := by
  unfold registerLocalIdentity
  split
  · exact .refl server
  · exact bindIdentity_muted

theorem consumeMessageQuota_muted : Muted env server (server.consumeMessageQuota env s).2 := by
  refine nextReading_muted.trans (updateSession_muted ?_ ?_)
  · exact fun _ => ⟨rfl, rfl, rfl, rfl, fun _ => rfl⟩
  · exact fun _ => rfl

end Muted

section Notices

theorem announceLeft_acts {oldId : RoomId} {nickname name : Bytes} (calm : due.CalmIn oldId) :
    Acts env (due, server) (due.usersSent oldId, server.announceLeft env oldId nickname name) :=
  (Acts.one (.broadcastRoom due server oldId _ _ calm)).tail (.broadcastUsers due _ oldId calm)

theorem announceJoined_acts {roomId : RoomId} {nickname name : Bytes} (calm : due.CalmIn roomId) :
    Acts env (due, server)
      ({ due.usersSent roomId with lists := false },
        server.announceJoined env roomId nickname name) :=
  ((Acts.one (.broadcastRoom due server roomId _ _ calm)).tail
    (.broadcastUsers due _ roomId calm)).tail (.broadcastRoomLists _ _)

theorem announceGone_acts {roomId : RoomId} {nickname : Bytes} {announce : Bool}
    (calm : due.CalmIn roomId) :
    Acts env (due, server)
      ({ due.usersSent roomId with lists := false },
        server.announceGone env roomId nickname announce) := by
  have told : Acts env (due, server) (due, if announce && !nickname.isEmpty then
      server.broadcastRoom env roomId (ascii "[system] " ++ nickname ++ ascii " left") []
      else server) := .ite (.one (.broadcastRoom due server roomId _ _ calm)) .refl
  exact (told.tail (.broadcastUsers due _ roomId calm)).tail (.broadcastRoomLists _ _)

end Notices

section Moves

/-- The end of a move: the answer to the session, then the notices to its new room. -/
theorem welcome_acts {room : Room} {nickname name : Bytes} :
    Acts env ({ users := [room.id], lists := true, arrival := some (s, room) }, server)
      ({}, (server.welcome s room).announceJoined env room.id nickname name) := by
  have joined := @announceJoined_acts env (server.welcome s room)
    { users := [room.id], lists := true } room.id nickname name nofun
  refine Relation.ReflTransGen.head (.welcome _ _ s room rfl) ?_
  simpa [Due.usersSent] using joined

theorem moveSessionToRoom_acts {lists announceMove : Bool} {entering : Option SessionId}
    {roomId : RoomId} {room : Room} (ho : Orderly env server)
    (mine : ∀ t, entering = some t → t = s)
    (reading : (server.tables.session s).readLoop = .reading)
    (named : (server.tables.session s).nickname ≠ [])
    (present : server.tables.rooms[roomId]? = some room)
    (other : (server.tables.session s).activeRoomId ≠ roomId)
    (announced : (server.tables.session s).activeRoomId ≠ 0 → announceMove = true) :
    Acts env ({ lists, entering }, server)
      ({}, server.moveSessionToRoom env s roomId announceMove) := by
  obtain rfl := (ho.consistent.rooms.key roomId room present).1
  rw [moveSessionToRoom_eq present]
  refine Relation.ReflTransGen.head
    (.enter _ server s room.id room rfl mine reading named present other) ?_
  by_cases hzero : (server.tables.session s).activeRoomId = 0
  · simp only [hzero, bne_self_eq_false, Bool.and_false, Bool.false_eq_true, if_false]
    simpa [Due.leaving] using welcome_acts
  · have hannounce := announced hzero
    subst hannounce
    have hne : ((server.tables.session s).activeRoomId != 0) = true := by simpa using hzero
    let due : Due :=
      { users := [room.id, (server.tables.session s).activeRoomId]
        lists := true
        arrival := some (s, room) }
    have calm : due.CalmIn (server.tables.session s).activeRoomId := by
      intro t room' h
      obtain ⟨-, rfl⟩ := Prod.mk.inj (Option.some.inj h)
      exact other.symm
    have left := @announceLeft_acts env (server.enterRoom s room.id room) due
      (server.tables.session s).activeRoomId (server.tables.session s).nickname room.name calm
    have sent : due.usersSent (server.tables.session s).activeRoomId =
        { users := [room.id], lists := true, arrival := some (s, room) } := by
      simp [due, Due.usersSent, other.symm]
    rw [sent] at left
    simp only [hne, Bool.and_true, if_true]
    simpa [Due.leaving, hzero] using left.trans welcome_acts

theorem moveLocalToRoom_acts {lists : Bool} {roomId : RoomId} {room : Room}
    (ho : Orderly env server) (present : server.tables.rooms[roomId]? = some room) :
    Acts env ({ lists }, server) ({}, server.moveLocalToRoom env roomId true) := by
  obtain rfl := (ho.consistent.rooms.key roomId room present).1
  have mem : room.id ∈ server.tables.rooms :=
    Std.ExtTreeMap.isSome_getElem?_iff_mem.mp (by rw [present]; rfl)
  simp only [moveLocalToRoom, present]
  refine Relation.ReflTransGen.head (.host _ server room.id mem) ?_
  generalize server.onTables (fun tables => { tables with localRoomId := room.id }) = moved
  have shown (server : ChatServer) : Muted env server (if !room.recentMessages.isEmpty then
      (server.onHost (·.activateRoom room.id room.name room.topic)).onHost fun app =>
        room.recentMessages.foldl (·.pushMessage ·)
          (app.pushMessage (ascii "[system] Recent messages in #" ++ room.name ++ ascii ":"))
      else server.onHost (·.activateRoom room.id room.name room.topic)) := by
    exact .ite (onHost_muted.trans onHost_muted) onHost_muted
  have rest (server : ChatServer) (users : List RoomId) (mine : ∀ r ∈ users, r = room.id) :=
    (Acts.muted (shown server)).trans (@announceJoined_acts env _
      { users, lists := true } room.id env.config.localNickname room.name nofun)
  have sent (users : List RoomId) (mine : ∀ r ∈ users, r = room.id) :
      users.filter (fun r => r ≠ room.id) = [] :=
    List.filter_eq_nil_iff.mpr fun r hr => by simp [mine r hr]
  by_cases hzero : server.tables.localRoomId = 0
  · have now := rest moved [room.id] (by simp)
    rw [Due.usersSent, sent [room.id] (by simp)] at now
    simpa [Due.leaving, hzero] using now
  · let users := [room.id, server.tables.localRoomId].filter fun r => r ≠ server.tables.localRoomId
    have mine : ∀ r ∈ users, r = room.id := by
      intro r hr
      simp only [users, List.mem_filter, List.mem_cons, List.not_mem_nil, or_false] at hr
      rcases hr with ⟨rfl | rfl, hne⟩
      · rfl
      · simp at hne
    have left := @announceLeft_acts env moved
      { users := [room.id, server.tables.localRoomId], lists := true } server.tables.localRoomId
      env.config.localNickname room.name nofun
    have now := left.trans (rest _ users mine)
    rw [Due.usersSent, sent users mine] at now
    simpa [Due.leaving, hzero] using now

theorem disconnect_settles (ho : Orderly env server) {announce : Bool} :
    Settles env server (server.disconnect env s announce) := by
  have gone := @Act.withdraw env {} server s rfl
  rw [disconnect_eq ho.consistent]
  split
  · next hzero =>
      rw [hzero] at gone
      exact .one gone
  · next hne =>
      have told := @announceGone_acts env (server.withdraw s)
        { users := [(server.tables.session s).activeRoomId], lists := true }
        (server.tables.session s).activeRoomId (server.tables.session s).nickname announce nofun
      rw [Due.leaving, if_neg hne] at gone
      simpa [Due.usersSent] using told.head gone

theorem expel_settles (ho : Orderly env server)
    (known : (server.tables.session s).readLoop ≠ .absent) {message : ServerMessage}
    (h : Aside message) {announce : Bool} :
    Settles env server (((server.deliver s message).close s).disconnect env s announce) := by
  have gone := @Act.expel env {} server s message rfl known h
  have same : ((server.deliver s message).close s).tables.Consistent := ho.consistent
  rw [disconnect_eq same]
  split
  · next hzero =>
      have hzero : (server.tables.session s).activeRoomId = 0 := hzero
      rw [hzero] at gone
      exact .one gone
  · next hne =>
      have hne : (server.tables.session s).activeRoomId ≠ 0 := hne
      have told := @announceGone_acts env (((server.deliver s message).close s).withdraw s)
        { users := [(server.tables.session s).activeRoomId], lists := true }
        (server.tables.session s).activeRoomId (server.tables.session s).nickname announce nofun
      rw [Due.leaving, if_neg hne] at gone
      simpa [Due.usersSent] using told.head gone

theorem disconnect_gone {announce : Bool} :
    s ∉ (server.disconnect env s announce).tables.sessions := by
  have h := congrArg ServerTables.sessions (server.disconnect_roster env s announce)
  rw [ServerTables.dropSession_sessions] at h
  change s ∉ (server.disconnect env s announce).roster.sessions
  rw [h]
  simp

theorem startLocalUser_settles (ho : Orderly env server) (first : server.tables.localRoomId = 0) :
    Settles env server (server.startLocalUser env) := by
  unfold startLocalUser
  split
  · exact .refl
  · split
    · exact .refl
    · next lobby present =>
        have id := (ho.consistent.rooms.key _ lobby present).1
        have mem : DEFAULT_ROOM_ID ∈ server.tables.rooms := ho.consistent.rooms.lobby
        have moved := @Act.host env {} server DEFAULT_ROOM_ID mem
        rw [Due.leaving, if_pos first] at moved
        have shown := (Acts.one moved).trans (Acts.muted
          (@onHost_muted env _ (·.activateRoom lobby.id lobby.name lobby.topic)))
        have told := (shown.tail (.broadcastUsers _ _ lobby.id nofun)).tail
          (.broadcastRoomLists _ _)
        simpa [Due.usersSent, id] using told

end Moves

section Rooms

/-- A room that is added has an id nobody is in. -/
theorem addRoom_acts {name ownerNickname : Bytes} {id : RoomId} {server' : ChatServer}
    (ho : Orderly env server) (h : server.addRoom name ownerNickname = .ok (id, server')) :
    Acts env ({}, server) ({ lists := true }, server') ∧
      server'.tables.session = server.tables.session ∧
      (∃ room, server'.tables.rooms[id]? = some room) ∧ id ∉ server.tables.rooms ∧ id ≠ 0 := by
  rcases server.addRoom_cases name ownerNickname with ⟨⟨error, he⟩, -⟩ | ⟨heq, hcan⟩
  · rw [he] at h
    cases h
  · rw [heq] at h
    obtain ⟨rfl, rfl⟩ := Prod.mk.inj (Except.ok.inj h)
    simp only [canAddRoom, Bool.and_eq_true, decide_eq_true_eq, Option.isNone_iff_eq_none]
      at hcan
    obtain ⟨⟨valid, below⟩, fresh⟩ := hcan
    have absent : server.tables.nextRoomId ∉ server.tables.rooms := by
      intro hm
      obtain ⟨room, hroom⟩ := Option.isSome_iff_exists.mp
        (Std.ExtTreeMap.isSome_getElem?_iff_mem.mpr hm)
      exact absurd (ho.consistent.rooms.key _ room hroom).2.2 (UInt64.lt_irrefl _)
    refine ⟨.one (.insertRoom {} server name ownerNickname valid below fresh), rfl,
      Option.isSome_iff_exists.mp (Std.ExtTreeMap.isSome_getElem?_iff_mem.mpr ?_), absent, ?_⟩
    · simp [onTables, ServerTables.insertRoom]
    · obtain ⟨lobby, hlobby⟩ := Option.isSome_iff_exists.mp
        (Std.ExtTreeMap.isSome_getElem?_iff_mem.mpr ho.consistent.rooms.lobby)
      have below := (ho.consistent.rooms.key _ lobby hlobby).2.2
      intro hzero
      rw [hzero] at below
      exact absurd below (by decide)

theorem active_mem (ho : Orderly env server)
    (h : (server.tables.session s).activeRoomId ≠ 0) :
    (server.tables.session s).activeRoomId ∈ server.tables.rooms :=
  ServerTables.mem_rooms_of_mem_members ((ho.consistent.member_iff s _).mpr ⟨rfl, h⟩)

theorem createRoom_settles (ho : Orderly env server) {name : Bytes}
    (reading : (server.tables.session s).readLoop = .reading)
    (named : (server.tables.session s).nickname ≠ []) :
    Settles env server (server.createRoom env s name).1 := by
  unfold createRoom
  cases h : server.addRoom name (server.tables.session s).nickname with
  | error error => exact .refl
  | ok added =>
      obtain ⟨id, server'⟩ := added
      obtain ⟨acts, hsession, ⟨room, present⟩, absent, hne⟩ := addRoom_acts ho h
      have persisted := acts.trans (Acts.muted (@persistRoom_muted env server' id))
      have kept : (server'.persistRoom env id).tables.rooms[id]? = some room := by
        rwa [persistRoom_tables]
      refine persisted.trans
        (moveSessionToRoom_acts (Acts.orderly persisted ho) nofun ?_ ?_ kept ?_ ?_)
      · rwa [persistRoom_tables, hsession]
      · rwa [persistRoom_tables, hsession]
      · rw [persistRoom_tables, hsession]
        intro same
        by_cases hzero : (server.tables.session s).activeRoomId = 0
        · exact hne (same.symm.trans hzero)
        · exact absent (same ▸ active_mem ho hzero)
      · exact fun _ => rfl

theorem createLocalRoom_settles (ho : Orderly env server) {name : Bytes} :
    Settles env server (server.createLocalRoom env name).1 := by
  unfold createLocalRoom
  split
  · exact .refl
  · cases h : server.addRoom name env.config.localNickname with
    | error error => exact .refl
    | ok added =>
        obtain ⟨id, server'⟩ := added
        obtain ⟨acts, -, ⟨room, present⟩, -, -⟩ := addRoom_acts ho h
        have persisted := acts.trans (Acts.muted (@persistRoom_muted env server' id))
        have kept : (server'.persistRoom env id).tables.rooms[id]? = some room := by
          rwa [persistRoom_tables]
        exact persisted.trans (moveLocalToRoom_acts (Acts.orderly persisted ho) kept)

theorem createAdminRoom_settles (ho : Orderly env server) {name : Bytes} :
    Settles env server (server.createAdminRoom env name).1 := by
  unfold createAdminRoom
  cases h : server.addRoom name [] with
  | error error => exact .refl
  | ok added =>
      obtain ⟨id, server'⟩ := added
      have acts := (addRoom_acts ho h).1
      refine (acts.trans (Acts.muted ?_)).tail (.broadcastRoomLists _ _)
      split
      · exact persistRoom_muted
      · exact .refl server'

theorem findRoomByName_present {name : Bytes} {roomId : RoomId} {room : Room}
    (h : server.tables.findRoomByName name = some (roomId, room)) :
    server.tables.rooms[roomId]? = some room :=
  Std.ExtTreeMap.mem_toList_iff_getElem?_eq_some.mp (List.mem_of_find?_eq_some h)

theorem joinRoom_settles (ho : Orderly env server) {name : Bytes}
    (reading : (server.tables.session s).readLoop = .reading)
    (named : (server.tables.session s).nickname ≠ []) :
    Settles env server (server.joinRoom env s name).1 := by
  unfold joinRoom
  split
  · exact .refl
  · next roomId room h =>
      split
      · exact .refl
      · next other =>
          exact moveSessionToRoom_acts ho nofun reading named (findRoomByName_present h) other
            fun _ => rfl

theorem lobby_present (ho : Orderly env server) :
    ∃ lobby, server.tables.rooms[DEFAULT_ROOM_ID]? = some lobby :=
  Option.isSome_iff_exists.mp
    (Std.ExtTreeMap.isSome_getElem?_iff_mem.mpr ho.consistent.rooms.lobby)

theorem leaveRoom_settles (ho : Orderly env server)
    (reading : (server.tables.session s).readLoop = .reading)
    (named : (server.tables.session s).nickname ≠ []) :
    Settles env server (server.leaveRoom env s).1 := by
  unfold leaveRoom
  split
  · exact .refl
  · next other =>
      obtain ⟨lobby, present⟩ := lobby_present ho
      exact moveSessionToRoom_acts ho nofun reading named present other fun _ => rfl

theorem joinLocalRoom_settles (ho : Orderly env server) {name : Bytes} :
    Settles env server (server.joinLocalRoom env name).1 := by
  unfold joinLocalRoom
  split
  · exact .refl
  · next roomId room h =>
      split
      · exact .refl
      · exact moveLocalToRoom_acts ho (findRoomByName_present h)

theorem leaveLocalRoom_settles (ho : Orderly env server) :
    Settles env server (server.leaveLocalRoom env).1 := by
  unfold leaveLocalRoom
  split
  · exact .refl
  · next other =>
      obtain ⟨lobby, present⟩ := lobby_present ho
      exact moveLocalToRoom_acts ho present

theorem setTopicForRoom_settles {roomId : RoomId} {actor topic : Bytes} {privileged : Bool} :
    Settles env server (server.setTopicForRoom env roomId actor privileged topic).1 := by
  unfold setTopicForRoom
  split
  · exact .refl
  · next hvalid =>
      split
      · exact .refl
      · next room present =>
          split
          · exact .refl
          · have valid : isValidRoomTopic topic = true := by simpa using hvalid
            have saving (server : ChatServer) : Muted env server
                (if env.config.hasStorage then server.store (.updateRoomTopic roomId topic)
                  else server) := .ite store_muted (.refl _)
            have told := Acts.one (.topic {} server _ roomId topic room rfl valid present
              (saving _))
            simp only
            refine Relation.ReflTransGen.tail (told.trans (Acts.muted ?_))
              (.broadcastRoom _ _ roomId _ _ nofun)
            exact .ite onHost_muted (.refl _)

theorem setAdminTopic_settles {roomName topic : Bytes} :
    Settles env server (server.setAdminTopic env roomName topic).1 := by
  unfold setAdminTopic
  split
  · exact .refl
  · exact setTopicForRoom_settles

end Rooms

section Private

/-- The members of a room have begun to read. -/
theorem member_awake (ho : Orderly env server) {roomId : RoomId}
    (h : s ∈ server.tables.members roomId) : ¬ (server.tables.session s).readLoop.Early := by
  intro early
  obtain ⟨rfl, hne⟩ := (ho.consistent.member_iff s roomId).mp h
  exact ho.consistent.named s hne (ho.unambiguous.early s early).1

theorem deliverTextTo_settles {receiver : Option SessionId} {line : Bytes}
    (awake : ∀ s, receiver = some s → ¬ (server.tables.session s).readLoop.Early) :
    Settles env server (server.deliverTextTo receiver line) := by
  cases receiver with
  | none => exact .refl
  | some s => exact .one (.aside {} server s _ (awake s rfl) trivial)

theorem memberNamed_member {room : Room} {roomId : RoomId} {nick : Bytes}
    (present : server.tables.rooms[roomId]? = some room)
    (h : server.memberNamed room nick = some s) : s ∈ server.tables.members roomId := by
  have hm := List.mem_of_find?_eq_some h
  simpa [ServerTables.members, present] using hm

theorem sendPrivateInRoom_settles (ho : Orderly env server) {sender target message : Bytes}
    {roomId : RoomId} {mirrorToLocal : Bool} :
    Settles env server
      (server.sendPrivateInRoom env sender target message roomId mirrorToLocal).1 := by
  unfold sendPrivateInRoom
  split
  · exact .refl
  · next room present =>
      have awake (nick : Bytes) (s : SessionId) (h : server.memberNamed room nick = some s) :
          ¬ (server.tables.session s).readLoop.Early :=
        member_awake ho (memberNamed_member present h)
      simp only
      split
      · have told : Settles env server (server.deliverTextTo (server.memberNamed room sender)
            (ascii "[system] User '" ++ target ++ ascii "' is not in this room")) :=
          deliverTextTo_settles (awake sender)
        exact told.trans (Acts.ite (Acts.muted onHost_muted) .refl)
      · have shown (change : App.AppState → App.AppState) (p : Prop) [Decidable p] :
            Settles env server (if p then server.nextReading.2.onHost change
              else server.nextReading.2) :=
          Acts.muted (.ite (nextReading_muted.trans onHost_muted) nextReading_muted)
        have told (change : App.AppState → App.AppState) (p : Prop) [Decidable p] (line : Bytes) :=
          (shown change p).trans (@deliverTextTo_settles env _ _ line
            fun t ht => Acts.awake (shown change p) (awake target t ht))
        refine (told _ _ _).trans (Acts.ite (deliverTextTo_settles fun t ht => ?_) .refl)
        exact Acts.awake (told _ _ _) (awake sender t ht)

end Private

section Moderation

theorem kickUserInRoom_settles (ho : Orderly env server) {roomId : RoomId}
    {nick reason : Bytes} : Settles env server (server.kickUserInRoom env roomId nick reason).1 := by
  unfold kickUserInRoom
  split
  · exact .refl
  · next room present =>
    split
    · exact .refl
    · next target htarget =>
        have member : target ∈ server.tables.members roomId := by
          rw [ServerTables.members, present]
          exact Std.ExtTreeSet.mem_toList.mp (List.mem_of_find?_eq_some htarget)
        have gone : Settles env server
            (((server.deliver target (.kick nick reason)).close target).disconnect env target
              false) := expel_settles ho (fun absent => member_awake ho member (.inl absent))
          (show Aside (.kick nick reason) from trivial)
        exact (gone.tail (.broadcastRoom _ _ roomId _ _ (Due.calmIn_empty _))).tail
          (.broadcastUsers _ _ roomId (Due.calmIn_empty _))

theorem kickUser_settles (ho : Orderly env server) {nick reason : Bytes} :
    Settles env server (server.kickUser env nick reason).1 := by
  unfold kickUser
  simp only
  split
  · exact kickUserInRoom_settles ho
  · exact .refl

theorem kickUserInRoomNamed_settles (ho : Orderly env server) {roomName nick reason : Bytes} :
    Settles env server (server.kickUserInRoomNamed env roomName nick reason).1 := by
  unfold kickUserInRoomNamed
  split
  · exact .refl
  · next id room h =>
      have kicked : Settles env server (server.kickUserInRoom env id nick reason).1 :=
        kickUserInRoom_settles ho
      simp only
      split
      · exact kicked
      · exact kicked

theorem kickFrom_settles (ho : Orderly env server) {nick reason : Bytes} :
    Settles env server (server.kickFrom env s nick reason).1 := by
  unfold kickFrom
  simp only
  split
  · exact .refl
  · split
    · exact .refl
    · split
      · exact .refl
      · have kicked : Settles env server (server.kickUserInRoom env
            (server.tables.session s).activeRoomId nick reason).1 := kickUserInRoom_settles ho
        split
        · exact kicked
        · exact kicked

theorem banUser_settles (ho : Orderly env server) {nick reason : Bytes} :
    Settles env server (server.banUser env nick reason) := by
  unfold banUser
  simp only
  generalize hbanned : ChatServer.onTables server _ = banned
  have saved : Settles env server (if env.config.hasStorage then
      banned.nextReading.2.store (.storeBan
        { nickname := nick, reason, createdAt := env.currentUnixSeconds banned.nextReading.1,
          expiresAt := none })
      else banned.saveBans env) := by
    have hban : Muted env server banned := hbanned ▸ bans_muted
    exact .muted (hban.trans (.ite (nextReading_muted.trans store_muted) saveBans_muted))
  revert saved
  generalize (if env.config.hasStorage then _ else _ : ChatServer) = saved
  intro hsaved
  split
  · exact hsaved
  · next target htarget =>
      have gone : Settles env saved
          (((saved.deliver target (.kick nick (if reason.isEmpty then ascii "banned"
            else reason))).close target).disconnect env target false) := by
        have orderly := Acts.orderly hsaved ho
        have inside : target ∈ saved.tables.sessions :=
          Std.ExtTreeSet.mem_toList.mp (List.mem_of_find?_eq_some htarget)
        refine expel_settles orderly (orderly.accepted target inside) ?_
        trivial
      exact ((hsaved.trans gone).tail (.broadcastRoom _ _ _ _ _ nofun)).tail
        (.broadcastUsers _ _ _ nofun)

end Moderation

section Handlers

theorem awake_of_reading (reading : (server.tables.session s).readLoop = .reading) :
    ¬ (server.tables.session s).readLoop.Early := by
  rw [reading]
  simp [ReadLoop.Early]

theorem deliver_settles (awake : ¬ (server.tables.session s).readLoop.Early)
    {message : ServerMessage} (h : Aside message) :
    Settles env server (server.deliver s message) := .one (.aside {} server s message awake h)

theorem disconnectAndStop_settles (ho : Orderly env server) {announce : Bool} :
    Settles env server ((server.disconnect env s announce).stopReading s) :=
  (disconnect_settles ho).tail (.stop {} _ s disconnect_gone)

theorem known_of_reading (reading : (server.tables.session s).readLoop = .reading) :
    (server.tables.session s).readLoop ≠ .absent := by
  rw [reading]
  nofun

theorem reject_settles (ho : Orderly env server)
    (known : (server.tables.session s).readLoop ≠ .absent) {message : ServerMessage}
    (h : Aside message) : Settles env server (server.reject env s message) :=
  (expel_settles ho known h).tail (.stop {} _ s disconnect_gone)

theorem reportError_settles (awake : ¬ (server.tables.session s).readLoop.Early)
    {result : ChatServer × Option Bytes} (h : Settles env server result.1) :
    Settles env server (reportError s result) := by
  unfold reportError
  split
  · exact h.trans (deliver_settles (Acts.awake h awake) trivial)
  · exact h

section Awake

variable (ho : Orderly env server) (reading : (server.tables.session s).readLoop = .reading)

include reading

theorem onHello_settles {version : UInt32} : Settles env server (server.onHello env s version) := by
  have awake := awake_of_reading reading
  unfold onHello
  split
  · exact deliver_settles awake trivial
  · have noted : Muted env server (server.updateSession s fun session =>
        { session with protocolNegotiated := version == VERSION }) :=
      updateSession_muted (fun _ => ⟨rfl, rfl, rfl, rfl, fun _ => rfl⟩) fun _ => rfl
    have acts : Settles env server _ := Acts.muted noted
    refine acts.trans (deliver_settles (Acts.awake acts awake) ?_)
    split <;> trivial

theorem onTopicRequest_settles {topic : Option Bytes} :
    Settles env server (server.onTopicRequest env s topic) := by
  have awake := awake_of_reading reading
  unfold onTopicRequest
  split
  · exact deliver_settles awake trivial
  · cases topic with
    | none => exact .one (.sendTopic {} server s rfl awake)
    | some topic => exact reportError_settles awake setTopicForRoom_settles

theorem onListRooms_settles : Settles env server (server.onListRooms env s) := by
  have awake := awake_of_reading reading
  unfold onListRooms
  split
  · exact deliver_settles awake trivial
  · next named => exact .one (.sendRoomList {} server s awake (by simpa using named))

theorem onChat_settles {body : Bytes} : Settles env server (server.onChat env s body) := by
  have awake := awake_of_reading reading
  have quota : Settles env server (server.consumeMessageQuota env s).2 :=
    Acts.muted consumeMessageQuota_muted
  have still := Acts.awake quota awake
  obtain h | h | h | ⟨-, session, reading, -, h⟩ := onChat_cases env server s body <;> rw [h]
  · exact deliver_settles awake trivial
  · exact quota.trans (deliver_settles still trivial)
  · exact quota.trans (deliver_settles still trivial)
  · refine Relation.ReflTransGen.tail (quota.trans (Acts.muted nextReading_muted)) ?_
    exact .broadcastRoom {} _ _ _ _ nofun

include ho

theorem onWhisper_settles {target body : Bytes} :
    Settles env server (server.onWhisper env s target body) := by
  have awake := awake_of_reading reading
  have quota : Settles env server (server.consumeMessageQuota env s).2 :=
    Acts.muted consumeMessageQuota_muted
  have still := Acts.awake quota awake
  obtain h | h | h | ⟨-, h⟩ := onWhisper_cases env server s target body <;> rw [h]
  · exact deliver_settles awake trivial
  · exact quota.trans (deliver_settles still trivial)
  · exact quota.trans (deliver_settles still trivial)
  · exact quota.trans (sendPrivateInRoom_settles (Acts.orderly quota ho))

theorem onAuthenticate_settles {password : Bytes} :
    Settles env server (server.onAuthenticate env s password) := by
  unfold onAuthenticate
  split
  · have noted : Muted env server (server.updateSession s fun session =>
        { session with authenticated := true }) :=
      updateSession_muted (fun _ => ⟨rfl, rfl, rfl, rfl, fun _ => rfl⟩) fun _ => rfl
    have acts : Settles env server _ := Acts.muted noted
    exact acts.trans (deliver_settles (Acts.awake acts (awake_of_reading reading)) trivial)
  · exact reject_settles ho (known_of_reading reading) trivial

theorem onIdentify_settles {nick publicKeyHex : Bytes} :
    Settles env server (server.onIdentify env s nick publicKeyHex) := by
  have awake := awake_of_reading reading
  unfold onIdentify
  split
  · exact deliver_settles awake trivial
  · split
    · exact reject_settles ho (known_of_reading reading) trivial
    · next h =>
        split
        · exact reject_settles ho (known_of_reading reading) trivial
        · split
          · exact reject_settles ho (known_of_reading reading) trivial
          · have pending (challenge : Bytes) : Muted env server.nextReading.2
                (server.nextReading.2.updateSession s fun session =>
                  { session with
                    pendingNickname := nick
                    pendingPublicKeyHex := publicKeyHex
                    pendingChallenge := challenge }) := by
              refine ⟨.one (.identify _ s nick publicKeyHex challenge
                (identityAvailableFor_valid h).1 reading), rfl, rfl, rfl, fun a => ?_, fun a => ?_,
                fun a => ?_, .of_eq rfl⟩
              · rw [updateSession_tables,
                  ServerTables.updateSession_kept ClientSession.nickname (by rfl)]
              · rw [updateSession_tables,
                  ServerTables.updateSession_kept ClientSession.activeRoomId (by rfl)]
              · rw [updateSession_tables,
                  ServerTables.updateSession_kept ClientSession.readLoop (by rfl)]
            have acts (challenge : Bytes) : Settles env server _ :=
              Acts.muted (nextReading_muted.trans (pending challenge))
            exact (acts _).trans (deliver_settles (Acts.awake (acts _) awake) trivial)

theorem acceptProof_settles {nick publicKeyHex challenge : Bytes}
    (unnamed : (server.tables.session s).nickname = [])
    (nick_eq : (server.tables.session s).pendingNickname = nick) (named : nick ≠ [])
    (key_eq : (server.tables.session s).pendingPublicKeyHex = publicKeyHex)
    (free : server.tables.nicknameTaken env nick = false)
    (bound : server.tables.identities[nick]? = some publicKeyHex) :
    Settles env server (server.acceptProof env s nick publicKeyHex challenge) := by
  subst nick_eq key_eq
  have name := Acts.one (.name {} server s rfl reading unnamed named free bound)
  have orderly := Acts.orderly name ho
  have nowhere : (server.tables.session s).activeRoomId = 0 := by
    by_contra hne
    exact ho.consistent.named s hne unnamed
  unfold acceptProof
  simp only
  generalize hnamed : server.takeNickname s (server.tables.session s).pendingNickname = server'
    at name orderly ⊢
  have session : server'.tables.session s =
      { server.tables.session s with
        nickname := (server.tables.session s).pendingNickname
        pendingNickname := []
        pendingPublicKeyHex := []
        pendingChallenge := [] } := by
    rw [← hnamed]
    simp
  have reading' : (server'.tables.session s).readLoop = .reading := by
    rw [session]
    exact reading
  have awake := awake_of_reading reading'
  obtain ⟨lobby, present⟩ := lobby_present orderly
  have told (e : Effect) (a b : ServerMessage) (he : Mute e) (ha : Aside a) (hb : Aside b) :
      Acts env ({}, server)
        ({}, (((server'.note e).deliver s a).deliver s b).moveSessionToRoom env s DEFAULT_ROOM_ID
          false) := by
    have first := name.trans (Acts.muted (note_muted he))
    have second := (first.tail (.aside _ _ s a awake ha)).tail (.aside _ _ s b awake hb)
    refine second.trans (moveSessionToRoom_acts (Acts.orderly second ho) ?_ ?_ ?_ present ?_ ?_)
    · exact fun t ht => (Option.some.inj ht).symm
    · exact reading'
    · change (server'.tables.session s).nickname ≠ []
      rw [session]
      exact named
    · change (server'.tables.session s).activeRoomId ≠ DEFAULT_ROOM_ID
      rw [session, nowhere]
      decide
    · change (server'.tables.session s).activeRoomId ≠ 0 → _
      rw [session, nowhere]
      exact absurd rfl
  exact told _ _ _ trivial trivial trivial

theorem onProof_settles {signatureHex : Bytes} :
    Settles env server (server.onProof env s signatureHex) := by
  obtain ⟨-, -, h⟩ | ⟨-, message, refusal, h⟩ | ⟨admits, unnamed, named, free, h⟩ :=
    server.onProof_cases env s signatureHex
  · rw [h]
    exact deliver_settles (awake_of_reading reading) trivial
  · rw [h]
    exact reject_settles ho (known_of_reading reading) refusal.aside
  · rw [h]
    have bind : Settles env server (server.bindIdentity env
        (server.tables.session s).pendingNickname
        (server.tables.session s).pendingPublicKeyHex).1 := Acts.muted bindIdentity_muted
    rcases server.bindIdentity_cases env (server.tables.session s).pendingNickname
      (server.tables.session s).pendingPublicKeyHex with
        ⟨-, key, other, hne⟩ | ⟨-, bound, same⟩ | ⟨-, -, tables⟩
    · simp_all [admitsSession]
    · rw [same]
      exact acceptProof_settles ho reading unnamed rfl named rfl free bound
    · refine bind.trans (acceptProof_settles (Acts.orderly bind ho) ?_ ?_ ?_ named ?_ ?_ ?_)
        <;> rw [tables]
      · exact reading
      · exact unnamed
      · exact free
      · simp

theorem onLeave_settles : Settles env server (server.onLeave env s) := by
  have awake := awake_of_reading reading
  unfold onLeave
  split
  · exact deliver_settles awake trivial
  · next named =>
      exact reportError_settles awake (leaveRoom_settles ho reading (by simpa using named))

theorem onCreateRoom_settles {name : Bytes} :
    Settles env server (server.onCreateRoom env s name) := by
  have awake := awake_of_reading reading
  unfold onCreateRoom
  split
  · exact deliver_settles awake trivial
  · next named =>
      exact reportError_settles awake (createRoom_settles ho reading (by simpa using named))

theorem onJoinRoom_settles {name : Bytes} :
    Settles env server (server.onJoinRoom env s name) := by
  have awake := awake_of_reading reading
  unfold onJoinRoom
  split
  · exact deliver_settles awake trivial
  · next named =>
      exact reportError_settles awake (joinRoom_settles ho reading (by simpa using named))

theorem onKickRequest_settles {nickname reason : Bytes} :
    Settles env server (server.onKickRequest env s nickname reason) := by
  have awake := awake_of_reading reading
  unfold onKickRequest
  split
  · exact deliver_settles awake trivial
  · exact reportError_settles awake (kickFrom_settles ho)

omit reading in
theorem onDisconnect_settles : Settles env server (server.onDisconnect env s) := by
  have gone : Settles env server ((server.disconnect env s true).close s) :=
    (disconnect_settles ho).trans (Acts.muted close_muted)
  exact gone.tail (.stop {} _ s disconnect_gone)

theorem onAdmittedMessage_settles {message : ClientMessage} :
    Settles env server (server.onAdmittedMessage env s message) := by
  have awake := awake_of_reading reading
  cases message with
  | hello version => exact deliver_settles awake trivial
  | authenticate password => exact deliver_settles awake trivial
  | identify nick publicKeyHex => exact onIdentify_settles ho reading
  | identityProof signatureHex => exact onProof_settles ho reading
  | leave => exact onLeave_settles ho reading
  | disconnect => exact onDisconnect_settles ho
  | listRooms => exact onListRooms_settles reading
  | createRoom name => exact onCreateRoom_settles ho reading
  | joinRoom name => exact onJoinRoom_settles ho reading
  | topicRequest topic => exact onTopicRequest_settles reading
  | chat body => exact onChat_settles reading
  | whisper target body => exact onWhisper_settles ho reading
  | kickRequest nickname reason => exact onKickRequest_settles ho reading

theorem onMessage_settles {message : ClientMessage} :
    Settles env server (server.onMessage env s message) := by
  have received : Settles env server (server.note (.received s message)) :=
    Acts.muted (note_muted trivial)
  have ho' := Acts.orderly received ho
  have reading' : ((server.note (.received s message)).tables.session s).readLoop = .reading :=
    reading
  refine received.trans ?_
  rcases server.onMessage_cases env s message with ⟨version, -, h⟩ | ⟨-, -, h⟩ |
    ⟨-, password, rfl, h⟩ | ⟨-, -, -, -, h⟩ | ⟨-, -, -, h⟩
  · rw [h]
    exact onHello_settles reading'
  · rw [h]
    exact reject_settles ho' (known_of_reading reading') trivial
  · rw [h]
    exact onAuthenticate_settles ho' reading'
  · rw [h]
    exact deliver_settles (awake_of_reading reading') trivial
  · rw [h]
    exact onAdmittedMessage_settles ho' reading'

theorem onLine_settles (line : Bytes) : Settles env server (server.onLine env s line) := by
  unfold onLine
  split
  · exact onMessage_settles ho reading
  · split
    · exact reject_settles ho (known_of_reading reading) trivial
    · exact deliver_settles (awake_of_reading reading) trivial

end Awake

theorem broadcastServer_settles {msg : Bytes} :
    Settles env server (server.broadcastServer env msg) := by
  unfold broadcastServer
  generalize server.tables.rooms.keys = ids
  induction ids generalizing server with
  | nil => exact .refl
  | cons id ids ih => exact Relation.ReflTransGen.head (.broadcastRoom {} server id _ _ nofun) ih

end Handlers

end ChatServer

open ChatServer in
/-- Every step sends all the notices it owes. -/
theorem step_settles {env : Env} {server server' : ChatServer} {event : Event}
    (ho : Orderly env server) (h : step env server event = some server') :
    Settles env server server' := by
  cases event with
  | accept s =>
      simp only [step, Option.ite_none_right_eq_some, Option.some.injEq] at h
      obtain ⟨absent, rfl⟩ := h
      exact .one (.accept {} server s absent)
  | handshake s ok =>
      simp only [step, Option.ite_none_right_eq_some, Option.some.injEq] at h
      obtain ⟨waiting, rfl⟩ := h
      cases ok with
      | false =>
          have closed (server : ChatServer) : Muted env server (server.onOutput fun output =>
              output.updateWire s fun wire => { wire with streamOpen := false }) :=
            .of_tables rfl (.of_eq rfl)
          have gone := (@disconnect_settles env server s ho false).trans (Acts.muted (closed _))
          exact gone.tail (.stop {} _ s disconnect_gone)
      | true => exact .one (.greet {} server s waiting)
  | line s line =>
      simp only [step, Option.ite_none_right_eq_some, Option.some.injEq] at h
      obtain ⟨reading, rfl⟩ := h
      exact onLine_settles ho reading line
  | readError s =>
      simp only [step, Option.ite_none_right_eq_some, Option.some.injEq] at h
      obtain ⟨-, rfl⟩ := h
      exact disconnectAndStop_settles ho
  | posted s =>
      simp only [step] at h
      split at h
      · cases h
      · cases h
        exact Acts.muted (.of_tables rfl (.of_eq rfl))
  | writeDone s ok =>
      simp only [step, Option.ite_none_right_eq_some, Option.some.injEq] at h
      obtain ⟨-, rfl⟩ := h
      exact Acts.muted (.of_tables rfl (.of_eq rfl))
  | registerLocalIdentity nick publicKeyHex =>
      cases h
      exact Acts.muted registerLocalIdentity_muted
  | startLocalUser =>
      simp only [step, Option.ite_none_right_eq_some, Option.some.injEq] at h
      obtain ⟨first, rfl⟩ := h
      exact startLocalUser_settles ho first
  | broadcast msg =>
      cases h
      exact .one (.broadcastRoom {} server _ _ _ (Due.calmIn_empty _))
  | broadcastServer msg =>
      cases h
      exact broadcastServer_settles
  | sendPrivate sender target message mirrorToLocal =>
      cases h
      exact sendPrivateInRoom_settles ho
  | createLocalRoom name =>
      cases h
      exact createLocalRoom_settles ho
  | joinLocalRoom name =>
      cases h
      exact joinLocalRoom_settles ho
  | leaveLocalRoom =>
      cases h
      exact leaveLocalRoom_settles ho
  | setLocalTopic topic =>
      cases h
      exact setTopicForRoom_settles
  | showRoomListLocal =>
      cases h
      exact Acts.muted (.of_tables rfl (.of_eq rfl))
  | kickUser nick reason =>
      cases h
      exact kickUser_settles ho
  | banUser nick reason =>
      cases h
      exact banUser_settles ho
  | unbanUser nick =>
      cases h
      exact Acts.muted unbanUser_muted
  | createAdminRoom name =>
      cases h
      exact createAdminRoom_settles ho
  | setAdminTopic roomName topic =>
      cases h
      exact setAdminTopic_settles
  | kickUserInRoom roomName nick reason =>
      cases h
      exact kickUserInRoomNamed_settles ho

end Chatbox.Chat
