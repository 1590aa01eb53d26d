import Chatbox.Chat.Screen

/-!
The clients stay in step with the server: every act keeps their screens right but for
the notices it makes due, and after every step of the server nothing is due.
-/

namespace Chatbox.Chat

open Text Protocol Storage

section Acts

open ChatServer

variable {env : Env} {first : ChatClient} {due due' : Due} {server server' : ChatServer}

theorem Due.CalmIn.not_arriving {roomId : RoomId} (calm : due.CalmIn roomId)
    (hs : Synced env first due server) {s : SessionId}
    (here : (server.tables.session s).activeRoomId = roomId) (room : Room) :
    due.arrival ≠ some (s, room) := fun arrived =>
  calm s room arrived ((hs.arrived s room arrived).active.symm.trans here)

theorem broadcastRoom_synced (hs : Synced env first due server) {roomId : RoomId}
    {msg nickname : Bytes} : Synced env first due (server.broadcastRoom env roomId msg nickname) := by
  cases present : server.tables.rooms[roomId]? with
  | none =>
      simp only [broadcastRoom, present]
      exact hs
  | some room =>
      obtain ⟨tail, htrace, mute⟩ := @broadcastRoom_trace env server roomId room msg nickname present
      have members : server.tables.members roomId = room.members := by
        rw [ServerTables.members, present]
      refine hs.deliverAll roomId (.roomText roomId msg) (broadcastRoom_roster _ _ _ _ _)
        (fun s => ?_) (by simp) rfl (fun s room hr => ⟨hr, id⟩) (fun s _ screen hshow => hshow)
        fun s _ _ screen hshow => hshow
      have said : delivered s [.recorded roomId msg] = [] := rfl
      rw [htrace, ← List.singleton_append, delivered_append, delivered_append, delivered_append,
        said, delivered_mute mute, List.append_nil, List.nil_append,
        delivered_each (OrderedMap.nodup_toList _), members]
      simp only [Std.ExtTreeSet.mem_toList]

theorem broadcastUsers_synced (hs : Synced env first due server) {roomId : RoomId}
    (calm : due.CalmIn roomId) :
    Synced env first (due.usersSent roomId) (server.broadcastUsers env roomId) := by
  refine hs.deliverAll roomId (.userList roomId (server.tables.userNicknames env roomId
      (server.tables.members roomId))) (broadcastUsers_roster _ _ _) (fun s => ?_) nofun rfl
    (fun s room hr => ⟨hr, fun hu => ?_⟩) (fun s other screen hshow => ?_)
    (fun s here hne screen hshow => ?_)
  · rw [broadcastUsers_trace, delivered_append, delivered_each (OrderedMap.nodup_toList _)]
    simp only [Std.ExtTreeSet.mem_toList]
  · exact List.mem_filter.mpr ⟨hu, by simpa using calm s room hr⟩
  · refine ⟨hshow.place, fun hne sent => hshow.users hne fun hu => sent ?_, hshow.rooms⟩
    exact List.mem_filter.mpr ⟨hu, by simpa using other⟩
  · have place := hshow.place (here ▸ hne) (calm.not_arriving hs here)
    have showing : roomId = screen.roomId := here.symm.trans place.1.symm
    simp only [Screen.update, if_pos showing]
    refine ⟨fun _ _ => place, fun _ _ => ?_, hshow.rooms⟩
    simp only [ServerTables.screenOf, here]

theorem broadcastRoomLists_synced (hs : Synced env first due server) :
    Synced env first { due with lists := false } (server.broadcastRoomLists env) := by
  refine hs.notice (broadcastRoomLists_roster _ _) (fun s =>
      if s ∈ server.tables.sessions ∧ (server.tables.session s).nickname ≠ [] then
        [.roomList (server.tables.roomList env)] else []) (fun s => ?_) (fun s m hm => ?_)
    (fun s early => ?_) rfl (fun s room hr => ⟨hr, id⟩) (fun s hmem screen hshow => ?_)
  · rw [broadcastRoomLists_trace, delivered_append,
      delivered_each ((OrderedMap.nodup_toList _).filter _)]
    simp [List.mem_filter]
  · split at hm
    · rw [List.mem_singleton.mp hm]
      nofun
    · cases hm
  · exact if_neg fun named => named.2 (hs.orderly.unambiguous.early s early).1
  · by_cases outside : (server.tables.session s).activeRoomId = 0
    · exact .outside outside
    · rw [if_pos ⟨hmem, hs.orderly.consistent.named s outside⟩]
      exact ⟨hshow.place, hshow.users, fun _ _ => rfl⟩

theorem sendRoomList_synced (hs : Synced env first due server) {a : SessionId}
    (awake : ¬ (server.tables.session a).readLoop.Early) :
    Synced env first due (server.sendRoomList env a) := by
  refine hs.deliver awake nofun fun screen hshow => ?_
  exact ⟨hshow.place, hshow.users, fun _ _ => rfl⟩

theorem sendTopic_synced (hs : Synced env first due server) {a : SessionId}
    (calm : due.arrival = none) (awake : ¬ (server.tables.session a).readLoop.Early) :
    Synced env first due (server.sendTopic a) := by
  cases present : server.tables.rooms[(server.tables.session a).activeRoomId]? with
  | none =>
      simp only [sendTopic, present]
      exact hs
  | some room =>
      simp only [sendTopic, present]
      refine hs.deliver awake (by simp) fun screen hshow => ?_
      by_cases outside : (server.tables.session a).activeRoomId = 0
      · exact .outside outside
      · have place := hshow.place outside (by simp [calm])
        have showing : (server.tables.session a).activeRoomId = screen.roomId := place.1.symm
        simp only [Screen.update, if_pos showing]
        refine ⟨fun _ _ => ⟨place.1, place.2.1, ?_⟩, hshow.users, hshow.rooms⟩
        simp only [ServerTables.screenOf, present]
        rfl

/-- The texts that follow the answer leave the screen alone. -/
theorem update_texts {messages : List ServerMessage} (screen : Screen)
    (h : ∀ message ∈ messages, screen.update message = screen) :
    messages.foldl Screen.update screen = screen := by
  induction messages with
  | nil => rfl
  | cons message messages ih =>
      rw [List.foldl_cons, h message List.mem_cons_self]
      exact ih fun m hm => h m (List.mem_cons_of_mem _ hm)

theorem welcome_synced (hs : Synced env first due server) {a : SessionId} {room : Room}
    (arrived : due.arrival = some (a, room)) :
    Synced env first { due with arrival := none } (server.welcome a room) := by
  obtain ⟨active, inside, users, name, topic⟩ := hs.arrived a room arrived
  have member : a ∈ server.tables.members room.id :=
    (hs.orderly.consistent.member_iff a room.id).mpr ⟨active, inside⟩
  let texts : List ServerMessage := if room.recentMessages.isEmpty then []
    else .text (ascii "[system] Recent messages in #" ++ room.name ++ ascii ":") ::
      room.recentMessages.map fun body => .roomText room.id body
  have sent : ∀ message ∈ texts, Aside message ∨ ∃ body, message = .roomText room.id body := by
    intro message hm
    simp only [texts] at hm
    split at hm
    · cases hm
    · rcases List.mem_cons.mp hm with rfl | hm
      · exact .inl trivial
      · obtain ⟨body, -, rfl⟩ := List.mem_map.mp hm
        exact .inr ⟨body, rfl⟩
  have quiet (screen : Screen) : texts.foldl Screen.update screen = screen := by
    refine update_texts screen fun message hm => ?_
    rcases sent message hm with aside | ⟨body, rfl⟩
    · exact update_aside aside screen
    · rfl
  have roster : (server.welcome a room).roster = server.roster := by
    rw [roster, welcome_tables, roster]
  refine hs.notice roster (fun s =>
      if s = a then .roomJoined room.id room.name room.topic :: texts else []) (fun s => ?_)
    (fun s m hm => ?_) (fun s early => ?_) rfl (fun s room hr => by cases hr)
    (fun s hmem screen hshow => ?_)
  · rw [welcome, deliverHistory_trace, deliver_trace, List.append_assoc, delivered_append,
      delivered_append, delivered_one]
    have rest : delivered s (if room.recentMessages.isEmpty then [] else
        .deliver a (.text (ascii "[system] Recent messages in #" ++ room.name ++ ascii ":")) ::
          room.recentMessages.map fun body => .deliver a (.roomText room.id body)) =
        if s = a then texts else [] := by
      by_cases empty : room.recentMessages.isEmpty
      · simp [texts, empty, delivered]
      · rw [if_neg empty, ← List.singleton_append, delivered_append, delivered_one,
          delivered_history]
        by_cases e : s = a
        · simp [e, texts, empty]
        · simp [e]
    rw [rest]
    by_cases e : s = a
    · simp [e]
    · simp [e]
  · split at hm
    · rcases List.mem_cons.mp hm with rfl | hm
      · simp
      · rcases sent m hm with aside | ⟨body, rfl⟩
        · exact not_hello_of_aside aside
        · simp
    · cases hm
  · refine if_neg fun e => member_awake hs.orderly member ?_
    rwa [← e]
  · by_cases e : s = a
    · subst e
      rw [if_pos rfl, List.foldl_cons, quiet]
      exact ⟨fun _ _ => ⟨active.symm, name.symm, topic.symm⟩,
        fun _ sent => absurd (active ▸ users) sent, hshow.rooms⟩
    · rw [if_neg e]
      refine ⟨fun hne _ => hshow.place hne ?_, hshow.users, hshow.rooms⟩
      rw [arrived]
      exact fun room' eq => e (Prod.mk.inj (Option.some.inj eq)).1.symm

/-- Sessions come and go or begin to read; what they see stays. -/
theorem Synced.still (h : Synced env first due server) (orderly : Orderly env server')
    (hnew : ∀ s, delivered s server'.output.trace = delivered s server.output.trace)
    (unread : ∀ s, server'.tables.Unread s → server.tables.Unread s)
    (awake : ∀ s ∈ server'.tables.sessions, ¬ (server'.tables.session s).readLoop.Early →
      s ∈ server.tables.sessions ∧ ¬ (server.tables.session s).readLoop.Early)
    (sessions : ∀ s ∈ server'.tables.sessions, (server.tables.session s).nickname ≠ [] →
      s ∈ server.tables.sessions)
    (rooms : server'.tables.rooms = server.tables.rooms)
    (host : server'.tables.localRoomId = server.tables.localRoomId)
    (nickname : ∀ s, (server'.tables.session s).nickname = (server.tables.session s).nickname)
    (active : ∀ s,
      (server'.tables.session s).activeRoomId = (server.tables.session s).activeRoomId) :
    Synced env first due server' := by
  have view (s : SessionId) : server'.tables.screenOf env s = server.tables.screenOf env s :=
    screenOf_congr rooms host (active s) fun a _ => nickname a
  refine h.silent orderly hnew unread awake (fun s hs named => ?_) (fun s room hr => ?_)
    fun s hs screen hshow => hshow.congr (active s) (view s)
  · rw [nickname] at named
    rw [active]
    exact h.named s (sessions s hs named) named
  · obtain ⟨here, inside, users, name, topic⟩ := h.arrived s room hr
    refine ⟨(active s).trans here, inside, users, ?_, ?_⟩
    · rwa [view]
    · rwa [view]

theorem muted_synced (hs : Synced env first due server) (h : Muted env server server')
    (orderly : Orderly env server') : Synced env first due server' := by
  obtain ⟨new, htrace, mute⟩ := h.emits
  refine hs.still orderly (fun s => ?_) (fun s => ?_) (fun s => ?_) (fun s => ?_) h.rooms
    h.localRoomId h.nickname h.activeRoomId
  · rw [htrace, delivered_append, delivered_mute mute, List.append_nil]
  · rw [ServerTables.Unread, ServerTables.Unread, h.readLoop, h.sessions]
    exact id
  · rw [h.readLoop, h.sessions]
    exact fun hs up => ⟨hs, up⟩
  · rw [h.sessions]
    exact fun hs _ => hs

theorem accept_synced (hs : Synced env first due server) {a : SessionId}
    (absent : (server.tables.session a).readLoop = .absent)
    (orderly : Orderly env (server.accept a)) : Synced env first due (server.accept a) := by
  have session (s : SessionId) : (server.accept a).tables.session s =
      if s = a then { server.tables.session s with readLoop := .handshake }
      else server.tables.session s := by
    rw [accept, updateSession_tables, ServerTables.updateSession_session]
    split
    · next e =>
        rw [e]
        rfl
    · rfl
  have inserted (s : SessionId) : s ∈ (server.accept a).tables.sessions ↔
      s = a ∨ s ∈ server.tables.sessions := OrderedMap.mem_insert
  refine hs.still orderly (fun s => rfl) (fun s unread => ?_) (fun s hmem up => ?_)
    (fun s hmem named => ?_) rfl rfl (fun s => ?_) (fun s => ?_)
  · by_cases e : s = a
    · exact .inl (e ▸ absent)
    · rw [ServerTables.Unread, session, if_neg e, inserted] at unread
      exact unread.imp_right (And.imp_right fun hmem => hmem.resolve_left e)
  · rw [session] at up
    split at up
    · exact absurd (.inr rfl) up
    · next e => exact ⟨((inserted s).mp hmem).resolve_left e, up⟩
  · refine ((inserted s).mp hmem).resolve_left fun e => named ?_
    exact (hs.orderly.unambiguous.early s (.inl (e ▸ absent))).1
  · rw [session]
    split <;> rfl
  · rw [session]
    split <;> rfl

theorem stop_synced (hs : Synced env first due server) {a : SessionId}
    (gone : a ∉ server.tables.sessions) (orderly : Orderly env (server.stopReading a)) :
    Synced env first due (server.stopReading a) := by
  have session (s : SessionId) : (server.stopReading a).tables.session s =
      if s = a then { server.tables.session s with readLoop := .stopped }
      else server.tables.session s := by
    rw [stopReading, updateSession_tables, ServerTables.updateSession_session]
    split
    · next e => rw [e]
    · rfl
  have others {s : SessionId} (hmem : s ∈ server.tables.sessions) : s ≠ a := by
    rintro rfl
    exact gone hmem
  refine hs.still orderly (fun s => rfl) (fun s unread => ?_) (fun s hmem up => ?_)
    (fun s hmem named => hmem) rfl rfl (fun s => ?_) (fun s => ?_)
  · rw [ServerTables.Unread, session] at unread
    split at unread
    · rcases unread with loop | ⟨loop, -⟩ <;> cases loop
    · exact unread
  · rw [session, if_neg (others hmem)] at up
    exact ⟨hmem, up⟩
  · rw [session]
    split <;> rfl
  · rw [session]
    split <;> rfl

theorem dropSession_lookup {tables : ServerTables} {a : SessionId} {r : RoomId} {β : Type}
    {look : Room → β} (h : ∀ room members, look { room with members } = look room) :
    (tables.dropSession a).rooms[r]?.map look = tables.rooms[r]?.map look := by
  unfold ServerTables.dropSession
  simp only
  split
  · rfl
  · exact lookup_updateRoom fun room => h room _

/-- A room that is not left keeps its members. -/
theorem dropSession_members {tables : ServerTables} {a : SessionId} {r : RoomId}
    (other : r ≠ (tables.session a).activeRoomId) :
    (tables.dropSession a).members r = tables.members r := by
  have same : (tables.dropSession a).rooms[r]? = tables.rooms[r]? := by
    unfold ServerTables.dropSession
    simp only
    split
    · rfl
    · rw [ServerTables.eraseMember, ServerTables.updateRoom_getElem?, if_neg (Ne.symm other)]
      rfl
  rw [ServerTables.members, ServerTables.members, same]

theorem Due.leaving_entering {roomId : RoomId} : (due.leaving roomId).entering = due.entering := by
  unfold Due.leaving
  split <;> rfl

theorem Due.leaving_users {roomId r : RoomId} (hne : r ≠ 0) (h : r ∉ (due.leaving roomId).users) :
    r ∉ due.users ∧ r ≠ roomId := by
  rw [Due.leaving] at h
  split at h
  · next e => exact ⟨h, e ▸ hne⟩
  · exact ⟨fun hm => h (List.mem_cons_of_mem _ hm), fun e => h (e ▸ List.mem_cons_self)⟩

/-- The others see a session go when they are told. -/
theorem Shows.withdraw {tables : ServerTables} {s a : SessionId} {screen : Screen}
    (h : Shows env due tables s screen) (other : s ≠ a) :
    Shows env (due.leaving (tables.session a).activeRoomId) (tables.dropSession a) s screen := by
  have session (t : SessionId) (ht : t ≠ a) :
      (tables.dropSession a).session t = tables.session t := by
    rw [ServerTables.dropSession_session, if_neg ht]
  have nickname (t : SessionId) :
      ((tables.dropSession a).session t).nickname = (tables.session t).nickname := by
    rw [ServerTables.dropSession_session]
    split
    · next e => rw [e]
    · rfl
  have host (r : RoomId) : (tables.dropSession a).hostIn env r = tables.hostIn env r := by
    unfold ServerTables.dropSession
    simp only
    split <;> rfl
  refine ⟨fun hne calm => ?_, fun hne sent => ?_, fun hne sent => ?_⟩
  · rw [session s other] at hne
    rw [Due.leaving_arrival] at calm
    obtain ⟨roomId, name, topic⟩ := h.place hne calm
    simp only [ServerTables.screenOf, session s other]
    refine ⟨roomId, name.trans ?_, topic.trans ?_⟩
    · rw [dropSession_lookup fun _ _ => rfl]
      rfl
    · rw [dropSession_lookup fun _ _ => rfl]
      rfl
  · rw [session s other] at hne sent
    obtain ⟨fresh, elsewhere⟩ := Due.leaving_users hne sent
    rw [h.users hne fresh]
    simp only [ServerTables.screenOf, session s other, dropSession_members elsewhere]
    exact (userNicknames_congr (host _) fun t _ => nickname t).symm
  · rw [session s other] at hne
    rw [Due.leaving] at sent
    split at sent
    · next outside =>
        rw [h.rooms hne sent, ServerTables.dropSession, if_pos outside]
        exact (roomList_congr rfl rfl).symm
    · cases sent

theorem withdraw_silent {a : SessionId} (hc : server.tables.Consistent) (s : SessionId) :
    delivered s (server.withdraw a).output.trace = delivered s server.output.trace := by
  rw [withdraw_trace hc, delivered_append]
  split
  · exact List.append_nil _
  · exact List.append_nil _

theorem withdraw_session_eq {a : SessionId} (s : SessionId) :
    (server.withdraw a).tables.session s =
      if s = a then { server.tables.session a with activeRoomId := 0 }
      else server.tables.session s := by
  rw [withdraw_tables, ServerTables.dropSession_session]

theorem withdraw_sessions {a : SessionId} (s : SessionId) :
    s ∈ (server.withdraw a).tables.sessions ↔ s ≠ a ∧ s ∈ server.tables.sessions := by
  rw [withdraw_tables, ServerTables.dropSession_sessions, OrderedMap.mem_erase]

/-- A session goes, perhaps after a last message. -/
theorem gone_synced (hs : Synced env first due server) {a : SessionId} {last : ChatServer}
    (tables : last.tables = server.tables) (new : List ServerMessage)
    (hnew : ∀ s, delivered s last.output.trace =
      delivered s server.output.trace ++ if s = a then new else [])
    (plain : ∀ message ∈ new, ∀ version, message ≠ .hello version)
    (known : new = [] ∨ (server.tables.session a).readLoop ≠ .absent)
    (calm : due.arrival = none) (orderly : Orderly env (last.withdraw a)) :
    Synced env first (due.leaving (server.tables.session a).activeRoomId) (last.withdraw a) := by
  have consistent : last.tables.Consistent := tables ▸ hs.orderly.consistent
  have session := @withdraw_session_eq last a
  have sessions := @withdraw_sessions last a
  rw [tables] at session sessions
  refine hs.step orderly (fun s => if s = a then new else []) (fun s => ?_) (fun s m hm => ?_)
    (fun s unread => ?_) (fun s hmem up => ?_) (fun s hmem named => ?_) (fun s room hr => ?_)
    (fun s hmem screen hshow => ?_)
  · rw [withdraw_silent consistent, hnew]
  · split at hm
    · exact plain m hm
    · cases hm
  · rw [ServerTables.Unread, session, sessions] at unread
    by_cases e : s = a
    · subst e
      rw [if_pos rfl] at unread
      rcases unread with absent | ⟨-, other, -⟩
      · exact ⟨.inl absent, by rw [if_pos rfl]; exact known.resolve_right fun h => h absent⟩
      · exact absurd rfl other
    · rw [if_neg e] at unread
      exact ⟨unread.imp_right (And.imp_right And.right), if_neg e⟩
  · obtain ⟨other, inside⟩ := (sessions s).mp hmem
    rw [session, if_neg other] at up
    exact ⟨inside, up⟩
  · obtain ⟨other, inside⟩ := (sessions s).mp hmem
    rw [session, if_neg other] at named ⊢
    rw [Due.leaving_entering]
    exact hs.named s inside named
  · rw [Due.leaving_arrival, calm] at hr
    cases hr
  · obtain ⟨other, inside⟩ := (sessions s).mp hmem
    rw [if_neg other, withdraw_tables, tables]
    exact hshow.withdraw other

theorem withdraw_synced (hs : Synced env first due server) {a : SessionId}
    (calm : due.arrival = none) (orderly : Orderly env (server.withdraw a)) :
    Synced env first (due.leaving (server.tables.session a).activeRoomId) (server.withdraw a) :=
  gone_synced hs rfl [] (fun s => by simp) nofun (.inl rfl) calm orderly

theorem expel_synced (hs : Synced env first due server) {a : SessionId} {message : ServerMessage}
    (calm : due.arrival = none) (known : (server.tables.session a).readLoop ≠ .absent)
    (h : Aside message) (orderly : Orderly env (((server.deliver a message).close a).withdraw a)) :
    Synced env first (due.leaving (server.tables.session a).activeRoomId)
      (((server.deliver a message).close a).withdraw a) := by
  refine gone_synced hs rfl [message] (fun s => ?_) (fun m hm => ?_) (.inr known) calm orderly
  · rw [close_trace, deliver_trace, delivered_append, delivered_append, delivered_one]
    exact List.append_nil _
  · exact List.mem_singleton.mp hm ▸ not_hello_of_aside h

theorem name_synced (hs : Synced env first due server) {a : SessionId} {nick : Bytes}
    (calm : due.entering = none) (unnamed : (server.tables.session a).nickname = [])
    (orderly : Orderly env (server.takeNickname a nick)) :
    Synced env first { due with entering := some a } (server.takeNickname a nick) := by
  have outside : (server.tables.session a).activeRoomId = 0 := by
    by_contra hne
    exact hs.orderly.consistent.named a hne unnamed
  have session (s : SessionId) (other : s ≠ a) :
      (server.takeNickname a nick).tables.session s = server.tables.session s := by
    rw [takeNickname, updateSession_tables, ServerTables.updateSession_session, if_neg other]
  have active (s : SessionId) : ((server.takeNickname a nick).tables.session s).activeRoomId =
      (server.tables.session s).activeRoomId := by
    rw [takeNickname, updateSession_tables,
      ServerTables.updateSession_kept ClientSession.activeRoomId (by rfl)]
  have readLoop (s : SessionId) : ((server.takeNickname a nick).tables.session s).readLoop =
      (server.tables.session s).readLoop := by
    rw [takeNickname, updateSession_tables,
      ServerTables.updateSession_kept ClientSession.readLoop (by rfl)]
  have view (s : SessionId) : (server.takeNickname a nick).tables.screenOf env s =
      server.tables.screenOf env s := by
    refine screenOf_congr rfl rfl (active s) fun t member => ?_
    obtain ⟨here, hne⟩ := (hs.orderly.consistent.member_iff t _).mp member
    rw [session t]
    rintro rfl
    exact hne (here.symm.trans outside)
  refine hs.silent orderly (fun s => rfl) (fun s unread => ?_) (fun s hmem up => ?_)
    (fun s hmem named => ?_) (fun s room hr => ?_) (fun s hmem screen hshow => ?_)
  · rw [ServerTables.Unread, readLoop] at unread
    exact unread
  · rw [readLoop] at up
    exact ⟨hmem, up⟩
  · by_cases e : s = a
    · exact .inr (congrArg some e.symm)
    · rw [session s e] at named ⊢
      have inside := hs.named s hmem named
      rw [calm] at inside
      exact .inl (inside.resolve_right (by simp))
  · obtain ⟨here, inside, users, name, topic⟩ := hs.arrived s room hr
    exact ⟨(active s).trans here, inside, users, (view s) ▸ name, (view s) ▸ topic⟩
  · have kept := hshow.congr (active s) (view s)
    exact ⟨kept.place, kept.users, kept.rooms⟩

theorem placeSession_lookup {tables : ServerTables} {a : SessionId} {roomId r : RoomId} {β : Type}
    {look : Room → β} (h : ∀ room members, look { room with members } = look room) :
    (tables.placeSession a roomId).rooms[r]?.map look = tables.rooms[r]?.map look := by
  have erased : (tables.eraseMember a (tables.session a).activeRoomId).rooms[r]?.map look =
      tables.rooms[r]?.map look := lookup_updateRoom fun room => h room _
  exact (lookup_updateRoom fun room => h room _).trans erased

/-- A room that is neither left nor entered keeps its members. -/
theorem placeSession_members {tables : ServerTables} {a : SessionId} {roomId r : RoomId}
    (notLeft : r ≠ (tables.session a).activeRoomId) (notEntered : r ≠ roomId) :
    (tables.placeSession a roomId).members r = tables.members r := by
  have same : (tables.placeSession a roomId).rooms[r]? = tables.rooms[r]? := by
    rw [ServerTables.placeSession, ServerTables.updateSession_rooms, ServerTables.insertMember,
      ServerTables.updateRoom_getElem?, if_neg (Ne.symm notEntered), ServerTables.eraseMember,
      ServerTables.updateRoom_getElem?, if_neg (Ne.symm notLeft)]
  rw [ServerTables.members, ServerTables.members, same]

theorem enter_synced (hs : Synced env first due server) {a : SessionId} {roomId : RoomId}
    {room : Room} (calm : due.arrival = none) (mine : ∀ t, due.entering = some t → t = a)
    (present : server.tables.rooms[roomId]? = some room)
    (orderly : Orderly env (server.enterRoom a roomId room)) :
    Synced env first
      { due.leaving (server.tables.session a).activeRoomId with
        users := roomId :: (due.leaving (server.tables.session a).activeRoomId).users
        lists := true
        arrival := some (a, room)
        entering := none } (server.enterRoom a roomId room) := by
  obtain ⟨rfl, hpos, -⟩ := hs.orderly.consistent.rooms.key roomId room present
  have hne : room.id ≠ 0 := fun e => absurd hpos (by simp [e])
  have session (s : SessionId) : (server.enterRoom a room.id room).tables.session s =
      if s = a then { server.tables.session a with activeRoomId := room.id }
      else server.tables.session s := by
    rw [enterRoom_tables, ServerTables.placeSession_session]
  have hostIn (r : RoomId) : (server.enterRoom a room.id room).tables.hostIn env r =
      server.tables.hostIn env r := by
    rw [enterRoom_tables]
    rfl
  have nickname (s : SessionId) : ((server.enterRoom a room.id room).tables.session s).nickname =
      (server.tables.session s).nickname := by
    rw [session]
    split
    · next e => rw [e]
    · rfl
  have readLoop (s : SessionId) : ((server.enterRoom a room.id room).tables.session s).readLoop =
      (server.tables.session s).readLoop := by
    rw [session]
    split
    · next e => rw [e]
    · rfl
  have sessions : (server.enterRoom a room.id room).tables.sessions = server.tables.sessions := by
    rw [enterRoom_tables]
    rfl
  have lookup {β : Type} {look : Room → β} (r : RoomId)
      (h : ∀ room members, look { room with members } = look room) :
      (server.enterRoom a room.id room).tables.rooms[r]?.map look =
        server.tables.rooms[r]?.map look := by
    rw [enterRoom_tables, placeSession_lookup h]
  refine hs.silent orderly (fun s => ?_) (fun s unread => ?_) (fun s hmem up => ?_)
    (fun s hmem named => ?_) (fun s room' hr => ?_) (fun s hmem screen hshow => ?_)
  · have silent : delivered s ((if (server.tables.session a).activeRoomId = 0 then []
        else [.leave a (server.tables.session a).activeRoomId]) ++
          [.enter a room.id room.recentMessages]) = [] := by
      split <;> rfl
    rw [enterRoom_trace hs.orderly.consistent, delivered_append, silent, List.append_nil]
  · rwa [ServerTables.Unread, readLoop, sessions] at unread
  · rw [readLoop] at up
    exact ⟨sessions ▸ hmem, up⟩
  · rw [nickname] at named
    rw [session]
    split
    · exact .inl hne
    · next other =>
        refine (hs.named s (sessions ▸ hmem) named).imp_right fun entering => ?_
        exact absurd (mine s entering) other
  · obtain ⟨rfl, rfl⟩ := Prod.mk.inj (Option.some.inj hr)
    have active : ((server.enterRoom a room.id room).tables.session a).activeRoomId = room.id := by
      rw [session, if_pos rfl]
    refine ⟨active, hne, List.mem_cons_self, ?_, ?_⟩
    · rw [ServerTables.screenOf]
      simp only [active]
      rw [lookup room.id fun _ _ => rfl, present]
      rfl
    · rw [ServerTables.screenOf]
      simp only [active]
      rw [lookup room.id fun _ _ => rfl, present]
      rfl
  · by_cases e : s = a
    · subst e
      refine ⟨fun _ calm => absurd rfl (calm room), fun _ sent => absurd ?_ sent, fun _ sent => ?_⟩
      · rw [session, if_pos rfl]
        exact List.mem_cons_self
      · cases sent
    · have same := session s
      rw [if_neg e] at same
      refine ⟨fun hin _ => ?_, fun hin sent => ?_, fun _ sent => ?_⟩
      · rw [same] at hin
        obtain ⟨place, name, topic⟩ := hshow.place hin (by simp [calm])
        simp only [ServerTables.screenOf, same]
        rw [lookup _ fun _ _ => rfl, lookup _ fun _ _ => rfl]
        exact ⟨place, name, topic⟩
      · rw [same] at hin sent
        obtain ⟨fresh, notLeft⟩ := Due.leaving_users hin fun hm => sent (List.mem_cons_of_mem _ hm)
        have notEntered : (server.tables.session s).activeRoomId ≠ room.id := fun eq =>
          sent (eq ▸ List.mem_cons_self)
        rw [hshow.users hin fresh]
        simp only [ServerTables.screenOf, same]
        rw [enterRoom_tables, placeSession_members notLeft notEntered, ← enterRoom_tables]
        exact (userNicknames_congr (hostIn _) fun t _ => nickname t).symm
      · cases sent

theorem insertRoom_synced (hs : Synced env first due server) {room : Room}
    (empty : room.members = ∅) (orderly : Orderly env (server.onTables fun tables =>
      tables.insertRoom tables.nextRoomId room)) :
    Synced env first { due with lists := true }
      (server.onTables fun tables => tables.insertRoom tables.nextRoomId room) := by
  let tables' := server.tables.insertRoom server.tables.nextRoomId room
  have members : tables'.members = server.tables.members := ServerTables.insertRoom_members empty
  have lookup (s : SessionId) (hne : (server.tables.session s).activeRoomId ≠ 0) :
      tables'.rooms[(server.tables.session s).activeRoomId]? =
        server.tables.rooms[(server.tables.session s).activeRoomId]? := by
    have member := (hs.orderly.consistent.member_iff s _).mpr ⟨rfl, hne⟩
    obtain ⟨inside, present⟩ := Option.isSome_iff_exists.mp
      (Std.ExtTreeMap.isSome_getElem?_iff_mem.mpr (ServerTables.mem_rooms_of_mem_members member))
    simp only [tables', ServerTables.insertRoom, OrderedMap.getElem?_insertIfNew, present]
    split <;> rfl
  have view (s : SessionId) (hne : (server.tables.session s).activeRoomId ≠ 0) :
      tables'.screenOf env s =
        { server.tables.screenOf env s with rooms := tables'.roomList env } := by
    have session : tables'.session = server.tables.session := rfl
    rw [ServerTables.screenOf, session, lookup s hne, members]
    rfl
  refine hs.silent orderly (fun s => rfl) (fun s => id) (fun s hmem up => ⟨hmem, up⟩) hs.named
    (fun s room' hr => ?_) (fun s hmem screen hshow => ?_)
  · obtain ⟨here, inside, users, name, topic⟩ := hs.arrived s room' hr
    have same := view s (here ▸ inside)
    refine ⟨here, inside, users, ?_, ?_⟩
    · exact (congrArg Screen.name same).trans name
    · exact (congrArg Screen.topic same).trans topic
  · refine ⟨fun hne calm => ?_, fun hne sent => ?_, fun _ sent => absurd sent (by simp)⟩
    · have same := view s hne
      obtain ⟨place, name, topic⟩ := hshow.place hne calm
      exact ⟨place, name.trans (congrArg Screen.name same).symm,
        topic.trans (congrArg Screen.topic same).symm⟩
    · exact (hshow.users hne sent).trans (congrArg Screen.users (view s hne)).symm

theorem host_synced (hs : Synced env first due server) {roomId : RoomId}
    (orderly : Orderly env (server.onTables fun tables => { tables with localRoomId := roomId })) :
    Synced env first
      { due.leaving server.tables.localRoomId with
        users := roomId :: (due.leaving server.tables.localRoomId).users
        lists := true }
      (server.onTables fun tables => { tables with localRoomId := roomId }) := by
  let tables' : ServerTables := { server.tables with localRoomId := roomId }
  refine hs.silent orderly (fun s => rfl) (fun s => id) (fun s hmem up => ⟨hmem, up⟩)
    (fun s hmem named => ?_) (fun s room hr => ?_) (fun s hmem screen hshow => ?_)
  · refine (hs.named s hmem named).imp_right fun entering => ?_
    exact Due.leaving_entering.trans entering
  · obtain ⟨here, inside, users, name, topic⟩ :=
      hs.arrived s room (Due.leaving_arrival.symm.trans hr)
    refine ⟨here, inside, List.mem_cons_of_mem _ ?_, name, topic⟩
    rw [Due.leaving]
    split
    · exact users
    · exact List.mem_cons_of_mem _ users
  · refine ⟨fun hne calm => hshow.place hne fun room hr => ?_, fun hne sent => ?_,
      fun _ sent => absurd sent (by simp)⟩
    · exact calm room (Due.leaving_arrival.trans hr)
    · obtain ⟨fresh, notLeft⟩ := Due.leaving_users hne fun hm => sent (List.mem_cons_of_mem _ hm)
      have notEntered : (server.tables.session s).activeRoomId ≠ roomId := fun eq =>
        sent (List.mem_cons.mpr (.inl eq))
      have host : tables'.hostIn env (server.tables.session s).activeRoomId =
          server.tables.hostIn env (server.tables.session s).activeRoomId := by
        have entered : (roomId == (server.tables.session s).activeRoomId) = false :=
          beq_eq_false_iff_ne.mpr (Ne.symm notEntered)
        have left : (server.tables.localRoomId == (server.tables.session s).activeRoomId) = false :=
          beq_eq_false_iff_ne.mpr (Ne.symm notLeft)
        rw [ServerTables.hostIn, ServerTables.hostIn, entered, left]
      exact (hshow.users hne fresh).trans (userNicknames_congr host fun _ _ => rfl).symm

/-- The first message to a session is the HELLO. -/
theorem greet_synced (reading : first.reading = true) (hs : Synced env first due server)
    {a : SessionId} (waiting : (server.tables.session a).readLoop = .handshake)
    (orderly : Orderly env ((server.deliver a (.hello VERSION)).updateSession a fun session =>
      { session with readLoop := .reading })) :
    Synced env first due ((server.deliver a (.hello VERSION)).updateSession a fun session =>
      { session with readLoop := .reading }) := by
  let server' := (server.deliver a (.hello VERSION)).updateSession a fun session =>
    { session with readLoop := .reading }
  have session (s : SessionId) : server'.tables.session s =
      if s = a then { server.tables.session a with readLoop := .reading }
      else server.tables.session s := by
    simp only [server', updateSession_tables, ServerTables.updateSession_session]
    rfl
  have active (s : SessionId) : (server'.tables.session s).activeRoomId =
      (server.tables.session s).activeRoomId := by
    rw [updateSession_tables, ServerTables.updateSession_kept ClientSession.activeRoomId (by rfl),
      deliver_tables]
  have nickname (s : SessionId) : (server'.tables.session s).nickname =
      (server.tables.session s).nickname := by
    rw [updateSession_tables, ServerTables.updateSession_kept ClientSession.nickname (by rfl),
      deliver_tables]
  have view (s : SessionId) : server'.tables.screenOf env s = server.tables.screenOf env s :=
    screenOf_congr rfl rfl (active s) fun t _ => nickname t
  have sent (s : SessionId) : delivered s server'.output.trace =
      delivered s server.output.trace ++ if s = a then [.hello VERSION] else [] := by
    rw [updateSession_trace, deliver_trace, delivered_append, delivered_one]
  have same {s : SessionId} (other : s ≠ a) : viewer first server' s = viewer first server s := by
    rw [viewer, viewer, sent, if_neg other, List.append_nil]
  have outside : (server'.tables.session a).activeRoomId = 0 := by
    by_contra hne
    rw [active] at hne
    exact hs.orderly.consistent.named a hne (hs.orderly.unambiguous.early a (.inr waiting)).1
  refine ⟨orderly, fun s hmem named => ?_, fun s unread => ?_, fun s room hr => ?_,
    fun s hmem up => ?_, fun s hmem up => ?_⟩
  · rw [nickname] at named
    rw [active]
    exact hs.named s hmem named
  · rw [ServerTables.Unread, session] at unread
    by_cases e : s = a
    · rw [if_pos e] at unread
      rcases unread with loop | ⟨loop, -⟩ <;> cases loop
    · rw [if_neg e] at unread
      rw [sent, if_neg e, List.append_nil]
      exact hs.unread s unread
  · obtain ⟨here, inside, users, name, topic⟩ := hs.arrived s room hr
    exact ⟨(active s).trans here, inside, users, (view s) ▸ name, (view s) ▸ topic⟩
  · by_cases e : s = a
    · subst e
      have none := hs.unread s (.inr ⟨waiting, hmem⟩)
      rw [viewer, sent, none, if_pos rfl]
      exact ChatClient.receive_hello reading
    · rw [same e]
      rw [session, if_neg e] at up
      exact hs.ready s hmem up
  · by_cases e : s = a
    · subst e
      exact .outside outside
    · rw [same e]
      rw [session, if_neg e] at up
      exact (hs.shows s hmem up).congr (active s) (view s)

/-- A new topic changes the view of those in the room, and there only the topic. -/
theorem screenOf_topic {tables : ServerTables} {roomId : RoomId} {topic : Bytes} {room : Room}
    (present : tables.rooms[roomId]? = some room) (s : SessionId) :
    (tables.updateRoom roomId fun room => { room with topic }).screenOf env s =
      { tables.screenOf env s with
        topic := if (tables.session s).activeRoomId = roomId then topic
          else (tables.screenOf env s).topic } := by
  let tables' := tables.updateRoom roomId fun room => { room with topic }
  have list : tables'.roomList env = tables.roomList env :=
    roomList_updateRoom (fun _ => rfl) fun _ => rfl
  have members : tables'.members = tables.members := ServerTables.updateRoom_members fun _ => rfl
  have name : tables'.rooms[(tables.session s).activeRoomId]?.map (fun room => room.name) =
      tables.rooms[(tables.session s).activeRoomId]?.map fun room => room.name :=
    lookup_updateRoom fun _ => rfl
  have session : tables'.session = tables.session := rfl
  have titled : (tables'.rooms[(tables.session s).activeRoomId]?.map
      fun room => room.topic).getD [] =
        if (tables.session s).activeRoomId = roomId then topic
        else (tables.screenOf env s).topic := by
    rw [ServerTables.updateRoom_getElem?]
    by_cases here : (tables.session s).activeRoomId = roomId
    · simp [here, present]
    · rw [if_neg (Ne.symm here), if_neg here]
      rfl
  change tables'.screenOf env s = _
  rw [ServerTables.screenOf, session]
  simp only
  rw [name, members, list, titled]
  rfl

theorem topic_synced (hs : Synced env first due server) {saved : ChatServer} {roomId : RoomId}
    {topic : Bytes} {room : Room} (calm : due.arrival = none)
    (present : server.tables.rooms[roomId]? = some room)
    (saving : Muted env (server.onTables fun tables =>
      tables.updateRoom roomId fun room => { room with topic }) saved)
    (orderly : Orderly env (saved.deliverAll room.members.toList (.roomTopic roomId topic))) :
    Synced env first due (saved.deliverAll room.members.toList (.roomTopic roomId topic)) := by
  have members : server.tables.members roomId = room.members := by
    rw [ServerTables.members, present]
  have member (s : SessionId) : s ∈ room.members ↔
      (server.tables.session s).activeRoomId = roomId ∧ roomId ≠ 0 := by
    rw [← members, hs.orderly.consistent.member_iff]
  have active (s : SessionId) : (saved.tables.session s).activeRoomId =
      (server.tables.session s).activeRoomId := saving.activeRoomId s
  have view (s : SessionId) : saved.tables.screenOf env s = _ :=
    (screenOf_congr saving.rooms saving.localRoomId (saving.activeRoomId s)
      fun t _ => saving.nickname t).trans (screenOf_topic present s)
  obtain ⟨tail, htrace, mute⟩ := saving.emits
  rw [← deliverAll_tables saved room.members.toList (.roomTopic roomId topic)] at active view
  refine hs.step orderly (fun s => if s ∈ room.members then [.roomTopic roomId topic] else [])
    (fun s => ?_) (fun s m hm => ?_) (fun s unread => ?_) (fun s hmem up => ?_)
    (fun s hmem named => ?_) (fun s room hr => ?_) (fun s hmem screen hshow => ?_)
  · rw [deliverAll_trace, htrace, delivered_append, delivered_append, delivered_mute mute,
      delivered_each (OrderedMap.nodup_toList _), List.append_nil]
    simp only [Std.ExtTreeSet.mem_toList]
    rfl
  · split at hm
    · rw [List.mem_singleton.mp hm]
      simp
    · cases hm
  · rw [ServerTables.Unread, deliverAll_tables, saving.readLoop, saving.sessions] at unread
    refine ⟨unread, if_neg fun inside => ?_⟩
    exact member_awake hs.orderly (members ▸ inside) (unread.imp_right And.left)
  · rw [deliverAll_tables, saving.readLoop] at up
    rw [deliverAll_tables, saving.sessions] at hmem
    exact ⟨hmem, up⟩
  · rw [deliverAll_tables, saving.nickname] at named
    rw [deliverAll_tables, saving.sessions] at hmem
    rw [active]
    exact hs.named s hmem named
  · rw [calm] at hr
    cases hr
  · by_cases outside : (server.tables.session s).activeRoomId = 0
    · exact .outside ((active s).trans outside)
    · have place := hshow.place outside (by simp [calm])
      by_cases inside : s ∈ room.members
      · obtain ⟨here, -⟩ := (member s).mp inside
        have showing : roomId = screen.roomId := here.symm.trans place.1.symm
        have after : ([.roomTopic roomId topic] : List ServerMessage).foldl Screen.update screen =
            { screen with topic } := if_pos showing
        rw [if_pos inside, after]
        refine ⟨fun _ _ => ?_, fun hne sent => ?_, fun hne sent => ?_⟩
        · rw [view, if_pos here]
          exact ⟨place.1, place.2.1, rfl⟩
        · rw [view]
          exact hshow.users outside (active s ▸ sent)
        · rw [view]
          exact hshow.rooms outside sent
      · have other : (server.tables.session s).activeRoomId ≠ roomId := fun here =>
          inside ((member s).mpr ⟨here, here ▸ outside⟩)
        rw [if_neg inside]
        refine hshow.congr (active s) ?_
        rw [view, if_neg other]

theorem Act.synced (reading : first.reading = true) (h : Act env (due, server) (due', server'))
    (hs : Synced env first due server) : Synced env first due' server' := by
  have orderly : Orderly env server' := (Acts.one h).orderly hs.orderly
  cases h with
  | muted _ h => exact muted_synced hs h orderly
  | accept _ _ a absent => exact accept_synced hs absent orderly
  | greet _ _ a waiting => exact greet_synced reading hs waiting orderly
  | stop _ _ a gone => exact stop_synced hs gone orderly
  | aside _ _ a message awake h => exact hs.aside awake h
  | withdraw _ _ a calm => exact withdraw_synced hs calm orderly
  | expel _ _ a message calm known h => exact expel_synced hs calm known h orderly
  | name _ _ a calm reading unnamed named free bound => exact name_synced hs calm unnamed orderly
  | enter _ _ a roomId room calm mine reading named present other =>
      exact enter_synced hs calm mine present orderly
  | welcome _ _ a room arrived => exact welcome_synced hs arrived
  | broadcastRoom _ _ roomId msg nickname calm => exact broadcastRoom_synced hs
  | broadcastUsers _ _ roomId calm => exact broadcastUsers_synced hs calm
  | broadcastRoomLists _ _ => exact broadcastRoomLists_synced hs
  | sendRoomList _ _ a awake named => exact sendRoomList_synced hs awake
  | sendTopic _ _ a calm awake => exact sendTopic_synced hs calm awake
  | insertRoom _ _ name ownerNickname valid below fresh => exact insertRoom_synced hs rfl orderly
  | host _ _ roomId present => exact host_synced hs orderly
  | topic _ _ saved roomId topic room calm valid present saving =>
      exact topic_synced hs calm present saving orderly

end Acts

section Runs

open ChatServer

variable {env : Env} {stored : StoredState} {server : ChatServer}

theorem start_synced (first : ChatClient) :
    Synced env first {} (ChatServer.start env stored) := by
  obtain ⟨-, -, sessions, session⟩ := start_tables env stored
  have nobody (s : SessionId) : s ∉ (ChatServer.start env stored).tables.sessions := by
    rw [sessions]
    simp
  refine ⟨reachable_orderly ⟨[], rfl⟩, fun s hs => absurd hs (nobody s), fun s _ => ?_, nofun,
    fun s hs => absurd hs (nobody s), fun s hs => absurd hs (nobody s)⟩
  refine delivered_none fun e he a message heq => ?_
  obtain ⟨write, rfl⟩ := ChatServer.start_stores env stored e he
  cases heq

theorem reachable_synced {first : ChatClient} (reading : first.reading = true)
    (h : Reachable env stored server) : Synced env first {} server := by
  obtain ⟨events, h⟩ := h
  have keeps (a : ChatServer) (event : Event) (b : ChatServer) (hs : Synced env first {} a)
      (hstep : step env a event = some b) : Synced env first {} b :=
    Acts.invariant (fun _ _ _ _ act => act.synced reading) (step_settles hs.orderly hstep) hs
  exact Run.run_invariant keeps h (start_synced first)

/-- After every step a client that has read all that was delivered to its session
shows the room, the members and the list of rooms as the server has them. -/
theorem reachable_screen (env : Env) (stored : StoredState) (server : ChatServer)
    (first : ChatClient) (h : Reachable env stored server) (reading : first.reading = true)
    (s : SessionId) (connected : s ∈ server.tables.sessions)
    (named : (server.tables.session s).nickname ≠ []) :
    ∃ room, server.tables.rooms[(server.tables.session s).activeRoomId]? = some room ∧
      (first.receiveAll (delivered s server.output.trace)).screen =
        { roomId := (server.tables.session s).activeRoomId
          name := room.name
          topic := room.topic
          users := server.tables.userNicknames env (server.tables.session s).activeRoomId
            room.members
          rooms := server.tables.roomList env } := by
  have synced := reachable_synced reading h
  have inside := (synced.named s connected named).resolve_right (by simp)
  have member := (synced.orderly.consistent.member_iff s _).mpr ⟨rfl, inside⟩
  obtain ⟨room, present⟩ := Option.isSome_iff_exists.mp
    (Std.ExtTreeMap.isSome_getElem?_iff_mem.mpr (ServerTables.mem_rooms_of_mem_members member))
  have shows := synced.shows s connected (member_awake synced.orderly member)
  have members : server.tables.members (server.tables.session s).activeRoomId = room.members := by
    rw [ServerTables.members, present]
  obtain ⟨roomId, name, topic⟩ := shows.place inside (by simp)
  have users := shows.users inside (by simp)
  have rooms := shows.rooms inside rfl
  simp only [ServerTables.screenOf, present, members] at roomId name topic users rooms
  exact ⟨room, present, Screen.ext roomId name topic users rooms⟩

theorem reachable_screen_two :
    ∃ server, serverAfter (visit 7 (ascii "ann") ++ visit 3 (ascii "bob")) = some server ∧
      (({} : ChatClient).receiveAll (delivered 7 server.output.trace)).screen.users =
        [ascii "ann", ascii "bob"] := by
  obtain ⟨server, hserver, reachable, connected, named, users⟩ :=
    exists_serverAfter (visit 7 (ascii "ann") ++ visit 3 (ascii "bob"))
      (fun server => 7 ∈ server.tables.sessions ∧ (server.tables.session 7).nickname ≠ [] ∧
        (server.tables.rooms[(server.tables.session 7).activeRoomId]?.map fun room =>
          server.tables.userNicknames .plain (server.tables.session 7).activeRoomId
            room.members) = some [ascii "ann", ascii "bob"])
      (by decide +kernel)
  obtain ⟨room, present, screen⟩ := reachable_screen .plain emptyStore server {} reachable rfl 7
    connected named
  rw [present] at users
  exact ⟨server, hserver, (congrArg Screen.users screen).trans (Option.some.inj users)⟩

end Runs

end Chatbox.Chat
