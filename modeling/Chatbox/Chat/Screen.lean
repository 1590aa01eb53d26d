import Chatbox.Chat.Delivery
import Chatbox.Chat.Client

/-!
What a client shows against what the server has. A screen is in step with the server
but for the notices that are still due, and a notice brings it nearer.
-/

namespace Chatbox.Chat

open Text Protocol Storage

/-- The messages that are delivered to a session. -/
def delivered (s : SessionId) (trace : List Effect) : List ServerMessage :=
  trace.filterMap fun
    | .deliver a message => if a = s then some message else none
    | _ => none

section Delivered

variable {s a : SessionId} {trace trace' : List Effect} {message : ServerMessage}

@[simp] theorem delivered_append :
    delivered s (trace ++ trace') = delivered s trace ++ delivered s trace' :=
  List.filterMap_append

theorem mem_delivered : message ∈ delivered s trace ↔ .deliver s message ∈ trace := by
  refine List.mem_filterMap.trans
    ⟨fun ⟨e, member, told⟩ => ?_, fun member => ⟨_, member, if_pos rfl⟩⟩
  cases e with
  | deliver a message' =>
      by_cases here : a = s
      · simp only [here, if_true, Option.some.injEq] at told
        exact told ▸ here ▸ member
      · simp [here] at told
  | _ => cases told

theorem delivered_none (h : ∀ e ∈ trace, ∀ a message, e ≠ .deliver a message) :
    delivered s trace = [] := by
  refine List.filterMap_eq_nil_iff.mpr fun e he => ?_
  cases e with
  | deliver a message => exact absurd rfl (h _ he a message)
  | _ => rfl

theorem delivered_mute (h : ∀ e ∈ trace, Mute e) : delivered s trace = [] := by
  refine delivered_none fun e he a message heq => ?_
  subst heq
  exact h _ he

theorem delivered_one :
    delivered s [.deliver a message] = if s = a then [message] else [] := by
  by_cases e : s = a
  · simp [delivered, e]
  · simp [delivered, e, Ne.symm e]

theorem delivered_each {members : List SessionId} (hn : members.Nodup) :
    delivered s (members.map fun a => .deliver a message) =
      if s ∈ members then [message] else [] := by
  induction members with
  | nil => rfl
  | cons a members ih =>
      obtain ⟨fresh, hn⟩ := List.nodup_cons.mp hn
      have split : delivered s ((a :: members).map fun a => .deliver a message) =
          delivered s [.deliver a message] ++
            delivered s (members.map fun a => .deliver a message) :=
        @delivered_append s [.deliver a message] _
      rw [split, delivered_one, ih hn]
      by_cases e : s = a
      · subst e
        simp [fresh]
      · simp [e]

theorem delivered_history (roomId : RoomId) (history : List Bytes) :
    delivered s (history.map fun body => .deliver a (.roomText roomId body)) =
      if s = a then history.map fun body => .roomText roomId body else [] := by
  induction history with
  | nil => simp [delivered]
  | cons body history ih =>
      rw [delivered] at ih ⊢
      by_cases e : s = a
      · simp [e]
      · simp [e, Ne.symm e]

end Delivered

/-- The screen of a session as the server has it. -/
def ServerTables.screenOf (env : Env) (tables : ServerTables) (s : SessionId) : Screen :=
  let roomId := (tables.session s).activeRoomId
  { roomId
    name := (tables.rooms[roomId]?.map fun room => room.name).getD []
    topic := (tables.rooms[roomId]?.map fun room => room.topic).getD []
    users := tables.userNicknames env roomId (tables.members roomId)
    rooms := tables.roomList env }

/-- A screen shows all of which no notice is due. -/
structure Shows (env : Env) (due : Due) (tables : ServerTables) (s : SessionId)
    (screen : Screen) : Prop where
  place : (tables.session s).activeRoomId ≠ 0 → (∀ room, due.arrival ≠ some (s, room)) →
    screen.roomId = (tables.screenOf env s).roomId ∧
      screen.name = (tables.screenOf env s).name ∧ screen.topic = (tables.screenOf env s).topic
  users : (tables.session s).activeRoomId ≠ 0 → (tables.session s).activeRoomId ∉ due.users →
    screen.users = (tables.screenOf env s).users
  rooms : (tables.session s).activeRoomId ≠ 0 → due.lists = false →
    screen.rooms = (tables.screenOf env s).rooms

/-- The session is in a room that has not told it so yet. -/
structure Arrived (env : Env) (due : Due) (tables : ServerTables) (s : SessionId) (room : Room) :
    Prop where
  active : (tables.session s).activeRoomId = room.id
  inside : room.id ≠ 0
  users : room.id ∈ due.users
  name : (tables.screenOf env s).name = room.name
  topic : (tables.screenOf env s).topic = room.topic

/-- Nothing can have been sent to the session yet. -/
def ServerTables.Unread (tables : ServerTables) (s : SessionId) : Prop :=
  (tables.session s).readLoop = .absent ∨
    (tables.session s).readLoop = .handshake ∧ s ∈ tables.sessions

/-- A client after reading all that has been delivered to the session. -/
def viewer (first : ChatClient) (server : ChatServer) (s : SessionId) : ChatClient :=
  first.receiveAll (delivered s server.output.trace)

structure Synced (env : Env) (first : ChatClient) (due : Due) (server : ChatServer) : Prop where
  orderly : Orderly env server
  named : ∀ s ∈ server.tables.sessions, (server.tables.session s).nickname ≠ [] →
    (server.tables.session s).activeRoomId ≠ 0 ∨ due.entering = some s
  unread : ∀ s, server.tables.Unread s → delivered s server.output.trace = []
  arrived : ∀ s room, due.arrival = some (s, room) → Arrived env due server.tables s room
  ready : ∀ s ∈ server.tables.sessions, ¬ (server.tables.session s).readLoop.Early →
    (viewer first server s).Ready
  shows : ∀ s ∈ server.tables.sessions, ¬ (server.tables.session s).readLoop.Early →
    Shows env due server.tables s (viewer first server s).screen

section Views

variable {env : Env} {due due' : Due} {tables tables' : ServerTables} {s : SessionId}
  {screen : Screen}

theorem screenOf_roster : tables.roster.screenOf env s = tables.screenOf env s := by
  simp only [ServerTables.screenOf, ServerTables.roster_session, ServerTables.roster_getElem?,
    ServerTables.roster_userNicknames, ServerTables.roster_members, ServerTables.roster_roomList,
    Option.map_map]
  rfl

theorem screenOf_of_roster (h : tables'.roster = tables.roster) :
    tables'.screenOf env s = tables.screenOf env s := by
  rw [← screenOf_roster, h, screenOf_roster]

theorem userNicknames_congr {roomId : RoomId} {members : SessionSet}
    (host : tables'.hostIn env roomId = tables.hostIn env roomId)
    (nickname : ∀ a ∈ members, (tables'.session a).nickname = (tables.session a).nickname) :
    tables'.userNicknames env roomId members = tables.userNicknames env roomId members := by
  have names : (members.toList.map fun a => (tables'.session a).nickname) =
      members.toList.map fun a => (tables.session a).nickname :=
    List.map_congr_left fun a ha => nickname a (Std.ExtTreeSet.mem_toList.mp ha)
  rw [ServerTables.userNicknames, ServerTables.userNicknames, names, host]

theorem roomList_congr (rooms : tables'.rooms = tables.rooms)
    (host : tables'.localRoomId = tables.localRoomId) :
    tables'.roomList env = tables.roomList env := by
  have hosted : tables'.hostIn env = tables.hostIn env := by
    funext roomId
    rw [ServerTables.hostIn, ServerTables.hostIn, host]
  rw [ServerTables.roomList, ServerTables.roomList, rooms, hosted]

theorem members_congr (rooms : tables'.rooms = tables.rooms) :
    tables'.members = tables.members := by
  funext r
  rw [ServerTables.members, ServerTables.members, rooms]

/-- The view depends on the rooms, the host and the nicknames of the members. -/
theorem screenOf_congr (rooms : tables'.rooms = tables.rooms)
    (host : tables'.localRoomId = tables.localRoomId)
    (active : (tables'.session s).activeRoomId = (tables.session s).activeRoomId)
    (nickname : ∀ a ∈ tables.members (tables.session s).activeRoomId,
      (tables'.session a).nickname = (tables.session a).nickname) :
    tables'.screenOf env s = tables.screenOf env s := by
  have hosted (roomId : RoomId) : tables'.hostIn env roomId = tables.hostIn env roomId := by
    rw [ServerTables.hostIn, ServerTables.hostIn, host]
  rw [ServerTables.screenOf, ServerTables.screenOf, active, members_congr rooms,
    userNicknames_congr (hosted _) nickname, roomList_congr rooms host, rooms]

theorem Shows.congr (h : Shows env due tables s screen)
    (active : (tables'.session s).activeRoomId = (tables.session s).activeRoomId)
    (view : tables'.screenOf env s = tables.screenOf env s) :
    Shows env due tables' s screen := by
  refine ⟨fun hne calm => ?_, fun hne sent => ?_, fun hne sent => ?_⟩
  · rw [view]
    exact h.place (active ▸ hne) calm
  · rw [view]
    exact h.users (active ▸ hne) (active ▸ sent)
  · rw [view]
    exact h.rooms (active ▸ hne) sent

/-- The list of rooms depends on their names and the numbers of their members. -/
theorem roomList_updateRoom {roomId : RoomId} {change : Room → Room}
    (name : ∀ room, (change room).name = room.name)
    (members : ∀ room, (change room).members = room.members) :
    (tables.updateRoom roomId change).roomList env = tables.roomList env := by
  have entries (tables : ServerTables) : tables.roomList env =
      (tables.rooms.map fun _ room => (room.name, room.members.size)).toList.map fun item =>
        { id := item.1
          name := item.2.1
          userCount := UInt64.ofNat
            (if tables.hostIn env item.1 then item.2.2 + 1 else item.2.2) } := by
    rw [Std.ExtTreeMap.toList_map, List.map_map]
    rfl
  have looks : (tables.updateRoom roomId change).rooms.map
      (fun _ room => (room.name, room.members.size)) =
        tables.rooms.map fun _ room => (room.name, room.members.size) :=
    OrderedMap.map_modify_same _ _ fun room => by rw [name, members]
  rw [entries, entries, looks]
  rfl

theorem lookup_updateRoom {β : Type} {roomId r : RoomId} {change : Room → Room} {look : Room → β}
    (h : ∀ room, look (change room) = look room) :
    (tables.updateRoom roomId change).rooms[r]?.map look = tables.rooms[r]?.map look := by
  rw [ServerTables.updateRoom_getElem?]
  split
  · cases tables.rooms[r]? <;> simp [h]
  · rfl

theorem Shows.outside (h : (tables.session s).activeRoomId = 0) : Shows env due tables s screen :=
  ⟨fun hne => absurd h hne, fun hne => absurd h hne, fun hne => absurd h hne⟩

end Views

section Step

variable {env : Env} {first : ChatClient} {due due' : Due} {server server' : ChatServer}

/-- What an act has to bring for the screens to stay in step. -/
theorem Synced.step (h : Synced env first due server) (orderly : Orderly env server')
    (new : SessionId → List ServerMessage)
    (hnew : ∀ s, delivered s server'.output.trace = delivered s server.output.trace ++ new s)
    (plain : ∀ s, ∀ message ∈ new s, ∀ version, message ≠ .hello version)
    (unread : ∀ s, server'.tables.Unread s → server.tables.Unread s ∧ new s = [])
    (awake : ∀ s ∈ server'.tables.sessions, ¬ (server'.tables.session s).readLoop.Early →
      s ∈ server.tables.sessions ∧ ¬ (server.tables.session s).readLoop.Early)
    (named : ∀ s ∈ server'.tables.sessions, (server'.tables.session s).nickname ≠ [] →
      (server'.tables.session s).activeRoomId ≠ 0 ∨ due'.entering = some s)
    (arrived : ∀ s room, due'.arrival = some (s, room) → Arrived env due' server'.tables s room)
    (keeps : ∀ s ∈ server'.tables.sessions, ∀ screen, Shows env due server.tables s screen →
      Shows env due' server'.tables s ((new s).foldl Screen.update screen)) :
    Synced env first due' server' := by
  have updates (s : SessionId) (hs : s ∈ server'.tables.sessions)
      (up : ¬ (server'.tables.session s).readLoop.Early) :
      ChatClient.Updates (fun screen => (new s).foldl Screen.update screen)
        (viewer first server s) (viewer first server' s) := by
    obtain ⟨hs', up'⟩ := awake s hs up
    have split : viewer first server' s = (viewer first server s).receiveAll (new s) := by
      rw [viewer, hnew, ChatClient.receiveAll, List.foldl_append]
      rfl
    rw [split]
    exact ChatClient.receiveAll_updates (h.ready s hs' up') (plain s)
  refine ⟨orderly, named, fun s hs => ?_, arrived, fun s hs up => ?_, fun s hs up => ?_⟩
  · obtain ⟨before, none⟩ := unread s hs
    rw [hnew, h.unread s before, none]
    rfl
  · obtain ⟨hs', up'⟩ := awake s hs up
    exact (updates s hs up).ready (h.ready s hs' up')
  · obtain ⟨hs', up'⟩ := awake s hs up
    rw [(updates s hs up).screen]
    exact keeps s hs _ (h.shows s hs' up')

/-- Notices leave the roster alone and go to sessions that read. -/
theorem Synced.notice (h : Synced env first due server)
    (roster : server'.roster = server.roster) (new : SessionId → List ServerMessage)
    (hnew : ∀ s, delivered s server'.output.trace = delivered s server.output.trace ++ new s)
    (plain : ∀ s, ∀ message ∈ new s, ∀ version, message ≠ .hello version)
    (awake : ∀ s, (server.tables.session s).readLoop.Early → new s = [])
    (entering : due'.entering = due.entering)
    (arrival : ∀ s room, due'.arrival = some (s, room) → due.arrival = some (s, room) ∧
      (room.id ∈ due.users → room.id ∈ due'.users))
    (keeps : ∀ s ∈ server.tables.sessions, ∀ screen, Shows env due server.tables s screen →
      Shows env due' server.tables s ((new s).foldl Screen.update screen)) :
    Synced env first due' server' := by
  have sessions := congrArg ServerTables.sessions roster
  have session := congrArg ServerTables.session roster
  change server'.tables.sessions = server.tables.sessions at sessions
  change server'.tables.session = server.tables.session at session
  have view (s : SessionId) : server'.tables.screenOf env s = server.tables.screenOf env s :=
    screenOf_of_roster roster
  have orderly : Orderly env server' :=
    @Changes.orderly env (fun _ => False) _ _ (.of_eq roster) h.orderly
  refine h.step orderly new hnew plain (fun s hs => ?_) ?_ ?_ (fun s room hr => ?_)
    (fun s hs screen hshow => ?_)
  · rw [ServerTables.Unread, session, sessions] at hs
    exact ⟨hs, awake s (hs.imp_right And.left)⟩
  · rw [session, sessions]
    exact fun s hs up => ⟨hs, up⟩
  · rw [session, sessions, entering]
    exact h.named
  · obtain ⟨hr', kept⟩ := arrival s room hr
    obtain ⟨active, inside, users, name, topic⟩ := h.arrived s room hr'
    refine ⟨?_, inside, kept users, ?_, ?_⟩
    · rwa [session]
    · rwa [view]
    · rwa [view]
  · rw [sessions] at hs
    exact (keeps s hs screen hshow).congr (by rw [session]) (view s)

/-- Changes nobody is told of. -/
theorem Synced.silent (h : Synced env first due server) (orderly : Orderly env server')
    (hnew : ∀ s, delivered s server'.output.trace = delivered s server.output.trace)
    (unread : ∀ s, server'.tables.Unread s → server.tables.Unread s)
    (awake : ∀ s ∈ server'.tables.sessions, ¬ (server'.tables.session s).readLoop.Early →
      s ∈ server.tables.sessions ∧ ¬ (server.tables.session s).readLoop.Early)
    (named : ∀ s ∈ server'.tables.sessions, (server'.tables.session s).nickname ≠ [] →
      (server'.tables.session s).activeRoomId ≠ 0 ∨ due'.entering = some s)
    (arrived : ∀ s room, due'.arrival = some (s, room) → Arrived env due' server'.tables s room)
    (keeps : ∀ s ∈ server'.tables.sessions, ∀ screen, Shows env due server.tables s screen →
      Shows env due' server'.tables s screen) : Synced env first due' server' :=
  h.step orderly (fun _ => []) (fun s => by rw [hnew, List.append_nil]) (fun _ => nofun)
    (fun s hs => ⟨unread s hs, rfl⟩) awake named arrived keeps

end Step

section Notices

open ChatServer

variable {env : Env} {first : ChatClient} {due due' : Due} {server server' : ChatServer}

/-- A message to one session. -/
theorem Synced.deliver (h : Synced env first due server) {a : SessionId} {message : ServerMessage}
    (awake : ¬ (server.tables.session a).readLoop.Early)
    (plain : ∀ version, message ≠ .hello version)
    (keeps : ∀ screen, Shows env due server.tables a screen →
      Shows env due server.tables a (screen.update message)) :
    Synced env first due (server.deliver a message) := by
  refine h.notice rfl (fun s => if s = a then [message] else []) (fun s => ?_) (fun s m hm => ?_)
    (fun s early => ?_) rfl (fun s room hr => ⟨hr, id⟩) (fun s hs screen hshow => ?_)
  · rw [deliver_trace, delivered_append, delivered_one]
  · split at hm
    · exact List.mem_singleton.mp hm ▸ plain
    · cases hm
  · refine if_neg fun e => awake ?_
    rwa [← e]
  · by_cases e : s = a
    · subst e
      simpa using keeps screen hshow
    · simpa [e] using hshow

/-- A message to the members of a room. -/
theorem Synced.deliverAll (h : Synced env first due server) (roomId : RoomId)
    (message : ServerMessage) (roster : server'.roster = server.roster)
    (hnew : ∀ s, delivered s server'.output.trace = delivered s server.output.trace ++
      if s ∈ server.tables.members roomId then [message] else [])
    (plain : ∀ version, message ≠ .hello version) (entering : due'.entering = due.entering)
    (arrival : ∀ s room, due'.arrival = some (s, room) → due.arrival = some (s, room) ∧
      (room.id ∈ due.users → room.id ∈ due'.users))
    (others : ∀ s, (server.tables.session s).activeRoomId ≠ roomId → ∀ screen,
      Shows env due server.tables s screen → Shows env due' server.tables s screen)
    (keeps : ∀ s, (server.tables.session s).activeRoomId = roomId → roomId ≠ 0 → ∀ screen,
      Shows env due server.tables s screen →
        Shows env due' server.tables s (screen.update message)) :
    Synced env first due' server' := by
  refine h.notice roster _ hnew (fun s m hm => ?_) (fun s early => ?_) entering arrival
    (fun s hs screen hshow => ?_)
  · split at hm
    · exact List.mem_singleton.mp hm ▸ plain
    · cases hm
  · exact if_neg fun member => member_awake h.orderly member early
  · by_cases member : s ∈ server.tables.members roomId
    · obtain ⟨here, hne⟩ := (h.orderly.consistent.member_iff s roomId).mp member
      rw [if_pos member]
      exact keeps s here hne screen hshow
    · rw [if_neg member]
      by_cases here : (server.tables.session s).activeRoomId = roomId
      · have outside : (server.tables.session s).activeRoomId = 0 := by
          by_contra hne
          exact member ((h.orderly.consistent.member_iff s roomId).mpr ⟨here, here ▸ hne⟩)
        exact .outside outside
      · exact others s here screen hshow

theorem update_aside {message : ServerMessage} (h : Aside message) (screen : Screen) :
    screen.update message = screen := by
  cases message with
  | userList | roomList | roomJoined | roomTopic => exact h.elim
  | _ => rfl

theorem not_hello_of_aside {message : ServerMessage} (h : Aside message) (version : UInt32) :
    message ≠ .hello version := by
  rintro rfl
  exact h

theorem Synced.aside (h : Synced env first due server) {a : SessionId} {message : ServerMessage}
    (awake : ¬ (server.tables.session a).readLoop.Early) (h' : Aside message) :
    Synced env first due (server.deliver a message) := by
  refine h.deliver awake (not_hello_of_aside h') fun screen hshow => ?_
  rwa [update_aside h']

end Notices

end Chatbox.Chat
