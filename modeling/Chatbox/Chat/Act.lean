import Chatbox.Chat.Nicknames

/-!
The steps of the server as sequences of acts. A change of who is where makes notices
due, to the rooms and sessions that have to hear of it; every operation sends the
notices it owes before it ends.
-/

namespace Chatbox.Chat

open Text Protocol Storage

/-- The notices that have not been sent yet: user lists of rooms, the lists of
rooms, the answer to a session that has entered a room; and a session that has a
nickname and is not in a room yet. -/
structure Due where
  users : List RoomId := []
  lists : Bool := false
  arrival : Option (SessionId × Room) := none
  entering : Option SessionId := none

namespace Due

def leaving (due : Due) (roomId : RoomId) : Due :=
  if roomId = 0 then due else { due with users := roomId :: due.users, lists := true }

def usersSent (due : Due) (roomId : RoomId) : Due :=
  { due with users := due.users.filter fun r => r ≠ roomId }

/-- No session has entered the room and waits for the answer. -/
def CalmIn (due : Due) (roomId : RoomId) : Prop :=
  ∀ s room, due.arrival = some (s, room) → room.id ≠ roomId

theorem calmIn_empty (roomId : RoomId) : CalmIn {} roomId := by
  intro s room arrived
  cases arrived

end Due

/-- Not a delivery and not a change of a room. -/
def Mute : Effect → Prop
  | .deliver _ _ => False
  | .enter _ _ _ => False
  | .leave _ _ => False
  | .recorded _ _ => False
  | _ => True

/-- The messages that have nothing to do with the rooms. -/
def Aside : ServerMessage → Prop
  | .hello _ => False
  | .userList _ _ => False
  | .roomList _ => False
  | .roomJoined _ _ _ => False
  | .roomTopic _ _ => False
  | .roomText _ _ => False
  | _ => True

theorem ProofRefusal.aside {message : ServerMessage} (h : ProofRefusal message) :
    Aside message := by
  cases message <;> trivial

/-- A change that nobody outside sees. -/
structure Muted (env : Env) (server server' : ChatServer) : Prop where
  changes : Changes env (fun _ => False) server.roster server'.roster
  rooms : server'.tables.rooms = server.tables.rooms
  localRoomId : server'.tables.localRoomId = server.tables.localRoomId
  sessions : server'.tables.sessions = server.tables.sessions
  nickname : ∀ s, (server'.tables.session s).nickname = (server.tables.session s).nickname
  activeRoomId : ∀ s,
    (server'.tables.session s).activeRoomId = (server.tables.session s).activeRoomId
  readLoop : ∀ s, (server'.tables.session s).readLoop = (server.tables.session s).readLoop
  emits : Emits Mute server server'

namespace ChatServer

variable (server : ChatServer) (s : SessionId)

/-- `disconnect` without its notices. -/
def withdraw : ChatServer :=
  let oldId := (server.tables.session s).activeRoomId
  let server := server.onTables fun tables => { tables with sessions := tables.sessions.erase s }
  let server := server.updateSession s fun session => { session with activeRoomId := 0 }
  if oldId = 0 then server
  else (server.noteLeave s oldId).onTables fun tables => tables.eraseMember s oldId

/-- The start of `move_session_to_room`, before any notice. -/
def enterRoom (roomId : RoomId) (room : Room) : ChatServer :=
  ((server.noteLeave s (server.tables.session s).activeRoomId).onTables fun tables =>
    tables.placeSession s roomId).note (.enter s roomId room.recentMessages)

/-- The answer to a session that has entered a room. -/
def welcome (room : Room) : ChatServer :=
  (server.deliver s (.roomJoined room.id room.name room.topic)).deliverHistory s room.id room.name
    room.recentMessages

end ChatServer

/-- One act, with the notices that are due before and after it. -/
inductive Act (env : Env) : Due × ChatServer → Due × ChatServer → Prop where
  | muted (due : Due) {server server' : ChatServer} (h : Muted env server server') :
      Act env (due, server) (due, server')
  | accept (due : Due) (server : ChatServer) (s : SessionId)
      (absent : (server.tables.session s).readLoop = .absent) :
      Act env (due, server) (due, server.accept s)
  | greet (due : Due) (server : ChatServer) (s : SessionId)
      (waiting : (server.tables.session s).readLoop = .handshake) :
      Act env (due, server) (due, (server.deliver s (.hello VERSION)).updateSession s
        fun session => { session with readLoop := .reading })
  | stop (due : Due) (server : ChatServer) (s : SessionId)
      (gone : s ∉ server.tables.sessions) : Act env (due, server) (due, server.stopReading s)
  | aside (due : Due) (server : ChatServer) (s : SessionId) (message : ServerMessage)
      (awake : ¬ (server.tables.session s).readLoop.Early) (h : Aside message) :
      Act env (due, server) (due, server.deliver s message)
  | withdraw (due : Due) (server : ChatServer) (s : SessionId) (calm : due.arrival = none) :
      Act env (due, server)
        (due.leaving (server.tables.session s).activeRoomId, server.withdraw s)
  | expel (due : Due) (server : ChatServer) (s : SessionId) (message : ServerMessage)
      (calm : due.arrival = none) (known : (server.tables.session s).readLoop ≠ .absent)
      (h : Aside message) :
      Act env (due, server)
        (due.leaving (server.tables.session s).activeRoomId,
          ((server.deliver s message).close s).withdraw s)
  | name (due : Due) (server : ChatServer) (s : SessionId)
      (calm : due.entering = none)
      (reading : (server.tables.session s).readLoop = .reading)
      (unnamed : (server.tables.session s).nickname = [])
      (named : (server.tables.session s).pendingNickname ≠ [])
      (free : server.tables.nicknameTaken env (server.tables.session s).pendingNickname = false)
      (bound : server.tables.identities[(server.tables.session s).pendingNickname]? =
        some (server.tables.session s).pendingPublicKeyHex) :
      Act env (due, server) ({ due with entering := some s },
        server.takeNickname s (server.tables.session s).pendingNickname)
  | enter (due : Due) (server : ChatServer) (s : SessionId) (roomId : RoomId) (room : Room)
      (calm : due.arrival = none) (mine : ∀ t, due.entering = some t → t = s)
      (reading : (server.tables.session s).readLoop = .reading)
      (named : (server.tables.session s).nickname ≠ [])
      (present : server.tables.rooms[roomId]? = some room)
      (other : (server.tables.session s).activeRoomId ≠ roomId) :
      Act env (due, server)
        ({ due.leaving (server.tables.session s).activeRoomId with
            users := roomId :: (due.leaving (server.tables.session s).activeRoomId).users
            lists := true
            arrival := some (s, room)
            entering := none },
          server.enterRoom s roomId room)
  | welcome (due : Due) (server : ChatServer) (s : SessionId) (room : Room)
      (arrived : due.arrival = some (s, room)) :
      Act env (due, server) ({ due with arrival := none }, server.welcome s room)
  | broadcastRoom (due : Due) (server : ChatServer) (roomId : RoomId) (msg nickname : Bytes)
      (calm : due.CalmIn roomId) :
      Act env (due, server) (due, server.broadcastRoom env roomId msg nickname)
  | broadcastUsers (due : Due) (server : ChatServer) (roomId : RoomId) (calm : due.CalmIn roomId) :
      Act env (due, server) (due.usersSent roomId, server.broadcastUsers env roomId)
  | broadcastRoomLists (due : Due) (server : ChatServer) :
      Act env (due, server) ({ due with lists := false }, server.broadcastRoomLists env)
  | sendRoomList (due : Due) (server : ChatServer) (s : SessionId)
      (awake : ¬ (server.tables.session s).readLoop.Early)
      (named : (server.tables.session s).nickname ≠ []) :
      Act env (due, server) (due, server.sendRoomList env s)
  | sendTopic (due : Due) (server : ChatServer) (s : SessionId) (calm : due.arrival = none)
      (awake : ¬ (server.tables.session s).readLoop.Early) :
      Act env (due, server) (due, server.sendTopic s)
  | insertRoom (due : Due) (server : ChatServer) (name ownerNickname : Bytes)
      (valid : isValidRoomName name = true) (below : server.tables.rooms.size < MAX_ROOMS)
      (fresh : server.tables.findRoomByName name = none) :
      Act env (due, server) ({ due with lists := true }, server.onTables fun tables =>
        tables.insertRoom server.tables.nextRoomId
          { id := server.tables.nextRoomId, name, ownerNickname })
  | host (due : Due) (server : ChatServer) (roomId : RoomId)
      (present : roomId ∈ server.tables.rooms) :
      Act env (due, server)
        ({ due.leaving server.tables.localRoomId with
            users := roomId :: (due.leaving server.tables.localRoomId).users
            lists := true },
          server.onTables fun tables => { tables with localRoomId := roomId })
  | topic (due : Due) (server saved : ChatServer) (roomId : RoomId) (topic : Bytes) (room : Room)
      (calm : due.arrival = none) (valid : isValidRoomTopic topic = true)
      (present : server.tables.rooms[roomId]? = some room)
      (saving : Muted env (server.onTables fun tables =>
        tables.updateRoom roomId fun room => { room with topic }) saved) :
      Act env (due, server)
        (due, saved.deliverAll room.members.toList (.roomTopic roomId topic))

abbrev Acts (env : Env) : Due × ChatServer → Due × ChatServer → Prop :=
  Relation.ReflTransGen (Act env)

namespace Muted

variable {env : Env} {a b c : ChatServer}

theorem refl (a : ChatServer) : Muted env a a :=
  ⟨.of_eq rfl, rfl, rfl, rfl, fun _ => rfl, fun _ => rfl, fun _ => rfl, .refl a⟩

theorem trans (hab : Muted env a b) (hbc : Muted env b c) : Muted env a c where
  changes := hab.changes.trans hbc.changes
  rooms := hbc.rooms.trans hab.rooms
  localRoomId := hbc.localRoomId.trans hab.localRoomId
  sessions := hbc.sessions.trans hab.sessions
  nickname s := (hbc.nickname s).trans (hab.nickname s)
  activeRoomId s := (hbc.activeRoomId s).trans (hab.activeRoomId s)
  readLoop s := (hbc.readLoop s).trans (hab.readLoop s)
  emits := hab.emits.trans hbc.emits

theorem of_tables (h : b.tables = a.tables) (emits : Emits Mute a b) : Muted env a b := by
  refine ⟨.of_eq ?_, ?_, ?_, ?_, ?_, ?_, ?_, emits⟩
  · rw [ChatServer.roster, h]
    rfl
  all_goals simp only [h, implies_true]

theorem ite {p : Prop} [Decidable p] (hb : Muted env a b) (hc : Muted env a c) :
    Muted env a (if p then b else c) := by
  split
  · exact hb
  · exact hc

end Muted

namespace ServerTables

variable {tables : ServerTables} {s : SessionId} {roomId : RoomId}

theorem isMember_iff : tables.isMember s roomId = true ↔ s ∈ tables.members roomId := by
  unfold isMember members
  cases tables.rooms[roomId]? with
  | none => simp
  | some room => simp [Std.ExtTreeSet.contains_iff_mem]

end ServerTables

namespace ChatServer

variable {env : Env} {server : ChatServer} {s : SessionId} {roomId : RoomId} {room : Room}

theorem withdraw_roster : (server.withdraw s).roster = server.roster.dropSession s := by
  have tables : server.roster.dropSession s = (server.tables.dropSession s).roster :=
    (server.tables.roster_dropSession s).symm
  rw [tables]
  unfold withdraw ServerTables.dropSession
  simp only
  split
  · rfl
  · rw [roster, onTables, noteLeave_tables]
    rfl

theorem enterRoom_roster :
    (server.enterRoom s roomId room).roster = server.roster.placeSession s roomId := by
  rw [enterRoom, note_roster, roster, onTables, noteLeave_tables,
    ServerTables.roster_placeSession]
  rfl

theorem welcome_tables : (server.welcome s room).tables = server.tables := by
  rw [welcome, deliverHistory_tables, deliver_tables]

/-- `disconnect` takes the session out and tells the room it was in. -/
theorem disconnect_eq (hc : server.tables.Consistent) (announce : Bool) :
    server.disconnect env s announce =
      if (server.tables.session s).activeRoomId = 0 then server.withdraw s
      else (server.withdraw s).announceGone env (server.tables.session s).activeRoomId
        (server.tables.session s).nickname announce := by
  unfold disconnect withdraw
  simp only
  split
  · rfl
  · next hne =>
      have member : s ∈ server.tables.members (server.tables.session s).activeRoomId :=
        (hc.member_iff s _).mpr ⟨rfl, hne⟩
      have removed := ServerTables.isMember_iff.mpr member
      exact if_pos removed

theorem moveSessionToRoom_eq (present : server.tables.rooms[roomId]? = some room)
    (announceMove : Bool) :
    server.moveSessionToRoom env s roomId announceMove =
      ((if announceMove && (server.tables.session s).activeRoomId != 0 then
          (server.enterRoom s roomId room).announceLeft env
            (server.tables.session s).activeRoomId (server.tables.session s).nickname room.name
        else server.enterRoom s roomId room).welcome s room).announceJoined env room.id
          (server.tables.session s).nickname room.name := by
  simp only [moveSessionToRoom, present]
  rfl

end ChatServer

open ChatServer

/-- Who has begun to read does not go back. -/
theorem Change.awake {env : Env} {mover : SessionId → Prop} {a b : ServerTables} {s : SessionId}
    (h : Change env mover a b) (ha : ¬ (a.session s).readLoop.Early) :
    ¬ (b.session s).readLoop.Early := by
  cases h with
  | touch t change keeps =>
      rw [ServerTables.updateSession_session]
      split
      · next e =>
          subst e
          exact fun early => ha ((keeps _).readLoop early ▸ early)
      · exact ha
  | accept t absent =>
      rw [ServerTables.updateSession_session]
      split
      · next e =>
          subst e
          exact absurd (.inl absent) ha
      · exact ha
  | identify | admission =>
      rw [ServerTables.updateSession_kept ClientSession.readLoop]
      · exact ha
      · rfl
  | place =>
      rw [ServerTables.placeSession_kept ClientSession.readLoop]
      · exact ha
      · rfl
  | drop =>
      rw [ServerTables.dropSession_kept ClientSession.readLoop]
      · exact ha
      · rfl
  | insertRoom | topic | host | bans | bind => exact ha

/-- Whoever is in `sessions_` has been accepted. -/
def ServerTables.Accepted (tables : ServerTables) : Prop :=
  ∀ s ∈ tables.sessions, (tables.session s).readLoop ≠ .absent

theorem Change.accepted {env : Env} {mover : SessionId → Prop} {a b : ServerTables}
    (h : Change env mover a b) (ha : a.Accepted) : b.Accepted := by
  cases h with
  | touch t change keeps =>
      intro s hs
      rw [ServerTables.updateSession_session]
      split
      · next e =>
          subst e
          exact fun absent => ha s hs ((keeps _).readLoop (.inl absent) ▸ absent)
      · exact ha s hs
  | accept t absent =>
      intro s hs
      rw [ServerTables.updateSession_session]
      split
      · nofun
      · next e => exact ha s ((OrderedMap.mem_insert.mp hs).resolve_left e)
  | identify | admission =>
      intro s hs
      rw [ServerTables.updateSession_kept ClientSession.readLoop]
      · exact ha s hs
      · rfl
  | place =>
      intro s hs
      rw [ServerTables.placeSession_kept ClientSession.readLoop]
      · exact ha s hs
      · rfl
  | drop t stays =>
      intro s hs
      rw [ServerTables.dropSession_sessions, OrderedMap.mem_erase] at hs
      rw [ServerTables.dropSession_session, if_neg hs.1]
      exact ha s hs.2
  | insertRoom | topic | host | bans | bind => exact ha

/-- What the invariants of the tables say of a server. -/
structure Orderly (env : Env) (server : ChatServer) : Prop where
  consistent : server.tables.Consistent
  unambiguous : server.tables.Unambiguous env
  accepted : server.tables.Accepted

theorem unambiguous_roster {env : Env} {tables : ServerTables} :
    tables.roster.Unambiguous env ↔ tables.Unambiguous env :=
  ⟨fun h => h.congr (fun _ => id) (fun _ => rfl) fun _ ht => ⟨ht, rfl⟩,
    fun h => h.congr (fun _ => id) (fun _ => rfl) fun _ ht => ⟨ht, rfl⟩⟩

theorem Changes.orderly {env : Env} {mover : SessionId → Prop} {server server' : ChatServer}
    (h : Changes env mover server.roster server'.roster) (ho : Orderly env server) :
    Orderly env server' := by
  have accepted : server'.roster.Accepted := h.invariant (fun _ _ hc => hc.accepted) ho.accepted
  exact ⟨consistent_roster.mp (h.consistent (consistent_roster.mpr ho.consistent)),
    unambiguous_roster.mp (h.invariant (fun _ _ hc => hc.unambiguous)
      (unambiguous_roster.mpr ho.unambiguous)), accepted⟩

theorem reachable_orderly {env : Env} {stored : StoredState} {server : ChatServer}
    (h : Reachable env stored server) : Orderly env server := by
  have start : (ChatServer.start env stored).tables.Accepted := by
    rw [ServerTables.Accepted, (start_tables env stored).2.2.1]
    simp
  have accepted : server.roster.Accepted :=
    reachable_roster h (fun _ _ _ hc => hc.accepted) start
  exact ⟨reachable_consistent h, reachable_unambiguous h, accepted⟩

/-- An act changes the roster in the ways a step does. -/
theorem Act.changes {env : Env} {due due' : Due} {server server' : ChatServer}
    (h : Act env (due, server) (due', server')) :
    ∃ mover, Changes env mover server.roster server'.roster := by
  cases h with
  | muted _ h => exact ⟨_, h.changes⟩
  | accept _ _ s absent => exact ⟨fun _ => False, .one (.accept _ s absent)⟩
  | greet _ _ s waiting =>
      refine ⟨fun _ => False, ?_⟩
      rw [← deliver_roster server s (.hello VERSION)]
      exact updateSession_changes fun _ => ⟨rfl, rfl, rfl, rfl, by simp [ReadLoop.Early]⟩
  | stop _ _ s gone => exact ⟨fun _ => False, stopReading_changes⟩
  | aside _ _ s message awake h => exact ⟨fun _ => False, .of_eq rfl⟩
  | withdraw _ _ s calm =>
      refine ⟨fun _ => False, ?_⟩
      rw [withdraw_roster]
      exact .one (.drop _ s id)
  | expel _ _ s message calm known h =>
      refine ⟨fun _ => False, ?_⟩
      rw [withdraw_roster, close_roster, deliver_roster]
      exact .one (.drop _ s id)
  | name _ _ s calm reading unnamed named free bound =>
      exact ⟨fun _ => True, .one (.admission _ s trivial unnamed named free bound)⟩
  | enter _ _ s roomId room calm mine reading named present other =>
      refine ⟨fun _ => True, ?_⟩
      rw [enterRoom_roster]
      refine .one (.place _ s roomId trivial named ?_)
      rw [roster, ServerTables.roster_mem, ← Std.ExtTreeMap.isSome_getElem?_iff_mem, present]
      rfl
  | welcome _ _ s room arrived =>
      refine ⟨fun _ => False, .of_eq ?_⟩
      rw [roster, welcome_tables, roster]
  | broadcastRoom _ _ roomId msg nickname calm =>
      exact ⟨fun _ => False, .of_eq (broadcastRoom_roster _ _ _ _ _)⟩
  | broadcastUsers _ _ roomId calm => exact ⟨fun _ => False, .of_eq (broadcastUsers_roster _ _ _)⟩
  | broadcastRoomLists _ _ => exact ⟨fun _ => False, .of_eq (broadcastRoomLists_roster _ _)⟩
  | sendRoomList _ _ s awake named => exact ⟨fun _ => False, .of_eq rfl⟩
  | sendTopic _ _ s calm awake =>
      refine ⟨fun _ => False, .of_eq ?_⟩
      rw [roster, sendTopic_tables, roster]
  | insertRoom _ _ name ownerNickname valid below fresh =>
      have added : server.addRoom name ownerNickname =
          .ok (server.tables.nextRoomId, server.onTables fun tables =>
            tables.insertRoom server.tables.nextRoomId
              { id := server.tables.nextRoomId, name, ownerNickname }) := by
        simp [addRoom, valid, below, fresh, ServerTables.insertRoom]
      exact ⟨fun _ => False, (addRoom_changes env _ added).2.2.2.2⟩
  | host _ _ roomId present =>
      refine ⟨fun _ => False, .one (.host _ roomId ?_)⟩
      rwa [roster, ServerTables.roster_mem]
  | topic _ _ saved roomId topic room calm valid present saving =>
      refine ⟨fun _ => False, ?_⟩
      rw [roster, roster, deliverAll_tables]
      refine Relation.ReflTransGen.trans ?_ saving.changes
      refine (Changes.one (.topic server.roster roomId topic valid)).then_eq ?_
      exact server.tables.roster_updateRoom roomId fun _ => rfl

namespace Acts

variable {env : Env} {due due' due'' : Due} {a b c : ChatServer}

theorem one (h : Act env (due, a) (due', b)) : Acts env (due, a) (due', b) :=
  Relation.ReflTransGen.single h

theorem muted (h : Muted env a b) : Acts env (due, a) (due, b) := one (.muted due h)

theorem ite {p : Prop} [Decidable p] (hb : Acts env (due, a) (due', b))
    (hc : Acts env (due, a) (due', c)) : Acts env (due, a) (due', if p then b else c) := by
  split
  · exact hb
  · exact hc

/-- What every act keeps, a sequence of acts keeps. -/
theorem invariant {Inv : Due → ChatServer → Prop}
    (keeps : ∀ due a due' b, Act env (due, a) (due', b) → Inv due a → Inv due' b)
    (h : Acts env (due, a) (due', b)) (start : Inv due a) : Inv due' b := by
  have all (last : Due × ChatServer) (h : Acts env (due, a) last) : Inv last.1 last.2 := by
    induction h with
    | refl => exact start
    | tail _ act ih => exact keeps _ _ _ _ act ih
  exact all _ h

theorem orderly (h : Acts env (due, a) (due', b)) (ho : Orderly env a) : Orderly env b := by
  have keeps (due : Due) (a : ChatServer) (due' : Due) (b : ChatServer)
      (act : Act env (due, a) (due', b)) (ho : Orderly env a) : Orderly env b := by
    obtain ⟨mover, changes⟩ := act.changes
    exact changes.orderly ho
  exact h.invariant keeps ho

theorem awake (h : Acts env (due, a) (due', b)) {s : SessionId}
    (ha : ¬ (a.tables.session s).readLoop.Early) : ¬ (b.tables.session s).readLoop.Early := by
  have keeps (due : Due) (a : ChatServer) (due' : Due) (b : ChatServer)
      (act : Act env (due, a) (due', b)) (ha : ¬ (a.tables.session s).readLoop.Early) :
      ¬ (b.tables.session s).readLoop.Early := by
    obtain ⟨mover, changes⟩ := act.changes
    exact changes.invariant (fun _ _ hc => hc.awake) ha
  exact h.invariant keeps ha

end Acts

end Chatbox.Chat
