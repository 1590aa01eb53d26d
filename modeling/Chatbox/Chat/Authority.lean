import Chatbox.Chat.Nicknames
import Chatbox.Chat.Speaking

/-!
What a session may do to others. Its frames change its own membership and nothing
else of the rooms, but for two: TOPIC and KICK, which the server carries out for the
owner of the room the session is in. All else is refused, and nothing is changed.
-/

namespace Chatbox.Chat

open Text Protocol Storage

/-- The topic of a room, nothing where there is no room. -/
def ServerTables.topicOf (tables : ServerTables) (r : RoomId) : Option Bytes :=
  tables.rooms[r]?.map fun room => room.topic

/-- The session is in the room and has the nickname of its owner, so that it has
proven the key this nickname is bound to. -/
def Owner (env : Env) (server : ChatServer) (s : SessionId) (r : RoomId) : Prop :=
  s ∈ server.tables.members r ∧
    (∃ room, server.tables.rooms[r]? = some room ∧
      room.ownerNickname = (server.tables.session s).nickname) ∧
    ∃ key, server.tables.identities[(server.tables.session s).nickname]? = some key ∧
      Presented env server.output.trace s (server.tables.session s).nickname key

/-- The owner of the room has removed one other member, from that room only. -/
def Kicks (env : Env) (server server' : ChatServer) (s x : SessionId) (r : RoomId) (nick : Bytes) :
    Prop :=
  Owner env server s r ∧ x ≠ s ∧ x ∈ server.tables.members r ∧
    (server.tables.session x).nickname = nick ∧
    (∀ y r', y ∈ server'.tables.members r' ↔ y ∈ server.tables.members r' ∧ ¬ (y = x ∧ r' = r)) ∧
    server'.tables.sessions = server.tables.sessions.erase x

/-- The owner of the room has changed its topic. -/
def Retitles (env : Env) (server server' : ChatServer) (s : SessionId) (r : RoomId)
    (topic : Bytes) : Prop :=
  Owner env server s r ∧ server'.tables.topicOf r = some topic ∧
    (∀ r', r' ≠ r → server'.tables.topicOf r' = server.tables.topicOf r') ∧
    server'.tables.members = server.tables.members

/-- The frame has been answered, and that is all. -/
def Refuses (server server' : ChatServer) (s : SessionId) (message : ClientMessage) : Prop :=
  server'.tables = server.tables ∧ server'.output.host = server.output.host ∧
    ∃ reply, server'.output.trace =
      server.output.trace ++ [.received s message, .deliver s reply]

/-- The session, which has sent something before it said hello, is cut off. -/
def CutsOff (server server' : ChatServer) (s : SessionId) : Prop :=
  (server.tables.session s).protocolNegotiated = false ∧
    server'.tables.rooms = server.tables.rooms ∧
    server'.tables.sessions = server.tables.sessions.erase s

/-- Nobody but the session itself enters or leaves a room, and no topic changes. -/
structure Personal (s : SessionId) (a b : ServerTables) : Prop where
  members : ∀ (x : SessionId) (r : RoomId), x ≠ s → (x ∈ b.members r ↔ x ∈ a.members r)
  topics : ∀ (r : RoomId) (topic : Bytes), a.topicOf r = some topic → b.topicOf r = some topic

section Topics

variable {tables : ServerTables} {s : SessionId} {roomId r : RoomId}

@[simp] theorem roster_topicOf : tables.roster.topicOf = tables.topicOf := by
  funext r
  simp only [ServerTables.topicOf, ServerTables.roster_getElem?, Option.map_map]
  rfl

theorem updateRoom_topicOf {change : Room → Room}
    (keeps : ∀ room, (change room).topic = room.topic) :
    (tables.updateRoom roomId change).topicOf = tables.topicOf := by
  funext r
  simp only [ServerTables.topicOf, ServerTables.updateRoom_getElem?]
  split
  · rw [Option.map_map]
    exact congrFun (congrArg _ (funext keeps)) _
  · rfl

theorem dropSession_topicOf : (tables.dropSession s).topicOf = tables.topicOf := by
  unfold ServerTables.dropSession
  simp only
  split
  · rfl
  · exact updateRoom_topicOf fun _ => rfl

theorem setTopic_topicOf {topic : Bytes} :
    (tables.updateRoom roomId fun room => { room with topic }).topicOf r =
      if roomId = r then (tables.topicOf r).map fun _ => topic else tables.topicOf r := by
  simp only [ServerTables.topicOf, ServerTables.updateRoom_getElem?]
  split
  · rw [Option.map_map, Option.map_map]
    rfl
  · rfl

end Topics

namespace Personal

variable {s : SessionId} {a b c tables : ServerTables} {roomId : RoomId}

theorem trans (hab : Personal s a b) (hbc : Personal s b c) : Personal s a c :=
  ⟨fun x r other => (hbc.members x r other).trans (hab.members x r other),
    fun r topic h => hbc.topics r topic (hab.topics r topic h)⟩

/-- An operation that leaves the rooms alone. -/
theorem of_rooms (h : b.rooms = a.rooms) : Personal s a b := by
  refine ⟨fun x r _ => ?_, fun r topic => ?_⟩
  · rw [ServerTables.members, ServerTables.members, h]
  · rw [ServerTables.topicOf, ServerTables.topicOf, h]
    exact id

theorem of_eq (h : b = a) : Personal s a b := .of_rooms (by rw [h])

theorem eraseMember : Personal s tables (tables.eraseMember s roomId) := by
  refine ⟨fun x r other => ?_, fun r topic => ?_⟩
  · rw [ServerTables.mem_eraseMember]
    exact and_iff_left fun h => other h.1
  · have same : (tables.eraseMember s roomId).topicOf = tables.topicOf :=
      updateRoom_topicOf fun _ => rfl
    rw [same]
    exact id

theorem insertMember (present : roomId ∈ tables.rooms) :
    Personal s tables (tables.insertMember s roomId) := by
  refine ⟨fun x r other => ?_, fun r topic => ?_⟩
  · rw [ServerTables.mem_insertMember present]
    exact or_iff_left fun h => other h.1
  · have same : (tables.insertMember s roomId).topicOf = tables.topicOf :=
      updateRoom_topicOf fun _ => rfl
    rw [same]
    exact id

theorem placeSession (present : roomId ∈ tables.rooms) :
    Personal s tables (tables.placeSession s roomId) := by
  have erased : Personal s tables
      (tables.eraseMember s (tables.session s).activeRoomId) := eraseMember
  have inserted : Personal s (tables.eraseMember s (tables.session s).activeRoomId)
      ((tables.eraseMember s (tables.session s).activeRoomId).insertMember s roomId) :=
    insertMember (by simpa using present)
  exact (erased.trans inserted).trans (.of_rooms rfl)

theorem dropSession : Personal s tables (tables.dropSession s) := by
  have outside : Personal s tables
      ({ tables with sessions := tables.sessions.erase s }.updateSession s fun session =>
        { session with activeRoomId := 0 }) := .of_rooms rfl
  unfold ServerTables.dropSession
  simp only
  split
  · exact outside
  · exact outside.trans eraseMember

theorem insertRoom {id : RoomId} {room : Room} (empty : room.members = ∅) :
    Personal s tables (tables.insertRoom id room) := by
  refine ⟨fun x r _ => ?_, fun r topic h => ?_⟩
  · rw [ServerTables.insertRoom_members empty]
  · obtain ⟨old, present, rfl⟩ := Option.map_eq_some_iff.mp h
    rw [ServerTables.topicOf, ServerTables.insertRoom, OrderedMap.getElem?_insertIfNew, present]
    split <;> rfl

end Personal

namespace ChatServer

variable {env : Env} {server : ChatServer} {s : SessionId}

section Handlers

variable {nick publicKeyHex name body : Bytes}

theorem moveSessionToRoom_personal {targetId : RoomId} {announceMove : Bool} :
    Personal s server.roster (server.moveSessionToRoom env s targetId announceMove).roster := by
  rw [moveSessionToRoom_roster]
  split
  · next present => exact .placeSession (ServerTables.roster_mem _ |>.mpr present)
  · exact .of_eq rfl

theorem disconnect_personal {announce : Bool} :
    Personal s server.roster (server.disconnect env s announce).roster := by
  rw [disconnect_roster]
  exact .dropSession

theorem updateSession_personal {change : ClientSession → ClientSession} :
    Personal s server.roster (server.updateSession s change).roster := .of_rooms rfl

theorem reject_personal {message : ServerMessage} :
    Personal s server.roster (server.reject env s message).roster := by
  have dropped : Personal s ((server.deliver s message).close s).roster
      (((server.deliver s message).close s).disconnect env s false).roster := disconnect_personal
  exact dropped.trans updateSession_personal

theorem reportError_personal {result : ChatServer × Option Bytes}
    (h : Personal s server.roster result.1.roster) :
    Personal s server.roster (reportError s result).roster := by
  rwa [reportError_roster]

theorem onHello_personal {version : UInt32} :
    Personal s server.roster (server.onHello env s version).roster := by
  unfold onHello
  split
  · exact .of_eq rfl
  · exact updateSession_personal

theorem onAuthenticate_personal {password : Bytes} :
    Personal s server.roster (server.onAuthenticate env s password).roster := by
  unfold onAuthenticate
  split
  · exact updateSession_personal
  · exact reject_personal

theorem onIdentify_personal :
    Personal s server.roster (server.onIdentify env s nick publicKeyHex).roster := by
  unfold onIdentify
  split
  · exact .of_eq rfl
  · split
    · exact reject_personal
    · split
      · exact reject_personal
      · split
        · exact reject_personal
        · exact updateSession_personal

theorem acceptProof_personal {challenge : Bytes} :
    Personal s server.roster (server.acceptProof env s nick publicKeyHex challenge).roster := by
  unfold acceptProof
  refine Personal.trans ?_ moveSessionToRoom_personal
  exact updateSession_personal

theorem bindIdentity_personal :
    Personal s server.roster (server.bindIdentity env nick publicKeyHex).1.roster := by
  rcases server.bindIdentity_cases env nick publicKeyHex with ⟨h, -⟩ | ⟨-, -, h⟩ | ⟨-, -, h⟩
  · exact .of_eq (by rw [h])
  · exact .of_eq (by rw [h])
  · apply Personal.of_rooms
    rw [roster, h]
    rfl

theorem onProof_personal {signatureHex : Bytes} :
    Personal s server.roster (server.onProof env s signatureHex).roster := by
  unfold onProof
  simp only
  split
  · exact .of_eq rfl
  · split
    · exact reject_personal
    · split
      · exact reject_personal
      · split
        · exact reject_personal
        · split
          · exact reject_personal
          · split
            · exact bindIdentity_personal.trans reject_personal
            · exact bindIdentity_personal.trans acceptProof_personal

theorem createRoom_personal :
    Personal s server.roster (server.createRoom env s name).1.roster := by
  unfold createRoom
  rcases server.addRoom_cases name (server.tables.session s).nickname with
    ⟨⟨error, he⟩, -⟩ | ⟨added, -⟩
  · rw [he]
    exact .of_eq rfl
  · rw [added]
    simp only
    refine Personal.trans ?_ moveSessionToRoom_personal
    rw [persistRoom_roster]
    refine Personal.trans (@Personal.insertRoom s server.roster server.tables.nextRoomId
      { id := server.tables.nextRoomId, name,
        ownerNickname := (server.tables.session s).nickname } rfl) (.of_rooms ?_)
    simp only [roster, onTables, ServerTables.insertRoom, ServerTables.roster,
      OrderedMap.map_insertIfNew]
    rfl

theorem joinRoom_personal : Personal s server.roster (server.joinRoom env s name).1.roster := by
  unfold joinRoom
  split
  · exact .of_eq rfl
  · split
    · exact .of_eq rfl
    · exact moveSessionToRoom_personal

theorem leaveRoom_personal : Personal s server.roster (server.leaveRoom env s).1.roster := by
  unfold leaveRoom
  split
  · exact .of_eq rfl
  · exact moveSessionToRoom_personal

theorem consumeMessageQuota_personal :
    Personal s server.roster (server.consumeMessageQuota env s).2.roster := updateSession_personal

theorem onChat_personal : Personal s server.roster (server.onChat env s body).roster := by
  obtain h | h | h | ⟨-, session, reading, -, h⟩ := onChat_cases env server s body <;> rw [h]
  · exact .of_eq rfl
  · exact consumeMessageQuota_personal
  · exact consumeMessageQuota_personal
  · rw [broadcastRoom_roster]
    exact consumeMessageQuota_personal

theorem onWhisper_personal {target : Bytes} :
    Personal s server.roster (server.onWhisper env s target body).roster := by
  obtain h | h | h | ⟨-, h⟩ := onWhisper_cases env server s target body <;> rw [h]
  · exact .of_eq rfl
  · exact consumeMessageQuota_personal
  · exact consumeMessageQuota_personal
  · simp only [sendPrivateFrom, roster, sendPrivateInRoom_tables]
    exact consumeMessageQuota_personal

/-- Every frame but TOPIC with a text and KICK. -/
theorem onAdmittedMessage_personal {message : ClientMessage}
    (topics : ∀ topic, message ≠ .topicRequest (some topic))
    (kicks : ∀ nick reason, message ≠ .kickRequest nick reason) :
    Personal s server.roster (server.onAdmittedMessage env s message).roster := by
  have ignored (text : Bytes) : Personal s server.roster (server.deliverText s text).roster :=
    .of_eq rfl
  cases message with
  | hello version => exact ignored _
  | authenticate password => exact ignored _
  | identify nick publicKeyHex => exact onIdentify_personal
  | identityProof signatureHex => exact onProof_personal
  | leave =>
      simp only [onAdmittedMessage, onLeave]
      split
      · exact ignored _
      · exact reportError_personal leaveRoom_personal
  | disconnect => exact disconnect_personal.trans updateSession_personal
  | listRooms => exact .of_eq onListRooms_roster
  | createRoom name =>
      simp only [onAdmittedMessage, onCreateRoom]
      split
      · exact .of_eq rfl
      · exact reportError_personal createRoom_personal
  | joinRoom name =>
      simp only [onAdmittedMessage, onJoinRoom]
      split
      · exact .of_eq rfl
      · exact reportError_personal joinRoom_personal
  | topicRequest topic =>
      cases topic with
      | some topic => exact absurd rfl (topics topic)
      | none =>
          simp only [onAdmittedMessage, onTopicRequest]
          split
          · exact .of_eq rfl
          · exact .of_eq (by simp only [roster, sendTopic_tables])
  | chat body => exact onChat_personal
  | whisper target body => exact onWhisper_personal
  | kickRequest nick reason => exact absurd rfl (kicks nick reason)

end Handlers

section Owners

variable {nick reason actor topic : Bytes}

/-- A kick is refused, or it removes a member that is not the owner. -/
theorem kickFrom_cases (env : Env) (server : ChatServer) (s : SessionId) (nick reason : Bytes) :
    ((server.kickFrom env s nick reason).1 = server ∧
        ∃ error, (server.kickFrom env s nick reason).2 = some error) ∨
      ∃ target room, server.tables.rooms[(server.tables.session s).activeRoomId]? = some room ∧
        room.ownerNickname = (server.tables.session s).nickname ∧
        nick ≠ (server.tables.session s).nickname ∧
        target ∈ server.tables.members (server.tables.session s).activeRoomId ∧
        (server.tables.session target).nickname = nick ∧
        (server.kickFrom env s nick reason).2 = none ∧
        (server.kickFrom env s nick reason).1.roster = server.roster.dropSession target := by
  unfold kickFrom
  simp only
  split
  · exact .inl ⟨rfl, _, rfl⟩
  · next room present =>
      split
      · exact .inl ⟨rfl, _, rfl⟩
      · next owner =>
          split
          · exact .inl ⟨rfl, _, rfl⟩
          · next other =>
              rcases server.kickUserInRoom_cases env (server.tables.session s).activeRoomId nick
                reason with failed | ⟨target, member, named, kicked, dropped⟩
              · rw [failed]
                exact .inl ⟨rfl, _, rfl⟩
              · rw [kicked]
                exact .inr ⟨target, room, present, not_not.mp owner, other, member, named, rfl,
                  dropped⟩

/-- A topic is refused, or it is set. -/
theorem setTopicForRoom_cases (env : Env) (server : ChatServer) (roomId : RoomId)
    (actor topic : Bytes) :
    ((server.setTopicForRoom env roomId actor false topic).1 = server ∧
        ∃ error, (server.setTopicForRoom env roomId actor false topic).2 = some error) ∨
      ∃ room, server.tables.rooms[roomId]? = some room ∧ room.ownerNickname = actor ∧
        (server.setTopicForRoom env roomId actor false topic).2 = none ∧
        (server.setTopicForRoom env roomId actor false topic).1.roster =
          server.roster.updateRoom roomId fun room => { room with topic } := by
  unfold setTopicForRoom
  split
  · exact .inl ⟨rfl, _, rfl⟩
  · split
    · exact .inl ⟨rfl, _, rfl⟩
    · next room present =>
        split
        · exact .inl ⟨rfl, _, rfl⟩
        · next owner =>
            refine .inr ⟨room, present, by simpa using owner, rfl, ?_⟩
            simp only
            rw [broadcastRoom_roster, ite_roster (onHost_roster _ _), roster, deliverAll_tables,
              ite_tables (store_tables _ _)]
            exact server.tables.roster_updateRoom roomId fun _ => rfl

theorem refuses_deliver {message : ClientMessage} {reply : ServerMessage} :
    Refuses server ((server.note (.received s message)).deliver s reply) s message := by
  refine ⟨rfl, ?_, reply, ?_⟩
  · change ((server.note _).output.deliver s reply).host = server.output.host
    unfold ServerOutput.deliver
    simp only
    split <;> rfl
  · rw [deliver_trace, note_trace, List.append_assoc]
    rfl

/-- A command that failed has only been answered. -/
theorem refuses_reportError {message : ClientMessage} {result : ChatServer × Option Bytes}
    {error : Bytes} (same : result.1 = server.note (.received s message))
    (failed : result.2 = some error) : Refuses server (reportError s result) s message := by
  rw [reportError, failed, same]
  exact refuses_deliver

theorem cutsOff_reject (unnegotiated : (server.tables.session s).protocolNegotiated = false)
    (outside : (server.tables.session s).activeRoomId = 0) {message : ClientMessage}
    {reply : ServerMessage} :
    CutsOff server ((server.note (.received s message)).reject env s reply) s := by
  refine ⟨unnegotiated, ?_, ?_⟩
  · exact (@disconnect_outside env (((server.note (.received s message)).deliver s reply).close s)
      s outside false).1
  · have dropped := congrArg ServerTables.sessions
      ((((server.note (.received s message)).deliver s reply).close s).disconnect_roster env s false)
    rw [ServerTables.dropSession_sessions] at dropped
    exact dropped

end Owners

end ChatServer

section Frames

variable {env : Env} {stored : StoredState} {server server' : ChatServer} {s : SessionId}

/-- Who has a nickname has said hello. -/
theorem step_negotiated (h : Progress env server server')
    (hold : ∀ s, (server.tables.session s).nickname ≠ [] →
      (server.tables.session s).protocolNegotiated = true) :
    ∀ s, (server'.tables.session s).nickname ≠ [] →
      (server'.tables.session s).protocolNegotiated = true := by
  intro s named
  rcases h.session_cases s with ⟨same, -⟩ | ⟨first, version, -, same⟩ | ⟨-, -, same⟩ |
    ⟨nick, key, challenge, gates, -, -, same⟩ | ⟨signatureHex, rest, -, gates, -, -, -, -, same⟩
  all_goals
    obtain ⟨name, -, -, -, -, negotiated⟩ := ClientSession.credentials_eq.mp same
    rw [negotiated]
  · rw [name] at named
    exact hold s named
  · rw [name] at named
    rw [hold s named] at first
    cases first
  · rw [name] at named
    exact hold s named
  · exact (Bool.and_eq_true_iff.mp gates).1
  · exact (Bool.and_eq_true_iff.mp gates).1

theorem reachable_negotiated (h : Reachable env stored server) :
    ∀ s, (server.tables.session s).nickname ≠ [] →
      (server.tables.session s).protocolNegotiated = true := by
  obtain ⟨events, run⟩ := h
  have start : ∀ s, ((ChatServer.start env stored).tables.session s).nickname ≠ [] →
      ((ChatServer.start env stored).tables.session s).protocolNegotiated = true := by
    rw [(start_tables env stored).2.2.2]
    exact fun _ named => absurd rfl named
  exact Run.run_invariant (fun _ _ _ hold hstep => step_negotiated (step_progress hstep) hold) run
    start

/-- A TOPIC or KICK frame comes before the hello, or it goes to its handler, or it is
answered. -/
theorem onMessage_command (h : Reachable env stored server) {message : ClientMessage}
    (hello : ∀ version, message ≠ .hello version)
    (password : ∀ password, message ≠ .authenticate password) :
    CutsOff server (server.onMessage env s message) s ∨
      Refuses server (server.onMessage env s message) s message ∨
      server.onMessage env s message =
        (server.note (.received s message)).onAdmittedMessage env s message := by
  rcases server.onMessage_cases env s message with ⟨version, is, -⟩ | ⟨-, closed, e⟩ |
    ⟨-, word, is, -⟩ | ⟨-, -, -, -, e⟩ | ⟨-, -, -, e⟩
  · exact absurd is (hello version)
  · have outside : (server.tables.session s).activeRoomId = 0 := by
      apply Decidable.by_contra
      intro inside
      have negotiated := reachable_negotiated h s ((reachable_consistent h).named s inside)
      rw [closed] at negotiated
      cases negotiated
    rw [e]
    exact .inl (ChatServer.cutsOff_reject closed outside)
  · exact absurd is (password word)
  · rw [e]
    exact .inr (.inl ChatServer.refuses_deliver)
  · exact .inr (.inr e)

theorem owner_of (h : Reachable env stored server)
    (named : (server.tables.session s).nickname ≠ []) {room : Room}
    (present : server.tables.rooms[(server.tables.session s).activeRoomId]? = some room)
    (owner : room.ownerNickname = (server.tables.session s).nickname) :
    Owner env server s (server.tables.session s).activeRoomId := by
  have consistent := reachable_consistent h
  have known : (server.tables.session s).activeRoomId ∈ server.tables.rooms :=
    Std.ExtTreeMap.isSome_getElem?_iff_mem.mp (by rw [present]; rfl)
  exact ⟨(consistent.member_iff s _).mpr ⟨rfl, consistent.rooms.pos known⟩, ⟨room, present, owner⟩,
    (reachable_credited h).presented s named⟩

/-- Dropping a member of the owner's room is a kick. -/
theorem kicks_of_dropSession {x : SessionId} {r : RoomId} {nick : Bytes}
    (consistent : server.tables.Consistent) (owner : Owner env server s r)
    (other : nick ≠ (server.tables.session s).nickname)
    (member : x ∈ server.tables.members r) (name : (server.tables.session x).nickname = nick)
    (dropped : server'.roster = server.roster.dropSession x) :
    Kicks env server server' s x r nick := by
  have seat := (consistent.member_iff x r).mp member
  refine ⟨owner, ?_, member, name, fun y r' => ?_, ?_⟩
  · rintro rfl
    exact other name.symm
  · rw [← ServerTables.roster_members, ← ServerTables.roster_members server.tables]
    change y ∈ server'.roster.members r' ↔ y ∈ server.roster.members r' ∧ _
    rw [dropped, ServerTables.mem_dropSession]
    refine and_congr_right fun _ => not_congr (and_congr_right fun _ => ?_)
    change r' = (server.tables.session x).activeRoomId ∧ r' ≠ 0 ↔ r' = r
    rw [seat.1]
    exact and_iff_left_of_imp fun e => e ▸ seat.2
  · have sessions := congrArg ServerTables.sessions dropped
    rw [ServerTables.dropSession_sessions] at sessions
    exact sessions

theorem onMessage_kick (h : Reachable env stored server) (nick reason : Bytes) :
    (∃ x r, Kicks env server (server.onMessage env s (.kickRequest nick reason)) s x r nick ∧
      (server.onMessage env s (.kickRequest nick reason)).tables.topicOf =
        server.tables.topicOf) ∨
      Refuses server (server.onMessage env s (.kickRequest nick reason)) s
        (.kickRequest nick reason) ∨
      CutsOff server (server.onMessage env s (.kickRequest nick reason)) s := by
  rcases @onMessage_command env stored server s h (.kickRequest nick reason) nofun nofun with
    cut | refused | e
  · exact .inr (.inr cut)
  · exact .inr (.inl refused)
  · rw [e, ChatServer.onAdmittedMessage, ChatServer.onKickRequest]
    split
    · exact .inr (.inl ChatServer.refuses_deliver)
    · next unnamed =>
        have named : (server.tables.session s).nickname ≠ [] := by simpa using unnamed
        rcases (server.note (.received s (.kickRequest nick reason))).kickFrom_cases env s nick
          reason with ⟨same, error, failed⟩ | ⟨x, room, present, owner, other, member, name, -, dropped⟩
        · exact .inr (.inl (ChatServer.refuses_reportError same failed))
        · rw [← ChatServer.reportError_roster s] at dropped
          refine .inl ⟨x, _, kicks_of_dropSession (reachable_consistent h)
            (owner_of h named present owner) other member name dropped, ?_⟩
          rw [← roster_topicOf, ← @roster_topicOf server.tables]
          exact (congrArg ServerTables.topicOf dropped).trans dropSession_topicOf

theorem retitles_of_updateRoom {r : RoomId} {topic : Bytes} (owner : Owner env server s r)
    (set : server'.roster = server.roster.updateRoom r fun room => { room with topic }) :
    Retitles env server server' s r topic := by
  have topics (r' : RoomId) : server'.tables.topicOf r' =
      if r = r' then (server.tables.topicOf r').map fun _ => topic
        else server.tables.topicOf r' := by
    rw [← roster_topicOf, ← @roster_topicOf server.tables]
    exact (congrFun (congrArg ServerTables.topicOf set) r').trans setTopic_topicOf
  refine ⟨owner, ?_, fun r' other => ?_, ?_⟩
  · obtain ⟨room, present, -⟩ := owner.2.1
    rw [topics, if_pos rfl, ServerTables.topicOf, present]
    rfl
  · rw [topics, if_neg (Ne.symm other)]
  · rw [← ServerTables.roster_members, ← ServerTables.roster_members server.tables]
    exact (congrArg ServerTables.members set).trans
      (ServerTables.updateRoom_members fun _ => rfl)

theorem onMessage_topic (h : Reachable env stored server) (topic : Bytes) :
    (∃ r, Retitles env server (server.onMessage env s (.topicRequest (some topic))) s r topic) ∨
      Refuses server (server.onMessage env s (.topicRequest (some topic))) s
        (.topicRequest (some topic)) ∨
      CutsOff server (server.onMessage env s (.topicRequest (some topic))) s := by
  rcases @onMessage_command env stored server s h (.topicRequest (some topic)) nofun nofun with
    cut | refused | e
  · exact .inr (.inr cut)
  · exact .inr (.inl refused)
  · rw [e, ChatServer.onAdmittedMessage, ChatServer.onTopicRequest]
    split
    · exact .inr (.inl ChatServer.refuses_deliver)
    · next unnamed =>
        have named : (server.tables.session s).nickname ≠ [] := by simpa using unnamed
        rcases (server.note (.received s (.topicRequest (some topic)))).setTopicForRoom_cases env
          (server.tables.session s).activeRoomId (server.tables.session s).nickname topic with
            ⟨same, error, failed⟩ | ⟨room, present, owner, -, set⟩
        · exact .inr (.inl (ChatServer.refuses_reportError same failed))
        · rw [← ChatServer.reportError_roster s] at set
          exact .inl ⟨_, retitles_of_updateRoom (owner_of h named present owner) set⟩

/-- Every other frame changes nothing for others. -/
theorem onMessage_personal {message : ClientMessage}
    (topics : ∀ topic, message ≠ .topicRequest (some topic))
    (kicks : ∀ nick reason, message ≠ .kickRequest nick reason) :
    Personal s server.roster (server.onMessage env s message).roster := by
  rw [← ChatServer.note_roster server (.received s message)]
  rcases server.onMessage_cases env s message with ⟨version, -, e⟩ | ⟨-, -, e⟩ |
    ⟨-, password, -, e⟩ | ⟨-, -, -, -, e⟩ | ⟨-, -, -, e⟩
  · rw [e]
    exact ChatServer.onHello_personal
  · rw [e]
    exact ChatServer.reject_personal
  · rw [e]
    exact ChatServer.onAuthenticate_personal
  · rw [e]
    exact .of_eq rfl
  · rw [e]
    exact ChatServer.onAdmittedMessage_personal topics kicks

end Frames

/-- The session whose handler runs. -/
def Event.session : Event → Option SessionId
  | .accept s | .handshake s _ | .line s _ | .readError s | .posted s | .writeDone s _ => some s
  | _ => none

open ChatServer in
/-- What clients bring about is personal, except for TOPIC with a text and KICK. -/
theorem step_personal {env : Env} {server server' : ChatServer} {event : Event}
    (clients : event.ofClients = true) (hstep : step env server event = some server') :
    (∃ s, event.session = some s ∧ Personal s server.roster server'.roster) ∨
      ∃ s line message, event = .line s line ∧ decodeClientFrame line = .ok message ∧
        server' = server.onMessage env s message ∧
        ((∃ topic, message = .topicRequest (some topic)) ∨
          ∃ nick reason, message = .kickRequest nick reason) := by
  cases event with
  | accept s =>
      simp only [step, Option.ite_none_right_eq_some, Option.some.injEq] at hstep
      obtain ⟨-, rfl⟩ := hstep
      exact .inl ⟨s, rfl, .of_rooms rfl⟩
  | handshake s ok =>
      simp only [step, Option.ite_none_right_eq_some, Option.some.injEq] at hstep
      obtain ⟨-, rfl⟩ := hstep
      refine .inl ⟨s, rfl, ?_⟩
      cases ok with
      | false =>
          have gone : Personal s server.roster (server.disconnect env s false).roster :=
            disconnect_personal
          exact gone.trans updateSession_personal
      | true => exact .of_rooms rfl
  | line s line =>
      simp only [step, Option.ite_none_right_eq_some, Option.some.injEq] at hstep
      obtain ⟨-, rfl⟩ := hstep
      unfold onLine
      split
      · next message decoded =>
          by_cases command : (∃ topic, message = .topicRequest (some topic)) ∨
              ∃ nick reason, message = .kickRequest nick reason
          · exact .inr ⟨s, line, message, rfl, decoded, rfl, command⟩
          · refine .inl ⟨s, rfl, onMessage_personal ?_ ?_⟩
            · exact fun topic e => command (.inl ⟨topic, e⟩)
            · exact fun nick reason e => command (.inr ⟨nick, reason, e⟩)
      · refine .inl ⟨s, rfl, ?_⟩
        split
        · exact reject_personal
        · exact .of_eq rfl
  | readError s =>
      simp only [step, Option.ite_none_right_eq_some, Option.some.injEq] at hstep
      obtain ⟨-, rfl⟩ := hstep
      exact .inl ⟨s, rfl, disconnect_personal.trans updateSession_personal⟩
  | posted s =>
      simp only [step] at hstep
      split at hstep
      · cases hstep
      · cases hstep
        exact .inl ⟨s, rfl, .of_rooms rfl⟩
  | writeDone s ok =>
      simp only [step, Option.ite_none_right_eq_some, Option.some.injEq] at hstep
      obtain ⟨-, rfl⟩ := hstep
      exact .inl ⟨s, rfl, .of_rooms rfl⟩
  | _ => cases clients

/-- While only clients act, a topic changes and a member is removed by another only in
the handling of a TOPIC or KICK of the owner of the room, who is in it. A KICK removes
one other member, the one it names, from that room; and a frame that is refused changes
nothing. -/
theorem reachable_authority (env : Env) (stored : StoredState) (server : ChatServer)
    (h : Reachable env stored server) (event : Event) (clients : event.ofClients = true)
    (server' : ChatServer) (hstep : step env server event = some server') :
    (∀ r old new, server.tables.topicOf r = some old → server'.tables.topicOf r = some new →
      old ≠ new → ∃ s line, event = .line s line ∧
        decodeClientFrame line = .ok (.topicRequest (some new)) ∧
        Retitles env server server' s r new) ∧
    (∀ x r, x ∈ server.tables.members r → x ∉ server'.tables.members r →
      event.session ≠ some x → ∃ s line nick reason, event = .line s line ∧
        decodeClientFrame line = .ok (.kickRequest nick reason) ∧
        Kicks env server server' s x r nick) ∧
    (∀ s line nick reason, event = .line s line →
      decodeClientFrame line = .ok (.kickRequest nick reason) →
      (∃ x r, Kicks env server server' s x r nick) ∨
        Refuses server server' s (.kickRequest nick reason) ∨ CutsOff server server' s) ∧
    (∀ s line topic, event = .line s line →
      decodeClientFrame line = .ok (.topicRequest (some topic)) →
      (∃ r, Retitles env server server' s r topic) ∨
        Refuses server server' s (.topicRequest (some topic)) ∨ CutsOff server server' s) := by
  have line_eq {s : SessionId} {line : Bytes} {message : ClientMessage}
      (he : event = .line s line) (decoded : decodeClientFrame line = .ok message) :
      server' = server.onMessage env s message := by
    subst he
    simp only [step, Option.ite_none_right_eq_some, Option.some.injEq] at hstep
    obtain ⟨-, rfl⟩ := hstep
    simp only [ChatServer.onLine, decoded]
  have refused {s : SessionId} {message : ClientMessage} (no : Refuses server server' s message ∨
      CutsOff server server' s) : server'.tables.rooms = server.tables.rooms := by
    rcases no with refused | cut
    · rw [refused.1]
    · exact cut.2.1
  refine ⟨fun r old new before after other => ?_, fun x r inside outside foreign => ?_, ?_, ?_⟩
  · rcases step_personal clients hstep with ⟨s, -, personal⟩ |
      ⟨s, line, message, he, decoded, rfl, ⟨topic, rfl⟩ | ⟨nick, reason, rfl⟩⟩
    · have kept := personal.topics r old
      rw [ChatServer.roster, ChatServer.roster, roster_topicOf, roster_topicOf, after] at kept
      exact absurd (Option.some.inj (kept before)).symm other
    · rcases onMessage_topic h topic with ⟨r', set⟩ | no
      · by_cases same : r = r'
        · subst same
          obtain rfl : new = topic := Option.some.inj (after.symm.trans set.2.1)
          exact ⟨s, line, he, decoded, set⟩
        · rw [set.2.2.1 r same, before] at after
          exact absurd (Option.some.inj after) other
      · rw [ServerTables.topicOf, refused no, ← ServerTables.topicOf, before] at after
        exact absurd (Option.some.inj after) other
    · have kept : (server.onMessage env s (.kickRequest nick reason)).tables.topicOf r =
          server.tables.topicOf r := by
        rcases onMessage_kick h nick reason with ⟨x, r', -, topics⟩ | no
        · rw [topics]
        · rw [ServerTables.topicOf, refused no, ← ServerTables.topicOf]
      rw [kept, before] at after
      exact absurd (Option.some.inj after) other
  · rcases step_personal clients hstep with ⟨s, he, personal⟩ |
      ⟨s, line, message, he, decoded, rfl, ⟨topic, rfl⟩ | ⟨nick, reason, rfl⟩⟩
    · have kept := personal.members x r (fun same => foreign (same ▸ he))
      rw [ChatServer.roster, ChatServer.roster, ServerTables.roster_members,
        ServerTables.roster_members] at kept
      exact absurd (kept.mpr inside) outside
    · have kept : (server.onMessage env s (.topicRequest (some topic))).tables.members =
          server.tables.members := by
        rcases onMessage_topic h topic with ⟨r', set⟩ | no
        · exact set.2.2.2
        · funext r
          rw [ServerTables.members, refused no, ← ServerTables.members]
      rw [kept] at outside
      exact absurd inside outside
    · rcases onMessage_kick h nick reason with ⟨x', r', kicks, -⟩ | no
      · have gone : x = x' ∧ r = r' := by
          apply Decidable.by_contra
          intro another
          exact outside ((kicks.2.2.2.2.1 x r).mpr ⟨inside, another⟩)
        obtain ⟨rfl, rfl⟩ := gone
        exact ⟨s, line, nick, reason, he, decoded, kicks⟩
      · rw [ServerTables.members, refused no, ← ServerTables.members] at outside
        exact absurd inside outside
  · intro s line nick reason he decoded
    rw [line_eq he decoded]
    rcases onMessage_kick h nick reason with ⟨x, r, kicks, -⟩ | no
    · exact .inl ⟨x, r, kicks⟩
    · exact .inr no
  · intro s line topic he decoded
    rw [line_eq he decoded]
    exact onMessage_topic h topic

/-- Ann removes Bob from the room she has created. -/
theorem reachable_authority_ann :
    ∃ server server', Reachable .plain emptyStore server ∧
      step .plain server (.line 7 (clientFrame (.kickRequest (ascii "bob") []))) = some server' ∧
      8 ∈ server.tables.members 2 ∧ 8 ∉ server'.tables.members 2 ∧
      Kicks .plain server server' 7 8 2 (ascii "bob") := by
  obtain ⟨server, -, reachable, inside, kicked⟩ :=
    exists_serverAfter (visit 7 (ascii "ann") ++
        .line 7 (clientFrame (.createRoom (ascii "games"))) :: visit 8 (ascii "bob") ++
        [.line 8 (clientFrame (.joinRoom (ascii "games")))])
      (fun server => 8 ∈ server.tables.members 2 ∧
        (step .plain server (.line 7 (clientFrame (.kickRequest (ascii "bob") [])))).any
          (fun server' => decide (8 ∉ server'.tables.members 2)) = true) (by decide +kernel)
  obtain ⟨server', hstep, outside⟩ := (Option.any_eq_true _ _).mp kicked
  have outside := of_decide_eq_true outside
  obtain ⟨s, line, nick, reason, he, decoded, kicks⟩ :=
    (reachable_authority .plain emptyStore server reachable _ rfl server' hstep).2.1 8 2 inside
      outside nofun
  obtain ⟨rfl, rfl⟩ := Event.line.inj he
  have frame : decodeClientFrame (clientFrame (.kickRequest (ascii "bob") [])) =
      .ok (.kickRequest (ascii "bob") []) := by decide +kernel
  obtain ⟨rfl, rfl⟩ := ClientMessage.kickRequest.inj (Except.ok.inj (frame.symm.trans decoded))
  exact ⟨server, server', reachable, hstep, inside, outside, kicks⟩

end Chatbox.Chat
