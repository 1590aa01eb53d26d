import Chatbox.Chat.Roster
import Chatbox.Lib.Threads

/-!
The operations that run on several threads at once, cut where another thread can come
in between: each lock region, each access to an atomic and each posted frame is a
region of its own. Done by one thread alone they are the operations of `ChatServer`.
-/

namespace Chatbox.Chat

open Text Protocol Storage

/-- The network thread runs the handlers of the sessions, the other one is that of the
host's user interface or of the console. -/
inductive ThreadId where
  | network
  | operator
deriving DecidableEq, Repr

/-- A part of an operation with the values that the operation has read before it. -/
inductive Region where
  | recordMessage (roomId : RoomId) (msg nickname : Bytes)
  | pushMessage (msg : Bytes)
  | storeMessage (roomId : RoomId) (nickname msg : Bytes)
  | collectUsers (roomId : RoomId)
  | updateRoomUsers (roomId : RoomId) (nicknames : List Bytes)
  | collectRooms
  | collectSessions (list : List RoomSummary)
  | updateRoomList (list : List RoomSummary)
  | deliver (s : SessionId) (message : ServerMessage)
  | close (s : SessionId)
  | readOldRoom (s : SessionId) (targetId : RoomId) (announceMove : Bool)
  | placeSession (s : SessionId) (targetId : RoomId) (announceMove : Bool) (oldId : RoomId)
  | eraseSession (s : SessionId)
  | readActiveRoom (s : SessionId) (announce : Bool)
  | clearActiveRoom (s : SessionId) (announce : Bool) (oldId : RoomId)
  | eraseMember (s : SessionId) (announce : Bool) (oldId : RoomId)
  | announceLeft (s : SessionId) (oldId : RoomId)
  | stopReading (s : SessionId)
  | findMember (roomId : RoomId) (nick reason : Bytes)
  | insertBan (nick reason : Bytes)
  | recordBan (nick reason : Bytes)
  | findSession (nick reason : Bytes)
  | readRoomOf (target : SessionId) (nick reason : Bytes)
  | checkProof (s : SessionId) (signatureHex : Bytes)
  | checkBan (s : SessionId)
  | checkTaken (s : SessionId)
  | bindIdentity (s : SessionId)
  | setNickname (s : SessionId)
  | readSuppression (s : SessionId)

namespace Region

def deliverAll (members : List SessionId) (message : ServerMessage) : List Region :=
  members.map fun s => .deliver s message

/-- `announce_move` in `move_session_to_room` -/
def leftFor (oldId : RoomId) (nickname targetName : Bytes) : List Region :=
  [.recordMessage oldId (ascii "[system] " ++ nickname ++ ascii " left for #" ++ targetName) [],
    .collectUsers oldId]

def history (s : SessionId) (roomId : RoomId) (name : Bytes) (messages : List Bytes) :
    List Region :=
  if messages.isEmpty then []
  else .deliver s (.text (ascii "[system] Recent messages in #" ++ name ++ ascii ":")) ::
    messages.map fun message => .deliver s (.roomText roomId message)

def joined (roomId : RoomId) (nickname name : Bytes) : List Region :=
  [.recordMessage roomId (ascii "[system] " ++ nickname ++ ascii " joined #" ++ name) [],
    .collectUsers roomId, .collectRooms]

def disconnect (s : SessionId) (announce : Bool) : List Region :=
  [.eraseSession s, .readActiveRoom s announce]

/-- A last message, `close`, `disconnect` and no further reading. -/
def reject (s : SessionId) (message : ServerMessage) : List Region :=
  [.deliver s message, .close s] ++ disconnect s false ++ [.stopReading s]

/-- What a kick and a ban do to the session they have found. -/
def remove (target : SessionId) (roomId : RoomId) (nick reason notice : Bytes) : List Region :=
  [.deliver target (.kick nick reason), .close target] ++ disconnect target false ++
    [.recordMessage roomId notice [], .collectUsers roomId]

/-- The completion handler of `async_read_until` with an error. -/
def readError (s : SessionId) : List Region := [.readSuppression s, .stopReading s]

variable (env : Env)

/-- The effect of a region, and the regions its operation goes on with. -/
def perform : Region → ChatServer → ChatServer × List Region
  | recordMessage roomId msg nickname, server =>
      match server.tables.rooms[roomId]? with
      | none => (server, [])
      | some room =>
          let server := server.recordMessage env roomId room msg
          (server,
            (if server.tables.hostIn env roomId then [pushMessage msg] else []) ++
              deliverAll room.members.toList (.roomText roomId msg) ++
              (if env.config.hasStorage then [storeMessage roomId nickname msg] else []))
  | pushMessage msg, server => (server.onHost (·.pushMessage msg), [])
  | storeMessage roomId nickname msg, server => (server.storeMessage env roomId nickname msg, [])
  | collectUsers roomId, server =>
      match server.tables.rooms[roomId]? with
      | none => (server, [])
      | some room =>
          let nicknames := server.tables.userNicknames env roomId room.members
          (server,
            (if server.tables.hostIn env roomId then [updateRoomUsers roomId nicknames] else []) ++
              deliverAll room.members.toList (.userList roomId nicknames))
  | updateRoomUsers roomId nicknames, server =>
      (server.onHost (·.updateRoomUsers roomId nicknames), [])
  | collectRooms, server => (server, [collectSessions (server.tables.roomList env)])
  | collectSessions list, server =>
      let sessions := server.tables.sessions.toList.filter fun s =>
        !(server.tables.session s).nickname.isEmpty
      (server, deliverAll sessions (.roomList list) ++ [updateRoomList list])
  | updateRoomList list, server =>
      (if !env.config.localNickname.isEmpty && server.tables.localRoomId != 0 then
          server.onHost (·.updateRoomList list)
        else server, [])
  | deliver s message, server => (server.deliver s message, [])
  | close s, server => (server.close s, [])
  | readOldRoom s targetId announceMove, server =>
      (server, [placeSession s targetId announceMove (server.tables.session s).activeRoomId])
  | placeSession s targetId announceMove oldId, server =>
      match server.tables.rooms[targetId]? with
      | none => (server, [])
      | some target =>
          -- only this thread gives the session a nickname
          let nickname := (server.tables.session s).nickname
          let server := server.noteLeave s oldId
          let server := server.onTables fun tables =>
            ((tables.eraseMember s oldId).insertMember s targetId).updateSession s
              fun session => { session with activeRoomId := targetId }
          let server := server.note (.enter s targetId target.recentMessages)
          (server,
            (if announceMove && oldId != 0 then leftFor oldId nickname target.name else []) ++
              [deliver s (.roomJoined target.id target.name target.topic)] ++
              history s target.id target.name target.recentMessages ++
              joined target.id nickname target.name)
  | eraseSession s, server =>
      (server.onTables fun tables => { tables with sessions := tables.sessions.erase s }, [])
  | readActiveRoom s announce, server =>
      (server, [clearActiveRoom s announce (server.tables.session s).activeRoomId])
  | clearActiveRoom s announce oldId, server =>
      (server.updateSession s fun session => { session with activeRoomId := 0 },
        if oldId = 0 then [] else [eraseMember s announce oldId])
  | eraseMember s announce oldId, server =>
      let removed := server.tables.isMember s oldId
      ((server.noteLeave s oldId).onTables fun tables => tables.eraseMember s oldId,
        if removed then
          (if announce then [announceLeft s oldId] else []) ++ [collectUsers oldId, collectRooms]
        else [])
  | announceLeft s oldId, server =>
      let nickname := (server.tables.session s).nickname
      (server,
        if nickname.isEmpty then []
        else [recordMessage oldId (ascii "[system] " ++ nickname ++ ascii " left") []])
  | stopReading s, server => (server.stopReading s, [])
  | findMember roomId nick reason, server =>
      match server.tables.rooms[roomId]? with
      | none => (server, [])
      | some room =>
          match room.members.toList.find? fun s =>
              (server.tables.session s).nickname == nick with
          | none => (server, [])
          | some target =>
              (server, remove target roomId nick reason
                (ascii "[system] " ++ nick ++ ascii " was kicked" ++
                  (if reason.isEmpty then [] else ascii ": " ++ reason)))
  | insertBan nick reason, server =>
      (server.onTables fun tables => { tables with bannedNicks := tables.bannedNicks.insert nick },
        [recordBan nick reason, findSession nick reason])
  | recordBan nick reason, server =>
      (if env.config.hasStorage then
          let (reading, server) := server.nextReading
          server.store (.storeBan
            { nickname := nick, reason, createdAt := env.currentUnixSeconds reading,
              expiresAt := none })
        else server.saveBans env, [])
  | findSession nick reason, server =>
      match server.tables.sessionNamed nick with
      | none => (server, [])
      | some target => (server, [readRoomOf target nick reason])
  | readRoomOf target nick reason, server =>
      (server, remove target (server.tables.session target).activeRoomId nick
        (if reason.isEmpty then ascii "banned" else reason)
        (ascii "[system] " ++ nick ++ ascii " has been banned"))
  | checkProof s signatureHex, server =>
      let session := server.tables.session s
      (server,
        if !session.nickname.isEmpty then
          [deliver s (.joinRejected (ascii "Already joined"))]
        else if session.pendingNickname.isEmpty || session.pendingPublicKeyHex.isEmpty ||
            session.pendingChallenge.isEmpty then
          reject s (.joinRejected (ascii "Identify before sending proof"))
        else if !env.verifyIdentitySignature session.pendingPublicKeyHex session.pendingChallenge
            signatureHex then
          reject s (.joinRejected (ascii "Identity proof failed"))
        else [checkBan s])
  | checkBan s, server =>
      (server,
        if server.tables.isBanned (server.tables.session s).pendingNickname then
          reject s .banned
        else [checkTaken s])
  | checkTaken s, server =>
      (server,
        if server.tables.nicknameTaken env (server.tables.session s).pendingNickname then
          reject s .nicknameTaken
        else [bindIdentity s])
  | bindIdentity s, server =>
      let session := server.tables.session s
      let (server, bound) :=
        server.bindIdentity env session.pendingNickname session.pendingPublicKeyHex
      (server,
        if !bound then reject s (.joinRejected (ascii "Identity registration failed"))
        else [setNickname s])
  | setNickname s, server =>
      let session := server.tables.session s
      let server := server.takeNickname s session.pendingNickname
      (server.note (.admitted s session.pendingNickname session.pendingPublicKeyHex
          session.pendingChallenge),
        [deliver s (.identityAccepted (identityFingerprint session.pendingPublicKeyHex)),
          deliver s .joinAccepted, readOldRoom s DEFAULT_ROOM_ID false])
  | readSuppression s, server =>
      (server, disconnect s !(server.output.wire s).suppressLeaveNotice)

section Alone

variable {env} (server : ChatServer)

/-- The regions done by one thread alone lead from the one server to the other. -/
abbrev Alone (env : Env) : List Region → ChatServer → ChatServer → Prop :=
  Threads.Alone (perform env)

theorem deliverAll_alone (members : List SessionId) (message : ServerMessage) :
    Alone env (deliverAll members message) server (server.deliverAll members message) := by
  induction members generalizing server with
  | nil => exact .done server
  | cons s members ih => exact .act rfl (ih (server.deliver s message))

/-- A region that goes on with nothing, done or not. -/
theorem optional_alone {p : Prop} [Decidable p] {region : Region} {a b : ChatServer}
    (h : perform env region a = (b, [])) :
    Alone env (if p then [region] else []) a (if p then b else a) := by
  split
  · refine .act (by rw [h]) ?_
    rw [h]
    exact .done b
  · exact .done a

theorem broadcastRoom_alone (roomId : RoomId) (msg nickname : Bytes) :
    Alone env [.recordMessage roomId msg nickname] server
      (server.broadcastRoom env roomId msg nickname) := by
  refine .single ?_
  simp only [perform, ChatServer.broadcastRoom]
  cases server.tables.rooms[roomId]? with
  | none => exact .done server
  | some room =>
      dsimp only
      have shown := @optional_alone env (server.tables.hostIn env roomId = true) _
        (.pushMessage msg) (server.recordMessage env roomId room msg) _ rfl
      exact (shown.append (deliverAll_alone _ _ _)).append (optional_alone rfl)

theorem broadcastUsers_alone (roomId : RoomId) :
    Alone env [.collectUsers roomId] server (server.broadcastUsers env roomId) := by
  refine .single ?_
  simp only [perform, ChatServer.broadcastUsers]
  cases server.tables.rooms[roomId]? with
  | none => exact .done server
  | some room =>
      dsimp only
      exact (optional_alone rfl).append (deliverAll_alone _ _ _)

theorem broadcastRoomLists_alone :
    Alone env [.collectRooms] server (server.broadcastRoomLists env) := by
  refine .single (.single ?_)
  simp only [perform, ChatServer.broadcastRoomLists]
  refine .append (deliverAll_alone _ _ _) (.act rfl ?_)
  exact .done _

theorem leftFor_alone (oldId : RoomId) (nickname targetName : Bytes) :
    Alone env (leftFor oldId nickname targetName) server
      (server.announceLeft env oldId nickname targetName) :=
  (broadcastRoom_alone _ _ _ _).append (broadcastUsers_alone _ _)

theorem joined_alone (roomId : RoomId) (nickname name : Bytes) :
    Alone env (joined roomId nickname name) server
      (server.announceJoined env roomId nickname name) :=
  (broadcastRoom_alone _ _ _ _).append
    ((broadcastUsers_alone _ _).append (broadcastRoomLists_alone _))

theorem history_alone (s : SessionId) (roomId : RoomId) (name : Bytes) (messages : List Bytes) :
    Alone env (history s roomId name messages) server
      (server.deliverHistory s roomId name messages) := by
  have each (server : ChatServer) :
      Alone env (messages.map fun message => .deliver s (.roomText roomId message)) server
        (messages.foldl (fun server message => server.deliver s (.roomText roomId message))
          server) := by
    induction messages generalizing server with
    | nil => exact .done server
    | cons message messages ih => exact .act rfl (ih _)
  simp only [history, ChatServer.deliverHistory]
  split
  · exact .done server
  · exact .act rfl (each _)

/-- `move_session_to_room` -/
theorem moveSessionToRoom_alone (s : SessionId) (targetId : RoomId) (announceMove : Bool) :
    Alone env [.readOldRoom s targetId announceMove] server
      (server.moveSessionToRoom env s targetId announceMove) := by
  refine .single (.single ?_)
  simp only [perform, ChatServer.moveSessionToRoom]
  cases server.tables.rooms[targetId]? with
  | none => exact .done server
  | some target =>
      have placed :
          ((server.noteLeave s (server.tables.session s).activeRoomId).onTables fun tables =>
            tables.placeSession s targetId) =
            (server.noteLeave s (server.tables.session s).activeRoomId).onTables fun tables =>
              ((tables.eraseMember s (server.tables.session s).activeRoomId).insertMember s
                targetId).updateSession s fun session => { session with activeRoomId := targetId } := by
        simp only [ChatServer.onTables, ChatServer.noteLeave_tables]
        rfl
      rw [placed]
      dsimp only
      refine .append (.append (.append ?_ (.act rfl (.done _))) (history_alone _ _ _ _ _))
        (joined_alone _ _ _ _)
      split
      · exact leftFor_alone _ _ _ _
      · exact .done _

theorem announceGone_alone (s : SessionId) (oldId : RoomId) (announce : Bool) :
    Alone env
      ((if announce then [.announceLeft s oldId] else []) ++ [.collectUsers oldId, .collectRooms])
      server (server.announceGone env oldId (server.tables.session s).nickname announce) := by
  refine .append ?_ ((broadcastUsers_alone _ _).append (broadcastRoomLists_alone _))
  cases announce with
  | false => exact .done server
  | true =>
      refine .single ?_
      simp only [perform, Bool.true_and]
      cases (server.tables.session s).nickname.isEmpty with
      | true => exact .done server
      | false => exact broadcastRoom_alone _ _ _ _

theorem eraseMember_alone (s : SessionId) (announce : Bool) (oldId : RoomId) :
    let erased := (server.noteLeave s oldId).onTables fun tables => tables.eraseMember s oldId
    Alone env [.eraseMember s announce oldId] server
      (if server.tables.isMember s oldId then
        erased.announceGone env oldId (server.tables.session s).nickname announce
      else erased) := by
  intro erased
  refine .single ?_
  have same : (erased.tables.session s).nickname = (server.tables.session s).nickname := by
    simp only [erased, ChatServer.onTables, ChatServer.noteLeave_tables]
    rfl
  simp only [perform]
  split
  · rw [← same]
    exact announceGone_alone erased s oldId announce
  · exact .done erased

theorem clearActiveRoom_alone (s : SessionId) (announce : Bool) (oldId : RoomId) :
    let cleared := server.updateSession s fun session => { session with activeRoomId := 0 }
    let erased := (cleared.noteLeave s oldId).onTables fun tables => tables.eraseMember s oldId
    Alone env [.clearActiveRoom s announce oldId] server
      (if oldId = 0 then cleared
      else if cleared.tables.isMember s oldId then
        erased.announceGone env oldId (server.tables.session s).nickname announce
      else erased) := by
  intro cleared erased
  refine .single ?_
  have same : (cleared.tables.session s).nickname = (server.tables.session s).nickname := by
    simp [cleared, ChatServer.updateSession, ChatServer.onTables, ServerTables.updateSession]
  simp only [perform]
  split
  · exact .done cleared
  · rw [← same]
    exact eraseMember_alone cleared s announce oldId

/-- `disconnect` -/
theorem disconnect_alone (s : SessionId) (announce : Bool) :
    Alone env (disconnect s announce) server (server.disconnect env s announce) :=
  .act rfl (.single (clearActiveRoom_alone _ s announce _))

theorem reject_alone (s : SessionId) (message : ServerMessage) :
    Alone env (reject s message) server (server.reject env s message) :=
  .append (.act rfl (.act rfl (disconnect_alone _ s false))) (.act rfl (.done _))

theorem remove_alone (target : SessionId) (roomId : RoomId) (nick reason notice : Bytes) :
    Alone env (remove target roomId nick reason notice) server
      (((((server.deliver target (.kick nick reason)).close target).disconnect env target
        false).broadcastRoom env roomId notice []).broadcastUsers env roomId) :=
  .append (.act rfl (.act rfl (disconnect_alone _ target false)))
    ((broadcastRoom_alone _ _ _ _).append (broadcastUsers_alone _ _))

/-- `kick_user_in_room` -/
theorem kickUserInRoom_alone (roomId : RoomId) (nick reason : Bytes) :
    Alone env [.findMember roomId nick reason] server
      (server.kickUserInRoom env roomId nick reason).1 := by
  refine .single ?_
  simp only [perform, ChatServer.kickUserInRoom]
  cases server.tables.rooms[roomId]? with
  | none => exact .done server
  | some room =>
      dsimp only
      cases room.members.toList.find? fun s => (server.tables.session s).nickname == nick with
      | none => exact .done server
      | some target => exact remove_alone server target roomId nick reason _

/-- `ban_user` -/
theorem banUser_alone (nick reason : Bytes) :
    Alone env [.insertBan nick reason] server (server.banUser env nick reason) := by
  refine .single (.act rfl (.single ?_))
  simp only [perform, ChatServer.banUser]
  generalize (if env.config.hasStorage then _ else _ : ChatServer) = recorded
  cases recorded.tables.sessionNamed nick with
  | none => exact .done recorded
  | some target => exact .single (remove_alone recorded target _ nick _ _)

/-- `on_read_error` -/
theorem readError_alone (s : SessionId) :
    Alone env (readError s) server (server.onReadError env s) :=
  .cons (disconnect_alone server s _) (.act rfl (.done _))

theorem setNickname_alone (s : SessionId) :
    Alone env [.setNickname s] server
      (server.acceptProof env s (server.tables.session s).pendingNickname
        (server.tables.session s).pendingPublicKeyHex (server.tables.session s).pendingChallenge) :=
  .single (.act rfl (.act rfl (moveSessionToRoom_alone _ s _ _)))

theorem bindIdentity_session (nick publicKeyHex : Bytes) :
    (server.bindIdentity env nick publicKeyHex).1.tables.session = server.tables.session := by
  unfold ChatServer.bindIdentity
  split
  · rfl
  · dsimp only
    split
    · rfl
    · rw [ChatServer.saveIdentities_tables]
      rfl

/-- The PROOF branch of `read_loop`. -/
theorem onProof_alone (s : SessionId) (signatureHex : Bytes) :
    Alone env [.checkProof s signatureHex] server (server.onProof env s signatureHex) := by
  refine .single ?_
  simp only [perform, ChatServer.onProof]
  split
  · exact .act rfl (.done _)
  · split
    · exact reject_alone server s _
    · split
      · exact reject_alone server s _
      · refine .single ?_
        simp only [perform]
        split
        · exact reject_alone server s _
        · refine .single ?_
          simp only [perform]
          split
          · exact reject_alone server s _
          · refine .single ?_
            simp only [perform]
            split
            · exact reject_alone _ s _
            · have accepted := @setNickname_alone env (server.bindIdentity env
                (server.tables.session s).pendingNickname
                (server.tables.session s).pendingPublicKeyHex).1 s
              rwa [bindIdentity_session] at accepted

end Alone

end Region

end Chatbox.Chat
