import Chatbox.Chat.State

/-!
The operations of `ChatServer`. An operation that returns `bool` and sets an
error text returns the text in an `Option`: nothing means `true`.
-/

namespace Chatbox.Chat

open Text Protocol Storage

namespace ChatServer

variable (env : Env) (server : ChatServer)

section Broadcasts

/-- `next_message_timestamp` without other threads. -/
def nextMessageTimestamp : Int × ChatServer :=
  let (reading, server) := server.nextReading
  let candidate := max (env.systemNow reading) (server.output.lastTimestamp + 1)
  (candidate, server.onOutput fun output => { output with lastTimestamp := candidate })

def storeMessage (roomId : RoomId) (nickname msg : Bytes) : ChatServer :=
  let (reading, server) := server.nextReading
  let (sentAt, server) := server.nextMessageTimestamp env
  server.store (.storeMessage
    { id := env.randomHex reading 16, roomId, nickname, body := msg, sentAt })

/-- The locked region of `broadcast_room`. -/
def recordMessage (roomId : RoomId) (room : Room) (msg : Bytes) : ChatServer :=
  let recentMessages := room.recentMessages ++ [msg]
  let recentMessages := if recentMessages.length > env.historyLimit then recentMessages.drop 1
    else recentMessages
  (server.onTables fun tables =>
    { tables with rooms := tables.rooms.insert roomId { room with recentMessages } }).note
      (.recorded roomId msg)

def broadcastRoom (roomId : RoomId) (msg : Bytes) (nickname : Bytes) : ChatServer :=
  match server.tables.rooms[roomId]? with
  | none => server
  | some room =>
      let server := server.recordMessage env roomId room msg
      let server := if server.tables.hostIn env roomId then server.onHost (·.pushMessage msg)
        else server
      let server := server.deliverAll room.members.toList (.roomText roomId msg)
      if env.config.hasStorage then server.storeMessage env roomId nickname msg else server

def broadcastUsers (roomId : RoomId) : ChatServer :=
  match server.tables.rooms[roomId]? with
  | none => server
  | some room =>
      let nicknames := server.tables.userNicknames env roomId room.members
      let server := if server.tables.hostIn env roomId then
          server.onHost (·.updateRoomUsers roomId nicknames)
        else server
      server.deliverAll room.members.toList (.userList roomId nicknames)

def broadcastRoomLists : ChatServer :=
  let list := server.tables.roomList env
  let sessions := server.tables.sessions.toList.filter fun s =>
    !(server.tables.session s).nickname.isEmpty
  let server := server.deliverAll sessions (.roomList list)
  if !env.config.localNickname.isEmpty && server.tables.localRoomId != 0 then
    server.onHost (·.updateRoomList list)
  else server

def sendRoomList (s : SessionId) : ChatServer :=
  server.deliver s (.roomList (server.tables.roomList env))

def broadcast (msg : Bytes) : ChatServer :=
  let id := server.tables.localRoomId
  let id := if id = 0 then DEFAULT_ROOM_ID else id
  server.broadcastRoom env id msg []

def broadcastServer (msg : Bytes) : ChatServer :=
  server.tables.rooms.keys.foldl
    (fun server id => server.broadcastRoom env id (ascii "[SERVER] " ++ msg) []) server

end Broadcasts

section Moves

/-- Marks the end of a membership, if there is one. -/
def noteLeave (s : SessionId) (roomId : RoomId) : ChatServer :=
  if server.tables.isMember s roomId then server.note (.leave s roomId) else server

/-- The notices to the room that is left. -/
def announceLeft (oldId : RoomId) (nickname targetName : Bytes) : ChatServer :=
  (server.broadcastRoom env oldId
    (ascii "[system] " ++ nickname ++ ascii " left for #" ++ targetName) []).broadcastUsers env
      oldId

def deliverHistory (s : SessionId) (roomId : RoomId) (name : Bytes) (history : List Bytes) :
    ChatServer :=
  if history.isEmpty then server
  else
    let server := server.deliverText s
      (ascii "[system] Recent messages in #" ++ name ++ ascii ":")
    history.foldl (fun server message => server.deliver s (.roomText roomId message)) server

/-- The notices to the room that is entered, and the new user counts. -/
def announceJoined (roomId : RoomId) (nickname name : Bytes) : ChatServer :=
  let server := server.broadcastRoom env roomId
    (ascii "[system] " ++ nickname ++ ascii " joined #" ++ name) []
  let server := server.broadcastUsers env roomId
  server.broadcastRoomLists env

def moveSessionToRoom (s : SessionId) (targetId : RoomId) (announceMove : Bool) : ChatServer :=
  let oldId := (server.tables.session s).activeRoomId
  let nickname := (server.tables.session s).nickname
  match server.tables.rooms[targetId]? with
  | none => server
  | some target =>
      let server := server.noteLeave s oldId
      let server := server.onTables fun tables => tables.placeSession s targetId
      let server := server.note (.enter s targetId target.recentMessages)
      let server := if announceMove && oldId != 0 then
          server.announceLeft env oldId nickname target.name
        else server
      let server := server.deliver s (.roomJoined target.id target.name target.topic)
      let server := server.deliverHistory s target.id target.name target.recentMessages
      server.announceJoined env target.id nickname target.name

def moveLocalToRoom (targetId : RoomId) (announceMove : Bool) : ChatServer :=
  match server.tables.rooms[targetId]? with
  | none => server
  | some target =>
      let oldId := server.tables.localRoomId
      let server := server.onTables fun tables => { tables with localRoomId := targetId }
      let server := if announceMove && oldId != 0 then
          server.announceLeft env oldId env.config.localNickname target.name
        else server
      let server := server.onHost (·.activateRoom target.id target.name target.topic)
      let server := if !target.recentMessages.isEmpty then
          server.onHost fun app => target.recentMessages.foldl (·.pushMessage ·)
            (app.pushMessage (ascii "[system] Recent messages in #" ++ target.name ++ ascii ":"))
        else server
      server.announceJoined env target.id env.config.localNickname target.name

/-- The notices to the room a session is gone from. -/
def announceGone (roomId : RoomId) (nickname : Bytes) (announce : Bool) : ChatServer :=
  let server := if announce && !nickname.isEmpty then
      server.broadcastRoom env roomId (ascii "[system] " ++ nickname ++ ascii " left") []
    else server
  let server := server.broadcastUsers env roomId
  server.broadcastRoomLists env

def disconnect (s : SessionId) (announce : Bool) : ChatServer :=
  let oldId := (server.tables.session s).activeRoomId
  let nickname := (server.tables.session s).nickname
  let server := server.onTables fun tables =>
    { tables with sessions := tables.sessions.erase s }
  let server := server.updateSession s fun session => { session with activeRoomId := 0 }
  if oldId = 0 then server
  else
    let removed := server.tables.isMember s oldId
    let server := server.noteLeave s oldId
    let server := server.onTables fun tables => tables.eraseMember s oldId
    if removed then server.announceGone env oldId nickname announce else server

def startLocalUser : ChatServer :=
  if env.config.localNickname.isEmpty then server
  else
    match server.tables.rooms[DEFAULT_ROOM_ID]? with
    | none => server
    | some lobby =>
        let server := server.onTables fun tables => { tables with localRoomId := DEFAULT_ROOM_ID }
        let server := server.onHost (·.activateRoom lobby.id lobby.name lobby.topic)
        let server := server.broadcastUsers env lobby.id
        server.broadcastRoomLists env

end Moves

section Rooms

def persistRoom (roomId : RoomId) : ChatServer :=
  if !env.config.hasStorage then server
  else
    match server.tables.rooms[roomId]? with
    | none => server
    | some room =>
        let (reading, server) := server.nextReading
        server.store (.storeRoom
          { id := room.id
            name := room.name
            topic := room.topic
            ownerNickname := room.ownerNickname
            createdAt := env.currentUnixSeconds reading })

/-- The checks and the insertion that the three ways of creating a room share:
an error text, or the new id and the server with the empty room. -/
def addRoom (name ownerNickname : Bytes) : Except Bytes (RoomId × ChatServer) :=
  if !isValidRoomName name then
    .error (ascii "Room names use 1-32 letters, numbers, '-' or '_'")
  else if server.tables.rooms.size ≥ MAX_ROOMS then
    .error (ascii "This server has reached its room limit")
  else if (server.tables.findRoomByName name).isSome then
    .error (ascii "A room named '" ++ name ++ ascii "' already exists")
  else
    let id := server.tables.nextRoomId
    .ok (id, server.onTables fun tables =>
      { tables with
        nextRoomId := id + 1
        rooms := tables.rooms.insertIfNew id { id, name, ownerNickname } })

def createRoom (s : SessionId) (name : Bytes) : ChatServer × Option Bytes :=
  match server.addRoom name (server.tables.session s).nickname with
  | .error error => (server, some error)
  | .ok (id, server) =>
      let server := server.persistRoom env id
      (server.moveSessionToRoom env s id true, none)

def createLocalRoom (name : Bytes) : ChatServer × Option Bytes :=
  if env.config.localNickname.isEmpty then
    (server, some (ascii "No interactive host is configured"))
  else
    match server.addRoom name env.config.localNickname with
    | .error error => (server, some error)
    | .ok (id, server) =>
        let server := server.persistRoom env id
        (server.moveLocalToRoom env id true, none)

def createAdminRoom (name : Bytes) : ChatServer × Option Bytes :=
  match server.addRoom name [] with
  | .error error => (server, some error)
  | .ok (_, server) =>
      let server := match server.tables.findRoomByName name with
        | some (createdId, _) => server.persistRoom env createdId
        | none => server
      (server.broadcastRoomLists env, none)

def noSuchRoom (name : Bytes) : Bytes := ascii "Room '" ++ name ++ ascii "' does not exist"

def joinRoom (s : SessionId) (name : Bytes) : ChatServer × Option Bytes :=
  match server.tables.findRoomByName name with
  | none => (server, some (noSuchRoom name))
  | some (roomId, _) =>
      if (server.tables.session s).activeRoomId = roomId then
        (server, some (ascii "Already in room '" ++ name ++ ascii "'"))
      else (server.moveSessionToRoom env s roomId true, none)

def leaveRoom (s : SessionId) : ChatServer × Option Bytes :=
  if (server.tables.session s).activeRoomId = DEFAULT_ROOM_ID then
    (server, some (ascii "Already in the lobby"))
  else (server.moveSessionToRoom env s DEFAULT_ROOM_ID true, none)

def joinLocalRoom (name : Bytes) : ChatServer × Option Bytes :=
  match server.tables.findRoomByName name with
  | none => (server, some (noSuchRoom name))
  | some (id, _) =>
      if server.tables.localRoomId = id then
        (server, some (ascii "Already in room '" ++ name ++ ascii "'"))
      else (server.moveLocalToRoom env id true, none)

def leaveLocalRoom : ChatServer × Option Bytes :=
  if server.tables.localRoomId = DEFAULT_ROOM_ID then
    (server, some (ascii "Already in the lobby"))
  else (server.moveLocalToRoom env DEFAULT_ROOM_ID true, none)

def showRoomListLocal : ChatServer :=
  let list := server.tables.roomList env
  let current := server.tables.localRoomId
  server.onHost fun app =>
    list.foldl (fun app room => app.pushMessage
        (ascii "[system]   " ++ (if room.id = current then ascii "* " else ascii "- ") ++
          room.name ++ ascii " (" ++ toDecimal room.userCount.toNat ++ ascii ")"))
      ((app.updateRoomList list).pushMessage (ascii "[system] Available rooms:"))

def sendTopic (s : SessionId) : ChatServer :=
  let roomId := (server.tables.session s).activeRoomId
  match server.tables.rooms[roomId]? with
  | none => server
  | some room => server.deliver s (.roomTopic roomId room.topic)

def setTopicForRoom (roomId : RoomId) (actor : Bytes) (privileged : Bool) (topic : Bytes) :
    ChatServer × Option Bytes :=
  if !isValidRoomTopic topic then
    (server, some (ascii "Topics may contain at most 200 printable characters"))
  else
    match server.tables.rooms[roomId]? with
    | none => (server, some (ascii "The active room no longer exists"))
    | some room =>
        if !privileged && room.ownerNickname != actor then
          (server, some (ascii "Only this room's creator can change its topic"))
        else
          let server := server.onTables fun tables =>
            tables.updateRoom roomId fun room => { room with topic }
          let server := if env.config.hasStorage then
              server.store (.updateRoomTopic roomId topic)
            else server
          let server := server.deliverAll room.members.toList (.roomTopic roomId topic)
          let server := if server.tables.hostIn env roomId then
              server.onHost (·.updateRoomTopic roomId topic)
            else server
          (server.broadcastRoom env roomId
            (ascii "[system] " ++ actor ++ ascii " changed the topic to: " ++ topic) [], none)

def setTopic (s : SessionId) (topic : Bytes) : ChatServer × Option Bytes :=
  server.setTopicForRoom env (server.tables.session s).activeRoomId
    (server.tables.session s).nickname false topic

def setLocalTopic (topic : Bytes) : ChatServer × Option Bytes :=
  server.setTopicForRoom env server.tables.localRoomId env.config.localNickname true topic

def setAdminTopic (roomName topic : Bytes) : ChatServer × Option Bytes :=
  match server.tables.findRoomByName roomName with
  | none => (server, some (noSuchRoom roomName))
  | some (id, _) => server.setTopicForRoom env id (ascii "server") true topic

end Rooms

section Private

/-- The last member the loop of `send_private_in_room` finds with the nickname. -/
def memberNamed (room : Room) (nick : Bytes) : Option SessionId :=
  room.members.toList.reverse.find? fun s => (server.tables.session s).nickname == nick

def deliverTextTo (receiver : Option SessionId) (line : Bytes) : ChatServer :=
  match receiver with
  | some s => server.deliverText s line
  | none => server

def sendPrivateInRoom (sender target message : Bytes) (roomId : RoomId) (mirrorToLocal : Bool) :
    ChatServer × Bool :=
  match server.tables.rooms[roomId]? with
  | none => (server, false)
  | some room =>
      let senderSession := server.memberNamed room sender
      let targetSession := server.memberNamed room target
      let targetIsLocal := server.tables.hostIn env roomId &&
        target == env.config.localNickname
      if targetSession.isNone && !targetIsLocal then
        let error := ascii "[system] User '" ++ target ++ ascii "' is not in this room"
        let server := server.deliverTextTo senderSession error
        (if mirrorToLocal then server.onHost (·.pushMessage error) else server, false)
      else
        let (reading, server) := server.nextReading
        let line := ascii "[PRIVATE " ++ env.timestamp reading ++ ascii "] " ++ sender ++
          ascii " -> " ++ target ++ ascii ": " ++ message
        let server := if targetIsLocal || mirrorToLocal then server.onHost (·.pushMessage line)
          else server
        let server := server.deliverTextTo targetSession line
        (if sender ≠ target then server.deliverTextTo senderSession line else server, true)

/-- The room of the first session with the nickname, when there is no host room. -/
def roomOfNickname (nick : Bytes) : RoomId :=
  if server.tables.localRoomId ≠ 0 then server.tables.localRoomId
  else
    match server.tables.sessionNamed nick with
    | some s => (server.tables.session s).activeRoomId
    | none => 0

def sendPrivate (sender target message : Bytes) (mirrorToLocal : Bool) : ChatServer × Bool :=
  server.sendPrivateInRoom env sender target message (server.roomOfNickname sender) mirrorToLocal

def sendPrivateFrom (s : SessionId) (target message : Bytes) : ChatServer × Bool :=
  server.sendPrivateInRoom env (server.tables.session s).nickname target message
    (server.tables.session s).activeRoomId false

end Private

section Moderation

/-- `kick_user_in_room` with a room id. -/
def kickUserInRoom (roomId : RoomId) (nick reason : Bytes) : ChatServer × Bool :=
  match server.tables.rooms[roomId]? with
  | none => (server, false)
  | some room =>
      match room.members.toList.find? fun s => (server.tables.session s).nickname == nick with
      | none => (server, false)
      | some target =>
          let server := server.deliver target (.kick nick reason)
          let server := server.close target
          let server := server.disconnect env target false
          let server := server.broadcastRoom env roomId
            (ascii "[system] " ++ nick ++ ascii " was kicked" ++
              (if reason.isEmpty then [] else ascii ": " ++ reason)) []
          (server.broadcastUsers env roomId, true)

def kickUser (nick reason : Bytes) : ChatServer × Bool :=
  let roomId := server.roomOfNickname nick
  if roomId ≠ 0 then server.kickUserInRoom env roomId nick reason else (server, false)

/-- `kick_user_in_room` with a room name. -/
def kickUserInRoomNamed (roomName nick reason : Bytes) : ChatServer × Option Bytes :=
  match server.tables.findRoomByName roomName with
  | none => (server, some (noSuchRoom roomName))
  | some (id, _) =>
      let (server, kicked) := server.kickUserInRoom env id nick reason
      if !kicked then
        (server, some (ascii "User '" ++ nick ++ ascii "' is not in #" ++ roomName))
      else (server, none)

def kickFrom (requester : SessionId) (nick reason : Bytes) : ChatServer × Option Bytes :=
  let roomId := (server.tables.session requester).activeRoomId
  let nickname := (server.tables.session requester).nickname
  let notOwner := some (ascii "Only this room's creator can kick members")
  match server.tables.rooms[roomId]? with
  | none => (server, notOwner)
  | some room =>
      if room.ownerNickname ≠ nickname then (server, notOwner)
      else if nick = nickname then (server, some (ascii "You cannot kick yourself"))
      else
        let (server, kicked) := server.kickUserInRoom env roomId nick reason
        if !kicked then
          (server, some (ascii "User '" ++ nick ++ ascii "' is not in this room"))
        else (server, none)

def saveBans : ChatServer :=
  if env.config.bansFile.isEmpty then server
  else server.note (.saveBans env.config.bansFile server.tables.bannedNicks.toList)

def banUser (nick reason : Bytes) : ChatServer :=
  let server := server.onTables fun tables =>
    { tables with bannedNicks := tables.bannedNicks.insert nick }
  let server := if env.config.hasStorage then
      let (reading, server) := server.nextReading
      server.store (.storeBan
        { nickname := nick, reason, createdAt := env.currentUnixSeconds reading,
          expiresAt := none })
    else server.saveBans env
  match server.tables.sessionNamed nick with
  | none => server
  | some target =>
      let roomId := (server.tables.session target).activeRoomId
      let server := server.deliver target
        (.kick nick (if reason.isEmpty then ascii "banned" else reason))
      let server := server.close target
      let server := server.disconnect env target false
      let server := server.broadcastRoom env roomId
        (ascii "[system] " ++ nick ++ ascii " has been banned") []
      server.broadcastUsers env roomId

def unbanUser (nick : Bytes) : ChatServer × Bool :=
  let removed := server.tables.bannedNicks.contains nick
  let server := server.onTables fun tables =>
    { tables with bannedNicks := tables.bannedNicks.erase nick }
  let server := if removed then
      if env.config.hasStorage then server.store (.removeBan nick) else server.saveBans env
    else server
  (server, removed)

end Moderation

section Identities

def saveIdentities : ChatServer :=
  if env.config.identitiesFile.isEmpty then server
  else server.note
    (.saveIdentities env.config.identitiesFile server.tables.identities.toList)

def bindIdentity (nick publicKeyHex : Bytes) : ChatServer × Bool :=
  match server.tables.identities[nick]? with
  | some key => (server, key == publicKeyHex)
  | none =>
      let server := server.onTables fun tables =>
        { tables with identities := tables.identities.insert nick publicKeyHex }
      let server := if env.config.hasStorage then
          server.store (.storeIdentity nick publicKeyHex)
        else server.saveIdentities env
      (server, true)

def registerLocalIdentity (nick publicKeyHex : Bytes) : ChatServer × Bool :=
  match server.tables.identityAvailableFor nick publicKeyHex with
  | some _ => (server, false)
  | none => server.bindIdentity env nick publicKeyHex

end Identities

section Startup

/-- The rooms of the database, each with its newest messages, oldest first. -/
def loadRooms (stored : StoredState) : RoomMap × RoomId :=
  stored.rooms.foldl
    (fun (rooms, nextRoomId) room =>
      let recentMessages := (stored.history room.id env.historyLimit).reverse.map (·.body)
      (rooms.insertIfNew room.id
        { id := room.id, name := room.name, topic := room.topic,
          ownerNickname := room.ownerNickname, recentMessages },
       max nextRoomId (room.id + 1)))
    (∅, DEFAULT_ROOM_ID + 1)

/-- `load_persistent_state`, with the text files in the place of the database
where there is none. -/
def start (stored : StoredState) : ChatServer :=
  let (rooms, nextRoomId) := if env.config.hasStorage then loadRooms env stored
    else (∅, DEFAULT_ROOM_ID + 1)
  let server : ChatServer :=
    { tables :=
        { rooms
          nextRoomId
          identities := stored.identities.foldl (fun identities (nickname, key) =>
            identities.insert nickname key) ∅
          bannedNicks := stored.bans.foldl (fun bans nickname => bans.insert nickname) ∅ } }
  match rooms[DEFAULT_ROOM_ID]? with
  | some _ => server
  | none =>
      let lobby : Room :=
        { id := DEFAULT_ROOM_ID
          name := ascii "lobby"
          topic := ascii "Welcome to the lobby"
          ownerNickname := env.config.localNickname }
      (server.onTables fun tables =>
        { tables with rooms := tables.rooms.insert DEFAULT_ROOM_ID lobby }).persistRoom env
          DEFAULT_ROOM_ID

end Startup

end ChatServer

end Chatbox.Chat
