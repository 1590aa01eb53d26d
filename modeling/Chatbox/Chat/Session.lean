import Chatbox.Chat.Server
import Chatbox.Lib.Run

/-!
The handlers of `ClientSession` and the steps of the whole server. A step is one
handler run by the executor or one call by the host or the console; frames of
different sessions and calls come in any order.
-/

namespace Chatbox.Chat

open Text Protocol Storage

namespace ChatServer

variable (env : Env) (server : ChatServer) (s : SessionId)

section ReadLoop

/-- The handler returns without another `read_loop`. -/
def stopReading : ChatServer :=
  server.updateSession s fun session => { session with readLoop := .stopped }

/-- A last message, `close`, `disconnect` and no further reading. -/
def reject (message : ServerMessage) : ChatServer :=
  let server := server.deliver s message
  let server := server.close s
  let server := server.disconnect env s false
  server.stopReading s

/-- `if (!operation(error)) deliver(ServerError{ error })` -/
def reportError (s : SessionId) (result : ChatServer × Option Bytes) : ChatServer :=
  match result.2 with
  | some error => result.1.deliver s (.serverError error)
  | none => result.1

def consumeMessageQuota : Bool × ChatServer :=
  let (reading, server) := server.nextReading
  let now := env.steadyNow reading
  let window := RATE_LIMIT_WINDOW_SECONDS * 1000000000
  let roomId := (server.tables.session s).activeRoomId
  let recent := (server.tables.session s).recentMessagesByRoom roomId
  let recent := recent.dropWhile fun front => now - front > window
  let accepted := recent.length < RATE_LIMIT_MESSAGES
  let recent := if accepted then recent ++ [now] else recent
  (accepted, server.updateSession s fun session =>
    { session with
      recentMessagesByRoom := Function.update session.recentMessagesByRoom roomId recent })

def slowDown : Bytes :=
  ascii "[system] Slow down - message rate limit is " ++ toDecimal RATE_LIMIT_MESSAGES ++
    ascii " per minute"

def onHello (version : UInt32) : ChatServer :=
  if (server.tables.session s).protocolNegotiated then
    server.deliver s (.serverError (ascii "Protocol handshake already completed"))
  else
    let server := server.updateSession s fun session =>
      { session with protocolNegotiated := version == VERSION }
    server.deliver s (if env.hasPassword then .authRequired else .authAccepted)

def onAuthenticate (password : Bytes) : ChatServer :=
  if env.checkPassword password then
    (server.updateSession s fun session => { session with authenticated := true }).deliver s
      .authAccepted
  else server.reject env s .authRejected

def onIdentify (nick publicKeyHex : Bytes) : ChatServer :=
  if !(server.tables.session s).nickname.isEmpty then
    server.deliver s (.joinRejected (ascii "Already joined"))
  else
    match server.tables.identityAvailableFor nick publicKeyHex with
    | some identityError => server.reject env s (.joinRejected identityError)
    | none =>
        if server.tables.isBanned nick then server.reject env s .banned
        else if server.tables.nicknameTaken env nick then server.reject env s .nicknameTaken
        else
          let (reading, server) := server.nextReading
          let challenge := env.randomHex reading IDENTITY_CHALLENGE_BYTES
          let server := server.updateSession s fun session =>
            { session with
              pendingNickname := nick
              pendingPublicKeyHex := publicKeyHex
              pendingChallenge := challenge }
          server.deliver s (.challenge challenge)

/-- `set_nickname` and the clearing of the pending identity. -/
def takeNickname (nick : Bytes) : ChatServer :=
  server.updateSession s fun session =>
    { session with
      nickname := nick
      pendingNickname := []
      pendingPublicKeyHex := []
      pendingChallenge := [] }

/-- The end of the PROOF branch: the proven nickname becomes the session's. -/
def acceptProof (nick publicKeyHex challenge : Bytes) : ChatServer :=
  let server := server.takeNickname s nick
  let server := server.note (.admitted s nick publicKeyHex challenge)
  let server := server.deliver s (.identityAccepted (identityFingerprint publicKeyHex))
  let server := server.deliver s .joinAccepted
  server.moveSessionToRoom env s DEFAULT_ROOM_ID false

def onProof (signatureHex : Bytes) : ChatServer :=
  let session := server.tables.session s
  if !session.nickname.isEmpty then
    server.deliver s (.joinRejected (ascii "Already joined"))
  else if session.pendingNickname.isEmpty || session.pendingPublicKeyHex.isEmpty ||
      session.pendingChallenge.isEmpty then
    server.reject env s (.joinRejected (ascii "Identify before sending proof"))
  else if !env.verifyIdentitySignature session.pendingPublicKeyHex session.pendingChallenge
      signatureHex then
    server.reject env s (.joinRejected (ascii "Identity proof failed"))
  else if server.tables.isBanned session.pendingNickname then server.reject env s .banned
  else if server.tables.nicknameTaken env session.pendingNickname then
    server.reject env s .nicknameTaken
  else
    let (server, bound) :=
      server.bindIdentity env session.pendingNickname session.pendingPublicKeyHex
    if !bound then
      server.reject env s (.joinRejected (ascii "Identity registration failed"))
    else
      server.acceptProof env s session.pendingNickname session.pendingPublicKeyHex
        session.pendingChallenge

def onLeave : ChatServer :=
  if (server.tables.session s).nickname.isEmpty then
    server.deliverText s (ascii "[system] Ignored leave request before joining")
  else
    reportError s (server.leaveRoom env s)

def onDisconnect : ChatServer :=
  let server := server.disconnect env s true
  let server := server.close s
  server.stopReading s

def onListRooms : ChatServer :=
  if (server.tables.session s).nickname.isEmpty then
    server.deliver s (.serverError (ascii "Join before listing rooms"))
  else server.sendRoomList env s

def onCreateRoom (name : Bytes) : ChatServer :=
  if (server.tables.session s).nickname.isEmpty then
    server.deliver s (.serverError (ascii "Join before creating rooms"))
  else
    reportError s (server.createRoom env s name)

def onJoinRoom (name : Bytes) : ChatServer :=
  if (server.tables.session s).nickname.isEmpty then
    server.deliver s (.serverError (ascii "Join before switching rooms"))
  else
    reportError s (server.joinRoom env s name)

def onTopicRequest (topic : Option Bytes) : ChatServer :=
  if (server.tables.session s).nickname.isEmpty then
    server.deliver s (.serverError (ascii "Join before viewing a topic"))
  else
    match topic with
    | none => server.sendTopic s
    | some topic => reportError s (server.setTopic env s topic)

def onChat (body : Bytes) : ChatServer :=
  if (server.tables.session s).nickname.isEmpty then
    server.deliverText s (ascii "[system] Join before sending messages")
  else
    let (accepted, server) := server.consumeMessageQuota env s
    if !accepted then server.deliverText s slowDown
    else if !isValidText body MAX_CHAT_LENGTH then
      server.deliverText s (ascii "[system] Invalid message text")
    else
      let (reading, server) := server.nextReading
      let nickname := (server.tables.session s).nickname
      server.broadcastRoom env (server.tables.session s).activeRoomId
        (ascii "[" ++ env.timestamp reading ++ ascii "] " ++ nickname ++ ascii ": " ++ body)
        nickname

def onWhisper (target body : Bytes) : ChatServer :=
  if (server.tables.session s).nickname.isEmpty then
    server.deliverText s (ascii "[system] Join before sending messages")
  else
    let (accepted, server) := server.consumeMessageQuota env s
    if !accepted then server.deliverText s slowDown
    else if !isValidNickname target || !isValidText body MAX_CHAT_LENGTH then
      server.deliverText s (ascii "[system] Invalid whisper target or message")
    else (server.sendPrivateFrom env s target body).1

theorem onChat_cases (body : Bytes) :
    server.onChat env s body =
      server.deliverText s (ascii "[system] Join before sending messages") ∨
    server.onChat env s body = (server.consumeMessageQuota env s).2.deliverText s slowDown ∨
    server.onChat env s body = (server.consumeMessageQuota env s).2.deliverText s
      (ascii "[system] Invalid message text") ∨
    isValidText body MAX_CHAT_LENGTH = true ∧ ∃ session reading,
      (server.consumeMessageQuota env s).2.tables.session s = session ∧
      server.onChat env s body = (server.consumeMessageQuota env s).2.nextReading.2.broadcastRoom
        env session.activeRoomId (ascii "[" ++ env.timestamp reading ++ ascii "] " ++
          session.nickname ++ ascii ": " ++ body) session.nickname := by
  unfold onChat
  split
  · exact .inl rfl
  · simp only
    split
    · exact .inr (.inl rfl)
    · split
      · exact .inr (.inr (.inl rfl))
      · next valid => exact .inr (.inr (.inr ⟨by simpa using valid, _, _, rfl, rfl⟩))

theorem onWhisper_cases (target body : Bytes) :
    server.onWhisper env s target body =
      server.deliverText s (ascii "[system] Join before sending messages") ∨
    server.onWhisper env s target body =
      (server.consumeMessageQuota env s).2.deliverText s slowDown ∨
    server.onWhisper env s target body = (server.consumeMessageQuota env s).2.deliverText s
      (ascii "[system] Invalid whisper target or message") ∨
    (isValidNickname target = true ∧ isValidText body MAX_CHAT_LENGTH = true) ∧
      server.onWhisper env s target body =
        ((server.consumeMessageQuota env s).2.sendPrivateFrom env s target body).1 := by
  unfold onWhisper
  split
  · exact .inl rfl
  · simp only
    split
    · exact .inr (.inl rfl)
    · split
      · exact .inr (.inr (.inl rfl))
      · next valid => exact .inr (.inr (.inr ⟨by simpa using valid, rfl⟩))

def onKickRequest (nickname reason : Bytes) : ChatServer :=
  if (server.tables.session s).nickname.isEmpty then
    server.deliver s (.serverError (ascii "Join before moderating a room"))
  else
    reportError s (server.kickFrom env s nickname reason)

/-- The branches behind the handshake, the password and the gates. -/
def onAdmittedMessage : ClientMessage → ChatServer
  | .identify nick publicKeyHex => server.onIdentify env s nick publicKeyHex
  | .identityProof signatureHex => server.onProof env s signatureHex
  | .leave => server.onLeave env s
  | .disconnect => server.onDisconnect env s
  | .listRooms => server.onListRooms env s
  | .createRoom name => server.onCreateRoom env s name
  | .joinRoom name => server.onJoinRoom env s name
  | .topicRequest topic => server.onTopicRequest env s topic
  | .chat body => server.onChat env s body
  | .whisper target body => server.onWhisper env s target body
  | .kickRequest nickname reason => server.onKickRequest env s nickname reason
  | _ => server.deliverText s
      (ascii "[system] Ignored message in the current session state")

def onMessage (message : ClientMessage) : ChatServer :=
  let server := server.note (.received s message)
  match message with
  | .hello version => server.onHello env s version
  | message =>
      if !(server.tables.session s).protocolNegotiated then
        server.reject env s (.serverError (ascii "Protocol handshake required"))
      else
        match message with
        | .authenticate password => server.onAuthenticate env s password
        | message =>
            if env.hasPassword && !(server.tables.session s).authenticated then
              server.deliver s .authRequired
            else server.onAdmittedMessage env s message

def invalidFrame (e : Failure) : ServerMessage :=
  .serverError (ascii "Invalid client frame: " ++ e.detail)

/-- The completion handler of `async_read_until`, with a line. -/
def onLine (line : Bytes) : ChatServer :=
  match decodeClientFrame line with
  | .ok message => server.onMessage env s message
  | .error e =>
      if e.error = .unsupportedVersion then server.reject env s (invalidFrame e)
      else server.deliver s (invalidFrame e)

end ReadLoop

/-- `accept_loop` with a new session: `join` and `start`. -/
def accept : ChatServer :=
  (server.onTables fun tables => { tables with sessions := tables.sessions.insert s }).updateSession
    s fun session => { session with readLoop := .handshake }

def onHandshake (ok : Bool) : ChatServer :=
  if !ok then
    let server := server.disconnect env s false
    (server.onOutput fun output =>
      output.updateWire s fun wire => { wire with streamOpen := false }).stopReading s
  else
    (server.deliver s (.hello VERSION)).updateSession s fun session =>
      { session with readLoop := .reading }

def onReadError : ChatServer :=
  (server.disconnect env s !(server.output.wire s).suppressLeaveNotice).stopReading s

end ChatServer

/-- Everything that can happen at a server before `stop`. -/
inductive Event where
  | accept (s : SessionId)
  | handshake (s : SessionId) (ok : Bool)
  | line (s : SessionId) (line : Bytes)
  | readError (s : SessionId)
  | posted (s : SessionId)
  | writeDone (s : SessionId) (ok : Bool)
  | registerLocalIdentity (nick publicKeyHex : Bytes)
  | startLocalUser
  | broadcast (msg : Bytes)
  | broadcastServer (msg : Bytes)
  | sendPrivate (sender target message : Bytes) (mirrorToLocal : Bool)
  | createLocalRoom (name : Bytes)
  | joinLocalRoom (name : Bytes)
  | leaveLocalRoom
  | setLocalTopic (topic : Bytes)
  | showRoomListLocal
  | kickUser (nick reason : Bytes)
  | banUser (nick reason : Bytes)
  | unbanUser (nick : Bytes)
  | createAdminRoom (name : Bytes)
  | setAdminTopic (roomName topic : Bytes)
  | kickUserInRoom (roomName nick reason : Bytes)
deriving DecidableEq, Repr

/-- One step, nothing when the event cannot happen: a session is accepted once,
its handlers run while it waits for them, and the host enters the lobby once, when
it starts. A line may come after `close`, for the stream stays open until the queue
is written and lines may be in the buffer. -/
def step (env : Env) (server : ChatServer) : Event → Option ChatServer
  | .accept s =>
      if (server.tables.session s).readLoop = .absent then some (server.accept s) else none
  | .handshake s ok =>
      if (server.tables.session s).readLoop = .handshake then some (server.onHandshake env s ok)
      else none
  | .line s line =>
      if (server.tables.session s).readLoop = .reading then some (server.onLine env s line)
      else none
  | .readError s =>
      if (server.tables.session s).readLoop = .reading then some (server.onReadError env s)
      else none
  | .posted s =>
      match (server.output.wire s).posted with
      | [] => none
      | handler :: rest =>
          some (server.onOutput fun output => output.updateWire s fun wire =>
            { wire with posted := rest }.runPosted handler)
  | .writeDone s ok =>
      if (server.output.wire s).outstanding then
        some (server.onOutput fun output => output.updateWire s fun wire => wire.writeDone ok)
      else none
  | .registerLocalIdentity nick publicKeyHex =>
      some (server.registerLocalIdentity env nick publicKeyHex).1
  | .startLocalUser =>
      if server.tables.localRoomId = 0 then some (server.startLocalUser env) else none
  | .broadcast msg => some (server.broadcast env msg)
  | .broadcastServer msg => some (server.broadcastServer env msg)
  | .sendPrivate sender target message mirrorToLocal =>
      some (server.sendPrivate env sender target message mirrorToLocal).1
  | .createLocalRoom name => some (server.createLocalRoom env name).1
  | .joinLocalRoom name => some (server.joinLocalRoom env name).1
  | .leaveLocalRoom => some (server.leaveLocalRoom env).1
  | .setLocalTopic topic => some (server.setLocalTopic env topic).1
  | .showRoomListLocal => some (server.showRoomListLocal env)
  | .kickUser nick reason => some (server.kickUser env nick reason).1
  | .banUser nick reason => some (server.banUser env nick reason)
  | .unbanUser nick => some (server.unbanUser env nick).1
  | .createAdminRoom name => some (server.createAdminRoom env name).1
  | .setAdminTopic roomName topic => some (server.setAdminTopic env roomName topic).1
  | .kickUserInRoom roomName nick reason =>
      some (server.kickUserInRoomNamed env roomName nick reason).1

/-- The states a server can be in after starting from the stored state. -/
def Reachable (env : Env) (stored : StoredState) (server : ChatServer) : Prop :=
  ∃ events, Run.run (step env) (ChatServer.start env stored) events = some server

section Visit

/-- A server without a password, a host and a database; its signature check
accepts everything. -/
def Env.plain : Env where
  config := {}
  randomBytes reading bytes := List.replicate bytes (UInt8.ofNat reading)
  randomBytes_length _ _ := List.length_replicate
  steadyNow reading := reading
  systemNow reading := reading
  localTime _ := (12, 30, 0)
  verifyDetached _ _ _ := true

def emptyStore : StoredState where
  rooms := []
  history _ _ := []
  identities := []
  bans := []
  rowIds := by simp

def clientFrame (message : ClientMessage) : Bytes :=
  match encodeClientFrame message with
  | .ok frame => frame
  | .error _ => []

/-- A client connects, proves a key and is admitted under the nickname. -/
def visit (s : SessionId) (nick : Bytes) : List Event :=
  [.accept s, .handshake s true, .line s (clientFrame (.hello VERSION)),
    .line s (clientFrame (.identify nick (List.replicate 64 48))),
    .line s (clientFrame (.identityProof (List.replicate 128 48)))]

def serverAfter (events : List Event) : Option ChatServer :=
  Run.run (step .plain) (ChatServer.start .plain emptyStore) events

theorem exists_serverAfter (events : List Event) (p : ChatServer → Prop) [DecidablePred p]
    (h : (serverAfter events).any (fun server => p server) = true) :
    ∃ server, serverAfter events = some server ∧ Reachable .plain emptyStore server ∧
      p server := by
  cases hrun : serverAfter events with
  | none =>
      rw [hrun] at h
      cases h
  | some server =>
      rw [hrun] at h
      exact ⟨server, rfl, ⟨events, hrun⟩, by simpa using h⟩

end Visit

end Chatbox.Chat
