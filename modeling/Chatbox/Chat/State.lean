import Mathlib
import Chatbox.App.State
import Chatbox.Protocol.Server
import Chatbox.Storage.Storage
import Chatbox.Chat.Environment

/-!
The state of a server: the tables behind its mutexes together with the session
objects, and what it has sent out. Sessions are numbered in the order of their
addresses, in which `std::set` runs through them; the numbers are in no relation
to the order of arrival.
-/

namespace Chatbox.Chat

open Text Protocol Storage

abbrev SessionId := Nat
abbrev SessionSet := Std.ExtTreeSet SessionId

structure Room where
  id : RoomId
  name : Bytes
  topic : Bytes := []
  ownerNickname : Bytes := []
  recentMessages : List Bytes := []
  members : SessionSet := ∅

abbrev RoomMap := Std.ExtTreeMap RoomId Room

def DEFAULT_ROOM_ID : RoomId := 1

/-- How far a session's chain of handlers has come: not accepted yet, waiting for
the transport's handshake, waiting in `read_loop`, or no longer reading. -/
inductive ReadLoop where
  | absent
  | handshake
  | reading
  | stopped
deriving DecidableEq, Repr

structure ClientSession where
  nickname : Bytes := []
  pendingNickname : Bytes := []
  pendingPublicKeyHex : Bytes := []
  pendingChallenge : Bytes := []
  activeRoomId : RoomId := 0
  authenticated : Bool := false
  protocolNegotiated : Bool := false
  recentMessagesByRoom : RoomId → List Int := fun _ => []
  readLoop : ReadLoop := .absent

structure ServerTables where
  sessions : SessionSet := ∅
  session : SessionId → ClientSession := fun _ => {}
  rooms : RoomMap := ∅
  nextRoomId : RoomId := DEFAULT_ROOM_ID + 1
  localRoomId : RoomId := 0
  bannedNicks : Std.ExtTreeSet Bytes := ∅
  identities : Std.ExtTreeMap Bytes Bytes := ∅

/-- A handler a session has posted to its executor. -/
inductive Posted where
  | write (wire : Bytes)
  | close
  | abort
deriving DecidableEq, Repr

/-- The sending half of a session: `handed` lists every buffer given to
`async_write` so far, `outstanding` says that the last one has not completed. -/
structure SessionWire where
  posted : List Posted := []
  writeQueue : List Bytes := []
  handed : List Bytes := []
  outstanding : Bool := false
  closeAfterWrite : Bool := false
  suppressLeaveNotice : Bool := false
  streamOpen : Bool := true
deriving DecidableEq, Repr

/-- What happens at a server, in order. `enter`, `leave`, `recorded` and
`admitted` mark the moments at which a member is inserted (with the history the
room has then) or erased, a message is added to a history, and a nickname is
given to the session that proved its key. -/
inductive Effect where
  | received (s : SessionId) (message : ClientMessage)
  | deliver (s : SessionId) (message : ServerMessage)
  | close (s : SessionId)
  | enter (s : SessionId) (roomId : RoomId) (history : List Bytes)
  | leave (s : SessionId) (roomId : RoomId)
  | recorded (roomId : RoomId) (body : Bytes)
  | admitted (s : SessionId) (nickname publicKeyHex challenge : Bytes)
  | store (write : Write)
  | saveBans (path : Bytes) (nicknames : List Bytes)
  | saveIdentities (path : Bytes) (bindings : List (Bytes × Bytes))
deriving DecidableEq, Repr

structure ServerOutput where
  wire : SessionId → SessionWire := fun _ => {}
  host : App.AppState := {}
  trace : List Effect := []
  /-- The number of clock and random readings made so far. -/
  readings : Nat := 0
  /-- `last` in `next_message_timestamp` -/
  lastTimestamp : Int := 0

structure ChatServer where
  tables : ServerTables := {}
  output : ServerOutput := {}

namespace SessionWire

variable (wire : SessionWire)

def writeNext : SessionWire :=
  { wire with handed := wire.handed ++ wire.writeQueue.take 1, outstanding := true }

/-- The handlers that `deliver`, `close` and `abort` post. -/
def runPosted : Posted → SessionWire
  | .write frame =>
      let writing := !wire.writeQueue.isEmpty
      let wire := { wire with writeQueue := wire.writeQueue ++ [frame] }
      if writing then wire else wire.writeNext
  | .close =>
      let wire := { wire with suppressLeaveNotice := true }
      if !wire.writeQueue.isEmpty then { wire with closeAfterWrite := true }
      else { wire with streamOpen := false }
  | .abort => { wire with suppressLeaveNotice := true, streamOpen := false }

/-- The completion handler of `async_write`. -/
def writeDone (ok : Bool) : SessionWire :=
  let wire := { wire with outstanding := false }
  if !ok then wire
  else
    let wire := { wire with writeQueue := wire.writeQueue.drop 1 }
    if !wire.writeQueue.isEmpty then wire.writeNext
    else if wire.closeAfterWrite then { wire with streamOpen := false }
    else wire

end SessionWire

namespace ServerOutput

variable (output : ServerOutput)

def note (effect : Effect) : ServerOutput := { output with trace := output.trace ++ [effect] }

def updateWire (s : SessionId) (change : SessionWire → SessionWire) : ServerOutput :=
  { output with wire := Function.update output.wire s (change (output.wire s)) }

def post (s : SessionId) (handler : Posted) : ServerOutput :=
  output.updateWire s fun wire => { wire with posted := wire.posted ++ [handler] }

/-- `ClientSession::deliver`: a message that does not encode is dropped. -/
def deliver (s : SessionId) (message : ServerMessage) : ServerOutput :=
  let output := output.note (.deliver s message)
  match encodeServerFrame message with
  | .error _ => output
  | .ok frame => output.post s (.write frame)

def close (s : SessionId) : ServerOutput := (output.note (.close s)).post s .close

end ServerOutput

namespace ServerTables

variable (tables : ServerTables)

def updateSession (s : SessionId) (change : ClientSession → ClientSession) : ServerTables :=
  { tables with session := Function.update tables.session s (change (tables.session s)) }

def updateRoom (roomId : RoomId) (change : Room → Room) : ServerTables :=
  { tables with rooms := tables.rooms.modify roomId change }

def normalizedRoomName (name : Bytes) : Bytes := name.map toLower

/-- `find_room_by_name_locked` -/
def findRoomByName (name : Bytes) : Option (RoomId × Room) :=
  tables.rooms.toList.find? fun item =>
    normalizedRoomName item.2.name == normalizedRoomName name

def isBanned (nick : Bytes) : Bool := tables.bannedNicks.contains nick

def nicknameTaken (env : Env) (nick : Bytes) : Bool :=
  (!env.config.localNickname.isEmpty && env.config.localNickname == nick) ||
    tables.sessions.toList.any fun s => (tables.session s).nickname == nick

/-- Nothing when the nickname is available, the error text otherwise. -/
def identityAvailableFor (nick publicKeyHex : Bytes) : Option Bytes :=
  if !isValidNickname nick then some (ascii "Invalid nickname")
  else if !isHexOfLen publicKeyHex cryptoSignPublicKeyBytes then
    some (ascii "Invalid identity public key")
  else
    match tables.identities[nick]? with
    | some key =>
        if key ≠ publicKeyHex then some (ascii "Nickname belongs to a different identity key")
        else none
    | none => none

def hostIn (env : Env) (roomId : RoomId) : Bool :=
  !env.config.localNickname.isEmpty && tables.localRoomId == roomId

/-- The list `broadcast_users` sends: bytewise sorted, the host included. -/
def userNicknames (env : Env) (roomId : RoomId) (members : SessionSet) : List Bytes :=
  let nicknames := (members.toList.map fun s => (tables.session s).nickname).filter
    fun nickname => !nickname.isEmpty
  let nicknames := if tables.hostIn env roomId then nicknames ++ [env.config.localNickname]
    else nicknames
  nicknames.insertionSort (· ≤ ·)

def roomList (env : Env) : List RoomSummary :=
  tables.rooms.toList.map fun item =>
    { id := item.1
      name := item.2.name
      userCount := UInt64.ofNat
        (if tables.hostIn env item.1 then item.2.members.size + 1 else item.2.members.size) }

/-- The first session of `sessions_` with the nickname. -/
def sessionNamed (nick : Bytes) : Option SessionId :=
  tables.sessions.toList.find? fun s => (tables.session s).nickname == nick

/-- Whether `members.erase(session)` finds the session in the room. -/
def isMember (s : SessionId) (roomId : RoomId) : Bool :=
  match tables.rooms[roomId]? with
  | none => false
  | some room => room.members.contains s

def eraseMember (s : SessionId) (roomId : RoomId) : ServerTables :=
  tables.updateRoom roomId fun room => { room with members := room.members.erase s }

def insertMember (s : SessionId) (roomId : RoomId) : ServerTables :=
  tables.updateRoom roomId fun room => { room with members := room.members.insert s }

/-- The locked region of `move_session_to_room`, once the target is found. -/
def placeSession (s : SessionId) (target : RoomId) : ServerTables :=
  let oldId := (tables.session s).activeRoomId
  let tables := tables.eraseMember s oldId
  let tables := tables.insertMember s target
  tables.updateSession s fun session => { session with activeRoomId := target }

end ServerTables

namespace ChatServer

variable (server : ChatServer)

def onTables (change : ServerTables → ServerTables) : ChatServer :=
  { server with tables := change server.tables }

def onOutput (change : ServerOutput → ServerOutput) : ChatServer :=
  { server with output := change server.output }

def note (effect : Effect) : ChatServer := server.onOutput fun output => output.note effect

def deliver (s : SessionId) (message : ServerMessage) : ChatServer :=
  server.onOutput fun output => output.deliver s message

def deliverText (s : SessionId) (text : Bytes) : ChatServer := server.deliver s (.text text)

/-- `for (auto& member : members) member->deliver(message)` -/
def deliverAll (members : List SessionId) (message : ServerMessage) : ChatServer :=
  members.foldl (fun server s => server.deliver s message) server

def close (s : SessionId) : ChatServer := server.onOutput fun output => output.close s

/-- A call into the host's `app_state`. -/
def onHost (change : App.AppState → App.AppState) : ChatServer :=
  server.onOutput fun output => { output with host := change output.host }

def store (write : Write) : ChatServer := server.note (.store write)

/-- The number of the next clock or random reading. -/
def nextReading : Nat × ChatServer :=
  (server.output.readings,
    server.onOutput fun output => { output with readings := output.readings + 1 })

def updateSession (s : SessionId) (change : ClientSession → ClientSession) : ChatServer :=
  server.onTables fun tables => tables.updateSession s change

end ChatServer

end Chatbox.Chat
