import Chatbox.App.State
import Chatbox.Protocol.Client
import Chatbox.Protocol.Server

/-!
The reading half of `ChatClient`, and the part of the screen that shows where the
client is: what a message does to it depends on nothing else of the client.
-/

namespace Chatbox.Chat

open Text Protocol

/-- `identity` answers a challenge with the client's key, when one is loaded. -/
structure ChatClient where
  authRequired : Bool := false
  authResolved : Bool := false
  authOk : Bool := false
  joinResolved : Bool := false
  kicked : Bool := false
  banned : Bool := false
  nicknameTaken : Bool := false
  joinFailed : Bool := false
  connected : Bool := true
  closing : Bool := false
  protocolNegotiated : Bool := false
  roomListRequested : Bool := false
  identity : Option (Bytes → Bytes) := none
  kickReason : Bytes := []
  joinFailureReason : Bytes := []
  app : App.AppState := {}
  sent : List Bytes := []
  /-- `read_loop` has armed the next read. -/
  reading : Bool := true

namespace ChatClient

variable (client : ChatClient)

def pushMessage (msg : Bytes) : ChatClient := { client with app := client.app.pushMessage msg }

def send (message : ClientMessage) : ChatClient :=
  if !client.connected || client.closing then client
  else
    match encodeClientFrame message with
    | .error e => client.pushMessage (ascii "[system] Could not encode message: " ++ e.detail)
    | .ok wire => { client with sent := client.sent ++ [wire] }

def failJoin (reason : Bytes) : ChatClient :=
  { client with joinFailed := true, joinFailureReason := reason, joinResolved := true }

def showRooms (rooms : List RoomSummary) : ChatClient :=
  let current := client.app.activeRoomId
  rooms.foldl (fun client room => client.pushMessage
      (ascii "[system]   " ++ (if room.id = current then ascii "* " else ascii "- ") ++
        room.name ++ ascii " (" ++ toDecimal room.userCount.toNat ++ ascii ")"))
    (client.pushMessage (ascii "[system] Available rooms:"))

/-- The branches of `read_loop` behind the protocol handshake. -/
def onNegotiated : ServerMessage → ChatClient
  | .hello version => { client with protocolNegotiated := version == VERSION }
  | .authRequired => { client with authRequired := true }
  | .authAccepted => { client with authOk := true, authResolved := true }
  | .authRejected =>
      { client with authOk := false, authResolved := true }.pushMessage
        (ascii "[system] Wrong password - disconnected")
  | .joinAccepted => { client with joinResolved := true }
  | .challenge challengeHex =>
      match client.identity with
      | some sign => client.send (.identityProof (sign challengeHex))
      | none => client.failJoin (ascii "Identity challenge could not be answered")
  | .identityAccepted fingerprint =>
      client.pushMessage (ascii "[system] Identity verified: " ++ fingerprint)
  | .banned =>
      { client with banned := true, joinResolved := true }.pushMessage
        (ascii "[system] You are banned from this server")
  | .nicknameTaken =>
      { client with nicknameTaken := true, joinResolved := true }.pushMessage
        (ascii "[system] Nickname is already in use")
  | .joinRejected reason =>
      (client.failJoin reason).pushMessage (ascii "[system] Join failed: " ++ reason)
  | .kick _ reason =>
      let client := { client with kicked := true, kickReason := reason }.pushMessage
        (ascii "[system] You have been kicked" ++
          (if reason.isEmpty then [] else ascii ": " ++ reason))
      { client with app := client.app.markKicked }
  | .userList roomId nicknames =>
      { client with app := client.app.updateRoomUsers roomId nicknames }
  | .roomList rooms =>
      let client := { client with app := client.app.updateRoomList rooms }
      if client.roomListRequested then { client with roomListRequested := false }.showRooms rooms
      else client
  | .roomJoined id name topic =>
      { client with app := client.app.activateRoom id name topic }.pushMessage
        (ascii "[system] Entered #" ++ name ++ (if topic.isEmpty then [] else ascii " - " ++ topic))
  | .roomTopic roomId topic =>
      let client := { client with app := client.app.updateRoomTopic roomId topic }
      if roomId = client.app.activeRoomId then
        client.pushMessage
          (ascii "[system] Topic: " ++ (if topic.isEmpty then ascii "(none)" else topic))
      else client
  | .roomText roomId body =>
      if roomId = client.app.activeRoomId then client.pushMessage body else client
  | .text body => client.pushMessage body
  | .serverError reason => client.pushMessage (ascii "[system] " ++ reason)

/-- A message before the server's HELLO ends the connection. -/
def onUnnegotiated : ChatClient :=
  let reason := ascii "Server did not complete the protocol handshake"
  let client := { client with authOk := false, authResolved := true }.failJoin reason
  let client := client.pushMessage (ascii "[system] " ++ reason)
  { client with closing := true, reading := false }

/-- One round of `read_loop` with a decoded message. -/
def receive (message : ServerMessage) : ChatClient :=
  if !client.reading then client
  else
    match message with
    | .hello version => client.onNegotiated (.hello version)
    | message =>
        if !client.protocolNegotiated then client.onUnnegotiated else client.onNegotiated message

def receiveAll (messages : List ServerMessage) : ChatClient := messages.foldl receive client

/-- One round of `read_loop` with a line. -/
def receiveLine (line : Bytes) : ChatClient :=
  if !client.reading then client
  else
    match decodeServerFrame line with
    | .ok message => client.receive message
    | .error e =>
        let client := client.pushMessage (ascii "[system] Ignored invalid server frame: " ++ e.detail)
        if e.error = .unsupportedVersion then
          let client := { client with authOk := false, authResolved := true }.failJoin e.detail
          { client with closing := true, reading := false }
        else client

/-- The end of `finish_connect`, with a connection. -/
def finishConnect : ChatClient := { client with connected := true }.send (.hello VERSION)

end ChatClient

/-- What a client shows of its place: the room, who is there and which rooms exist. -/
@[ext]
structure Screen where
  roomId : RoomId
  name : Bytes
  topic : Bytes
  users : List Bytes
  rooms : List RoomSummary

namespace Screen

variable (screen : Screen)

/-- What a message changes of the screen. -/
def update : ServerMessage → Screen
  | .userList roomId users => if roomId = screen.roomId then { screen with users } else screen
  | .roomList rooms => { screen with rooms }
  | .roomJoined roomId name topic => { screen with roomId, name, topic, users := [] }
  | .roomTopic roomId topic => if roomId = screen.roomId then { screen with topic } else screen
  | _ => screen

end Screen

namespace ChatClient

variable {client : ChatClient}

def screen (client : ChatClient) : Screen where
  roomId := client.app.activeRoomId
  name := client.app.activeRoomName
  topic := client.app.activeRoomTopic
  users := client.app.users
  rooms := client.app.rooms

/-- The handshake is done and the client reads on. -/
structure Ready (client : ChatClient) : Prop where
  negotiated : client.protocolNegotiated = true
  reading : client.reading = true

/-- From the one client to the other the screen changes in the given way, and nothing
else that the reading depends on. -/
structure Updates (update : Screen → Screen) (a b : ChatClient) : Prop where
  screen : b.screen = update a.screen
  negotiated : b.protocolNegotiated = a.protocolNegotiated
  reading : b.reading = a.reading

namespace Updates

variable {update : Screen → Screen} {a b c : ChatClient}

theorem then_same (hab : Updates update a b) (hbc : Updates id b c) : Updates update a c :=
  ⟨hbc.screen.trans hab.screen, hbc.negotiated.trans hab.negotiated,
    hbc.reading.trans hab.reading⟩

theorem ready (h : Updates update a b) (ha : a.Ready) : b.Ready :=
  ⟨h.negotiated.trans ha.negotiated, h.reading.trans ha.reading⟩

theorem ite {p : Prop} [Decidable p] (hb : Updates update a b) (hc : Updates update a c) :
    Updates update a (if p then b else c) := by
  split
  · exact hb
  · exact hc

end Updates

theorem pushMessage_updates (msg : Bytes) : Updates id client (client.pushMessage msg) :=
  ⟨rfl, rfl, rfl⟩

theorem send_updates (message : ClientMessage) : Updates id client (client.send message) := by
  unfold send
  refine .ite ⟨rfl, rfl, rfl⟩ ?_
  cases encodeClientFrame message with
  | error e => exact pushMessage_updates _
  | ok wire => exact ⟨rfl, rfl, rfl⟩

/-- Showing the rooms is showing one message after another. -/
theorem showRooms_related {R : ChatClient → ChatClient → Prop} (refl : ∀ a, R a a)
    (trans : ∀ a b c, R a b → R b c → R a c) (shows : ∀ a msg, R a (a.pushMessage msg))
    (client : ChatClient) (rooms : List RoomSummary) : R client (client.showRooms rooms) := by
  have lines (line : RoomSummary → Bytes) (shown : ChatClient) : R shown
      (rooms.foldl (fun client room => client.pushMessage (line room)) shown) := by
    induction rooms generalizing shown with
    | nil => exact refl shown
    | cons room rooms ih => exact trans _ _ _ (shows shown (line room)) (ih _)
  exact trans _ _ _ (shows client _) (lines _ _)

theorem showRooms_updates (rooms : List RoomSummary) :
    Updates id client (client.showRooms rooms) :=
  showRooms_related (fun _ => ⟨rfl, rfl, rfl⟩) (fun _ _ _ hab hbc => hab.then_same hbc)
    (fun _ msg => pushMessage_updates msg) client rooms

theorem onNegotiated_updates {message : ServerMessage}
    (h : ∀ version, message ≠ .hello version) :
    Updates (fun screen => screen.update message) client (client.onNegotiated message) := by
  cases message with
  | hello version => exact absurd rfl (h version)
  | challenge challengeHex =>
      simp only [onNegotiated]
      split
      · exact send_updates _
      · exact ⟨rfl, rfl, rfl⟩
  | userList roomId nicknames =>
      refine ⟨?_, rfl, rfl⟩
      by_cases here : roomId = client.app.activeRoomId
      · simp [screen, onNegotiated, Screen.update, App.AppState.updateRoomUsers, here]
      · simp [screen, onNegotiated, Screen.update, App.AppState.updateRoomUsers, here]
  | roomList rooms =>
      have listed : Updates (fun screen => screen.update (.roomList rooms)) client
          { client with app := client.app.updateRoomList rooms } := ⟨rfl, rfl, rfl⟩
      refine .ite ?_ listed
      refine Updates.then_same ?_ (showRooms_updates rooms)
      exact ⟨listed.screen, listed.negotiated, listed.reading⟩
  | roomTopic roomId topic =>
      have changed : Updates (fun screen => screen.update (.roomTopic roomId topic)) client
          { client with app := client.app.updateRoomTopic roomId topic } := by
        refine ⟨?_, rfl, rfl⟩
        by_cases here : roomId = client.app.activeRoomId
        · simp [screen, Screen.update, App.AppState.updateRoomTopic, here]
        · simp [screen, Screen.update, App.AppState.updateRoomTopic, here, Ne.symm here]
      exact .ite (changed.then_same (pushMessage_updates _)) changed
  | roomText roomId body => exact .ite (pushMessage_updates _) ⟨rfl, rfl, rfl⟩
  | _ => exact ⟨rfl, rfl, rfl⟩

/-- A client that is ready shows what the message says, and stays ready. -/
theorem receive_updates {message : ServerMessage} (ready : client.Ready)
    (h : ∀ version, message ≠ .hello version) :
    Updates (fun screen => screen.update message) client (client.receive message) := by
  have branch : client.receive message = client.onNegotiated message := by
    cases message <;> simp [receive, ready.reading, ready.negotiated]
  rw [branch]
  exact onNegotiated_updates h

theorem receive_hello (reading : client.reading = true) :
    (client.receive (.hello VERSION)).Ready := by
  simp only [receive, reading]
  exact ⟨rfl, reading⟩

theorem receiveAll_updates {messages : List ServerMessage} (ready : client.Ready)
    (h : ∀ message ∈ messages, ∀ version, message ≠ .hello version) :
    Updates (fun screen => messages.foldl Screen.update screen) client
      (client.receiveAll messages) := by
  induction messages generalizing client with
  | nil => exact ⟨rfl, rfl, rfl⟩
  | cons message messages ih =>
      have first := receive_updates ready (h message List.mem_cons_self)
      have rest := ih (first.ready ready) fun m hm => h m (List.mem_cons_of_mem _ hm)
      refine ⟨?_, rest.negotiated.trans first.negotiated, rest.reading.trans first.reading⟩
      rw [List.foldl_cons, ← first.screen]
      exact rest.screen

end ChatClient

end Chatbox.Chat
