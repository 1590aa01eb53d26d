import Chatbox.Protocol.Message

/-!
The screen state shared by the host's and the client's user interface: the
globals of `app_state.cpp` as one record, its functions as functions on it.
-/

namespace Chatbox.App

open Text Protocol

def MAX_MESSAGES : Nat := 200

structure AppState where
  messages : List Bytes := []
  messageSequence : Nat := 0
  users : List Bytes := []
  rooms : List RoomSummary := []
  activeRoomId : RoomId := 0
  activeRoomName : Bytes := []
  activeRoomTopic : Bytes := []
  kicked : Bool := false
deriving DecidableEq, Repr

namespace AppState

def clearMessages (app : AppState) : AppState := { app with messages := [] }

def updateRoomUsers (app : AppState) (id : RoomId) (users : List Bytes) : AppState :=
  if id = app.activeRoomId then { app with users } else app

def markKicked (app : AppState) : AppState := { app with kicked := true }

def pushMessage (app : AppState) (msg : Bytes) : AppState :=
  let messages := app.messages ++ [msg]
  { app with
    messages := if messages.length > MAX_MESSAGES then messages.drop 1 else messages
    messageSequence := app.messageSequence + 1 }

def resetChatState (app : AppState) : AppState :=
  { messageSequence := app.messageSequence }

def activateRoom (app : AppState) (id : RoomId) (name topic : Bytes) : AppState :=
  { app with
    activeRoomId := id
    activeRoomName := name
    activeRoomTopic := topic
    messages := []
    users := [] }

def updateRoomTopic (app : AppState) (id : RoomId) (topic : Bytes) : AppState :=
  if app.activeRoomId = id then { app with activeRoomTopic := topic } else app

def updateRoomList (app : AppState) (rooms : List RoomSummary) : AppState :=
  { app with rooms }

end AppState

end Chatbox.App
