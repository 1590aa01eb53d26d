import Chatbox.Protocol.Message

/-!
The records the server keeps in its database and the writes it hands to it.
-/

namespace Chatbox.Storage

open Text Protocol

structure StoredRoom where
  id : RoomId
  name : Bytes
  topic : Bytes
  ownerNickname : Bytes
  createdAt : Int
deriving DecidableEq, Repr

structure StoredBan where
  nickname : Bytes
  reason : Bytes
  createdAt : Int
  expiresAt : Option Int
deriving DecidableEq, Repr

structure StoredMessage where
  id : Bytes
  roomId : RoomId
  nickname : Bytes
  body : Bytes
  sentAt : Int
  signature : Option Bytes := none
  publicKey : Option Bytes := none
deriving DecidableEq, Repr

inductive Write where
  | storeRoom (room : StoredRoom)
  | updateRoomTopic (roomId : RoomId) (topic : Bytes)
  | storeIdentity (nickname publicKey : Bytes)
  | storeBan (ban : StoredBan)
  | removeBan (nickname : Bytes)
  | storeMessage (message : StoredMessage)
deriving DecidableEq, Repr

/-- What a server finds when it starts: the database, or the two text files of a
server without one. Row ids are positive signed 64-bit numbers. -/
structure StoredState where
  rooms : List StoredRoom
  /-- The newest messages of a room, newest first, at most the given number. -/
  history : RoomId → Nat → List StoredMessage
  identities : List (Bytes × Bytes)
  bans : List Bytes
  rowIds : ∀ room ∈ rooms, 0 < room.id ∧ room.id.toNat < 2 ^ 63

end Chatbox.Storage
