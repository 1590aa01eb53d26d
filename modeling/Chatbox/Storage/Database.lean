import Mathlib.Data.List.Sort
import Mathlib.Data.List.TakeWhile
import Chatbox.Lib.Table
import Chatbox.Storage.Storage

/-!
The database behind `SQLiteStorage`: its tables with the constraints of the schema,
the statements of `execute_write`, and the queries of the `load_` functions. A
statement that would break a constraint fails and changes nothing.
-/

namespace Chatbox.Storage

open Text Protocol

/-- The key of `COLLATE NOCASE`. -/
def nocase (name : Bytes) : Bytes := name.map toLower

/-- The tables. Times that nothing reads back are left out. -/
structure Database where
  rooms : List StoredRoom
  identities : List (Bytes × Bytes)
  bans : List StoredBan
  messages : List StoredMessage
  roomIds : (rooms.map fun room => room.id).Nodup
  roomNames : (rooms.map fun room => nocase room.name).Nodup
  nicknames : (identities.map fun identity => identity.1).Nodup
  banned : (bans.map fun ban => ban.nickname).Nodup
  messageIds : (messages.map fun message => message.id).Nodup
  messageRooms : ∀ message ∈ messages, message.roomId ∈ rooms.map fun room => room.id

def writeFailed (detail : Bytes) : Bytes := ascii "Could not execute SQLite write: " ++ detail

/-- `ON CONFLICT(id) DO UPDATE SET name, topic, owner_nickname` -/
def mergeRoom (old room : StoredRoom) : StoredRoom :=
  { old with name := room.name, topic := room.topic, ownerNickname := room.ownerNickname }

/-- `ON CONFLICT(nickname) DO UPDATE SET reason, created_at, expires_at` -/
def mergeBan (old ban : StoredBan) : StoredBan :=
  { old with reason := ban.reason, createdAt := ban.createdAt, expiresAt := ban.expiresAt }

/-- `ON CONFLICT(nickname) DO UPDATE SET public_key` -/
def mergeIdentity (old identity : Bytes × Bytes) : Bytes × Bytes := (old.1, identity.2)

/-- `SET topic = ?` -/
def withTopic (topic : Bytes) (room : StoredRoom) : StoredRoom := { room with topic }

section Keys

theorem mergeRoom_id (old room : StoredRoom) : (mergeRoom old room).id = old.id := rfl

theorem mergeBan_nickname (old ban : StoredBan) : (mergeBan old ban).nickname = old.nickname := rfl

theorem mergeIdentity_nickname (old identity : Bytes × Bytes) :
    (mergeIdentity old identity).1 = old.1 := rfl

theorem withTopic_id (topic : Bytes) (room : StoredRoom) : (withTopic topic room).id = room.id :=
  rfl

theorem withTopic_names (roomId : RoomId) (topic : Bytes) (rooms : List StoredRoom) :
    (Table.update (fun room => room.id) roomId (withTopic topic) rooms).map
        (fun room => nocase room.name) = rooms.map fun room => nocase room.name := by
  rw [Table.update, List.map_map]
  apply List.map_congr_left
  intro room _
  simp only [Function.comp_apply]
  split <;> rfl

end Keys

namespace Database

variable (db : Database)

def storeRoom (room : StoredRoom) : Except Bytes Database :=
  let rooms := Table.upsert (fun room => room.id) mergeRoom room db.rooms
  if distinct : (rooms.map fun room => nocase room.name).Nodup then
    .ok { db with
      rooms
      roomIds := Table.upsert_nodup mergeRoom_id db.roomIds
      roomNames := distinct
      messageRooms := fun message h =>
        Table.mem_upsert_keys mergeRoom_id (db.messageRooms message h) }
  else .error (writeFailed (ascii "UNIQUE constraint failed: rooms.name"))

def updateRoomTopic (roomId : RoomId) (topic : Bytes) : Database :=
  { db with
    rooms := Table.update (fun room => room.id) roomId (withTopic topic) db.rooms
    roomIds := by
      rw [Table.update_keys (withTopic_id topic)]
      exact db.roomIds
    roomNames := by
      rw [withTopic_names]
      exact db.roomNames
    messageRooms := by
      rw [Table.update_keys (withTopic_id topic)]
      exact db.messageRooms }

def storeIdentity (nickname publicKey : Bytes) : Database :=
  { db with
    identities := Table.upsert (fun identity => identity.1) mergeIdentity (nickname, publicKey)
      db.identities
    nicknames := Table.upsert_nodup mergeIdentity_nickname db.nicknames }

def storeBan (ban : StoredBan) : Database :=
  { db with
    bans := Table.upsert (fun ban => ban.nickname) mergeBan ban db.bans
    banned := Table.upsert_nodup mergeBan_nickname db.banned }

def removeBan (nickname : Bytes) : Database :=
  { db with
    bans := Table.remove (fun ban => ban.nickname) nickname db.bans
    banned := Table.remove_nodup db.banned }

/-- `INSERT OR IGNORE` passes over a message whose id is there, but not over one of an
unknown room. -/
def storeMessage (message : StoredMessage) : Except Bytes Database :=
  if there : message.id ∈ db.messages.map fun message => message.id then .ok db
  else if known : message.roomId ∈ db.rooms.map fun room => room.id then
    .ok { db with
      messages := db.messages ++ [message]
      messageIds := Table.append_nodup db.messageIds there
      messageRooms := by
        intro other h
        rcases List.mem_append.mp h with h | h
        · exact db.messageRooms other h
        · exact List.mem_singleton.mp h ▸ known }
  else .error (writeFailed (ascii "FOREIGN KEY constraint failed"))

def executeWrite : Write → Except Bytes Database
  | .storeRoom room => db.storeRoom room
  | .updateRoomTopic roomId topic => .ok (db.updateRoomTopic roomId topic)
  | .storeIdentity nickname publicKey => .ok (db.storeIdentity nickname publicKey)
  | .storeBan ban => .ok (db.storeBan ban)
  | .removeBan nickname => .ok (db.removeBan nickname)
  | .storeMessage message => db.storeMessage message

end Database

section Queries

/-- `column_text` reads a C string. -/
def columnText (text : Bytes) : Bytes := text.takeWhile fun c => c != 0

theorem columnText_eq {text : Bytes} (h : (0 : UInt8) ∉ text) : columnText text = text := by
  apply List.takeWhile_eq_self_iff.mpr
  intro c hc
  exact bne_iff_ne.mpr fun e => h (e ▸ hc)

def Database.loadRooms (db : Database) : List StoredRoom :=
  (db.rooms.insertionSort fun a b => a.id.toInt64 ≤ b.id.toInt64).map fun room =>
    { room with
      name := columnText room.name
      topic := columnText room.topic
      ownerNickname := columnText room.ownerNickname }

def Database.loadIdentities (db : Database) : List (Bytes × Bytes) :=
  (db.identities.insertionSort fun a b => a.1 ≤ b.1).map fun identity =>
    (columnText identity.1, columnText identity.2)

/-- `DELETE FROM bans WHERE expires_at IS NOT NULL AND expires_at <= ?` -/
def Database.cleanupBans (db : Database) (now : Int) : Database :=
  { db with
    bans := db.bans.filter fun ban => !(ban.expiresAt.any fun expiresAt => expiresAt ≤ now)
    banned := db.banned.sublist (List.filter_sublist.map _) }

def Database.loadBans (db : Database) (now : Int) : List StoredBan × Database :=
  let db := db.cleanupBans now
  ((db.bans.insertionSort fun a b => a.nickname ≤ b.nickname).map fun ban =>
    { ban with nickname := columnText ban.nickname, reason := columnText ban.reason }, db)

def MAX_HISTORY_PAGE : Nat := 500

structure HistoryCursor where
  sentAt : Int
  id : Bytes
deriving DecidableEq, Repr

structure HistoryPage where
  messages : List StoredMessage
  next : Option HistoryCursor
deriving DecidableEq, Repr

/-- `sent_at < ? OR (sent_at = ? AND id < ?)` -/
def HistoryCursor.covers (cursor : HistoryCursor) (message : StoredMessage) : Bool :=
  message.sentAt < cursor.sentAt ||
    (message.sentAt == cursor.sentAt && decide (message.id < cursor.id))

/-- `ORDER BY sent_at DESC, id DESC` -/
def StoredMessage.Newest (a b : StoredMessage) : Prop :=
  b.sentAt < a.sentAt ∨ (a.sentAt = b.sentAt ∧ b.id ≤ a.id)

instance : DecidableRel StoredMessage.Newest := fun _ _ => inferInstanceAs (Decidable (_ ∨ _))

def StoredMessage.read (message : StoredMessage) : StoredMessage :=
  { id := columnText message.id
    roomId := message.roomId
    nickname := columnText message.nickname
    body := columnText message.body
    sentAt := message.sentAt
    signature := message.signature.map columnText
    publicKey := message.publicKey.map columnText }

def clampLimit (limit : Nat) : Nat := max 1 (min limit MAX_HISTORY_PAGE)

/-- The `WHERE` clause. -/
def HistoryCursor.selects (roomId : RoomId) (before : Option HistoryCursor)
    (message : StoredMessage) : Bool :=
  message.roomId == roomId && before.all fun cursor => cursor.covers message

/-- `load_history` on the table of messages. -/
def loadHistory (messages : List StoredMessage) (roomId : RoomId) (limit : Nat)
    (before : Option HistoryCursor) : HistoryPage :=
  let limit := clampLimit limit
  let rows := messages.filter (HistoryCursor.selects roomId before)
  let page := ((rows.insertionSort StoredMessage.Newest).take (limit + 1)).map StoredMessage.read
  if page.length > limit then
    let page := page.dropLast
    { messages := page, next := page.getLast?.map fun last => ⟨last.sentAt, last.id⟩ }
  else { messages := page, next := none }

end Queries

end Chatbox.Storage
