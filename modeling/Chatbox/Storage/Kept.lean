import Chatbox.Lib.Subscription
import Chatbox.Storage.History

/-!
What a server keeps over a restart, apart from how it is stored: each room with its
newest messages, whose key a nickname is bound to, and who is banned. Every statement
of the queue does to the tables of the database what it does to that.
-/

namespace Chatbox.Storage

open Text Protocol
open scoped Bytewise

@[ext]
structure KeptRoom where
  name : Bytes
  topic : Bytes
  ownerNickname : Bytes
  recentMessages : List Bytes

@[ext]
structure Kept where
  rooms : RoomId → Option KeptRoom
  identities : Bytes → Option Bytes
  banned : Bytes → Bool

/-- The effect of a write, when a room remembers `limit` messages. -/
def Kept.write (limit : Nat) (kept : Kept) : Write → Kept
  | .storeRoom room =>
      { kept with
        rooms := Function.update kept.rooms room.id (some
          { name := room.name
            topic := room.topic
            ownerNickname := room.ownerNickname
            recentMessages := (kept.rooms room.id).elim [] KeptRoom.recentMessages }) }
  | .updateRoomTopic roomId topic =>
      { kept with
        rooms := Function.update kept.rooms roomId
          ((kept.rooms roomId).map fun room => { room with topic }) }
  | .storeIdentity nickname publicKey =>
      { kept with identities := Function.update kept.identities nickname (some publicKey) }
  | .storeBan ban => { kept with banned := Function.update kept.banned ban.nickname true }
  | .removeBan nickname => { kept with banned := Function.update kept.banned nickname false }
  | .storeMessage message =>
      { kept with
        rooms := Function.update kept.rooms message.roomId
          ((kept.rooms message.roomId).map fun room =>
            { room with
              recentMessages := Subscription.remember limit room.recentMessages message.body }) }

namespace Database

variable (db : Database)

/-- The newest messages of a room, oldest first. -/
def recentOf (limit : Nat) (roomId : RoomId) : List Bytes :=
  (Paging.latest StoredMessage.key limit
    (db.messages.filter fun message => message.roomId == roomId)).map fun message => message.body

def kept (limit : Nat) : Kept where
  rooms roomId := (Table.find (fun room => room.id) roomId db.rooms).map fun room =>
    { name := room.name
      topic := room.topic
      ownerNickname := room.ownerNickname
      recentMessages := db.recentOf limit roomId }
  identities nickname :=
    (Table.find (fun identity => identity.1) nickname db.identities).map fun identity => identity.2
  banned nickname := (Table.find (fun ban => ban.nickname) nickname db.bans).isSome

/-- A message is new and later than all the others. -/
def Follows (write : Write) : Prop :=
  ∀ message, write = .storeMessage message →
    message.id ∉ db.messages.map (fun message => message.id) ∧
      ∀ old ∈ db.messages, old.sentAt < message.sentAt

end Database

section Statements

variable {db db' : Database} {limit : Nat} {write : Write}

/-- There are no messages of a room that is not there. -/
theorem recentOf_unknown {roomId : RoomId}
    (h : Table.find (fun room => room.id) roomId db.rooms = none) :
    db.recentOf limit roomId = [] := by
  have none : db.messages.filter (fun message => message.roomId == roomId) = [] := by
    rw [List.filter_eq_nil_iff]
    intro message mem same
    have known := db.messageRooms message mem
    rw [beq_iff_eq.mp same] at known
    exact Table.find_none.mp h known
  simp [Database.recentOf, none, Paging.latest, Paging.descending]

theorem storeRoom_kept {room : StoredRoom} (h : db.storeRoom room = .ok db') :
    db'.kept limit = (db.kept limit).write limit (.storeRoom room) := by
  simp only [Database.storeRoom] at h
  split at h
  · obtain rfl := Except.ok.inj h
    refine Kept.ext ?_ rfl rfl
    funext r
    simp only [Database.kept, Kept.write, Table.find_upsert mergeRoom_id]
    by_cases same : room.id = r
    · subst same
      rw [if_pos rfl, Function.update_self]
      cases found : Table.find (fun room => room.id) room.id db.rooms with
      | none =>
          have empty := @recentOf_unknown db limit room.id found
          simp only [Option.map_some, Option.map_none, Option.elim_none, ← empty]
          rfl
      | some old => rfl
    · rw [if_neg same, Function.update_of_ne (Ne.symm same)]
      rfl
  · cases h

theorem updateRoomTopic_kept {roomId : RoomId} {topic : Bytes} :
    (db.updateRoomTopic roomId topic).kept limit =
      (db.kept limit).write limit (.updateRoomTopic roomId topic) := by
  refine Kept.ext ?_ rfl rfl
  funext r
  simp only [Database.kept, Kept.write, Database.updateRoomTopic,
    Table.find_update (withTopic_id topic)]
  by_cases same : r = roomId
  · subst same
    rw [if_pos rfl, Function.update_self, Option.map_map, Option.map_map]
    rfl
  · rw [if_neg same, Function.update_of_ne same]
    rfl

theorem storeIdentity_kept {nickname publicKey : Bytes} :
    (db.storeIdentity nickname publicKey).kept limit =
      (db.kept limit).write limit (.storeIdentity nickname publicKey) := by
  refine Kept.ext rfl ?_ rfl
  funext n
  simp only [Database.kept, Kept.write, Database.storeIdentity,
    Table.find_upsert mergeIdentity_nickname]
  by_cases same : nickname = n
  · subst same
    rw [if_pos rfl, Function.update_self]
    cases Table.find (fun identity => identity.1) nickname db.identities <;> rfl
  · rw [if_neg same, Function.update_of_ne (Ne.symm same)]

theorem storeBan_kept {ban : StoredBan} :
    (db.storeBan ban).kept limit = (db.kept limit).write limit (.storeBan ban) := by
  refine Kept.ext rfl rfl ?_
  funext n
  simp only [Database.kept, Kept.write, Database.storeBan, Table.find_upsert mergeBan_nickname]
  by_cases same : ban.nickname = n
  · subst same
    rw [if_pos rfl, Function.update_self]
    rfl
  · rw [if_neg same, Function.update_of_ne (Ne.symm same)]

theorem removeBan_kept {nickname : Bytes} :
    (db.removeBan nickname).kept limit = (db.kept limit).write limit (.removeBan nickname) := by
  refine Kept.ext rfl rfl ?_
  funext n
  simp only [Database.kept, Kept.write, Database.removeBan, Table.find_remove]
  by_cases same : n = nickname
  · subst same
    rw [if_pos rfl, Function.update_self]
    rfl
  · rw [if_neg same, Function.update_of_ne same]

/-- The newest messages of the room after one more. -/
theorem recentOf_append {message : StoredMessage} (positive : 0 < limit)
    (follows : db.Follows (.storeMessage message)) :
    (Paging.latest StoredMessage.key limit
        ((db.messages.filter fun message' => message'.roomId == message.roomId) ++
          [message])).map (fun message => message.body) =
      Subscription.remember limit (db.recentOf limit message.roomId) message.body := by
  obtain ⟨fresh, later⟩ := follows message rfl
  have unique : (((db.messages.filter fun message' => message'.roomId == message.roomId) ++
      [message]).map StoredMessage.key).Nodup := by
    apply key_nodup
    have all := Table.append_nodup db.messageIds fresh
    exact all.sublist ((List.filter_sublist.append_right _).map _)
  have above : ∀ old ∈ db.messages.filter (fun message' => message'.roomId == message.roomId),
      old.key < message.key := fun old mem =>
    StoredMessage.older_iff.mp (.inl (later old (List.mem_filter.mp mem).1))
  rw [Paging.latest_append positive unique above]
  simp only [Subscription.remember, Database.recentOf, List.length_append, List.length_map,
    List.length_singleton]
  split
  · rw [List.map_drop, List.map_append]
    rfl
  · rw [List.map_append]
    rfl

theorem storeMessage_kept {message : StoredMessage} (positive : 0 < limit)
    (follows : db.Follows (.storeMessage message)) (h : db.storeMessage message = .ok db') :
    db'.kept limit = (db.kept limit).write limit (.storeMessage message) := by
  simp only [Database.storeMessage] at h
  split at h
  · next there => exact absurd there (follows message rfl).1
  · split at h
    · obtain rfl := Except.ok.inj h
      refine Kept.ext ?_ rfl rfl
      funext r
      simp only [Database.kept, Kept.write]
      by_cases same : r = message.roomId
      · subst same
        rw [Function.update_self, Option.map_map]
        apply Option.map_congr
        intro room _
        simp only [Function.comp_apply, Database.recentOf, List.filter_append, List.filter_cons,
          beq_self_eq_true, if_true, List.filter_nil, recentOf_append positive follows]
      · rw [Function.update_of_ne same]
        apply Option.map_congr
        intro room _
        have other : (message.roomId == r) = false := by simpa using Ne.symm same
        simp only [Database.recentOf, List.filter_append, List.filter_cons, other, List.filter_nil,
          List.append_nil, Bool.false_eq_true, if_false]
    · cases h

/-- A statement that succeeds does what the write is meant to do. -/
theorem executeWrite_kept (positive : 0 < limit) (follows : db.Follows write)
    (h : db.executeWrite write = .ok db') :
    db'.kept limit = (db.kept limit).write limit write := by
  cases write with
  | storeRoom room => exact storeRoom_kept h
  | updateRoomTopic roomId topic =>
      cases h
      exact updateRoomTopic_kept
  | storeIdentity nickname publicKey =>
      cases h
      exact storeIdentity_kept
  | storeBan ban =>
      cases h
      exact storeBan_kept
  | removeBan nickname =>
      cases h
      exact removeBan_kept
  | storeMessage message => exact storeMessage_kept positive follows h

end Statements

section Replay

/-- The writes in the order of the queue. -/
def Database.executeAll (db : Database) (writes : List Write) : Except Bytes Database :=
  writes.foldlM Database.executeWrite db

def sentMessages (writes : List Write) : List StoredMessage :=
  writes.filterMap fun
    | .storeMessage message => some message
    | _ => none

theorem sentMessages_append (a b : List Write) :
    sentMessages (a ++ b) = sentMessages a ++ sentMessages b := List.filterMap_append

def StoredMessage.texts (message : StoredMessage) : List Bytes :=
  message.id :: message.nickname :: message.body ::
    (message.signature.toList ++ message.publicKey.toList)

/-- The texts are C strings, and no ban expires: the server writes none that does. -/
structure Database.Plain (db : Database) : Prop where
  rooms : ∀ room ∈ db.rooms,
    (0 : UInt8) ∉ room.name ∧ (0 : UInt8) ∉ room.topic ∧ (0 : UInt8) ∉ room.ownerNickname
  identities : ∀ identity ∈ db.identities, (0 : UInt8) ∉ identity.1 ∧ (0 : UInt8) ∉ identity.2
  bans : ∀ ban ∈ db.bans, (0 : UInt8) ∉ ban.nickname ∧ ban.expiresAt = none
  messages : ∀ message ∈ db.messages, ∀ text ∈ message.texts, (0 : UInt8) ∉ text

def Write.texts : Write → List Bytes
  | .storeRoom room => [room.name, room.topic, room.ownerNickname]
  | .updateRoomTopic _ topic => [topic]
  | .storeIdentity nickname publicKey => [nickname, publicKey]
  | .storeBan ban => [ban.nickname, ban.reason]
  | .removeBan nickname => [nickname]
  | .storeMessage message => message.texts

/-- A ban for ever. -/
def Write.Lasting (write : Write) : Prop := ∀ ban, write = .storeBan ban → ban.expiresAt = none

variable {db db' : Database} {limit : Nat} {write : Write} {writes : List Write}

theorem executeWrite_messages (follows : db.Follows write) (h : db.executeWrite write = .ok db') :
    db'.messages = db.messages ++ sentMessages [write] := by
  cases write with
  | storeRoom room =>
      simp only [Database.executeWrite, Database.storeRoom] at h
      split at h
      · obtain rfl := Except.ok.inj h
        exact (List.append_nil _).symm
      · cases h
  | storeMessage message =>
      simp only [Database.executeWrite, Database.storeMessage] at h
      split at h
      · next there => exact absurd there (follows message rfl).1
      · split at h
        · obtain rfl := Except.ok.inj h
          rfl
        · cases h
  | updateRoomTopic _ _ | storeIdentity _ _ | storeBan _ | removeBan _ =>
      cases h
      exact (List.append_nil _).symm

theorem executeWrite_plain (plain : db.Plain) (texts : ∀ text ∈ write.texts, (0 : UInt8) ∉ text)
    (lasting : write.Lasting) (h : db.executeWrite write = .ok db') : db'.Plain := by
  cases write with
  | storeRoom room =>
      simp only [Database.executeWrite, Database.storeRoom] at h
      split at h
      · obtain rfl := Except.ok.inj h
        have own : (0 : UInt8) ∉ room.name ∧ (0 : UInt8) ∉ room.topic ∧
            (0 : UInt8) ∉ room.ownerNickname := by
          simpa [Write.texts] using texts
        refine ⟨fun row mem => ?_, plain.identities, plain.bans, plain.messages⟩
        obtain before | rfl | ⟨old, -, rfl⟩ := Table.mem_upsert mem
        · exact plain.rooms row before
        · exact own
        · exact own
      · cases h
  | updateRoomTopic roomId topic =>
      obtain rfl := Except.ok.inj h
      refine ⟨fun row mem => ?_, plain.identities, plain.bans, plain.messages⟩
      obtain before | ⟨old, before, rfl⟩ := Table.mem_update mem
      · exact plain.rooms row before
      · obtain ⟨name, -, owner⟩ := plain.rooms old before
        exact ⟨name, texts topic (by simp [Write.texts]), owner⟩
  | storeIdentity nickname publicKey =>
      obtain rfl := Except.ok.inj h
      have own : (0 : UInt8) ∉ nickname ∧ (0 : UInt8) ∉ publicKey := by
        simpa [Write.texts] using texts
      refine ⟨plain.rooms, fun identity mem => ?_, plain.bans, plain.messages⟩
      obtain before | rfl | ⟨old, before, rfl⟩ := Table.mem_upsert mem
      · exact plain.identities identity before
      · exact own
      · exact ⟨(plain.identities old before).1, own.2⟩
  | storeBan ban =>
      obtain rfl := Except.ok.inj h
      have own : (0 : UInt8) ∉ ban.nickname := texts _ (by simp [Write.texts])
      refine ⟨plain.rooms, plain.identities, fun row mem => ?_, plain.messages⟩
      obtain before | rfl | ⟨old, before, rfl⟩ := Table.mem_upsert mem
      · exact plain.bans row before
      · exact ⟨own, lasting row rfl⟩
      · exact ⟨(plain.bans old before).1, lasting ban rfl⟩
  | removeBan nickname =>
      obtain rfl := Except.ok.inj h
      exact ⟨plain.rooms, plain.identities,
        fun row mem => plain.bans row (List.mem_filter.mp mem).1, plain.messages⟩
  | storeMessage message =>
      simp only [Database.executeWrite, Database.storeMessage] at h
      split at h
      · obtain rfl := Except.ok.inj h
        exact plain
      · split at h
        · obtain rfl := Except.ok.inj h
          refine ⟨plain.rooms, plain.identities, plain.bans, fun row mem => ?_⟩
          obtain before | own := List.mem_append.mp mem
          · exact plain.messages row before
          · obtain rfl := List.mem_singleton.mp own
            exact texts
        · cases h

/-- The whole queue, when its messages have ids of their own and come later and later. -/
theorem executeAll_kept (positive : 0 < limit) (plain : db.Plain)
    (texts : ∀ write ∈ writes, ∀ text ∈ write.texts, (0 : UInt8) ∉ text)
    (lasting : ∀ write ∈ writes, write.Lasting)
    (ids : ((db.messages ++ sentMessages writes).map fun message => message.id).Nodup)
    (times : (sentMessages writes).Pairwise fun a b => a.sentAt < b.sentAt)
    (later : ∀ old ∈ db.messages, ∀ new ∈ sentMessages writes, old.sentAt < new.sentAt)
    (h : db.executeAll writes = .ok db') :
    db'.kept limit = writes.foldl (Kept.write limit) (db.kept limit) ∧ db'.Plain := by
  induction writes generalizing db with
  | nil =>
      cases h
      exact ⟨rfl, plain⟩
  | cons write writes ih =>
      rw [Database.executeAll, List.foldlM_cons] at h
      cases first : db.executeWrite write with
      | error detail =>
          rw [first] at h
          cases h
      | ok next =>
          rw [first] at h
          have split : sentMessages (write :: writes) =
              sentMessages [write] ++ sentMessages writes := sentMessages_append [write] writes
          rw [split] at ids times later
          have follows : db.Follows write := by
            rintro message rfl
            have one : sentMessages [.storeMessage message] = [message] := rfl
            rw [one] at ids later
            refine ⟨fun there => ?_, fun old mem => later old mem message (by simp)⟩
            rw [List.map_append] at ids
            exact (List.nodup_append.mp ids).2.2 _ there _ (by simp) rfl
          have messages := executeWrite_messages follows first
          have plain' := executeWrite_plain plain (texts write List.mem_cons_self)
            (lasting write List.mem_cons_self) first
          rw [← List.append_assoc, ← messages] at ids
          obtain ⟨-, times', apart⟩ := List.pairwise_append.mp times
          have later' : ∀ old ∈ next.messages, ∀ new ∈ sentMessages writes,
              old.sentAt < new.sentAt := by
            intro old mem new hnew
            rw [messages] at mem
            obtain before | own := List.mem_append.mp mem
            · exact later old before new (List.mem_append_right _ hnew)
            · exact apart old own new hnew
          obtain ⟨kept, plain''⟩ := ih plain'
            (fun write mem => texts write (List.mem_cons_of_mem _ mem))
            (fun write mem => lasting write (List.mem_cons_of_mem _ mem)) ids times' later' h
          refine ⟨?_, plain''⟩
          rw [kept, executeWrite_kept positive follows first, List.foldl_cons]

end Replay

section Loading

variable {db : Database} {limit : Nat}

/-- Sorted and read row by row, a table of rows that are read as they are. -/
theorem sorted_map_perm {α β : Type} {r : α → α → Prop} [DecidableRel r] {rows : List α}
    {read plain : α → β} (same : ∀ row ∈ rows, read row = plain row) :
    ((rows.insertionSort r).map read).Perm (rows.map plain) :=
  ((List.perm_insertionSort r rows).map read).trans (.of_eq (List.map_congr_left same))

theorem Database.Plain.loadRooms_perm (plain : db.Plain) : db.loadRooms.Perm db.rooms := by
  refine (sorted_map_perm fun room mem => ?_).trans (.of_eq (List.map_id' _))
  obtain ⟨name, topic, owner⟩ := plain.rooms room mem
  rw [columnText_eq name, columnText_eq topic, columnText_eq owner]

theorem Database.Plain.loadRooms_find (plain : db.Plain) (roomId : RoomId) :
    db.loadRooms.find? (fun room => room.id == roomId) =
      Table.find (fun room => room.id) roomId db.rooms :=
  (Table.find_perm plain.loadRooms_perm.symm db.roomIds).symm

theorem Database.Plain.loadIdentities_perm (plain : db.Plain) :
    db.loadIdentities.Perm db.identities := by
  refine (sorted_map_perm fun identity mem => ?_).trans (.of_eq (List.map_id' _))
  obtain ⟨name, key⟩ := plain.identities identity mem
  rw [columnText_eq name, columnText_eq key]

/-- No ban has expired, so that all are there. -/
theorem Database.Plain.cleanupBans_eq (plain : db.Plain) (now : Int) : db.cleanupBans now = db := by
  have all : db.bans.filter (fun ban => !(ban.expiresAt.any fun expiresAt => expiresAt ≤ now)) =
      db.bans := by
    rw [List.filter_eq_self]
    intro ban mem
    rw [(plain.bans ban mem).2]
    rfl
  cases db
  simp only [Database.cleanupBans, all]

theorem Database.Plain.loadBans_perm (plain : db.Plain) (now : Int) :
    ((db.loadBans now).1.map fun ban => ban.nickname).Perm
      (db.bans.map fun ban => ban.nickname) := by
  simp only [Database.loadBans, plain.cleanupBans_eq now, List.map_map]
  exact sorted_map_perm fun ban mem => columnText_eq (plain.bans ban mem).1

/-- The history that is loaded of a room. -/
theorem Database.Plain.loadHistory_recentOf (plain : db.Plain) (positive : 1 ≤ limit)
    (bound : limit ≤ MAX_HISTORY_PAGE) (roomId : RoomId) :
    (loadHistory db.messages roomId limit none).messages.reverse.map (fun message => message.body) =
      db.recentOf limit roomId := by
  have clamp : clampLimit limit = limit := by
    rw [clampLimit]
    omega
  have page := @loadHistory_eq_page ⟨db.messages, db.messageIds, plain.messages⟩ roomId limit none
  rw [page, clamp, Option.map_none, List.map_reverse]
  simp only [← List.map_reverse, Paging.page_reverse]
  rfl

end Loading

end Chatbox.Storage
