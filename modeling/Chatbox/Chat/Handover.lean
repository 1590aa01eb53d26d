import Chatbox.Chat.Client
import Chatbox.Chat.MoveRace
import Chatbox.Chat.Trace

/-!
A session is moved to a room while messages are broadcast there. The move inserts the
session and copies the history under the lock, and posts RoomJoined and the history
later. A text that another thread posts in between comes before RoomJoined, and the
client drops it.
-/

namespace Chatbox.Chat

open Text Protocol Storage

/-- A client, and the texts of its room that it has shown since it entered it. -/
structure Reader where
  client : ChatClient
  texts : List Bytes := []

namespace Reader

variable (reader : Reader)

def receive (message : ServerMessage) : Reader where
  client := reader.client.receive message
  texts :=
    match message with
    | .roomJoined _ _ _ => []
    | .roomText roomId body =>
        if roomId = reader.client.app.activeRoomId then reader.texts ++ [body] else reader.texts
    | _ => reader.texts

def receiveAll (messages : List ServerMessage) : Reader := messages.foldl receive reader

end Reader

def encodes (message : ServerMessage) : Bool :=
  match encodeServerFrame message with
  | .ok _ => true
  | .error _ => false

/-- What is posted to the session's write queue: `deliver` drops what does not encode. -/
def posted (s : SessionId) (trace : List Effect) : List ServerMessage :=
  trace.filterMap fun
    | .deliver a message => if a = s ∧ encodes message = true then some message else none
    | _ => none

def owe (s : SessionId) (roomId : RoomId) (messages : Option (List Bytes)) :
    Effect → Option (List Bytes)
  | .enter a r history => if a = s ∧ r = roomId then some history else messages
  | .recorded r body => if r = roomId then messages.map (· ++ [body]) else messages
  | _ => messages

/-- The messages of the room that concern the session: the history that it has entered
with, and what is added afterwards. -/
def owed (s : SessionId) (roomId : RoomId) (trace : List Effect) : Option (List Bytes) :=
  trace.foldl (owe s roomId) none

namespace Race

/-- `move_session_to_room` on the one thread, calls of `broadcast_room` on the other. -/
def moveAndBroadcast (server : ChatServer) (s : SessionId) (targetId : RoomId)
    (announceMove : Bool) (calls : List (RoomId × Bytes × Bytes)) : Race where
  shared := server
  todo
    | .network => [.readOldRoom s targetId announceMove]
    | .operator => calls.map fun call => .recordMessage call.1 call.2.1 call.2.2

/-- What the region posts to the session. -/
def sent (s : SessionId) : Region → List ServerMessage
  | .deliver a message => if a = s ∧ encodes message = true then [message] else []
  | _ => []

/-- The text of the room that a message carries. -/
def textOf (roomId : RoomId) : ServerMessage → List Bytes
  | .roomText r body => if r = roomId then [body] else []
  | _ => []

def texts (s : SessionId) (roomId : RoomId) (region : Region) : List Bytes :=
  (sent s region).flatMap (textOf roomId)

def announces (s : SessionId) (roomId : RoomId) : Region → Bool
  | .deliver a (.roomJoined r _ _) => a == s && r == roomId
  | _ => false

/-- No text of the room is posted to the session before the RoomJoined that is due. -/
def joinsFirst (s : SessionId) (roomId : RoomId) (state : Race) (i : ThreadId) : Bool :=
  (state.todo i).head?.all (fun region => (texts s roomId region).isEmpty) ||
    !(state.todo .network).any (announces s roomId)

section Reading

/-- Messages of the rooms, which a joined client only shows. -/
def isChatter : ServerMessage → Bool
  | .roomText _ _ | .userList _ _ | .roomList _ | .text _ => true
  | _ => false

variable {reader : Reader} {message : ServerMessage} {r : RoomId}

theorem receive_chatter (ready : reader.client.Ready) (chatter : isChatter message = true) :
    (reader.receive message).client.Ready ∧
      (reader.receive message).client.app.activeRoomId = reader.client.app.activeRoomId ∧
      (reader.receive message).texts =
        reader.texts ++ textOf reader.client.app.activeRoomId message := by
  have spoken : ∀ version, message ≠ .hello version := by
    rintro version rfl
    cases chatter
  have updates := ChatClient.receive_updates ready spoken
  have active := congrArg Screen.roomId updates.screen
  refine ⟨updates.ready ready, active.trans ?_, ?_⟩
  · cases message with
    | userList roomId nicknames =>
        simp only [Screen.update]
        split <;> rfl
    | roomText roomId body => rfl
    | roomList rooms => rfl
    | text body => rfl
    | _ => cases chatter
  · cases message with
    | roomText roomId body =>
        simp only [Reader.receive, textOf]
        split <;> simp
    | userList roomId nicknames => simp [Reader.receive, textOf]
    | roomList rooms => simp [Reader.receive, textOf]
    | text body => simp [Reader.receive, textOf]
    | _ => cases chatter

theorem receive_roomJoined {name topic : Bytes} (ready : reader.client.Ready) :
    (reader.receive (.roomJoined r name topic)).client.Ready ∧
      (reader.receive (.roomJoined r name topic)).client.app.activeRoomId = r ∧
      (reader.receive (.roomJoined r name topic)).texts = [] := by
  have spoken : ∀ version, ServerMessage.roomJoined r name topic ≠ .hello version := nofun
  have updates := ChatClient.receive_updates ready spoken
  exact ⟨updates.ready ready, congrArg Screen.roomId updates.screen, rfl⟩

end Reading

section Notices

variable {env : Env} {server : ChatServer} {region : Region} {s : SessionId} {r : RoomId}

/-- Notices that post nothing but the messages of the rooms. -/
def chatters : Region → Bool
  | .deliver _ message => isChatter message
  | region => region.isNotice

theorem chatters_notice (h : chatters region = true) : region.isNotice = true := by
  cases region <;> first | rfl | exact h

theorem deliverAll_chatters {members : List SessionId} {message : ServerMessage}
    (h : isChatter message = true) :
    ∀ next ∈ Region.deliverAll members message, chatters next = true := by
  intro next mem
  obtain ⟨a, -, rfl⟩ := List.mem_map.mp mem
  exact h

theorem optional_chatters {p : Prop} [Decidable p] {regions : List Region}
    (h : ∀ next ∈ regions, chatters next = true) :
    ∀ next ∈ if p then regions else [], chatters next = true := by
  intro next mem
  split at mem
  · exact h next mem
  · cases mem

theorem perform_chatters (h : chatters region = true) :
    ∀ next ∈ (region.perform env server).2, chatters next = true := by
  cases region with
  | recordMessage roomId msg nickname =>
      simp only [Region.perform]
      cases server.tables.rooms[roomId]? with
      | none => exact fun next mem => absurd mem List.not_mem_nil
      | some room =>
          refine List.forall_mem_append.mpr ⟨List.forall_mem_append.mpr ⟨?_, ?_⟩, ?_⟩
          · exact optional_chatters (List.forall_mem_singleton.mpr rfl)
          · exact deliverAll_chatters rfl
          · exact optional_chatters (List.forall_mem_singleton.mpr rfl)
  | collectUsers roomId =>
      simp only [Region.perform]
      cases server.tables.rooms[roomId]? with
      | none => exact fun next mem => absurd mem List.not_mem_nil
      | some room =>
          refine List.forall_mem_append.mpr ⟨?_, deliverAll_chatters rfl⟩
          exact optional_chatters (List.forall_mem_singleton.mpr rfl)
  | collectRooms => exact List.forall_mem_singleton.mpr rfl
  | collectSessions list =>
      exact List.forall_mem_append.mpr
        ⟨deliverAll_chatters rfl, List.forall_mem_singleton.mpr rfl⟩
  | announceLeft a oldId =>
      simp only [Region.perform]
      split
      · exact fun next mem => absurd mem List.not_mem_nil
      · exact List.forall_mem_singleton.mpr rfl
  | pushMessage _ | storeMessage _ _ _ | updateRoomUsers _ _ | updateRoomList _ | deliver _ _
  | close _ | stopReading _ => exact fun next mem => absurd mem List.not_mem_nil
  | _ => cases h

/-- The message that the region adds to the history of the room. -/
def said (roomId : RoomId) (server : ChatServer) : Region → List Bytes
  | .recordMessage r msg _ => if r = roomId ∧ r ∈ server.tables.rooms then [msg] else []
  | _ => []

def fits (roomId : RoomId) (body : Bytes) : Bool := encodes (.roomText roomId body)

theorem map_append_nil (messages : Option (List Bytes)) : messages.map (· ++ []) = messages := by
  cases messages <;> simp

/-- What a notice adds to the trace. -/
theorem notice_trace (h : region.isNotice = true) :
    ∃ effects, (region.perform env server).1.output.trace = server.output.trace ++ effects ∧
      posted s effects = sent s region ∧
      ∀ messages, effects.foldl (owe s r) messages = messages.map (· ++ said r server region) := by
  have silent (same : (region.perform env server).1.output.trace = server.output.trace)
      (unsent : sent s region = []) (unsaid : said r server region = []) :
      ∃ effects, (region.perform env server).1.output.trace = server.output.trace ++ effects ∧
        posted s effects = sent s region ∧
        ∀ messages, effects.foldl (owe s r) messages =
          messages.map (· ++ said r server region) := by
    rw [unsent, unsaid]
    exact ⟨[], by simp [same], rfl, fun messages => (map_append_nil messages).symm⟩
  cases region with
  | recordMessage roomId msg nickname =>
      cases found : server.tables.rooms[roomId]? with
      | none =>
          have absent : roomId ∉ server.tables.rooms := by simpa using found
          refine silent ?_ rfl (if_neg fun h => absent h.2)
          simp only [Region.perform, found]
      | some room =>
          have present : roomId ∈ server.tables.rooms := by
            rw [← Std.ExtTreeMap.isSome_getElem?_iff_mem, found]
            rfl
          refine ⟨[.recorded roomId msg], ?_, rfl, fun messages => ?_⟩
          · simp only [Region.perform, found, ChatServer.recordMessage, ChatServer.note_trace,
              ChatServer.onTables_trace]
          · simp only [List.foldl_cons, List.foldl_nil, owe, said, present, and_true]
            split
            · rfl
            · exact (map_append_nil messages).symm
  | deliver a message =>
      refine ⟨[.deliver a message], ChatServer.deliver_trace message, ?_,
        fun messages => (map_append_nil messages).symm⟩
      by_cases passed : a = s ∧ encodes message = true
      · simp [posted, sent, passed]
      · simp [posted, sent, passed]
  | close a => exact ⟨[.close a], rfl, rfl, fun messages => (map_append_nil messages).symm⟩
  | storeMessage roomId nickname msg =>
      exact ⟨[_], rfl, rfl, fun messages => (map_append_nil messages).symm⟩
  | collectUsers roomId =>
      refine silent ?_ rfl rfl
      simp only [Region.perform]
      split <;> rfl
  | updateRoomList list =>
      refine silent ?_ rfl rfl
      simp only [Region.perform]
      split <;> rfl
  | pushMessage _ | updateRoomUsers _ _ | collectRooms | collectSessions _ | announceLeft _ _
  | stopReading _ => exact silent rfl rfl rfl
  | _ => cases h

theorem deliverAll_texts {members : List SessionId} {message : ServerMessage}
    (nodup : members.Nodup) :
    (Region.deliverAll members message).flatMap (texts s r) =
      if s ∈ members ∧ encodes message = true then textOf r message else [] := by
  induction members with
  | nil => simp [Region.deliverAll]
  | cons a members ih =>
      obtain ⟨fresh, nodup⟩ := List.nodup_cons.mp nodup
      have rest := ih nodup
      simp only [Region.deliverAll, List.map_cons, List.flatMap_cons] at rest ⊢
      rw [rest]
      by_cases same : a = s
      · subst same
        by_cases passes : encodes message = true
        · simp [texts, sent, passes, fresh]
        · simp [texts, sent, passes]
      · simp [texts, sent, same, Ne.symm same]

/-- A message that is added to the history goes to every member. -/
theorem notice_texts (h : region.isNotice = true) :
    (region.perform env server).2.flatMap (texts s r) =
      if s ∈ server.tables.members r then (said r server region).filter (fits r) else [] := by
  have quiet {p : Prop} [Decidable p] {next : Region} (unsent : sent s next = []) :
      (if p then [next] else []).flatMap (texts s r) = [] := by
    split
    · simp [texts, unsent]
    · rfl
  cases region with
  | recordMessage roomId msg nickname =>
      simp only [Region.perform]
      cases found : server.tables.rooms[roomId]? with
      | none =>
          have absent : roomId ∉ server.tables.rooms := by simpa using found
          simp [said, absent]
      | some room =>
          have present : roomId ∈ server.tables.rooms := by
            rw [← Std.ExtTreeMap.isSome_getElem?_iff_mem, found]
            rfl
          simp only [List.flatMap_append]
          rw [quiet rfl, quiet rfl, deliverAll_texts (OrderedMap.nodup_toList _), List.nil_append,
            List.append_nil]
          by_cases here : roomId = r
          · subst here
            simp only [ServerTables.members, found, said, present, textOf]
            by_cases member : s ∈ room.members
            · by_cases passes : encodes (.roomText roomId msg) = true
              · simp [fits, member, passes]
              · simp [fits, member, passes]
            · simp [member]
          · simp [textOf, said, here]
  | collectUsers roomId =>
      simp only [Region.perform]
      cases server.tables.rooms[roomId]? with
      | none => simp [said]
      | some room =>
          simp only [List.flatMap_append]
          rw [quiet rfl, deliverAll_texts (OrderedMap.nodup_toList _)]
          simp [textOf, said]
  | collectSessions list =>
      simp only [Region.perform, List.flatMap_append]
      rw [deliverAll_texts ((OrderedMap.nodup_toList _).filter _)]
      simp [textOf, said, texts, sent]
  | announceLeft a oldId =>
      simp only [Region.perform]
      split
      · simp [said]
      · simp [said, texts, sent]
  | pushMessage _ | storeMessage _ _ _ | updateRoomUsers _ _ | updateRoomList _ | deliver _ _
  | close _ | stopReading _ | collectRooms => simp [Region.perform, said, texts, sent]
  | _ => cases h

variable {targetId oldId : RoomId} {announceMove : Bool} {room : Room}

/-- The locked region of the move: the history is that of the moment of the insertion. -/
theorem placeSession_trace (found : server.tables.rooms[targetId]? = some room) :
    ∃ effects, ((Region.placeSession s targetId announceMove oldId).perform env
        server).1.output.trace = server.output.trace ++ effects ∧
      posted s effects = [] ∧ effects.foldl (owe s targetId) none = some room.recentMessages := by
  simp only [Region.perform, found, ChatServer.note_trace, ChatServer.onTables_trace,
    ChatServer.noteLeave]
  split
  · exact ⟨[.leave s oldId, .enter s targetId room.recentMessages], by simp, rfl, by simp [owe]⟩
  · exact ⟨[.enter s targetId room.recentMessages], rfl, rfl, by simp [owe]⟩

theorem texts_text (body : Bytes) : texts s r (.deliver s (.text body)) = [] := by
  simp only [texts, sent]
  split
  · rfl
  · rfl

theorem history_texts (name : Bytes) (messages : List Bytes) :
    (Region.history s r name messages).flatMap (texts s r) = messages.filter (fits r) := by
  have each : (messages.map fun message => Region.deliver s (.roomText r message)).flatMap
      (texts s r) = messages.filter (fits r) := by
    induction messages with
    | nil => rfl
    | cons message messages ih =>
        rw [List.map_cons, List.flatMap_cons, ih, List.filter_cons]
        by_cases passes : encodes (.roomText r message) = true
        · simp [texts, sent, textOf, fits, passes]
        · simp [texts, sent, fits, passes]
  rw [Region.history]
  split
  · next empty => simp [List.isEmpty_iff.mp empty]
  · rw [List.flatMap_cons, each, texts_text, List.nil_append]

theorem history_chatters (name : Bytes) (messages : List Bytes) :
    ∀ next ∈ Region.history s r name messages, chatters next = true := by
  rw [Region.history]
  split
  · exact fun next mem => absurd mem List.not_mem_nil
  · refine List.forall_mem_cons.mpr ⟨rfl, fun next mem => ?_⟩
    obtain ⟨message, -, rfl⟩ := List.mem_map.mp mem
    rfl

/-- What the move posts and records after its locked region. -/
theorem placeSession_more (found : server.tables.rooms[targetId]? = some room)
    (key : room.id = targetId) :
    ∃ front rest,
      ((Region.placeSession s targetId announceMove oldId).perform env server).2 =
        front ++ .deliver s (.roomJoined targetId room.name room.topic) :: rest ∧
      (∀ next ∈ front, chatters next = true) ∧ (∀ next ∈ rest, chatters next = true) ∧
      front.flatMap (texts s targetId) = [] ∧
      rest.flatMap (texts s targetId) = room.recentMessages.filter (fits targetId) := by
  refine ⟨if announceMove && oldId != 0 then
      Region.leftFor oldId (server.tables.session s).nickname room.name else [],
    Region.history s targetId room.name room.recentMessages ++
      Region.joined targetId (server.tables.session s).nickname room.name, ?_, ?_, ?_, ?_, ?_⟩
  · simp only [Region.perform, found, key, List.append_assoc]
    rfl
  · exact optional_chatters
      (List.forall_mem_cons.mpr ⟨rfl, List.forall_mem_singleton.mpr rfl⟩)
  · refine List.forall_mem_append.mpr ⟨history_chatters _ _, ?_⟩
    exact List.forall_mem_cons.mpr
      ⟨rfl, List.forall_mem_cons.mpr ⟨rfl, List.forall_mem_singleton.mpr rfl⟩⟩
  · split
    · rfl
    · rfl
  · rw [List.flatMap_append, history_texts]
    simp [Region.joined, texts, sent]

end Notices

section Stages

variable {s : SessionId} {r : RoomId} {announceMove : Bool}

/-- Where the session is on its way into the room. -/
inductive Stage where
  | outside
  | missing
  | entered
  | joined

/-- What the network thread still has to do. -/
inductive Route (s : SessionId) (r : RoomId) (announceMove : Bool) : Stage → List Region → Prop
  | reading : Route s r announceMove .outside [.readOldRoom s r announceMove]
  | placing (oldId : RoomId) : Route s r announceMove .outside [.placeSession s r announceMove oldId]
  | missing : Route s r announceMove .missing []
  | entered {front rest : List Region} {name topic : Bytes}
      (before : ∀ region ∈ front, chatters region = true)
      (after : ∀ region ∈ rest, chatters region = true)
      (encoded : encodes (.roomJoined r name topic) = true) :
      Route s r announceMove .entered (front ++ .deliver s (.roomJoined r name topic) :: rest)
  | joined {rest : List Region} (after : ∀ region ∈ rest, chatters region = true) :
      Route s r announceMove .joined rest

/-- What the session is owed, what its client has shown, and what is still to be posted. -/
inductive Balance (r : RoomId) (inside : Prop) (messages : Option (List Bytes))
    (reader : Reader) (pending : List Bytes) : Stage → Prop
  | outside (h : ¬ inside) (unowed : messages = none) (idle : pending = []) :
      Balance r inside messages reader pending .outside
  | missing (unowed : messages = none) : Balance r inside messages reader pending .missing
  | entered (due : List Bytes) (h : inside) (owed : messages = some due)
      (all : pending.Perm (due.filter (fits r))) :
      Balance r inside messages reader pending .entered
  | joined (due : List Bytes) (h : inside) (owed : messages = some due)
      (active : reader.client.app.activeRoomId = r)
      (all : (reader.texts ++ pending).Perm (due.filter (fits r))) :
      Balance r inside messages reader pending .joined

/-- Texts of the room that are still to be posted to the session. -/
def pending (s : SessionId) (r : RoomId) (state : Race) : List Bytes :=
  (state.todo .network).flatMap (texts s r) ++ (state.todo .operator).flatMap (texts s r)

theorem pending_after {env : Env} {state : Race} {i : ThreadId} {region : Region}
    {rest : List Region} (head : state.todo i = region :: rest) :
    ∃ others, (pending s r state).Perm (texts s r region ++ others) ∧
      (pending s r (after env state i region rest)).Perm
        ((region.perform env state.shared).2.flatMap (texts s r) ++ others) := by
  cases i with
  | network =>
      refine ⟨rest.flatMap (texts s r) ++ (state.todo .operator).flatMap (texts s r), ?_, ?_⟩
      · rw [pending, head, List.flatMap_cons, List.append_assoc]
      · rw [pending, Threads.after_todo_self, Threads.after_todo_of_ne (by decide),
          List.flatMap_append, List.append_assoc]
  | operator =>
      refine ⟨(state.todo .network).flatMap (texts s r) ++ rest.flatMap (texts s r), ?_, ?_⟩
      · rw [pending, head, List.flatMap_cons]
        exact List.perm_append_comm_assoc _ _ _
      · rw [pending, Threads.after_todo_self, Threads.after_todo_of_ne (by decide),
          List.flatMap_append]
        exact List.perm_append_comm_assoc _ _ _

theorem receiveAll_sent {reader : Reader} {region : Region} (ready : reader.client.Ready)
    (chatter : chatters region = true) :
    (reader.receiveAll (sent s region)).client.Ready ∧
      (reader.receiveAll (sent s region)).client.app.activeRoomId =
        reader.client.app.activeRoomId ∧
      (reader.receiveAll (sent s region)).texts =
        reader.texts ++ texts s reader.client.app.activeRoomId region := by
  have unsent (h : sent s region = []) :
      (reader.receiveAll (sent s region)).client.Ready ∧
        (reader.receiveAll (sent s region)).client.app.activeRoomId =
          reader.client.app.activeRoomId ∧
        (reader.receiveAll (sent s region)).texts =
          reader.texts ++ texts s reader.client.app.activeRoomId region := by
    rw [texts, h]
    exact ⟨ready, rfl, by simp [Reader.receiveAll]⟩
  cases region with
  | deliver a message =>
      by_cases passes : a = s ∧ encodes message = true
      · have one : sent s (.deliver a message) = [message] := if_pos passes
        have received := receive_chatter ready chatter
        rw [texts, one]
        simpa [Reader.receiveAll] using received
      · exact unsent (if_neg passes)
  | _ => exact unsent rfl

/-- A notice moves messages from what is pending to what is shown, or adds to what is
owed and to what is pending alike. -/
theorem Balance.chat {inside inside' : Prop} [Decidable inside] {messages : Option (List Bytes)} {reader : Reader}
    {pending pending' others said : List Bytes} {stage : Stage} {region : Region}
    (h : Balance r inside messages reader pending stage) (ready : reader.client.Ready)
    (chatter : chatters region = true) (same : inside' ↔ inside)
    (before : pending.Perm (texts s r region ++ others))
    (after : pending'.Perm ((if inside then said.filter (fits r) else []) ++ others))
    (timely : stage = .entered → texts s r region = []) :
    Balance r inside' (messages.map (· ++ said)) (reader.receiveAll (sent s region)) pending'
      stage := by
  cases h with
  | outside outside unowed idle =>
      subst unowed idle
      rw [if_neg outside, List.nil_append] at after
      obtain ⟨-, rfl⟩ := List.append_eq_nil_iff.mp (List.nil_perm.mp before)
      exact .outside (fun h => outside (same.mp h)) rfl (List.perm_nil.mp after)
  | missing unowed =>
      subst unowed
      exact .missing rfl
  | entered due h owed all =>
      subst owed
      rw [timely rfl, List.nil_append] at before
      rw [if_pos h] at after
      refine .entered (due ++ said) (same.mpr h) rfl (after.trans ?_)
      rw [List.filter_append]
      exact List.perm_append_comm.trans ((before.symm.trans all).append_right _)
  | joined due h owed active all =>
      subst owed
      rw [if_pos h] at after
      obtain ⟨-, stays, shown⟩ := @receiveAll_sent s reader region ready chatter
      refine .joined (due ++ said) (same.mpr h) rfl (stays.trans active) ?_
      have first : (reader.texts ++ texts s r region ++ others).Perm (due.filter (fits r)) := by
        rw [List.append_assoc]
        exact (before.symm.append_left _).trans all
      rw [shown, active, List.filter_append]
      calc List.Perm (reader.texts ++ texts s r region ++ pending')
            (reader.texts ++ texts s r region ++ (said.filter (fits r) ++ others)) :=
          after.append_left _
        List.Perm _ (said.filter (fits r) ++ (reader.texts ++ texts s r region ++ others)) :=
          List.perm_append_comm_assoc _ _ _
        List.Perm _ (reader.texts ++ texts s r region ++ others ++ said.filter (fits r)) :=
          List.perm_append_comm
        List.Perm _ (due.filter (fits r) ++ said.filter (fits r)) := first.append_right _

end Stages

section Run

variable {env : Env} {s : SessionId} {r : RoomId} {announceMove : Bool} {start : ChatServer}
  {reader : Reader} {state state' : Race} {i : ThreadId} {region : Region} {rest : List Region}

/-- The run up to the state, with what it has added to the trace. -/
structure Handed (start : ChatServer) (reader : Reader) (s : SessionId) (r : RoomId)
    (announceMove : Bool) (state : Race) (stage : Stage) (new : List Effect) : Prop where
  headings : ∀ r : RoomId, state.shared.tables.rooms[r]?.map Region.heading =
    start.tables.rooms[r]?.map Region.heading
  operator : ∀ region ∈ state.todo .operator, chatters region = true
  trace : state.shared.output.trace = start.output.trace ++ new
  ready : (reader.receiveAll (posted s new)).client.Ready
  route : Route s r announceMove stage (state.todo .network)
  balance : Balance r (s ∈ state.shared.tables.members r) (owed s r new)
    (reader.receiveAll (posted s new)) (pending s r state) stage

theorem headings_after (h : ∀ r : RoomId, state.shared.tables.rooms[r]?.map Region.heading =
      start.tables.rooms[r]?.map Region.heading) (r : RoomId) :
    (after env state i region rest).shared.tables.rooms[r]?.map Region.heading =
      start.tables.rooms[r]?.map Region.heading :=
  (Region.perform_heading r).trans (h r)

theorem posted_append (a b : List Effect) : posted s (a ++ b) = posted s a ++ posted s b :=
  List.filterMap_append

theorem owed_append (a b : List Effect) : owed s r (a ++ b) = b.foldl (owe s r) (owed s r a) :=
  List.foldl_append

theorem receiveAll_append (a b : List ServerMessage) :
    reader.receiveAll (a ++ b) = (reader.receiveAll a).receiveAll b :=
  List.foldl_append

theorem joinsFirst_spec (safe : joinsFirst s r state i = true)
    (head : state.todo i = region :: rest)
    (route : Route s r announceMove .entered (state.todo .network)) : texts s r region = [] := by
  generalize todo : state.todo .network = network at route
  cases route with
  | @entered front rest name topic before after encoded =>
      have due : (state.todo .network).any (announces s r) = true := by
        rw [todo, List.any_append]
        simp [announces]
      rw [joinsFirst, head, due] at safe
      simpa using safe

/-- A notice of either thread. -/
theorem Handed.chat {stage : Stage} {new : List Effect}
    (h : Handed start reader s r announceMove state stage new)
    (safe : joinsFirst s r state i = true) (head : state.todo i = region :: rest)
    (chatter : chatters region = true)
    (route : Route s r announceMove stage ((after env state i region rest).todo .network))
    (operator : ∀ next ∈ (after env state i region rest).todo .operator,
      chatters next = true) :
    ∃ new, Handed start reader s r announceMove (after env state i region rest) stage new := by
  have notice := chatters_notice chatter
  obtain ⟨effects, trace, sends, owes⟩ :=
    @notice_trace env state.shared region s r notice
  obtain ⟨others, before, later⟩ := @pending_after s r env state i region rest head
  refine ⟨new ++ effects, headings_after h.headings, operator, ?_, ?_, route, ?_⟩
  · rw [Threads.after_shared, trace, h.trace, List.append_assoc]
  · rw [posted_append, sends, receiveAll_append]
    exact (receiveAll_sent h.ready chatter).1
  · rw [posted_append, sends, receiveAll_append, owed_append, owes]
    rw [notice_texts notice] at later
    refine h.balance.chat h.ready chatter (Region.perform_member (Region.notice_not_seats notice) r)
      before later ?_
    rintro rfl
    exact joinsFirst_spec safe head h.route

/-- A pending text is one that the old regions had, if the session was outside. -/
theorem pending_outside {network : List Region} (idle : pending s r state = [])
    (head : state.todo .network = region :: network) :
    (pending s r (after env state .network region network)).Perm
      ((region.perform env state.shared).2.flatMap (texts s r)) := by
  obtain ⟨others, before, later⟩ := @pending_after s r env state .network region network head
  rw [idle] at before
  obtain ⟨-, rfl⟩ := List.append_eq_nil_iff.mp (List.nil_perm.mp before)
  rwa [List.append_nil] at later

theorem Handed.read {new : List Effect}
    (h : Handed start reader s r announceMove state .outside new)
    (todo : state.todo .network = [.readOldRoom s r announceMove]) :
    Handed start reader s r announceMove
      (after env state .network (.readOldRoom s r announceMove) []) .outside new := by
  have operator : ∀ next ∈ (after env state .network
      (.readOldRoom s r announceMove) []).todo .operator, chatters next = true := by
    rw [Threads.after_todo_of_ne (by decide)]
    exact h.operator
  have route : Route s r announceMove .outside ((after env state .network
      (.readOldRoom s r announceMove) []).todo .network) := by
    rw [Threads.after_todo_self]
    exact .placing _
  refine ⟨h.headings, operator, h.trace, h.ready, route, ?_⟩
  cases h.balance with
  | outside outside unowed idle =>
      exact .outside outside unowed (List.perm_nil.mp (@pending_outside env s r state _ _ idle todo))

/-- The step that inserts the session, or finds no room. -/
theorem Handed.place {new : List Effect} {oldId : RoomId}
    (h : Handed start reader s r announceMove state .outside new)
    (keys : ∀ room, start.tables.rooms[r]? = some room →
      room.id = r ∧ encodes (.roomJoined room.id room.name room.topic) = true)
    (todo : state.todo .network = [.placeSession s r announceMove oldId]) :
    ∃ stage new, Handed start reader s r announceMove
      (after env state .network (.placeSession s r announceMove oldId) []) stage new := by
  have operator : ∀ next ∈ (after env state .network
      (.placeSession s r announceMove oldId) []).todo .operator, chatters next = true := by
    rw [Threads.after_todo_of_ne (by decide)]
    exact h.operator
  cases h.balance with
  | outside outside unowed idle =>
      have pending := @pending_outside env s r state _ _ idle todo
      cases found : state.shared.tables.rooms[r]? with
      | none =>
          have absent : r ∉ state.shared.tables.rooms := by simpa using found
          have unchanged := @Region.placeSession_absent env state.shared s r oldId announceMove
            absent
          have route : Route s r announceMove .missing ((after env state .network
              (.placeSession s r announceMove oldId) []).todo .network) := by
            rw [Threads.after_todo_self, unchanged]
            exact .missing
          refine ⟨.missing, new, headings_after h.headings, operator, ?_, h.ready, route,
            .missing unowed⟩
          rw [Threads.after_shared, unchanged]
          exact h.trace
      | some room =>
          have present : r ∈ state.shared.tables.rooms := by
            rw [← Std.ExtTreeMap.isSome_getElem?_iff_mem, found]
            rfl
          have heading := h.headings r
          rw [found] at heading
          obtain ⟨room', found', same⟩ := Option.map_eq_some_iff.mp heading.symm
          obtain ⟨key, encoded⟩ := keys room' found'
          obtain ⟨sameId, sameName, sameTopic⟩ : room'.id = room.id ∧ room'.name = room.name ∧
              room'.topic = room.topic := by
            simpa [Region.heading] using same
          rw [key] at sameId encoded
          rw [sameName, sameTopic] at encoded
          obtain ⟨effects, trace, sends, owes⟩ :=
            @placeSession_trace env state.shared s r oldId announceMove room found
          obtain ⟨front, rest, more, before, after', quiet, all⟩ :=
            @placeSession_more env state.shared s r oldId announceMove room found sameId.symm
          have route : Route s r announceMove .entered ((after env state .network
              (.placeSession s r announceMove oldId) []).todo .network) := by
            rw [Threads.after_todo_self, more, List.append_nil]
            exact .entered before after' encoded
          have joining : texts s r (.deliver s (.roomJoined r room.name room.topic)) = [] := by
            simp only [texts, sent]
            split <;> rfl
          rw [more, List.flatMap_append, List.flatMap_cons, quiet, all, joining] at pending
          refine ⟨.entered, new ++ effects, headings_after h.headings, operator, ?_, ?_, route, ?_⟩
          · rw [Threads.after_shared, trace, h.trace, List.append_assoc]
          · rw [posted_append, sends, List.append_nil]
            exact h.ready
          · rw [posted_append, sends, List.append_nil, owed_append, unowed, owes]
            exact .entered room.recentMessages
              ((Region.placeSession_member env present).mpr (.inr ⟨rfl, rfl⟩)) rfl pending

/-- The client is told that it has entered the room. -/
theorem Handed.join {new : List Effect} {name topic : Bytes}
    (h : Handed start reader s r announceMove state .entered new)
    (head : state.todo .network = .deliver s (.roomJoined r name topic) :: rest)
    (encoded : encodes (.roomJoined r name topic) = true)
    (later : ∀ next ∈ rest, chatters next = true) :
    ∃ new, Handed start reader s r announceMove
      (after env state .network (.deliver s (.roomJoined r name topic)) rest) .joined new := by
  have operator : ∀ next ∈ (after env state .network
      (.deliver s (.roomJoined r name topic)) rest).todo .operator, chatters next = true := by
    rw [Threads.after_todo_of_ne (by decide)]
    exact h.operator
  have route : Route s r announceMove .joined ((after env state .network
      (.deliver s (.roomJoined r name topic)) rest).todo .network) := by
    rw [Threads.after_todo_self]
    exact .joined later
  obtain ⟨effects, trace, sends, owes⟩ :=
    @notice_trace env state.shared (.deliver s (.roomJoined r name topic)) s r rfl
  have one : sent s (.deliver s (.roomJoined r name topic)) = [.roomJoined r name topic] :=
    if_pos ⟨rfl, encoded⟩
  obtain ⟨others, before, after'⟩ :=
    @pending_after s r env state .network (.deliver s (.roomJoined r name topic)) rest head
  obtain ⟨ready, active, fresh⟩ := @receive_roomJoined _ r name topic h.ready
  have notice : (Region.deliver s (.roomJoined r name topic)).isNotice = true := rfl
  have member := @Region.perform_member env state.shared _ s (Region.notice_not_seats notice) r
  rw [one] at sends
  have unsaid (messages : Option (List Bytes)) :
      effects.foldl (owe s r) messages = messages :=
    (owes messages).trans (map_append_nil messages)
  refine ⟨new ++ effects, headings_after h.headings, operator, ?_, ?_, route, ?_⟩
  · rw [Threads.after_shared, trace, h.trace, List.append_assoc]
  · rw [posted_append, sends, receiveAll_append]
    exact ready
  · rw [posted_append, sends, receiveAll_append, owed_append, unsaid]
    cases h.balance with
    | entered due inside owed all =>
        refine .joined due (member.mpr inside) owed active ?_
        have texts : ((reader.receiveAll (posted s new)).receiveAll
            [.roomJoined r name topic]).texts = [] := fresh
        rw [texts, List.nil_append]
        have unposted : Race.texts s r (.deliver s (.roomJoined r name topic)) = [] := by
          rw [Race.texts, one]
          rfl
        rw [unposted, List.nil_append] at before
        exact after'.trans (before.symm.trans all)

theorem Handed.step (h : ∃ stage new, Handed start reader s r announceMove state stage new)
    (keys : ∀ room, start.tables.rooms[r]? = some room →
      room.id = r ∧ encodes (.roomJoined room.id room.name room.topic) = true)
    (safe : joinsFirst s r state i = true) (stepped : step env state i = some state') :
    ∃ stage new, Handed start reader s r announceMove state' stage new := by
  obtain ⟨region, rest, head, rfl⟩ := Threads.step_cases stepped
  obtain ⟨stage, new, h⟩ := h
  cases i with
  | operator =>
      have chatter := h.operator region (head ▸ List.mem_cons_self)
      have later : ∀ next ∈ rest, chatters next = true := fun next mem =>
        h.operator next (head ▸ List.mem_cons_of_mem region mem)
      refine ⟨stage, h.chat safe head chatter ?_ ?_⟩
      · rw [Threads.after_todo_of_ne (by decide)]
        exact h.route
      · rw [Threads.after_todo_self]
        exact List.forall_mem_append.mpr ⟨perform_chatters chatter, later⟩
  | network =>
      have operator : ∀ next ∈ (after env state .network region rest).todo .operator,
          chatters next = true := by
        rw [Threads.after_todo_of_ne (by decide)]
        exact h.operator
      have route := h.route
      rw [head] at route
      generalize todo : region :: rest = network at route
      cases route with
      | reading =>
          obtain ⟨rfl, rfl⟩ := List.cons.inj todo
          exact ⟨.outside, new, h.read head⟩
      | placing oldId =>
          obtain ⟨rfl, rfl⟩ := List.cons.inj todo
          exact h.place keys head
      | missing => cases todo
      | @entered front rest' name topic before after encoded =>
          cases front with
          | nil =>
              obtain ⟨rfl, rfl⟩ := List.cons.inj todo
              exact ⟨.joined, h.join head encoded after⟩
          | cons notice front =>
              rw [List.cons_append] at todo
              obtain ⟨rfl, rfl⟩ := List.cons.inj todo
              obtain ⟨chatter, before⟩ := List.forall_mem_cons.mp before
              refine ⟨.entered, h.chat safe head chatter ?_ operator⟩
              rw [Threads.after_todo_self, ← List.append_assoc]
              exact .entered (List.forall_mem_append.mpr ⟨perform_chatters chatter, before⟩) after
                encoded
      | joined after =>
          subst todo
          obtain ⟨chatter, later⟩ := List.forall_mem_cons.mp after
          refine ⟨.joined, h.chat safe head chatter ?_ operator⟩
          rw [Threads.after_todo_self]
          exact .joined (List.forall_mem_append.mpr ⟨perform_chatters chatter, later⟩)

theorem moveAndBroadcast_handed {server : ChatServer} {client : ChatClient}
    {calls : List (RoomId × Bytes × Bytes)} (ready : client.Ready)
    (outside : s ∉ server.tables.members r) :
    Handed server ⟨client, []⟩ s r announceMove
      (moveAndBroadcast server s r announceMove calls) .outside [] where
  headings _ := rfl
  operator region mem := by
    obtain ⟨call, -, rfl⟩ := List.mem_map.mp mem
    rfl
  trace := (List.append_nil _).symm
  ready := ready
  route := .reading
  balance := by
    refine .outside outside rfl ?_
    have silent : (calls.map fun call => Region.recordMessage call.1 call.2.1 call.2.2).flatMap
        (texts s r) = [] := by
      refine List.flatMap_eq_nil_iff.mpr fun region mem => ?_
      obtain ⟨call, -, rfl⟩ := List.mem_map.mp mem
      rfl
    exact silent

end Run

/-- A client that has completed the handshake. -/
def negotiated : ChatClient := { protocolNegotiated := true }

/-- Client 7 is moved to the new room while the host says something there. -/
def moveAndGreet (server : ChatServer) : Race :=
  moveAndBroadcast server 7 2 true [(2, ascii "[SERVER] hello", [])]

/-- What the run has added to the trace. -/
def added (server : ChatServer) (state : Race) : List Effect :=
  state.shared.output.trace.drop server.output.trace.length

/-- The host's message is posted after the insertion and before RoomJoined. -/
def droppingSchedule : List ThreadId :=
  List.replicate 2 .network ++ List.replicate 3 .operator ++ List.replicate 16 .network

theorem moveAndGreet_drops :
    ∃ server state messages, serverAfter apart = some server ∧
      Reachable .plain emptyStore server ∧
      Run.run (step .plain) (moveAndGreet server) droppingSchedule = some state ∧
      state.Finished ∧
      state.shared.output.trace = server.output.trace ++ added server state ∧
      owed 7 2 (added server state) = some messages ∧ ascii "[SERVER] hello" ∈ messages ∧
      fits 2 (ascii "[SERVER] hello") = true ∧
      ascii "[SERVER] hello" ∉
        (Reader.receiveAll ⟨negotiated, []⟩ (posted 7 (added server state))).texts := by
  obtain ⟨server, state, hserver, reachable, run, done, trace, owing, passes, lost⟩ :=
    @exists_race apart moveAndGreet droppingSchedule
      (fun server state => finished state = true ∧
        state.shared.output.trace = server.output.trace ++ added server state ∧
        (owed 7 2 (added server state)).any (fun messages =>
          decide (ascii "[SERVER] hello" ∈ messages)) = true ∧
        fits 2 (ascii "[SERVER] hello") = true ∧
        ascii "[SERVER] hello" ∉
          (Reader.receiveAll ⟨negotiated, []⟩ (posted 7 (added server state))).texts) _
      (by decide +kernel)
  obtain ⟨messages, owing, mem⟩ := (Option.any_eq_true _ _).mp owing
  exact ⟨server, state, messages, hserver, reachable, run, finished_iff.mp done, trace, owing,
    of_decide_eq_true mem, passes, lost⟩

/-- When all have finished the client is in the room and has shown each message of the
history it entered with, and each added since, exactly once, if no text of the room is
posted to it before RoomJoined; but for those that do not fit a frame. -/
theorem moveAndBroadcast_texts (env : Env) (s : SessionId) (r : RoomId) (server : ChatServer)
    (announceMove : Bool) (calls : List (RoomId × Bytes × Bytes)) (client : ChatClient)
    (schedule : List ThreadId) (state : Race) (new : List Effect) (messages : List Bytes)
    (consistent : server.tables.Consistent) (outside : s ∉ server.tables.members r)
    (joins : ∀ room, server.tables.rooms[r]? = some room →
      encodes (.roomJoined room.id room.name room.topic) = true)
    (ready : client.Ready)
    (run : Run.run (step env) (moveAndBroadcast server s r announceMove calls) schedule =
      some state)
    (finished : state.Finished)
    (safe : Run.Always (step env) (fun state i => joinsFirst s r state i = true)
      (moveAndBroadcast server s r announceMove calls) schedule)
    (trace : state.shared.output.trace = server.output.trace ++ new)
    (owing : owed s r new = some messages) :
    (Reader.receiveAll ⟨client, []⟩ (posted s new)).client.app.activeRoomId = r ∧
      (Reader.receiveAll ⟨client, []⟩ (posted s new)).texts.Perm (messages.filter (fits r)) := by
  have keys (room : Room) (found : server.tables.rooms[r]? = some room) :
      room.id = r ∧ encodes (.roomJoined room.id room.name room.topic) = true :=
    ⟨(consistent.rooms.key r room found).1, joins room found⟩
  have start := @moveAndBroadcast_handed s r announceMove server client calls ready outside
  obtain ⟨stage, new', handed⟩ : ∃ stage new,
      Handed server ⟨client, []⟩ s r announceMove state stage new :=
    Run.run_invariant_of (fun _ _ _ h safe => Handed.step h keys safe) safe run
      ⟨.outside, [], start⟩
  obtain rfl : new' = new := List.append_cancel_left (handed.trace.symm.trans trace)
  have idle : pending s r state = [] := by
    rw [pending, finished .network, finished .operator]
    rfl
  have balance := handed.balance
  have route := handed.route
  rw [owing, idle] at balance
  rw [finished .network] at route
  cases balance with
  | outside outside unowed idle => cases unowed
  | missing unowed => cases unowed
  | entered due inside owed all =>
      generalize done : ([] : List Region) = network at route
      cases route
      simp at done
  | joined due inside owed active all =>
      obtain rfl := Option.some.inj owed
      rw [List.append_nil] at all
      exact ⟨active, all⟩

/-- The host speaks before the client moves. -/
theorem moveAndBroadcast_texts_hello :
    ∃ server state messages, serverAfter apart = some server ∧
      Run.run (step .plain) (moveAndGreet server)
        (List.replicate 2 .operator ++ List.replicate 19 .network) = some state ∧
      owed 7 2 (added server state) = some messages ∧ ascii "[SERVER] hello" ∈ messages ∧
      (Reader.receiveAll ⟨negotiated, []⟩ (posted 7 (added server state))).texts.Perm
        (messages.filter (fits 2)) := by
  obtain ⟨server, state, hserver, reachable, run, done, trace, owing, safe, outside, joins⟩ :=
    @exists_race apart moveAndGreet (List.replicate 2 .operator ++ List.replicate 19 .network)
      (fun server state => finished state = true ∧
        state.shared.output.trace = server.output.trace ++ added server state ∧
        (owed 7 2 (added server state)).any (fun messages =>
          decide (ascii "[SERVER] hello" ∈ messages)) = true ∧
        Run.Always (step .plain) (fun state i => joinsFirst 7 2 state i = true)
          (moveAndGreet server) (List.replicate 2 .operator ++ List.replicate 19 .network) ∧
        7 ∉ server.tables.members 2 ∧
        server.tables.rooms[(2 : RoomId)]?.all (fun room =>
          encodes (.roomJoined room.id room.name room.topic)) = true) _ (by decide +kernel)
  obtain ⟨messages, owing, mem⟩ := (Option.any_eq_true _ _).mp owing
  refine ⟨server, state, messages, hserver, run, owing, of_decide_eq_true mem, ?_⟩
  have joins (room : Room) (found : server.tables.rooms[(2 : RoomId)]? = some room) :
      encodes (.roomJoined room.id room.name room.topic) = true := by
    rwa [found] at joins
  exact (moveAndBroadcast_texts .plain 7 2 server true [(2, ascii "[SERVER] hello", [])] negotiated
    _ state (added server state) messages (reachable_consistent reachable) outside joins
    ⟨rfl, rfl⟩ run (finished_iff.mp done) safe trace owing).2

end Race

end Chatbox.Chat
