import Chatbox.Chat.Change

/-!
What the primitive operations add to the trace.
-/

namespace Chatbox.Chat

open Text Protocol Storage

/-- The second server has done all that the first has, and further things that
satisfy `P`. -/
def Emits (P : Effect → Prop) (server server' : ChatServer) : Prop :=
  ∃ new, server'.output.trace = server.output.trace ++ new ∧ ∀ e ∈ new, P e

/-- The writes a server has handed over. -/
def handedWrites (trace : List Effect) : List Write :=
  trace.filterMap fun
    | .store write => some write
    | _ => none

theorem mem_handedWrites {trace : List Effect} {write : Write}
    (h : write ∈ handedWrites trace) : .store write ∈ trace := by
  obtain ⟨e, mem, he⟩ := List.mem_filterMap.mp h
  cases e with
  | store write' =>
      cases he
      exact mem
  | _ => cases he

namespace Emits

variable {P Q : Effect → Prop} {a b c : ChatServer}

theorem refl (a : ChatServer) : Emits P a a := ⟨[], by simp, by simp⟩

theorem trans (hab : Emits P a b) (hbc : Emits P b c) : Emits P a c := by
  obtain ⟨new, hb, hnew⟩ := hab
  obtain ⟨new', hc, hnew'⟩ := hbc
  refine ⟨new ++ new', by rw [hc, hb, List.append_assoc], fun e he => ?_⟩
  exact (List.mem_append.mp he).elim (hnew e) (hnew' e)

theorem of_eq (h : b.output.trace = a.output.trace) : Emits P a b := ⟨[], by simp [h], by simp⟩

theorem one {e : Effect} (h : b.output.trace = a.output.trace ++ [e]) (he : P e) :
    Emits P a b := ⟨[e], h, by simpa using he⟩

theorem mono (hab : Emits P a b) (h : ∀ e, P e → Q e) : Emits Q a b := by
  obtain ⟨new, hb, hnew⟩ := hab
  exact ⟨new, hb, fun e he => h e (hnew e he)⟩

theorem ite {p : Prop} [Decidable p] (hb : Emits P a b) (hc : Emits P a c) :
    Emits P a (if p then b else c) := by
  split
  · exact hb
  · exact hc

end Emits

namespace ChatServer

variable {P : Effect → Prop} {env : Env} {server : ChatServer} {s : SessionId}

section Primitives

@[simp] theorem note_trace (effect : Effect) :
    (server.note effect).output.trace = server.output.trace ++ [effect] := rfl

@[simp] theorem deliver_trace (message : ServerMessage) :
    (server.deliver s message).output.trace = server.output.trace ++ [.deliver s message] := by
  change (server.output.deliver s message).trace = _
  unfold ServerOutput.deliver
  simp only
  split <;> rfl

@[simp] theorem close_trace :
    (server.close s).output.trace = server.output.trace ++ [.close s] := rfl

@[simp] theorem onTables_trace (change : ServerTables → ServerTables) :
    (server.onTables change).output.trace = server.output.trace := rfl

@[simp] theorem updateSession_trace (change : ClientSession → ClientSession) :
    (server.updateSession s change).output.trace = server.output.trace := rfl

@[simp] theorem onHost_trace (change : App.AppState → App.AppState) :
    (server.onHost change).output.trace = server.output.trace := rfl

@[simp] theorem nextReading_trace :
    server.nextReading.2.output.trace = server.output.trace := rfl

@[simp] theorem store_trace (write : Write) :
    (server.store write).output.trace = server.output.trace ++ [.store write] := rfl

theorem deliver_emits {message : ServerMessage} (h : P (.deliver s message)) :
    Emits P server (server.deliver s message) := .one (deliver_trace message) h

theorem note_emits {effect : Effect} (h : P effect) : Emits P server (server.note effect) :=
  .one (note_trace effect) h

theorem close_emits (h : P (.close s)) : Emits P server (server.close s) := .one close_trace h

theorem store_emits {write : Write} (h : P (.store write)) : Emits P server (server.store write) :=
  .one (store_trace write) h

theorem deliverAll_trace (members : List SessionId) (message : ServerMessage) :
    (server.deliverAll members message).output.trace =
      server.output.trace ++ members.map fun s => .deliver s message := by
  induction members generalizing server with
  | nil => simp [deliverAll]
  | cons s members ih =>
      have h := @ih (server.deliver s message)
      rw [deliver_trace, List.append_assoc] at h
      exact h

theorem deliverAll_emits {members : List SessionId} {message : ServerMessage}
    (h : ∀ s, P (.deliver s message)) : Emits P server (server.deliverAll members message) := by
  refine ⟨_, deliverAll_trace members message, fun e he => ?_⟩
  obtain ⟨s, -, rfl⟩ := List.mem_map.mp he
  exact h s

theorem deliverHistory_trace (roomId : RoomId) (name : Bytes) (history : List Bytes) :
    (server.deliverHistory s roomId name history).output.trace = server.output.trace ++
      if history.isEmpty then []
      else .deliver s (.text (ascii "[system] Recent messages in #" ++ name ++ ascii ":")) ::
        history.map fun message => .deliver s (.roomText roomId message) := by
  have each (server : ChatServer) : (history.foldl (fun server message =>
      server.deliver s (.roomText roomId message)) server).output.trace =
        server.output.trace ++ history.map fun message => .deliver s (.roomText roomId message) := by
    induction history generalizing server with
    | nil => simp
    | cons message history ih => simp [ih]
  unfold deliverHistory
  split
  · simp
  · simp only [each, deliverText, deliver_trace, List.append_assoc]
    rfl

end Primitives

section Notices

/-- Every member of the room is sent the user list. -/
theorem broadcastUsers_trace (roomId : RoomId) :
    (server.broadcastUsers env roomId).output.trace = server.output.trace ++
      (server.tables.members roomId).toList.map fun s => .deliver s (.userList roomId
        (server.tables.userNicknames env roomId (server.tables.members roomId))) := by
  unfold broadcastUsers ServerTables.members
  cases server.tables.rooms[roomId]? with
  | none => simp
  | some room =>
      simp only
      rw [deliverAll_trace]
      split <;> rfl

/-- Every session with a nickname is sent the list of rooms. -/
theorem broadcastRoomLists_trace :
    (server.broadcastRoomLists env).output.trace = server.output.trace ++
      (server.tables.sessions.toList.filter fun s =>
        !(server.tables.session s).nickname.isEmpty).map fun s =>
          .deliver s (.roomList (server.tables.roomList env)) := by
  unfold broadcastRoomLists
  simp only
  rw [← deliverAll_trace]
  split <;> rfl

theorem sendTopic_trace :
    (server.sendTopic s).output.trace = server.output.trace ++
      (server.tables.rooms[(server.tables.session s).activeRoomId]?.map fun room =>
        .deliver s (.roomTopic (server.tables.session s).activeRoomId room.topic)).toList := by
  cases present : server.tables.rooms[(server.tables.session s).activeRoomId]? with
  | none => simp [sendTopic, present]
  | some room => simp [sendTopic, present]

end Notices

section Startup

theorem persistRoom_stores {roomId : RoomId} :
    Emits (fun e => ∃ write, e = .store write) server (server.persistRoom env roomId) := by
  unfold persistRoom
  split
  · exact .refl server
  · split
    · exact .refl server
    · exact store_emits ⟨_, rfl⟩

/-- A server that starts does nothing but write, at most, the lobby. -/
theorem start_stores (env : Env) (stored : StoredState) :
    ∀ e ∈ (start env stored).output.trace, ∃ write, e = .store write := by
  unfold start
  simp only
  split
  · nofun
  · generalize hserver : onTables _ _ = server
    have none : server.output.trace = [] := by
      rw [← hserver]
      rfl
    obtain ⟨new, htrace, stores⟩ := @persistRoom_stores env server DEFAULT_ROOM_ID
    rw [htrace, none]
    exact stores

end Startup

end ChatServer

end Chatbox.Chat
