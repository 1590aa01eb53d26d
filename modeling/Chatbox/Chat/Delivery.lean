import Chatbox.Chat.Settle
import Chatbox.Lib.Subscription

/-!
The rooms as topics. A session subscribes to the room it is in; its trace is accepted by
the two acceptors of subscriptions, so that it receives the history of a room and then
all that is said there, and nothing else.
-/

namespace Chatbox.Chat

open Text Protocol Storage Subscription

/-- What an effect means for what a session receives from the rooms. -/
def mark (s : SessionId) : Effect → Option (Mark RoomId Bytes)
  | .enter a roomId history => if a = s then some (.join roomId history) else none
  | .leave a roomId => if a = s then some (.leave roomId) else none
  | .recorded roomId body => some (.publish roomId body)
  | .deliver a (.roomText roomId body) => if a = s then some (.receive roomId body) else none
  | _ => none

def marks (s : SessionId) (trace : List Effect) : List (Mark RoomId Bytes) :=
  trace.filterMap (mark s)

namespace ServerTables

variable (tables : ServerTables)

def recentOf (roomId : RoomId) : List Bytes :=
  (tables.rooms[roomId]?.map fun room => room.recentMessages).getD []

/-- The room a session is in. -/
def seatOf (s : SessionId) : Option RoomId :=
  if (tables.session s).activeRoomId = 0 then none else some (tables.session s).activeRoomId

end ServerTables

/-- The history a session that has entered a room has not been sent yet. -/
def Due.owedTo (due : Due) (s : SessionId) : List Bytes :=
  match due.arrival with
  | some (a, room) => if a = s then room.recentMessages else []
  | none => []

section Marks

variable {s a : SessionId} {trace trace' : List Effect}

@[simp] theorem marks_append : marks s (trace ++ trace') = marks s trace ++ marks s trace' :=
  List.filterMap_append

theorem marks_none (h : ∀ e ∈ trace, mark s e = none) : marks s trace = [] :=
  List.filterMap_eq_nil_iff.mpr h

theorem mark_leave {e : Effect} {roomId : RoomId} (h : mark s e = some (.leave roomId)) :
    e = .leave s roomId := by
  cases e with
  | enter a r history => simp [mark] at h
  | leave a r =>
      simp only [mark, Option.ite_none_right_eq_some, Option.some.injEq, Mark.leave.injEq] at h
      rw [h.1, h.2]
  | deliver a message =>
      cases message with
      | roomText r body => simp [mark] at h
      | _ => cases h
  | _ => cases h

theorem mark_mute {e : Effect} (h : Mute e) : mark s e = none := by
  cases e with
  | deliver a message => exact h.elim
  | enter a roomId history => exact h.elim
  | leave a roomId => exact h.elim
  | recorded roomId body => exact h.elim
  | _ => rfl

theorem mark_deliver {message : ServerMessage} (h : ∀ roomId body, message ≠ .roomText roomId body) :
    mark s (.deliver a message) = none := by
  cases message with
  | roomText roomId body => exact absurd rfl (h roomId body)
  | _ => rfl

theorem mark_aside {message : ServerMessage} (h : Aside message) :
    mark s (.deliver a message) = none := by
  refine mark_deliver fun roomId body e => ?_
  subst e
  exact h

theorem marks_deliverAll {members : List SessionId} {message : ServerMessage}
    (h : ∀ roomId body, message ≠ .roomText roomId body) :
    marks s (members.map fun a => .deliver a message) = [] := by
  refine marks_none fun e he => ?_
  obtain ⟨a, -, rfl⟩ := List.mem_map.mp he
  exact mark_deliver h

/-- Each member of a set is sent a text once. -/
theorem marks_deliverTexts {members : List SessionId} (hn : members.Nodup) (roomId : RoomId)
    (body : Bytes) :
    marks s (members.map fun a => .deliver a (.roomText roomId body)) =
      if s ∈ members then [.receive roomId body] else [] := by
  induction members with
  | nil => rfl
  | cons a members ih =>
      obtain ⟨fresh, hn⟩ := List.nodup_cons.mp hn
      have rest := ih hn
      rw [marks] at rest ⊢
      by_cases e : a = s
      · subst e
        simp [mark, rest, fresh]
      · simp [mark, rest, e, Ne.symm e]

theorem marks_history (history : List Bytes) (roomId : RoomId) :
    marks s (history.map fun body => .deliver a (.roomText roomId body)) =
      if a = s then history.map fun body => .receive roomId body else [] := by
  induction history with
  | nil => simp [marks]
  | cons body history ih =>
      rw [marks] at ih ⊢
      by_cases e : a = s
      · subst e
        simpa [mark] using ih
      · simp [mark, e]

end Marks

/-- The room a session is in after what has happened. -/
def lastRoom (s : SessionId) (trace : List Effect) : Option RoomId :=
  trace.foldl (fun room effect => match effect with
    | .enter a roomId _ => if a = s then some roomId else room
    | .leave a _ => if a = s then none else room
    | _ => room) none

/-- The texts from rooms that are passed to a session, each with its room. -/
def roomTexts (s : SessionId) (trace : List Effect) : List (RoomId × Bytes) :=
  trace.filterMap fun
    | .deliver a (.roomText roomId body) => if a = s then some (roomId, body) else none
    | _ => none

/-- The messages that are added to the history of a room. -/
def messagesOf (roomId : RoomId) (trace : List Effect) : List Bytes :=
  trace.filterMap fun
    | .recorded r body => if r = roomId then some body else none
    | _ => none

section Readings

variable {s : SessionId}

theorem follow_marks (trace : List Effect) : (marks s trace).foldl follow none = lastRoom s trace := by
  rw [lastRoom, marks, List.foldl_filterMap]
  congr 1
  funext room effect
  cases effect with
  | enter a roomId history => by_cases e : a = s <;> simp [mark, follow, e]
  | leave a roomId => by_cases e : a = s <;> simp [mark, follow, e]
  | recorded roomId body => rfl
  | deliver a message =>
      cases message with
      | roomText roomId body => by_cases e : a = s <;> simp [mark, follow, e]
      | _ => rfl
  | _ => rfl

theorem received_marks (trace : List Effect) : received (marks s trace) = roomTexts s trace := by
  rw [received, marks, List.filterMap_filterMap, roomTexts]
  congr 1
  funext effect
  cases effect with
  | enter a roomId history => by_cases e : a = s <;> simp [mark, e]
  | leave a roomId => by_cases e : a = s <;> simp [mark, e]
  | deliver a message =>
      cases message with
      | roomText roomId body => by_cases e : a = s <;> simp [mark, e]
      | _ => rfl
  | _ => rfl

theorem published_marks (roomId : RoomId) (trace : List Effect) :
    published roomId (marks s trace) = messagesOf roomId trace := by
  rw [published, marks, List.filterMap_filterMap, messagesOf]
  congr 1
  funext effect
  cases effect with
  | enter a roomId history => by_cases e : a = s <;> simp [mark, e]
  | leave a roomId => by_cases e : a = s <;> simp [mark, e]
  | deliver a message =>
      cases message with
      | roomText roomId body => by_cases e : a = s <;> simp [mark, e]
      | _ => rfl
  | _ => rfl

end Readings

section Acceptance

variable {roomId : RoomId}

/-- A session takes what it is owed, in order. -/
theorem run_observe_owed (owed : List Bytes) :
    Run.run observe ⟨some roomId, owed⟩ (owed.map fun body => .receive roomId body) =
      some ⟨some roomId, []⟩ := by
  induction owed with
  | nil => rfl
  | cons body owed ih => simpa [Run.run, observe] using ih

theorem run_retain_received {limit : Nat} {r : RoomId} {history : List Bytes}
    (bodies : List Bytes) :
    Run.run (retain limit r) history (bodies.map fun body => .receive roomId body) =
      some history := by
  induction bodies with
  | nil => rfl
  | cons body bodies ih => simpa [Run.run, retain] using ih

end Acceptance

/-- The trace grows by marks that the acceptors take from the one server to the other. -/
def Accounts (env : Env) (s : SessionId) (a b : Due × ChatServer) : Prop :=
  ∃ new, marks s b.2.output.trace = marks s a.2.output.trace ++ new ∧
    Run.run observe ⟨a.2.tables.seatOf s, a.1.owedTo s⟩ new =
      some ⟨b.2.tables.seatOf s, b.1.owedTo s⟩ ∧
    ∀ r, Run.run (retain env.historyLimit r) (a.2.tables.recentOf r) new =
      some (b.2.tables.recentOf r)

namespace Accounts

variable {env : Env} {s : SessionId} {a b c : Due × ChatServer}

theorem refl (a : Due × ChatServer) : Accounts env s a a :=
  ⟨[], by simp, rfl, fun _ => rfl⟩

theorem trans (hab : Accounts env s a b) (hbc : Accounts env s b c) : Accounts env s a c := by
  obtain ⟨new, hmarks, hseat, hrecent⟩ := hab
  obtain ⟨new', hmarks', hseat', hrecent'⟩ := hbc
  refine ⟨new ++ new', ?_, ?_, fun r => ?_⟩
  · rw [hmarks', hmarks, List.append_assoc]
  · exact Run.run_append.mpr ⟨_, hseat, hseat'⟩
  · exact Run.run_append.mpr ⟨_, hrecent r, hrecent' r⟩

/-- Nothing that concerns the session, and no history changed. -/
theorem unmarked {new : List Effect} (htrace : b.2.output.trace = a.2.output.trace ++ new)
    (none : marks s new = []) (seat : b.2.tables.seatOf s = a.2.tables.seatOf s)
    (owed : b.1.owedTo s = a.1.owedTo s)
    (recent : ∀ r, b.2.tables.recentOf r = a.2.tables.recentOf r) : Accounts env s a b := by
  refine ⟨[], ?_, ?_, fun r => ?_⟩
  · rw [htrace, marks_append, none]
  · rw [seat, owed]
    rfl
  · rw [recent r]
    rfl

theorem emitted {P : Effect → Prop} (emits : Emits P a.2 b.2) (none : ∀ e, P e → mark s e = none)
    (seat : b.2.tables.seatOf s = a.2.tables.seatOf s) (owed : b.1.owedTo s = a.1.owedTo s)
    (recent : ∀ r, b.2.tables.recentOf r = a.2.tables.recentOf r) : Accounts env s a b := by
  obtain ⟨new, htrace, hnew⟩ := emits
  exact unmarked htrace (marks_none fun e he => none e (hnew e he)) seat owed recent

end Accounts

namespace ServerTables

variable {tables : ServerTables} {s a : SessionId} {roomId r : RoomId}

theorem recentOf_updateRoom {change : Room → Room}
    (h : ∀ room, (change room).recentMessages = room.recentMessages) :
    (tables.updateRoom roomId change).recentOf r = tables.recentOf r := by
  simp only [recentOf, updateRoom_getElem?]
  split
  · cases tables.rooms[r]? <;> simp [h]
  · rfl

theorem recentOf_eraseMember : (tables.eraseMember s roomId).recentOf r = tables.recentOf r :=
  recentOf_updateRoom fun _ => rfl

theorem recentOf_insertMember : (tables.insertMember s roomId).recentOf r = tables.recentOf r :=
  recentOf_updateRoom fun _ => rfl

theorem recentOf_placeSession : (tables.placeSession s roomId).recentOf r = tables.recentOf r :=
  recentOf_insertMember.trans recentOf_eraseMember

theorem recentOf_dropSession : (tables.dropSession s).recentOf r = tables.recentOf r := by
  unfold dropSession
  simp only
  split
  · rfl
  · exact recentOf_eraseMember

theorem recentOf_insertRoom {room : Room} (h : room.recentMessages = []) :
    (tables.insertRoom roomId room).recentOf r = tables.recentOf r := by
  simp only [recentOf, insertRoom, OrderedMap.getElem?_insertIfNew]
  split
  · cases tables.rooms[r]? <;> simp [h]
  · rfl

theorem seatOf_updateSession {change : ClientSession → ClientSession}
    (h : ∀ session, (change session).activeRoomId = session.activeRoomId) :
    (tables.updateSession a change).seatOf s = tables.seatOf s := by
  simp only [seatOf, updateSession_session]
  split
  · next e => rw [h, e]
  · rfl

theorem seatOf_dropSession :
    (tables.dropSession a).seatOf s = if s = a then none else tables.seatOf s := by
  simp only [seatOf, dropSession_session]
  by_cases e : s = a
  · simp [e]
  · simp [e]

theorem seatOf_placeSession (hne : roomId ≠ 0) :
    (tables.placeSession a roomId).seatOf s = if s = a then some roomId else tables.seatOf s := by
  simp only [seatOf, placeSession_session]
  by_cases e : s = a
  · simp [e, hne]
  · simp [e]

theorem mem_members (hc : tables.Consistent) : s ∈ tables.members r ↔ tables.seatOf s = some r := by
  rw [hc.member_iff, seatOf]
  constructor
  · rintro ⟨rfl, hne⟩
    exact if_neg hne
  · intro h
    split at h
    · cases h
    · next hne => exact ⟨Option.some.inj h, Option.some.inj h ▸ hne⟩

end ServerTables

namespace ChatServer

variable {env : Env} {server : ChatServer} {s : SessionId} {roomId : RoomId} {room : Room}

/-- A membership ends with a mark, where there is one. -/
theorem noteLeave_trace (hc : server.tables.Consistent) :
    (server.noteLeave s (server.tables.session s).activeRoomId).output.trace =
      server.output.trace ++
        if (server.tables.session s).activeRoomId = 0 then []
        else [.leave s (server.tables.session s).activeRoomId] := by
  have member : server.tables.isMember s (server.tables.session s).activeRoomId = true ↔
      (server.tables.session s).activeRoomId ≠ 0 := by
    rw [ServerTables.isMember_iff, hc.member_iff]
    exact and_iff_right rfl
  unfold noteLeave
  by_cases h : (server.tables.session s).activeRoomId = 0
  · rw [if_neg fun hm => member.mp hm h, if_pos h, List.append_nil]
  · rw [if_pos (member.mpr h), if_neg h, note_trace]

theorem withdraw_trace (hc : server.tables.Consistent) :
    (server.withdraw s).output.trace = server.output.trace ++
      if (server.tables.session s).activeRoomId = 0 then []
      else [.leave s (server.tables.session s).activeRoomId] := by
  have member : s ∈ server.tables.members (server.tables.session s).activeRoomId ↔
      (server.tables.session s).activeRoomId ≠ 0 := by
    rw [hc.member_iff]
    exact and_iff_right rfl
  unfold withdraw
  simp only
  by_cases h : (server.tables.session s).activeRoomId = 0
  · rw [if_pos h, if_pos h, List.append_nil]
    rfl
  · have inside : ServerTables.isMember (((server.onTables fun tables =>
        { tables with sessions := tables.sessions.erase s }).updateSession s fun session =>
          { session with activeRoomId := 0 }).tables) s
            (server.tables.session s).activeRoomId = true :=
      ServerTables.isMember_iff.mpr (member.mpr h)
    rw [if_neg h, if_neg h, onTables_trace, noteLeave, if_pos inside, note_trace]
    rfl

theorem withdraw_tables : (server.withdraw s).tables = server.tables.dropSession s := by
  unfold withdraw ServerTables.dropSession
  simp only
  split
  · rfl
  · rw [onTables, noteLeave_tables]
    rfl

theorem enterRoom_tables :
    (server.enterRoom s roomId room).tables = server.tables.placeSession s roomId := by
  rw [enterRoom, note_tables, onTables, noteLeave_tables]

theorem enterRoom_trace (hc : server.tables.Consistent) :
    (server.enterRoom s roomId room).output.trace = server.output.trace ++
      ((if (server.tables.session s).activeRoomId = 0 then []
        else [.leave s (server.tables.session s).activeRoomId]) ++
        [.enter s roomId room.recentMessages]) := by
  rw [enterRoom, note_trace, onTables_trace, noteLeave_trace hc, List.append_assoc]

theorem broadcastRoom_trace {msg nickname : Bytes} (present : server.tables.rooms[roomId]? = some room) :
    ∃ tail, (server.broadcastRoom env roomId msg nickname).output.trace = server.output.trace ++
        (.recorded roomId msg :: room.members.toList.map fun a =>
          .deliver a (.roomText roomId msg)) ++ tail ∧ ∀ e ∈ tail, Mute e := by
  have stored (a : ChatServer) : Emits Mute a
      (if env.config.hasStorage then a.storeMessage env roomId nickname msg else a) := by
    split
    · exact store_emits trivial
    · exact .refl a
  have host (a : ChatServer) (p : Prop) [Decidable p] :
      (if p then a.onHost (·.pushMessage msg) else a).output.trace = a.output.trace := by
    split <;> rfl
  simp only [broadcastRoom, present]
  obtain ⟨tail, htail, mute⟩ := stored _
  refine ⟨tail, htail.trans ?_, mute⟩
  rw [deliverAll_trace, host, recordMessage, note_trace, onTables_trace]
  simp

theorem broadcastRoom_tables {msg nickname : Bytes}
    (present : server.tables.rooms[roomId]? = some room) :
    (server.broadcastRoom env roomId msg nickname).tables =
      { server.tables with
        rooms := server.tables.rooms.insert roomId
          { room with recentMessages := remember env.historyLimit room.recentMessages msg } } := by
  simp only [broadcastRoom, present]
  rw [ite_tables (storeMessage_tables _ _ _ _ _), deliverAll_tables, ite_tables (onHost_tables _ _)]
  rfl

theorem broadcastRoom_recentOf {msg nickname : Bytes} {r : RoomId}
    (present : server.tables.rooms[roomId]? = some room) :
    (server.broadcastRoom env roomId msg nickname).tables.recentOf r =
      if roomId = r then remember env.historyLimit (server.tables.recentOf r) msg
      else server.tables.recentOf r := by
  rw [broadcastRoom_tables present]
  simp only [ServerTables.recentOf, OrderedMap.getElem?_insert]
  split
  · next e =>
      subst e
      simp [present]
  · rfl

end ChatServer

section Acts

open ChatServer

variable {env : Env} {due due' : Due} {server server' : ChatServer} {s : SessionId}

theorem onTables_accounts {change : ServerTables → ServerTables}
    (seat : (change server.tables).seatOf s = server.tables.seatOf s)
    (recent : ∀ r, (change server.tables).recentOf r = server.tables.recentOf r)
    (owed : due'.owedTo s = due.owedTo s) :
    Accounts env s (due, server) (due', server.onTables change) :=
  .unmarked (List.append_nil _).symm rfl seat owed recent

theorem muted_accounts (h : Muted env server server') :
    Accounts env s (due, server) (due, server') := by
  refine .emitted h.emits (fun e => mark_mute) ?_ rfl fun r => ?_
  · simp only [ServerTables.seatOf, h.activeRoomId]
  · simp only [ServerTables.recentOf, h.rooms]

theorem aside_accounts {a : SessionId} {message : ServerMessage} (h : Aside message) :
    Accounts env s (due, server) (due, server.deliver a message) :=
  .unmarked (deliver_trace message) (marks_none (by simpa using mark_aside h)) rfl rfl fun _ => rfl

/-- The mark of a membership that ends. -/
theorem marks_leave {a : SessionId} :
    marks s (if (server.tables.session a).activeRoomId = 0 then []
      else [.leave a (server.tables.session a).activeRoomId]) =
        if s = a then ((server.tables.seatOf s).map Mark.leave).toList else [] := by
  by_cases e : s = a
  · subst e
    by_cases h : (server.tables.session s).activeRoomId = 0
    · simp [marks, ServerTables.seatOf, h]
    · simp [marks, mark, ServerTables.seatOf, h]
  · have other : ∀ roomId, mark s (.leave a roomId) = none := fun _ => if_neg (Ne.symm e)
    rw [if_neg e]
    refine marks_none fun effect he => ?_
    split at he
    · cases he
    · exact List.mem_singleton.mp he ▸ other _

theorem run_observe_leave (seat : Option RoomId) :
    Run.run observe ⟨seat, ([] : List Bytes)⟩ (seat.map Mark.leave).toList = some {} := by
  cases seat with
  | none => rfl
  | some roomId => simp [Run.run, observe]

theorem run_retain_leave {limit : Nat} {r : RoomId} {history : List Bytes}
    (seat : Option RoomId) :
    Run.run (retain limit r) history (seat.map Mark.leave).toList = some history := by
  cases seat <;> rfl

theorem Due.leaving_arrival {roomId : RoomId} : (due.leaving roomId).arrival = due.arrival := by
  unfold Due.leaving
  split <;> rfl

theorem Due.owedTo_congr (h : due'.arrival = due.arrival) : due'.owedTo s = due.owedTo s := by
  rw [owedTo, owedTo, h]

theorem Due.owedTo_calm (calm : due.arrival = none) : due.owedTo s = [] := by
  rw [owedTo, calm]

/-- Who sits in another room than the one just entered is owed nothing. -/
theorem Due.owedTo_seated {roomId : RoomId} {tables : ServerTables} (calm : due.CalmIn roomId)
    (seated : ∀ s room, due.arrival = some (s, room) → tables.seatOf s = some room.id)
    (inside : tables.seatOf s = some roomId) : due.owedTo s = [] := by
  cases arrived : due.arrival with
  | none => exact owedTo_calm arrived
  | some entry =>
      obtain ⟨a, room⟩ := entry
      rw [owedTo, arrived]
      refine if_neg fun e => calm a room arrived ?_
      have seat := seated a room arrived
      rw [e, inside] at seat
      exact (Option.some.inj seat).symm

theorem withdraw_accounts {a : SessionId} (hc : server.tables.Consistent)
    (calm : due.arrival = none) :
    Accounts env s (due, server)
      (due.leaving (server.tables.session a).activeRoomId, server.withdraw a) := by
  have calm' := (@Due.leaving_arrival due (server.tables.session a).activeRoomId).trans calm
  have hmarks : marks s (server.withdraw a).output.trace = marks s server.output.trace ++
      if s = a then ((server.tables.seatOf s).map Mark.leave).toList else [] := by
    rw [withdraw_trace hc, marks_append, marks_leave]
  refine ⟨_, hmarks, ?_, fun r => ?_⟩
  · rw [Due.owedTo_calm calm, Due.owedTo_calm calm', withdraw_tables,
      ServerTables.seatOf_dropSession]
    split
    · exact run_observe_leave _
    · rfl
  · rw [withdraw_tables, ServerTables.recentOf_dropSession]
    split
    · exact run_retain_leave _
    · rfl

theorem enter_accounts {a : SessionId} {roomId : RoomId} {room : Room}
    (hc : server.tables.Consistent) (calm : due.arrival = none)
    (arrived : due'.arrival = some (a, room))
    (present : server.tables.rooms[roomId]? = some room) :
    Accounts env s (due, server) (due', server.enterRoom a roomId room) := by
  have hne : roomId ≠ 0 := fun e =>
    absurd (hc.rooms.key roomId room present).2.1 (by rw [e]; decide)
  have recent : server.tables.recentOf roomId = room.recentMessages := by
    simp [ServerTables.recentOf, present]
  have hmarks : marks s (server.enterRoom a roomId room).output.trace =
      marks s server.output.trace ++
        if s = a then ((server.tables.seatOf s).map Mark.leave).toList ++
          [.join roomId room.recentMessages] else [] := by
    rw [enterRoom_trace hc, marks_append, marks_append, marks_leave]
    by_cases e : s = a
    · simp [e, marks, mark]
    · simp [e, Ne.symm e, marks, mark]
  refine ⟨_, hmarks, ?_, fun r => ?_⟩
  · rw [Due.owedTo_calm calm, enterRoom_tables, ServerTables.seatOf_placeSession hne]
    by_cases e : s = a
    · rw [if_pos e, if_pos e]
      refine Run.run_append.mpr ⟨_, run_observe_leave _, ?_⟩
      simp [Run.run, observe, Due.owedTo, arrived, e]
    · simp [e, Ne.symm e, Run.run, Due.owedTo, arrived]
  · rw [enterRoom_tables, ServerTables.recentOf_placeSession]
    split
    · refine Run.run_append.mpr ⟨_, run_retain_leave _, ?_⟩
      by_cases e : roomId = r
      · subst e
        simp [Run.run, retain, recent]
      · simp [Run.run, retain, e]
    · rfl

theorem welcome_accounts {a : SessionId} {room : Room} (arrived : due.arrival = some (a, room))
    (calm : due'.arrival = none) (seated : server.tables.seatOf a = some room.id) :
    Accounts env s (due, server) (due', server.welcome a room) := by
  have hmarks : marks s (server.welcome a room).output.trace = marks s server.output.trace ++
      if s = a then room.recentMessages.map fun body => .receive room.id body else [] := by
    rw [welcome, deliverHistory_trace, deliver_trace, List.append_assoc, marks_append]
    have others : marks s [.deliver a (.roomJoined room.id room.name room.topic)] = [] := rfl
    have title (text : Bytes) (effects : List Effect) :
        marks s (.deliver a (.text text) :: effects) = marks s effects := rfl
    rw [marks_append, others, List.nil_append]
    congr 1
    split
    · next empty =>
        rw [List.isEmpty_iff.mp empty]
        split <;> rfl
    · rw [title, marks_history]
      simp only [eq_comm]
  refine ⟨_, hmarks, ?_, fun r => ?_⟩
  · rw [Due.owedTo_calm calm, welcome_tables]
    by_cases e : s = a
    · subst e
      simpa [Due.owedTo, arrived, seated] using run_observe_owed room.recentMessages
    · simp [e, Ne.symm e, Run.run, Due.owedTo, arrived]
  · rw [welcome_tables]
    split
    · exact run_retain_received _
    · rfl

theorem broadcastRoom_accounts {roomId : RoomId} {msg nickname : Bytes}
    (hc : server.tables.Consistent) (calm : due.CalmIn roomId)
    (seated : ∀ s room, due.arrival = some (s, room) → server.tables.seatOf s = some room.id) :
    Accounts env s (due, server) (due, server.broadcastRoom env roomId msg nickname) := by
  cases present : server.tables.rooms[roomId]? with
  | none =>
      simp only [broadcastRoom, present]
      exact .refl _
  | some room =>
      obtain ⟨tail, htrace, mute⟩ := @broadcastRoom_trace env server roomId room msg nickname present
      have member : s ∈ room.members.toList ↔ server.tables.seatOf s = some roomId := by
        rw [← ServerTables.mem_members hc, ServerTables.members, present,
          Std.ExtTreeSet.mem_toList]
      have hmarks : marks s (server.broadcastRoom env roomId msg nickname).output.trace =
          marks s server.output.trace ++ (.publish roomId msg ::
            if server.tables.seatOf s = some roomId then [.receive roomId msg] else []) := by
        have first (effects : List Effect) : marks s (.recorded roomId msg :: effects) =
          .publish roomId msg :: marks s effects := rfl
        rw [htrace, marks_append, marks_append, marks_none fun e he => mark_mute (mute e he),
          List.append_nil, first, marks_deliverTexts (OrderedMap.nodup_toList _)]
        simp only [member]
      refine ⟨_, hmarks, ?_, fun r => ?_⟩
      · rw [broadcastRoom_tables present]
        change Run.run observe ⟨server.tables.seatOf s, due.owedTo s⟩ _ =
          some ⟨server.tables.seatOf s, due.owedTo s⟩
        by_cases inside : server.tables.seatOf s = some roomId
        · have settled := Due.owedTo_seated calm seated inside
          simp [Run.run, observe, inside, settled]
        · simp [Run.run, observe, inside]
      · rw [broadcastRoom_recentOf present]
        by_cases inside : server.tables.seatOf s = some roomId
        · simp [Run.run, retain, inside]
        · simp [Run.run, retain, inside]

theorem Act.accounts (h : Act env (due, server) (due', server')) (ho : Orderly env server)
    (seated : ∀ s room, due.arrival = some (s, room) → server.tables.seatOf s = some room.id) :
    Accounts env s (due, server) (due', server') := by
  cases h with
  | muted _ h => exact muted_accounts h
  | accept _ _ a absent =>
      refine onTables_accounts ?_ (fun r => rfl) rfl
      exact ServerTables.seatOf_updateSession fun _ => rfl
  | greet _ _ a waiting =>
      have greeted : Accounts env s (due, server) (due, server.deliver a (.hello VERSION)) :=
        .unmarked (deliver_trace (.hello VERSION)) rfl rfl rfl fun r => rfl
      refine greeted.trans (onTables_accounts ?_ (fun r => rfl) rfl)
      exact ServerTables.seatOf_updateSession fun _ => rfl
  | stop _ _ a gone =>
      refine onTables_accounts ?_ (fun r => rfl) rfl
      exact ServerTables.seatOf_updateSession fun _ => rfl
  | aside _ _ a message awake h => exact aside_accounts h
  | withdraw _ _ a calm => exact withdraw_accounts ho.consistent calm
  | expel _ _ a message calm known h =>
      have closed : Accounts env s (due, server) (due, (server.deliver a message).close a) :=
        (aside_accounts h).trans (.unmarked close_trace rfl rfl rfl fun _ => rfl)
      exact closed.trans (withdraw_accounts ho.consistent calm)
  | name _ _ a calm reading unnamed named free bound =>
      refine onTables_accounts ?_ (fun r => rfl) rfl
      exact ServerTables.seatOf_updateSession fun _ => rfl
  | enter _ _ a roomId room calm mine reading named present other =>
      exact enter_accounts ho.consistent calm rfl present
  | welcome _ _ a room arrived =>
      exact welcome_accounts arrived rfl (seated a room arrived)
  | broadcastRoom _ _ roomId msg nickname calm =>
      exact broadcastRoom_accounts ho.consistent calm seated
  | broadcastUsers _ _ roomId calm =>
      refine .unmarked (broadcastUsers_trace roomId) (marks_deliverAll nofun) ?_ rfl fun r => ?_
      · simp only [broadcastUsers_tables]
      · simp only [broadcastUsers_tables]
  | broadcastRoomLists _ _ =>
      refine .unmarked broadcastRoomLists_trace (marks_deliverAll nofun) ?_ rfl fun r => ?_
      · simp only [broadcastRoomLists_tables]
      · simp only [broadcastRoomLists_tables]
  | sendRoomList _ _ a awake named => exact .unmarked (deliver_trace _) rfl rfl rfl fun r => rfl
  | sendTopic _ _ a calm awake =>
      refine .unmarked sendTopic_trace ?_ ?_ rfl fun r => ?_
      · cases server.tables.rooms[(server.tables.session a).activeRoomId]? <;> rfl
      · simp only [sendTopic_tables]
      · simp only [sendTopic_tables]
  | insertRoom _ _ name ownerNickname valid below fresh =>
      exact onTables_accounts rfl (fun r => ServerTables.recentOf_insertRoom rfl) rfl
  | host _ _ roomId present =>
      refine onTables_accounts rfl (fun r => rfl) ?_
      exact Due.owedTo_congr Due.leaving_arrival
  | topic _ _ saved roomId topic room calm valid present saving =>
      have changed : Accounts env s (due, server) (due, server.onTables fun tables =>
          tables.updateRoom roomId fun room => { room with topic }) :=
        onTables_accounts rfl (fun r => ServerTables.recentOf_updateRoom fun _ => rfl) rfl
      have written : Accounts env s (due, saved) (due, saved.deliverAll room.members.toList
          (.roomTopic roomId topic)) := by
        refine .unmarked (deliverAll_trace _ _) (marks_deliverAll nofun) ?_ rfl fun r => ?_
        · simp only [deliverAll_tables]
        · simp only [deliverAll_tables]
      exact (changed.trans (muted_accounts saving)).trans written

/-- Who has just entered a room is in it. -/
def Seated (due : Due) (server : ChatServer) : Prop :=
  ∀ s room, due.arrival = some (s, room) → server.tables.seatOf s = some room.id

/-- The tables keep every seat, and nobody enters. -/
theorem Seated.of_seats (seated : Seated due server)
    (seats : ∀ s, server'.tables.seatOf s = server.tables.seatOf s)
    (arrival : due'.arrival = due.arrival) : Seated due' server' := fun s room arrived =>
  (seats s).trans (seated s room (arrival ▸ arrived))

theorem Seated.updateSession {a : SessionId} {change : ClientSession → ClientSession}
    (seated : Seated due server)
    (keeps : ∀ session, (change session).activeRoomId = session.activeRoomId) :
    Seated due (server.updateSession a change) :=
  seated.of_seats (fun _ => ServerTables.seatOf_updateSession keeps) rfl

theorem Seated.of_calm (calm : due.arrival = none) : Seated due server := by
  intro s room arrived
  rw [calm] at arrived
  cases arrived

theorem Act.seated (h : Act env (due, server) (due', server')) (hc : server.tables.Consistent)
    (seated : Seated due server) : Seated due' server' := by
  cases h with
  | muted _ h =>
      exact seated.of_seats (fun s => by simp only [ServerTables.seatOf, h.activeRoomId]) rfl
  | accept _ _ a absent =>
      refine Seated.updateSession ?_ fun _ => rfl
      exact seated
  | greet _ _ a waiting =>
      refine Seated.updateSession ?_ fun _ => rfl
      exact seated
  | stop _ _ a gone =>
      refine Seated.updateSession ?_ fun _ => rfl
      exact seated
  | name _ _ a calm reading unnamed named free bound =>
      refine Seated.updateSession ?_ fun _ => rfl
      exact seated
  | withdraw _ _ a calm => exact .of_calm (Due.leaving_arrival.trans calm)
  | expel _ _ a message calm known h => exact .of_calm (Due.leaving_arrival.trans calm)
  | enter _ _ a roomId room calm mine reading named present other =>
      intro s room' arrived
      obtain ⟨rfl, rfl⟩ := Prod.mk.inj (Option.some.inj arrived)
      obtain ⟨rfl, hpos, -⟩ := hc.rooms.key roomId room present
      rw [enterRoom_tables, ServerTables.seatOf_placeSession fun e => absurd hpos (by simp [e]),
        if_pos rfl]
  | welcome _ _ a room arrived => exact .of_calm rfl
  | aside _ _ a message awake h => exact seated.of_seats (fun s => rfl) rfl
  | broadcastRoom _ _ roomId msg nickname calm =>
      have same := congrArg ServerTables.session
        (server.broadcastRoom_roster env roomId msg nickname)
      change (server.broadcastRoom env roomId msg nickname).tables.session =
        server.tables.session at same
      exact seated.of_seats (fun s => by simp only [ServerTables.seatOf, same]) rfl
  | broadcastUsers _ _ roomId calm =>
      exact seated.of_seats (fun s => by simp only [broadcastUsers_tables]) rfl
  | broadcastRoomLists _ _ =>
      exact seated.of_seats (fun s => by simp only [broadcastRoomLists_tables]) rfl
  | sendRoomList _ _ a awake named => exact seated.of_seats (fun s => rfl) rfl
  | sendTopic _ _ a calm awake =>
      exact seated.of_seats (fun s => by simp only [sendTopic_tables]) rfl
  | insertRoom _ _ name ownerNickname valid below fresh => exact seated.of_seats (fun s => rfl) rfl
  | host _ _ roomId present => exact seated.of_seats (fun s => rfl) Due.leaving_arrival
  | topic _ _ saved roomId topic room calm valid present saving => exact .of_calm calm

end Acts

/-- What the trace so far has given each session, against the server's tables. -/
structure Accounted (env : Env) (first : ServerTables) (due : Due) (server : ChatServer) :
    Prop where
  orderly : Orderly env server
  seated : Seated due server
  seats : ∀ s, Run.run observe {} (marks s server.output.trace) =
    some ⟨server.tables.seatOf s, due.owedTo s⟩
  recents : ∀ s r, Run.run (retain env.historyLimit r) (first.recentOf r)
    (marks s server.output.trace) = some (server.tables.recentOf r)

section Runs

variable {env : Env} {stored : StoredState} {server server' : ChatServer}

theorem Act.accounted {first : ServerTables} {due due' : Due}
    (h : Act env (due, server) (due', server')) (ha : Accounted env first due server) :
    Accounted env first due' server' := by
  have accounts (s : SessionId) : Accounts env s (due, server) (due', server') :=
    h.accounts ha.orderly ha.seated
  refine ⟨(Acts.one h).orderly ha.orderly, h.seated ha.orderly.consistent ha.seated, fun s => ?_,
    fun s r => ?_⟩
  · obtain ⟨new, hmarks, hseat, -⟩ := accounts s
    exact hmarks ▸ Run.run_append.mpr ⟨_, ha.seats s, hseat⟩
  · obtain ⟨new, hmarks, -, hrecent⟩ := accounts s
    exact hmarks ▸ Run.run_append.mpr ⟨_, ha.recents s r, hrecent r⟩

theorem start_accounted (env : Env) (stored : StoredState) :
    Accounted env (ChatServer.start env stored).tables {} (ChatServer.start env stored) := by
  have none (s : SessionId) : marks s (ChatServer.start env stored).output.trace = [] := by
    refine marks_none fun e he => ?_
    obtain ⟨write, rfl⟩ := ChatServer.start_stores env stored e he
    rfl
  refine ⟨reachable_orderly ⟨[], rfl⟩, nofun, fun s => ?_, fun s r => ?_⟩
  · rw [none, ServerTables.seatOf, (start_tables env stored).2.2.2]
    rfl
  · rw [none]
    rfl

theorem reachable_accounted (h : Reachable env stored server) :
    Accounted env (ChatServer.start env stored).tables {} server := by
  obtain ⟨events, h⟩ := h
  have keeps (a : ChatServer) (event : Event) (b : ChatServer)
      (ha : Accounted env (ChatServer.start env stored).tables {} a)
      (hstep : step env a event = some b) :
      Accounted env (ChatServer.start env stored).tables {} b :=
    Acts.invariant (fun _ _ _ _ act => act.accounted) (step_settles ha.orderly hstep) ha
  exact Run.run_invariant keeps h (start_accounted env stored)

/-- From its entering a room to its leaving it a session is passed the history the room
had then and what has been said there since, in order and once, and nothing is passed
to it from a room it is not in. -/
theorem reachable_roomTexts (env : Env) (stored : StoredState) (server : ChatServer)
    (h : Reachable env stored server) :
    (∀ s r before history during after,
      server.output.trace = before ++ .enter s r history :: (during ++ after) →
      (∀ r', Effect.leave s r' ∉ during) →
      (after = [] ∨ ∃ r' rest, after = .leave s r' :: rest) →
      roomTexts s during = (history ++ messagesOf r during).map (Prod.mk r) ∧
      history = (messagesOf r before).foldl (remember env.historyLimit)
        ((ChatServer.start env stored).tables.recentOf r)) ∧
    (∀ s r body before after,
      server.output.trace = before ++ .deliver s (.roomText r body) :: after →
      lastRoom s before = some r) ∧
    (∀ s r, s ∈ server.tables.members r ↔ lastRoom s server.output.trace = some r) ∧
    ∀ r, server.tables.recentOf r = (messagesOf r server.output.trace).foldl
      (remember env.historyLimit) ((ChatServer.start env stored).tables.recentOf r) := by
  have accounted := reachable_accounted h
  have enters {s : SessionId} {r : RoomId} {history : List Bytes} {rest : List Effect} :
      marks s (.enter s r history :: rest) = .join r history :: marks s rest := by
    simp [marks, mark]
  refine ⟨fun s r before history during after htrace stays ends => ?_,
    fun s r body before after htrace => ?_, fun s r => ?_, fun r => ?_⟩
  · have hseat := accounted.seats s
    have hrecent := accounted.recents s r
    have split : marks s server.output.trace =
        marks s before ++ .join r history :: (marks s during ++ marks s after) := by
      rw [htrace, marks_append, enters, marks_append]
    rw [split] at hseat hrecent
    constructor
    · rw [← received_marks, ← published_marks (s := s)]
      refine run_stay hseat (fun r' hmem => ?_) ?_
      · obtain ⟨e, he, hmark⟩ := List.mem_filterMap.mp hmem
        exact stays r' (mark_leave hmark ▸ he)
      · rcases ends with rfl | ⟨r', rest, rfl⟩
        · exact .inl ⟨rfl, rfl⟩
        · refine .inr ⟨r', marks s rest, ?_⟩
          simp [marks, mark]
    · rw [← published_marks (s := s)]
      exact join_retained hrecent
  · have hseat := accounted.seats s
    have split : marks s server.output.trace =
        marks s before ++ .receive r body :: marks s after := by
      rw [htrace, marks_append]
      simp [marks, mark]
    rw [split] at hseat
    rw [← follow_marks]
    exact receive_seated hseat
  · rw [ServerTables.mem_members accounted.orderly.consistent, ← follow_marks,
      ← run_follow (accounted.seats s)]
  · rw [← published_marks (s := 0)]
    exact run_retain (accounted.recents 0 r)

/-- A trace up to a session's first entering of an empty lobby, and what follows. -/
def splitAtEntering (s : SessionId) (trace : List Effect) : List Effect × List Effect :=
  let (before, rest) := trace.span fun e => e ≠ .enter s DEFAULT_ROOM_ID []
  (before, rest.drop 1)

theorem reachable_roomTexts_two :
    ∃ server before during,
      serverAfter (visit 7 (ascii "ann") ++ visit 3 (ascii "bob")) = some server ∧
      server.output.trace = before ++ .enter 7 DEFAULT_ROOM_ID [] :: (during ++ []) ∧
      roomTexts 7 during =
        [(DEFAULT_ROOM_ID, ascii "[system] ann joined #lobby"),
          (DEFAULT_ROOM_ID, ascii "[system] bob joined #lobby")] := by
  obtain ⟨server, hserver, reachable, htrace, stays, said⟩ :=
    exists_serverAfter (visit 7 (ascii "ann") ++ visit 3 (ascii "bob"))
      (fun server => server.output.trace = (splitAtEntering 7 server.output.trace).1 ++
          .enter 7 DEFAULT_ROOM_ID [] :: ((splitAtEntering 7 server.output.trace).2 ++ []) ∧
        ((splitAtEntering 7 server.output.trace).2.all fun e => match e with
          | .leave _ _ => false
          | _ => true) = true ∧
        messagesOf DEFAULT_ROOM_ID (splitAtEntering 7 server.output.trace).2 =
          [ascii "[system] ann joined #lobby", ascii "[system] bob joined #lobby"])
      (by decide +kernel)
  generalize (splitAtEntering 7 server.output.trace).1 = before at htrace
  generalize (splitAtEntering 7 server.output.trace).2 = during at htrace stays said
  have leaves : ∀ r, Effect.leave 7 r ∉ during := fun r hmem =>
    absurd (List.all_eq_true.mp stays _ hmem) (by simp)
  have texts := ((reachable_roomTexts .plain emptyStore server reachable).1 7 DEFAULT_ROOM_ID before
    [] during [] htrace leaves (.inl rfl)).1
  refine ⟨server, before, during, hserver, htrace, texts.trans ?_⟩
  rw [said, List.nil_append, List.map_cons, List.map_cons, List.map_nil]

end Runs

end Chatbox.Chat
