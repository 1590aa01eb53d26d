import Chatbox.Chat.Alike
import Chatbox.Chat.Screen
import Chatbox.Chat.Sendable

/-!
Whispers are private: two runs that differ in the body of one are the same for everybody
but its sender and its target, and these two are all who get it.
-/

namespace Chatbox.Chat

open Text Protocol Storage

namespace ServerTables

variable (tables : ServerTables)

/-- The members of each room have different nicknames. -/
def DistinctNames : Prop :=
  ∀ r, ∀ s ∈ tables.members r, ∀ t ∈ tables.members r,
    (tables.session s).nickname = (tables.session t).nickname → s = t

/-- The session that a whisper from another one is addressed to. -/
def Addressed (s : SessionId) (target : Bytes) (t : SessionId) : Prop :=
  t ∈ tables.members (tables.session s).activeRoomId ∧ (tables.session t).nickname = target

/-- The whisper is addressed to the host. -/
def HostAddressed (env : Env) (s : SessionId) (target : Bytes) : Prop :=
  tables.hostIn env (tables.session s).activeRoomId = true ∧ target = env.config.localNickname

instance (s : SessionId) (target : Bytes) (t : SessionId) :
    Decidable (tables.Addressed s target t) :=
  inferInstanceAs (Decidable (_ ∧ _))

instance (env : Env) (s : SessionId) (target : Bytes) :
    Decidable (tables.HostAddressed env s target) :=
  inferInstanceAs (Decidable (_ ∧ _))

theorem distinctNames_iff : tables.DistinctNames ↔ ∀ item ∈ tables.rooms.toList,
    ∀ s ∈ item.2.members.toList, ∀ t ∈ item.2.members.toList,
      (tables.session s).nickname = (tables.session t).nickname → s = t := by
  constructor
  · intro distinct item listed s hs t ht
    have present := Std.ExtTreeMap.mem_toList_iff_getElem?_eq_some.mp listed
    refine distinct item.1 s ?_ t ?_
    · simpa [members, present] using hs
    · simpa [members, present] using ht
  · intro distinct r s hs t ht
    cases present : tables.rooms[r]? with
    | none => simp [members, present] at hs
    | some room =>
        refine distinct (r, room) (Std.ExtTreeMap.mem_toList_iff_getElem?_eq_some.mpr present) s ?_
          t ?_
        · simpa [members, present] using hs
        · simpa [members, present] using ht

instance : Decidable tables.DistinctNames := decidable_of_iff _ tables.distinctNames_iff.symm

/-- Those a whisper is meant for. -/
def partners (env : Env) (s : SessionId) (target : Bytes) : Hidden where
  session t := decide (t = s ∨ tables.Addressed s target t)
  host := decide (tables.HostAddressed env s target)

end ServerTables

/-- The text of a whisper. -/
def whisperLine (env : Env) (reading : Nat) (sender target body : Bytes) : Bytes :=
  ascii "[PRIVATE " ++ env.timestamp reading ++ ascii "] " ++ sender ++ ascii " -> " ++ target ++
    ascii ": " ++ body

def notInRoom (target : Bytes) : Bytes :=
  ascii "[system] User '" ++ target ++ ascii "' is not in this room"

section Members

variable {env : Env} {server : ChatServer} {room : Room} {roomId : RoomId} {s t : SessionId}
  {nick : Bytes}

theorem memberNamed_mem (present : server.tables.rooms[roomId]? = some room)
    (found : server.memberNamed room nick = some t) :
    t ∈ server.tables.members roomId ∧ (server.tables.session t).nickname = nick := by
  refine ⟨?_, by simpa using List.find?_some found⟩
  have listed := List.mem_of_find?_eq_some found
  simpa [ServerTables.members, present] using listed

theorem memberNamed_eq_none (present : server.tables.rooms[roomId]? = some room)
    (absent : ∀ t ∈ server.tables.members roomId, (server.tables.session t).nickname ≠ nick) :
    server.memberNamed room nick = none := by
  refine List.find?_eq_none.mpr fun t listed => ?_
  have member : t ∈ server.tables.members roomId := by
    simpa [ServerTables.members, present] using listed
  simpa using absent t member

/-- Among different nicknames the last one found is the only one. -/
theorem memberNamed_eq_some (distinct : server.tables.DistinctNames)
    (present : server.tables.rooms[roomId]? = some room)
    (member : t ∈ server.tables.members roomId) (named : (server.tables.session t).nickname = nick) :
    server.memberNamed room nick = some t := by
  cases found : server.memberNamed room nick with
  | none =>
      have listed : t ∈ room.members.toList.reverse := by
        simpa [ServerTables.members, present] using member
      exact absurd named (by simpa using List.find?_eq_none.mp found t listed)
  | some x =>
      obtain ⟨member', named'⟩ := memberNamed_mem present found
      rw [distinct roomId x member' t member (named'.trans named.symm)]

/-- A session whose room exists is one of its members. -/
theorem mem_of_present (consistent : server.tables.Consistent)
    (present : server.tables.rooms[(server.tables.session s).activeRoomId]? = some room) :
    s ∈ server.tables.members (server.tables.session s).activeRoomId := by
  refine (consistent.member_iff s _).mpr ⟨rfl, ?_⟩
  exact consistent.rooms.pos (Std.ExtTreeMap.isSome_getElem?_iff_mem.mp (by rw [present]; rfl))

end Members

namespace Alike

section Hiding

variable {hidden : Hidden} {a b : ChatServer} (h : Alike hidden a b) {env : Env}

include h

theorem deliverTextToHidden {receiver : Option SessionId}
    (unseen : ∀ x, receiver = some x → hidden.session x = true) {line line' : Bytes}
    (encodable : Encodable (.text line)) (encodable' : Encodable (.text line')) :
    Alike hidden (a.deliverTextTo receiver line) (b.deliverTextTo receiver line') := by
  cases receiver with
  | none => exact h
  | some x =>
      obtain ⟨frame, encoded⟩ := encodable
      obtain ⟨frame', encoded'⟩ := encodable'
      exact h.deliverHidden (unseen x rfl) encoded encoded'

theorem ifHostHidden {p : Prop} [Decidable p] (unseen : p → hidden.host = true)
    (change change' : App.AppState → App.AppState) :
    Alike hidden (if p then a.onHost change else a) (if p then b.onHost change' else b) := by
  by_cases hp : p
  · rw [if_pos hp, if_pos hp]
    exact h.onHostHidden (unseen hp) change change'
  · rwa [if_neg hp, if_neg hp]

/-- Whispers with different bodies among those whose messages are hidden. -/
theorem sendPrivateInRoomHidden {roomId : RoomId} {sender target body body' : Bytes}
    (from_hidden : ∀ room, a.tables.rooms[roomId]? = some room →
      ∀ x, a.memberNamed room sender = some x → hidden.session x = true)
    (to_hidden : ∀ room, a.tables.rooms[roomId]? = some room →
      ∀ x, a.memberNamed room target = some x → hidden.session x = true)
    (host_hidden : (a.tables.hostIn env roomId && target == env.config.localNickname) = true →
      hidden.host = true)
    (encodable : ∀ reading, Encodable (.text (whisperLine env reading sender target body)))
    (encodable' : ∀ reading, Encodable (.text (whisperLine env reading sender target body'))) :
    Alike hidden (a.sendPrivateInRoom env sender target body roomId false).1
      (b.sendPrivateInRoom env sender target body' roomId false).1 := by
  have reading : b.nextReading.1 = a.nextReading.1 := h.readings
  unfold ChatServer.sendPrivateInRoom
  rw [h.tables]
  cases present : a.tables.rooms[roomId]? with
  | none => exact h
  | some room =>
      simp only [h.memberNamed, reading]
      generalize hostTarget : (a.tables.hostIn env roomId && target == env.config.localNickname) = p
      by_cases absent : ((a.memberNamed room target).isNone && !p) = true
      · simp only [if_pos absent]
        exact h.deliverTextTo _ _
      · simp only [if_neg absent]
        have shown := h.nextReading.ifHostHidden (p := (p || false) = true)
          (fun hp => host_hidden (by rw [hostTarget]; simpa using hp))
          (·.pushMessage (whisperLine env a.nextReading.1 sender target body))
          (·.pushMessage (whisperLine env a.nextReading.1 sender target body'))
        have told := shown.deliverTextToHidden (to_hidden room present) (encodable a.nextReading.1)
          (encodable' a.nextReading.1)
        exact ite Iff.rfl (told.deliverTextToHidden (from_hidden room present)
          (encodable a.nextReading.1) (encodable' a.nextReading.1)) told

end Hiding

end Alike

section Reading

variable {env : Env} {server : ChatServer} {s : SessionId} {target body body' : Bytes}

theorem consumeMessageQuota_session (t : SessionId) :
    ((server.consumeMessageQuota env s).2.tables.session t).nickname =
        (server.tables.session t).nickname ∧
      ((server.consumeMessageQuota env s).2.tables.session t).activeRoomId =
        (server.tables.session t).activeRoomId := by
  by_cases e : t = s
  · subst e
    simp [ChatServer.consumeMessageQuota, ChatServer.updateSession, ChatServer.onTables,
      ServerTables.updateSession, ChatServer.nextReading, ChatServer.onOutput]
  · simp [ChatServer.consumeMessageQuota, ChatServer.updateSession, ChatServer.onTables,
      ServerTables.updateSession, ChatServer.nextReading, ChatServer.onOutput, e]

theorem consumeMessageQuota_memberNamed (room : Room) (nick : Bytes) :
    (server.consumeMessageQuota env s).2.memberNamed room nick = server.memberNamed room nick := by
  unfold ChatServer.memberNamed
  simp only [(consumeMessageQuota_session _).1]

theorem whisper_encodable (consistent : server.tables.Consistent)
    (addressee : isValidNickname target = true) (valid : isValidText body MAX_CHAT_LENGTH = true)
    (reading : Nat) :
    Encodable (.text
      (whisperLine env reading (server.tables.session s).nickname target body)) :=
  encodable_text (line_whisper reading (.nickname (consistent.valid s))
    (.nickname (.inr addressee)) (.validText (.inr valid)))

/-- The two bodies differ for the partners only. -/
theorem onWhisper_alike (consistent : server.tables.Consistent)
    (distinct : server.tables.DistinctNames) (addressee : isValidNickname target = true)
    (valid : isValidText body MAX_CHAT_LENGTH = true)
    (valid' : isValidText body' MAX_CHAT_LENGTH = true) {b : ChatServer}
    (h : Alike (server.tables.partners env s target) server b) :
    Alike (server.tables.partners env s target) (server.onWhisper env s target body)
      (b.onWhisper env s target body') := by
  obtain ⟨answer, counted⟩ := h.consumeMessageQuota env s
  refine Alike.ite (by rw [h.tables]) (h.deliver s _) ?_
  simp only [answer, addressee, valid, valid']
  refine Alike.ite Iff.rfl (counted.deliver s _) (Alike.ite Iff.rfl (counted.deliver s _) ?_)
  unfold ChatServer.sendPrivateFrom
  rw [counted.tables, (consumeMessageQuota_session s).1, (consumeMessageQuota_session s).2]
  refine counted.sendPrivateInRoomHidden (fun room present x found => ?_)
    (fun room present x found => ?_) (fun host => ?_) (fun reading => ?_) (fun reading => ?_)
  · replace present : server.tables.rooms[(server.tables.session s).activeRoomId]? = some room :=
      present
    rw [consumeMessageQuota_memberNamed] at found
    obtain ⟨member, named⟩ := memberNamed_mem present found
    have same := distinct _ x member s (mem_of_present consistent present) named
    exact decide_eq_true (.inl same)
  · replace present : server.tables.rooms[(server.tables.session s).activeRoomId]? = some room :=
      present
    rw [consumeMessageQuota_memberNamed] at found
    exact decide_eq_true (.inr (memberNamed_mem present found))
  · rw [Bool.and_eq_true, beq_iff_eq] at host
    exact decide_eq_true host
  · exact whisper_encodable consistent addressee valid reading
  · exact whisper_encodable consistent addressee valid' reading

theorem decodeClientFrame_whisper {line : Bytes}
    (decoded : decodeClientFrame line = .ok (.whisper target body)) :
    isValidNickname target = true ∧ isValidText body MAX_CHAT_LENGTH = true := by
  obtain ⟨payload, shape⟩ := decodeClientFrame_ok decoded
  cases shape with
  | whisper name valid => exact ⟨name, valid⟩

theorem onMessage_whisper (message : ClientMessage) (h : message = .whisper target body) :
    server.onMessage env s message =
      if !(server.tables.session s).protocolNegotiated then
        (server.note (.received s message)).reject env s
          (.serverError (ascii "Protocol handshake required"))
      else if env.hasPassword && !(server.tables.session s).authenticated then
        (server.note (.received s message)).deliver s .authRequired
      else (server.note (.received s message)).onWhisper env s target body := by
  subst h
  rfl

/-- Two lines that differ in the body of a whisper only. -/
theorem onLine_alike (consistent : server.tables.Consistent)
    (distinct : server.tables.DistinctNames) {line line' : Bytes}
    (decoded : decodeClientFrame line = .ok (.whisper target body))
    (decoded' : decodeClientFrame line' = .ok (.whisper target body')) :
    Alike (server.tables.partners env s target) (server.onLine env s line)
      (server.onLine env s line') := by
  obtain ⟨addressee, valid⟩ := decodeClientFrame_whisper decoded
  obtain ⟨-, valid'⟩ := decodeClientFrame_whisper decoded'
  have sender : (server.tables.partners env s target).session s = true :=
    decide_eq_true (.inl rfl)
  have read : Alike (server.tables.partners env s target)
      (server.note (.received s (.whisper target body)))
      (server.note (.received s (.whisper target body'))) :=
    (Alike.refl server).noteHidden (by simp [Hidden.shows, sender]) (by simp [Hidden.shows, sender])
  simp only [ChatServer.onLine, decoded, decoded']
  rw [onMessage_whisper _ rfl, onMessage_whisper _ rfl]
  refine Alike.ite Iff.rfl (read.reject env s _) (Alike.ite Iff.rfl (read.deliver s _) ?_)
  exact @onWhisper_alike env (server.note (.received s (.whisper target body))) s target body body'
    consistent distinct addressee valid valid' _ read

end Reading

section Outcome

variable {env : Env} {server : ChatServer} {room : Room} {roomId : RoomId} {s : SessionId}
  {sender target body : Bytes}

theorem deliverTextTo_trace (receiver : Option SessionId) (line : Bytes) :
    (server.deliverTextTo receiver line).output.trace =
      server.output.trace ++ receiver.toList.map fun t => .deliver t (.text line) := by
  cases receiver with
  | none => simp [ChatServer.deliverTextTo]
  | some t => simp [ChatServer.deliverTextTo, ChatServer.deliverText]

theorem deliver_host (s : SessionId) (message : ServerMessage) :
    (server.deliver s message).output.host = server.output.host := by
  cases encoded : encodeServerFrame message with
  | error e => rw [ChatServer.deliver_of_error encoded]; rfl
  | ok frame => rw [ChatServer.deliver_of_ok encoded]; rfl

theorem deliverTextTo_host (receiver : Option SessionId) (line : Bytes) :
    (server.deliverTextTo receiver line).output.host = server.output.host := by
  cases receiver with
  | none => rfl
  | some t => exact deliver_host t _

/-- Nobody in the room has the nickname. -/
theorem sendPrivateInRoom_absent (present : server.tables.rooms[roomId]? = some room)
    (absent : server.memberNamed room target = none)
    (away : (server.tables.hostIn env roomId && target == env.config.localNickname) = false) :
    (server.sendPrivateInRoom env sender target body roomId false).1 =
      server.deliverTextTo (server.memberNamed room sender) (notInRoom target) := by
  simp only [ChatServer.sendPrivateInRoom, present, absent, away]
  rfl

theorem sendPrivateInRoom_present (present : server.tables.rooms[roomId]? = some room)
    {shown : Bool}
    (addressed : (server.tables.hostIn env roomId && target == env.config.localNickname) = shown)
    (found : ((server.memberNamed room target).isNone && !shown) = false) :
    (server.sendPrivateInRoom env sender target body roomId false).1.output.trace =
        server.output.trace ++
          (((server.memberNamed room target).toList ++
            if sender ≠ target then (server.memberNamed room sender).toList else []).map fun t =>
              .deliver t (.text (whisperLine env server.output.readings sender target body))) ∧
      (server.sendPrivateInRoom env sender target body roomId false).1.output.host =
        if shown then server.output.host.pushMessage
          (whisperLine env server.output.readings sender target body)
        else server.output.host := by
  simp only [ChatServer.sendPrivateInRoom, present, addressed, found]
  constructor
  · by_cases same : sender = target
    · cases shown <;> simp [same, deliverTextTo_trace, whisperLine, ChatServer.nextReading,
        ChatServer.onOutput, ChatServer.onHost]
    · cases shown <;> simp [same, deliverTextTo_trace, whisperLine, ChatServer.nextReading,
        ChatServer.onOutput, ChatServer.onHost]
  · by_cases same : sender = target
    · cases shown <;> simp [same, deliverTextTo_host, whisperLine, ChatServer.nextReading,
        ChatServer.onOutput, ChatServer.onHost]
    · cases shown <;> simp [same, deliverTextTo_host, whisperLine, ChatServer.nextReading,
        ChatServer.onOutput, ChatServer.onHost]

end Outcome

/-- A whisper of the session gets past the handshake, the password and the rate limit. -/
structure MayWhisper (env : Env) (server : ChatServer) (s : SessionId) : Prop where
  negotiated : (server.tables.session s).protocolNegotiated = true
  authenticated : (env.hasPassword && !(server.tables.session s).authenticated) = false
  named : (server.tables.session s).nickname ≠ []
  allowed : (server.consumeMessageQuota env s).1 = true

instance (env : Env) (server : ChatServer) (s : SessionId) : Decidable (MayWhisper env server s) :=
  decidable_of_iff ((server.tables.session s).protocolNegotiated = true ∧
      (env.hasPassword && !(server.tables.session s).authenticated) = false ∧
      (server.tables.session s).nickname ≠ [] ∧ (server.consumeMessageQuota env s).1 = true)
    ⟨fun h => ⟨h.1, h.2.1, h.2.2.1, h.2.2.2⟩,
      fun h => ⟨h.negotiated, h.authenticated, h.named, h.allowed⟩⟩

/-- What the whisper adds to the trace, and the messages of the host after it. -/
structure Outcome (server : ChatServer) (s : SessionId) (target body : Bytes)
    (server' : ChatServer) (news : List Effect) (host : App.AppState) : Prop where
  trace : server'.output.trace =
    server.output.trace ++ .received s (.whisper target body) :: news
  host : server'.output.host = host

/-- Who hears a whisper. `line` is its text. -/
structure Heard (env : Env) (server : ChatServer) (s : SessionId) (target body line : Bytes)
    (server' : ChatServer) : Prop where
  encodable : Encodable (.text line) ∧ Encodable (.text (notInRoom target))
  member : ∀ t, server.tables.Addressed s target t →
    Outcome server s target body server'
      (.deliver t (.text line) :: if t = s then [] else [.deliver s (.text line)])
      server.output.host
  host : (server.tables.session s).activeRoomId ≠ 0 → server.tables.HostAddressed env s target →
    Outcome server s target body server' [.deliver s (.text line)]
      (server.output.host.pushMessage line)
  absent : (server.tables.session s).activeRoomId ≠ 0 →
    (∀ t, ¬ server.tables.Addressed s target t) → ¬ server.tables.HostAddressed env s target →
    Outcome server s target body server' [.deliver s (.text (notInRoom target))]
      server.output.host
  outside : (server.tables.session s).activeRoomId = 0 →
    Outcome server s target body server' [] server.output.host

section Hearing

variable {env : Env} {server : ChatServer} {s : SessionId} {target body : Bytes}

theorem onLine_whisper {line : Bytes} (may : MayWhisper env server s)
    (decoded : decodeClientFrame line = .ok (.whisper target body)) :
    server.onLine env s line =
      (((server.note (.received s (.whisper target body))).consumeMessageQuota env s).2.sendPrivateFrom
        env s target body).1 := by
  obtain ⟨addressee, valid⟩ := decodeClientFrame_whisper decoded
  have allowed : ((server.note (.received s (.whisper target body))).consumeMessageQuota env s).1 =
      true := may.allowed
  simp only [ChatServer.onLine, decoded]
  rw [onMessage_whisper _ rfl, if_neg (by simp [may.negotiated]),
    if_neg (by simp [may.authenticated])]
  simp only [ChatServer.onWhisper, allowed, addressee, valid]
  rw [if_neg (by simpa [ChatServer.note, ChatServer.onOutput] using may.named)]
  rfl

theorem room_of_seat (consistent : server.tables.Consistent)
    (seated : (server.tables.session s).activeRoomId ≠ 0) :
    ∃ room, server.tables.rooms[(server.tables.session s).activeRoomId]? = some room := by
  have member := (consistent.member_iff s _).mpr ⟨rfl, seated⟩
  exact Option.isSome_iff_exists.mp
    (Std.ExtTreeMap.isSome_getElem?_iff_mem.mpr (ServerTables.mem_rooms_of_mem_members member))

section Sending

variable {room : Room} {line : Bytes} (may : MayWhisper env server s)
  (decoded : decodeClientFrame line = .ok (.whisper target body))
  (present : server.tables.rooms[(server.tables.session s).activeRoomId]? = some room)

include may decoded

/-- The whisper is sent from a server that has read the frame and counted it. -/
theorem onLine_sends : ∃ counted : ChatServer,
    counted.output.trace = server.output.trace ++ [.received s (.whisper target body)] ∧
    counted.output.host = server.output.host ∧
    counted.output.readings = server.output.readings + 1 ∧
    counted.tables.rooms = server.tables.rooms ∧
    counted.tables.localRoomId = server.tables.localRoomId ∧
    (∀ room nick, counted.memberNamed room nick = server.memberNamed room nick) ∧
    server.onLine env s line = (counted.sendPrivateInRoom env (server.tables.session s).nickname
      target body (server.tables.session s).activeRoomId false).1 := by
  refine ⟨((server.note (.received s (.whisper target body))).consumeMessageQuota env s).2,
    rfl, rfl, rfl, rfl, rfl, consumeMessageQuota_memberNamed, ?_⟩
  rw [onLine_whisper may decoded]
  unfold ChatServer.sendPrivateFrom
  rw [(consumeMessageQuota_session s).1, (consumeMessageQuota_session s).2]
  rfl

include present

/-- What is delivered when somebody has the target's nickname. -/
theorem onLine_reaches {shown : Bool}
    (addressed : (server.tables.hostIn env (server.tables.session s).activeRoomId &&
      target == env.config.localNickname) = shown)
    (found : ((server.memberNamed room target).isNone && !shown) = false) :
    Outcome server s target body (server.onLine env s line)
      (((server.memberNamed room target).toList ++
        if (server.tables.session s).nickname ≠ target then
          (server.memberNamed room (server.tables.session s).nickname).toList else []).map fun t =>
            .deliver t (.text (whisperLine env (server.output.readings + 1)
              (server.tables.session s).nickname target body)))
      (if shown then server.output.host.pushMessage (whisperLine env (server.output.readings + 1)
          (server.tables.session s).nickname target body)
        else server.output.host) := by
  obtain ⟨counted, trace, host, readings, rooms, localRoom, named, sends⟩ :=
    onLine_sends may decoded
  rw [← named] at found
  obtain ⟨told, seen⟩ := @sendPrivateInRoom_present env counted room
    (server.tables.session s).activeRoomId (server.tables.session s).nickname target body
    (by rw [rooms, present]) shown
    (by simpa only [ServerTables.hostIn, localRoom] using addressed) found
  rw [named, named, readings, trace, List.append_assoc] at told
  rw [readings, host] at seen
  rw [sends]
  exact ⟨told, seen⟩

theorem onLine_misses (absent : server.memberNamed room target = none)
    (away : (server.tables.hostIn env (server.tables.session s).activeRoomId &&
      target == env.config.localNickname) = false) :
    Outcome server s target body (server.onLine env s line)
      ((server.memberNamed room (server.tables.session s).nickname).toList.map fun t =>
        .deliver t (.text (notInRoom target)))
      server.output.host := by
  obtain ⟨counted, trace, host, readings, rooms, localRoom, named, sends⟩ :=
    onLine_sends may decoded
  rw [← named] at absent
  have told := @sendPrivateInRoom_absent env counted room
    (server.tables.session s).activeRoomId (server.tables.session s).nickname target body
    (by rw [rooms, present]) absent
    (by simpa only [ServerTables.hostIn, localRoom] using away)
  rw [sends, told]
  refine ⟨?_, (deliverTextTo_host _ _).trans host⟩
  rw [deliverTextTo_trace, trace, named, List.append_assoc]
  rfl

end Sending

theorem onLine_heard {line : Bytes} (consistent : server.tables.Consistent)
    (unambiguous : server.tables.Unambiguous env) (distinct : server.tables.DistinctNames)
    (may : MayWhisper env server s)
    (decoded : decodeClientFrame line = .ok (.whisper target body)) :
    Heard env server s target body (whisperLine env (server.output.readings + 1)
      (server.tables.session s).nickname target body) (server.onLine env s line) := by
  obtain ⟨addressee, valid⟩ := decodeClientFrame_whisper decoded
  have some_target : target ≠ [] := (isValidNickname_iff.mp addressee).1
  refine ⟨⟨whisper_encodable consistent addressee valid _,
    encodable_text (line_notHere (.nickname (.inr addressee)))⟩, fun t addressed => ?_,
    fun seated hosted => ?_, fun seated nobody unhosted => ?_, fun unseated => ?_⟩
  · obtain ⟨member, named⟩ := addressed
    have seated := ((consistent.member_iff t _).mp member).2
    obtain ⟨room, present⟩ := room_of_seat consistent seated
    have found := memberNamed_eq_some distinct present member named
    have sender := memberNamed_eq_some distinct present (mem_of_present consistent present) rfl
    have guest : target ≠ env.config.localNickname := by
      rw [← named] at some_target ⊢
      exact unambiguous.host t some_target
    have reached := @onLine_reaches env server s target body room line may decoded present false
      (by simp [guest]) (by simp [found])
    rw [found, sender] at reached
    by_cases e : t = s
    · subst e
      simpa [named] using reached
    · have other : (server.tables.session s).nickname ≠ target := fun same =>
        e (distinct _ t member s (mem_of_present consistent present) (named.trans same.symm))
      simpa [e, other] using reached
  · obtain ⟨room, present⟩ := room_of_seat consistent seated
    obtain ⟨inside, named⟩ := hosted
    have sender := memberNamed_eq_some distinct present (mem_of_present consistent present) rfl
    have guest : (server.tables.session s).nickname ≠ target := by
      rw [named]
      exact unambiguous.host s may.named
    have absent : server.memberNamed room target = none := by
      refine memberNamed_eq_none present fun t _ same => ?_
      rw [← same] at some_target
      exact unambiguous.host t some_target (same.trans named)
    have reached := @onLine_reaches env server s target body room line may decoded present true
      (by simp [inside, named]) (by simp)
    rw [absent, sender] at reached
    simpa [guest] using reached
  · obtain ⟨room, present⟩ := room_of_seat consistent seated
    have sender := memberNamed_eq_some distinct present (mem_of_present consistent present) rfl
    have absent := memberNamed_eq_none present fun t member named => nobody t ⟨member, named⟩
    have missed := onLine_misses may decoded present absent
      (by simpa [ServerTables.HostAddressed] using unhosted)
    rw [sender] at missed
    exact missed
  · obtain ⟨counted, trace, host, readings, rooms, localRoom, named, sends⟩ :=
      onLine_sends may decoded
    have missing : counted.tables.rooms[(0 : RoomId)]? = none := by
      rw [rooms]
      refine Std.ExtTreeMap.getElem?_eq_none fun present => ?_
      exact absurd rfl (consistent.rooms.pos present)
    rw [sends, unseated]
    simp only [ChatServer.sendPrivateInRoom, missing]
    exact ⟨trace, host⟩

end Hearing

section Views

variable {hidden : Hidden} {a b : ChatServer}

/-- A reading of the trace that uses visible effects only. -/
theorem Alike.filterMap {α : Type} (h : Alike hidden a b) (reading : Effect → Option α)
    (visible : ∀ e, hidden.shows e = false → reading e = none) :
    b.output.trace.filterMap reading = a.output.trace.filterMap reading := by
  have through (trace : List Effect) :
      trace.filterMap reading = (trace.filter hidden.shows).filterMap reading := by
    rw [List.filterMap_filter]
    congr 1
    funext e
    cases shown : hidden.shows e with
    | false => simpa using visible e shown
    | true => simp
  rw [through, h.trace, ← through]

theorem Alike.delivered (h : Alike hidden a b) {t : SessionId} (seen : hidden.session t = false) :
    delivered t b.output.trace = delivered t a.output.trace := by
  refine h.filterMap _ fun e unseen => ?_
  cases e with
  | deliver x message =>
      have other : x ≠ t := by
        rintro rfl
        simp [Hidden.shows, seen] at unseen
      simp [other]
  | _ => rfl

theorem Alike.handedWrites (h : Alike hidden a b) :
    handedWrites b.output.trace = handedWrites a.output.trace := by
  refine h.filterMap _ fun e unseen => ?_
  cases e with
  | store write => cases unseen
  | _ => rfl

end Views

/-- A whisper is private. -/
theorem run_whisper (env : Env) (stored : StoredState) (before after : List Event) (s : SessionId)
    (target body body' line line' : Bytes) (server final : ChatServer)
    (decoded : decodeClientFrame line = .ok (.whisper target body))
    (decoded' : decodeClientFrame line' = .ok (.whisper target body'))
    (start : Run.run (step env) (ChatServer.start env stored) before = some server)
    (distinct : server.tables.DistinctNames)
    (ran : Run.run (step env) server (.line s line :: after) = some final) :
    (∃ final', Run.run (step env) server (.line s line' :: after) = some final' ∧
      (∀ t, t ≠ s → ¬ server.tables.Addressed s target t →
        delivered t final'.output.trace = delivered t final.output.trace ∧
          final'.output.wire t = final.output.wire t) ∧
      (¬ server.tables.HostAddressed env s target → final'.output.host = final.output.host) ∧
      final'.tables = final.tables ∧
      handedWrites final'.output.trace = handedWrites final.output.trace) ∧
    (MayWhisper env server s → ∀ next, step env server (.line s line) = some next →
      Heard env server s target body (whisperLine env (server.output.readings + 1)
        (server.tables.session s).nickname target body) next) := by
  have reachable : Reachable env stored server := ⟨before, start⟩
  have consistent := reachable_consistent reachable
  obtain ⟨next, stepped, ran⟩ := Run.run_cons.mp ran
  simp only [step, Option.ite_none_right_eq_some, Option.some.injEq] at stepped ⊢
  obtain ⟨reading, rfl⟩ := stepped
  constructor
  · have alike := @onLine_alike env server s target body body' consistent distinct line line'
      decoded decoded'
    obtain ⟨final', ran', alike⟩ := alike.run ran
    refine ⟨final', Run.run_cons.mpr ⟨_, if_pos reading, ran'⟩, fun t other unaddressed => ?_,
      fun unhosted => alike.host (decide_eq_false unhosted), alike.tables, alike.handedWrites⟩
    have seen : (server.tables.partners env s target).session t = false :=
      decide_eq_false fun h => h.elim other unaddressed
    exact ⟨alike.delivered seen, alike.wire t seen⟩
  · rintro may next ⟨-, rfl⟩
    exact onLine_heard consistent (reachable_unambiguous reachable) distinct may decoded

def whisperFrame (target body : Bytes) : Bytes := clientFrame (.whisper target body)

theorem run_whisper_two : ∃ server final,
    decodeClientFrame (whisperFrame (ascii "bob") (ascii "yes")) =
      .ok (.whisper (ascii "bob") (ascii "yes")) ∧
    decodeClientFrame (whisperFrame (ascii "bob") (ascii "no")) =
      .ok (.whisper (ascii "bob") (ascii "no")) ∧
    serverAfter (visit 7 (ascii "ann") ++ visit 8 (ascii "bob")) = some server ∧
    server.tables.DistinctNames ∧
    Run.run (step .plain) server [.line 7 (whisperFrame (ascii "bob") (ascii "yes"))] =
      some final ∧
    ∃ final', Run.run (step .plain) server
        [.line 7 (whisperFrame (ascii "bob") (ascii "no"))] = some final' ∧
      handedWrites final'.output.trace = handedWrites final.output.trace := by
  obtain ⟨server, start, -, distinct, reading⟩ :=
    exists_serverAfter (visit 7 (ascii "ann") ++ visit 8 (ascii "bob"))
      (fun server => server.tables.DistinctNames ∧
        (server.tables.session 7).readLoop = .reading) (by decide +kernel)
  have yes : decodeClientFrame (whisperFrame (ascii "bob") (ascii "yes")) =
      .ok (.whisper (ascii "bob") (ascii "yes")) := by decide +kernel
  have no : decodeClientFrame (whisperFrame (ascii "bob") (ascii "no")) =
      .ok (.whisper (ascii "bob") (ascii "no")) := by decide +kernel
  have ran : Run.run (step .plain) server [.line 7 (whisperFrame (ascii "bob") (ascii "yes"))] =
      some (server.onLine .plain 7 (whisperFrame (ascii "bob") (ascii "yes"))) := by
    simp [Run.run, step, reading]
  obtain ⟨⟨final', ran', -, -, -, stored⟩, -⟩ := run_whisper .plain emptyStore
    (visit 7 (ascii "ann") ++ visit 8 (ascii "bob")) [] 7 (ascii "bob") (ascii "yes") (ascii "no")
    _ _ server _ yes no start distinct ran
  exact ⟨server, _, yes, no, start, distinct, ran, final', ran', stored⟩

/-- A sender who has been kicked, and is still being read, is not told anything. -/
theorem run_whisper_unheard : ¬ ∀ (env : Env) (stored : StoredState) (before : List Event)
    (s : SessionId) (target body line : Bytes) (server next : ChatServer),
    decodeClientFrame line = .ok (.whisper target body) →
    Run.run (step env) (ChatServer.start env stored) before = some server →
    server.tables.DistinctNames → MayWhisper env server s →
    step env server (.line s line) = some next →
    (∀ t, ¬ server.tables.Addressed s target t) → ¬ server.tables.HostAddressed env s target →
      Outcome server s target body next [.deliver s (.text (notInRoom target))]
        server.output.host := by
  intro all
  obtain ⟨server, start, reachable, distinct, reading, may, outside, unhosted⟩ :=
    exists_serverAfter (visit 7 (ascii "ann") ++ [.kickUserInRoom (ascii "lobby") (ascii "ann") []])
      (fun server => server.tables.DistinctNames ∧ (server.tables.session 7).readLoop = .reading ∧
        MayWhisper .plain server 7 ∧ (server.tables.session 7).activeRoomId = 0 ∧
          ¬ server.tables.HostAddressed .plain 7 (ascii "bob")) (by decide +kernel)
  have decoded : decodeClientFrame (whisperFrame (ascii "bob") (ascii "yes")) =
      .ok (.whisper (ascii "bob") (ascii "yes")) := by decide +kernel
  have consistent := reachable_consistent reachable
  have nobody (t : SessionId) : ¬ server.tables.Addressed 7 (ascii "bob") t := by
    rintro ⟨member, -⟩
    rw [outside] at member
    exact ((consistent.member_iff t 0).mp member).2 rfl
  have silent := (onLine_heard consistent (reachable_unambiguous reachable) distinct may
    decoded).outside outside
  have told := all .plain emptyStore _ 7 (ascii "bob") (ascii "yes") _ server _ decoded start
    distinct may (if_pos reading) nobody unhosted
  have clash := told.trace.symm.trans silent.trace
  simp at clash

end Chatbox.Chat
