import Chatbox.Chat.Nicknames
import Chatbox.Protocol.ServerGrammar

/-!
The user list of a room on the wire. The number of members is not bounded and the
frame is, so a list reaches the members exactly while the room number and the
nicknames, each with a separator, fit into one payload.
-/

namespace Chatbox.Chat

open Text Protocol Storage

section Length

theorem length_intercalate {c : UInt8} {parts : List Bytes} (some : parts ≠ []) :
    ([c].intercalate parts).length + 1 = (parts.map fun part => part.length + 1).sum := by
  induction parts with
  | nil => exact absurd rfl some
  | cons x rest ih =>
      cases rest with
      | nil => simp
      | cons y rest =>
          have more := ih (List.cons_ne_nil y rest)
          rw [intercalate_cons_cons, List.map_cons, List.sum_cons, ← more]
          simp only [List.length_append, List.length_cons]
          omega

theorem length_roomId_le (roomId : RoomId) : (toDecimal roomId.toNat).length ≤ 20 := by
  have := roomId.toNat_lt
  exact length_toDecimal_le (by omega) (by omega)

theorem length_serialize_userList (roomId : RoomId) (nicknames : List Bytes) :
    (serializeServer (.userList roomId nicknames)).length ≤ maxPayloadLength ↔
      (toDecimal roomId.toNat).length + (nicknames.map fun nick => nick.length + 1).sum ≤
        3063 := by
  have limit : maxPayloadLength = 3069 := rfl
  have word : (ascii "USERS|").length = 6 := rfl
  have bar : (ascii "|").length = 1 := rfl
  have digits := length_roomId_le roomId
  simp only [serializeServer, List.length_append]
  cases nicknames with
  | nil =>
      simp only [List.intercalate_nil, List.length_nil, List.map_nil, List.sum_nil]
      omega
  | cons x rest =>
      have := @length_intercalate comma (x :: rest) (List.cons_ne_nil x rest)
      omega

end Length

namespace ServerTables

variable {env : Env} {tables : ServerTables} {roomId : RoomId} {members : SessionSet}

/-- Who is to be listed in a room: its members, and the host while it is there. -/
def occupants (env : Env) (tables : ServerTables) (roomId : RoomId) (members : SessionSet) :
    List Bytes :=
  (members.toList.map fun s => (tables.session s).nickname) ++
    if tables.hostIn env roomId then [env.config.localNickname] else []

theorem userNicknames_perm (named : ∀ s ∈ members, (tables.session s).nickname ≠ []) :
    (tables.userNicknames env roomId members).Perm (tables.occupants env roomId members) := by
  have all : (members.toList.map fun s => (tables.session s).nickname).filter
      (fun nickname => !nickname.isEmpty) =
        members.toList.map fun s => (tables.session s).nickname := by
    rw [List.filter_eq_self]
    intro nickname h
    obtain ⟨s, hs, rfl⟩ := List.mem_map.mp h
    simpa using named s (Std.ExtTreeSet.mem_toList.mp hs)
  unfold userNicknames occupants
  simp only [all]
  refine (List.perm_insertionSort _ _).trans (.of_eq ?_)
  split
  · rfl
  · rw [List.append_nil]

theorem userNicknames_sorted :
    (tables.userNicknames env roomId members).Pairwise (· ≤ ·) := by
  have total : Std.Total fun a b : Bytes => a ≤ b := ⟨fun a b => List.le_total a b⟩
  have trans : IsTrans Bytes fun a b => a ≤ b := ⟨fun a b c => List.le_trans⟩
  exact List.pairwise_insertionSort _ _

end ServerTables

namespace ChatServer

variable {env : Env} {server : ChatServer} {message : ServerMessage} {frame : Bytes}

theorem deliver_posted (he : encodeServerFrame message = .ok frame) (s t : SessionId) :
    ((server.deliver s message).output.wire t).posted =
      (server.output.wire t).posted ++ if t = s then [.write frame] else [] := by
  change ((server.output.deliver s message).wire t).posted = _
  simp only [ServerOutput.deliver, he, ServerOutput.post, ServerOutput.updateWire]
  by_cases e : t = s
  · subst e
    simp [ServerOutput.note]
  · simp [e, ServerOutput.note]

/-- Each of the sessions is handed the frame once. -/
theorem deliverAll_posted (he : encodeServerFrame message = .ok frame) {sessions : List SessionId}
    (hn : sessions.Nodup) (t : SessionId) :
    ((server.deliverAll sessions message).output.wire t).posted =
      (server.output.wire t).posted ++ if t ∈ sessions then [.write frame] else [] := by
  induction sessions generalizing server with
  | nil => simp [deliverAll]
  | cons s sessions ih =>
      obtain ⟨fresh, hn⟩ := List.nodup_cons.mp hn
      have rest := @ih (server.deliver s message) hn
      rw [deliver_posted he] at rest
      refine rest.trans ?_
      by_cases e : t = s
      · subst e
        simp [fresh]
      · simp [e]

theorem broadcastUsers_posted {roomId : RoomId} {room : Room}
    (present : server.tables.rooms[roomId]? = some room)
    (he : encodeServerFrame (.userList roomId
      (server.tables.userNicknames env roomId room.members)) = .ok frame)
    {s : SessionId} (member : s ∈ room.members) :
    ((server.broadcastUsers env roomId).output.wire s).posted =
      (server.output.wire s).posted ++ [.write frame] := by
  have listed : s ∈ room.members.toList := Std.ExtTreeSet.mem_toList.mpr member
  unfold broadcastUsers
  simp only [present]
  rw [deliverAll_posted he (OrderedMap.nodup_toList _), if_pos listed]
  split <;> rfl

end ChatServer

/-- `broadcast_users` reaches every member of the room, with the sorted list of all
who are there. -/
def UserListArrives (env : Env) (server : ChatServer) (roomId : RoomId) (room : Room) : Prop :=
  let nicknames := server.tables.userNicknames env roomId room.members
  ∃ frame, encodeServerFrame (.userList roomId nicknames) = .ok frame ∧
    decodeServerFrame frame = .ok (.userList roomId nicknames) ∧
    nicknames.Pairwise (· ≤ ·) ∧
    nicknames.Perm (server.tables.occupants env roomId room.members) ∧
    ∀ s ∈ room.members, ((server.broadcastUsers env roomId).output.wire s).posted =
      (server.output.wire s).posted ++ [.write frame]

/-- The host, when it is in the room, has a nickname that a user list may hold, and
the nicknames are not too long together. -/
def UserListFits (env : Env) (server : ChatServer) (roomId : RoomId) (room : Room) : Prop :=
  (server.tables.hostIn env roomId = true → isValidNickname env.config.localNickname = true) ∧
    (toDecimal roomId.toNat).length +
      ((server.tables.occupants env roomId room.members).map fun nick => nick.length + 1).sum ≤
        3063

instance : ∀ env server roomId room, Decidable (UserListFits env server roomId room) :=
  fun _ _ _ _ => inferInstanceAs (Decidable (_ ∧ _))

section Arrival

variable {env : Env} {server : ChatServer} {roomId : RoomId} {room : Room}

theorem member_named (hc : server.tables.Consistent)
    (present : server.tables.rooms[roomId]? = some room) {s : SessionId} (member : s ∈ room.members) :
    (server.tables.session s).nickname ≠ [] := by
  have seated := (hc.member_iff s roomId).mp (by simpa [ServerTables.members, present] using member)
  refine hc.named s ?_
  rw [seated.1]
  exact seated.2

theorem userListArrives_iff_fits (hc : server.tables.Consistent)
    (present : server.tables.rooms[roomId]? = some room) :
    UserListArrives env server roomId room ↔ UserListFits env server roomId room := by
  have known : roomId ≠ 0 :=
    hc.rooms.pos (Std.ExtTreeMap.isSome_getElem?_iff_mem.mp (by rw [present]; rfl))
  have named (s : SessionId) (member : s ∈ room.members) := member_named hc present member
  have perm := @ServerTables.userNicknames_perm env server.tables roomId room.members named
  have length : ((server.tables.userNicknames env roomId room.members).map
      fun nick => nick.length + 1).sum =
        ((server.tables.occupants env roomId room.members).map fun nick => nick.length + 1).sum :=
    (perm.map _).sum_eq
  have valid : (∀ nickname ∈ server.tables.userNicknames env roomId room.members,
      isValidNickname nickname = true) ↔
        (server.tables.hostIn env roomId = true →
          isValidNickname env.config.localNickname = true) := by
    have members (nickname : Bytes) (s : SessionId) (member : s ∈ room.members)
        (same : (server.tables.session s).nickname = nickname) :
        isValidNickname nickname = true :=
      same ▸ (hc.valid s).resolve_left (named s member)
    constructor
    · intro all host
      refine all _ (perm.mem_iff.mpr (List.mem_append_right _ ?_))
      simp [host]
    · intro host nickname listed
      rcases List.mem_append.mp (perm.mem_iff.mp listed) with listed | listed
      · obtain ⟨s, hs, same⟩ := List.mem_map.mp listed
        exact members nickname s (Std.ExtTreeSet.mem_toList.mp hs) same
      · split at listed
        · next there => exact List.mem_singleton.mp listed ▸ host there
        · cases listed
  have encodes := encodeServerFrame_decodes_iff
    (.userList roomId (server.tables.userNicknames env roomId room.members))
  rw [length_serialize_userList, length] at encodes
  constructor
  · rintro ⟨frame, he, hd, -⟩
    obtain ⟨⟨-, all⟩, fits⟩ := encodes.mp ⟨frame, he, hd⟩
    exact ⟨valid.mp all, fits⟩
  · rintro ⟨host, fits⟩
    obtain ⟨frame, he, hd⟩ := encodes.mpr ⟨⟨known, valid.mpr host⟩, fits⟩
    exact ⟨frame, he, hd, ServerTables.userNicknames_sorted, perm,
      fun s member => ChatServer.broadcastUsers_posted present he member⟩

end Arrival

section Crowds

/-- What a client writes is read as it was written. -/
theorem decodeClientFrame_clientFrame {message : ClientMessage}
    (line : ClientLine (serializeClient message) message)
    (fits : (serializeClient message).length ≤ maxPayloadLength) :
    decodeClientFrame (clientFrame message) = .ok message := by
  have some : serializeClient message ≠ [] := by
    intro empty
    rw [empty] at line
    have := line.parse
    cases this
  have he := encodeFrame_ok_iff.mpr ⟨some, fits, rfl⟩
  have frame : clientFrame message = encodeBlocks (serializeClient message) ++ [newline] := by
    simp only [clientFrame, encodeClientFrame, line.parse, he]
  rw [frame, decodeClientFrame, decodeMessageFrame_encodeFrame he, line.parse]

def visitorKey : Bytes := List.replicate 64 48

def visitorSignature : Bytes := List.replicate 128 48

/-- The session of a visitor that has been asked to prove its key. -/
def challengedSession (nick challenge : Bytes) : ClientSession :=
  { readLoop := .reading, protocolNegotiated := true, pendingNickname := nick,
    pendingPublicKeyHex := visitorKey, pendingChallenge := challenge }

/-- The clients 0 to `n` - 1 of a plain server have visited the lobby and stayed. -/
structure Crowd (name : Nat → Bytes) (n : Nat) (server : ChatServer) : Prop where
  reachable : Reachable .plain emptyStore server
  listed : ∀ s : Nat, s ∈ server.tables.sessions → s < n
  joined : ∀ s : Nat, s < n → (server.tables.session s).nickname = name s ∧
    (server.tables.session s).activeRoomId = DEFAULT_ROOM_ID
  absent : ∀ s : Nat, n ≤ s → server.tables.session s = {}
  bound : ∀ nick : Bytes, nick ∈ server.tables.identities → ∃ s < n, nick = name s
  bans : server.tables.bannedNicks = ∅

variable {server : ChatServer} {s : SessionId} {nick : Bytes}

/-- The tables with a session added that is in the given state. -/
def ServerTables.withSession (tables : ServerTables) (s : SessionId) (session : ClientSession) :
    ServerTables :=
  { tables with
    sessions := tables.sessions.insert s
    session := Function.update tables.session s session }

theorem withSession_session (tables : ServerTables) (session : ClientSession) :
    (tables.withSession s session).session s = session := Function.update_self _ _ _

theorem withSession_updateSession (tables : ServerTables) (session : ClientSession)
    (change : ClientSession → ClientSession) :
    (tables.withSession s session).updateSession s change =
      tables.withSession s (change session) := by
  simp [ServerTables.withSession, ServerTables.updateSession]

/-- A session without a nickname takes none from anyone. -/
theorem withSession_free {tables tables' : ServerTables} {session : ClientSession}
    (same : tables' = tables.withSession s session) (unnamed : session.nickname = [])
    (named : nick ≠ []) (free : ∀ t ∈ tables.sessions, (tables.session t).nickname ≠ nick) :
    tables'.nicknameTaken .plain nick = false := by
  subst same
  simp only [ServerTables.nicknameTaken, Bool.or_eq_false_iff, List.any_eq_false,
    Std.ExtTreeSet.mem_toList]
  refine ⟨rfl, fun t listed => ?_⟩
  by_cases e : t = s
  · subst e
    simpa [withSession_session, unnamed] using named
  · have old : t ∈ tables.sessions := by
      simpa [ServerTables.withSession, OrderedMap.mem_insert, Ne.symm e, e] using listed
    simpa [ServerTables.withSession, e] using free t old

theorem decode_hello : decodeClientFrame (clientFrame (.hello VERSION)) = .ok (.hello VERSION) :=
  decodeClientFrame_clientFrame (.hello (toDecimal_isNumeral _)) (by decide)

theorem decode_identify (valid : isValidNickname nick = true) :
    decodeClientFrame (clientFrame (.identify nick visitorKey)) =
      .ok (.identify nick visitorKey) := by
  have key : isHex visitorKey 64 = true := by decide
  have shape : serializeClient (.identify nick visitorKey) =
      ascii "IDENTIFY" ++ pipe :: (nick ++ pipe :: visitorKey) := by
    simp [serializeClient, ascii, pipe]
  refine decodeClientFrame_clientFrame (shape ▸ .identify valid key) ?_
  have short := isValidNickname_length valid
  have word : (ascii "IDENTIFY").length = 8 := rfl
  have keyLength : visitorKey.length = 64 := rfl
  have limit : maxPayloadLength = 3069 := rfl
  rw [shape, List.length_append, List.length_cons, List.length_append, List.length_cons]
  omega

theorem decode_proof :
    decodeClientFrame (clientFrame (.identityProof visitorSignature)) =
      .ok (.identityProof visitorSignature) :=
  decodeClientFrame_clientFrame (.identityProof (by decide +kernel)) (by decide +kernel)

/-- The first four events of a visit. -/
theorem visit_challenged (valid : isValidNickname nick = true)
    (absent : server.tables.session s = {})
    (unbound : server.tables.identities[nick]? = none)
    (bans : server.tables.bannedNicks = ∅)
    (free : ∀ t ∈ server.tables.sessions, (server.tables.session t).nickname ≠ nick) :
    ∃ server' challenge, Run.run (step .plain) server ((visit s nick).take 4) = some server' ∧
      challenge ≠ [] ∧
      server'.tables = server.tables.withSession s (challengedSession nick challenge) := by
  have accepted : step .plain server (.accept s) = some (server.accept s) := by
    simp [step, absent]
  have t1 : (server.accept s).tables = server.tables.withSession s { readLoop := .handshake } := by
    simp [ChatServer.accept, ChatServer.onTables, ChatServer.updateSession,
      ServerTables.updateSession, ServerTables.withSession, absent]
  generalize server.accept s = server1 at accepted t1
  have shaken : step .plain server1 (.handshake s true) =
      some (server1.onHandshake .plain s true) := by
    simp [step, t1, withSession_session]
  have t2 : (server1.onHandshake .plain s true).tables =
      server.tables.withSession s { readLoop := .reading } := by
    change server1.tables.updateSession s (fun session => { session with readLoop := .reading }) = _
    rw [t1, withSession_updateSession]
  generalize server1.onHandshake .plain s true = server2 at shaken t2
  have greeted : step .plain server2 (.line s (clientFrame (.hello VERSION))) =
      some (server2.onMessage .plain s (.hello VERSION)) := by
    simp [step, t2, withSession_session, ChatServer.onLine, decode_hello]
  have t3 : (server2.onMessage .plain s (.hello VERSION)).tables =
      server.tables.withSession s { readLoop := .reading, protocolNegotiated := true } := by
    have fresh : (server2.tables.session s).protocolNegotiated = false := by
      rw [t2, withSession_session]
    simp only [ChatServer.onMessage, ChatServer.onHello, ChatServer.note_tables, fresh,
      Bool.false_eq_true, if_false, ChatServer.deliver_tables]
    change server2.tables.updateSession s
      (fun session => { session with protocolNegotiated := VERSION == VERSION }) = _
    rw [t2, withSession_updateSession]
    rfl
  generalize server2.onMessage .plain s (.hello VERSION) = server3 at greeted t3
  have asked : step .plain server3 (.line s (clientFrame (.identify nick visitorKey))) =
      some (server3.onMessage .plain s (.identify nick visitorKey)) := by
    simp [step, t3, withSession_session, ChatServer.onLine, decode_identify valid]
  have available : server3.tables.identityAvailableFor nick visitorKey = none := by
    have key : isHexOfLen visitorKey cryptoSignPublicKeyBytes = true := by decide
    have none : server3.tables.identities[nick]? = none := by rw [t3]; exact unbound
    simp [ServerTables.identityAvailableFor, valid, key, none]
  have welcome : server3.tables.isBanned nick = false := by
    simp [ServerTables.isBanned, t3, ServerTables.withSession, bans]
  have taken : server3.tables.nicknameTaken .plain nick = false :=
    withSession_free t3 rfl (isValidNickname_ne_nil valid) free
  have t4 : ∃ challenge, challenge ≠ [] ∧
      (server3.onMessage .plain s (.identify nick visitorKey)).tables =
        server.tables.withSession s (challengedSession nick challenge) := by
    have session := congrArg (fun tables => tables.session s) t3
    simp only [withSession_session] at session
    refine ⟨Env.plain.randomHex server3.output.readings IDENTITY_CHALLENGE_BYTES, ?_, ?_⟩
    · simp [Env.randomHex, bytesToHex, Env.plain, IDENTITY_CHALLENGE_BYTES]
    · have gate : Env.plain.hasPassword = false := rfl
      simp only [ChatServer.onMessage, ChatServer.note_tables, session, Bool.not_true,
        Bool.false_eq_true, if_false, gate, Bool.false_and, ChatServer.onAdmittedMessage,
        ChatServer.onIdentify, List.isEmpty_nil, available, welcome, taken]
      change server3.tables.updateSession s (fun session => { session with
        pendingNickname := nick
        pendingPublicKeyHex := visitorKey
        pendingChallenge := _ }) = _
      rw [t3, withSession_updateSession]
      rfl
  obtain ⟨challenge, some, t4⟩ := t4
  refine ⟨_, challenge, ?_, some, t4⟩
  exact Run.run_cons.mpr ⟨_, accepted, Run.run_cons.mpr ⟨_, shaken, Run.run_cons.mpr
    ⟨_, greeted, Run.run_cons.mpr ⟨_, asked, rfl⟩⟩⟩⟩

/-- The session with the nickname it has proven. -/
def named (nick : Bytes) (session : ClientSession) : ClientSession :=
  { session with
    nickname := nick
    pendingNickname := []
    pendingPublicKeyHex := []
    pendingChallenge := [] }

theorem acceptProof_roster {env : Env} {nick publicKeyHex challenge : Bytes}
    (lobby : DEFAULT_ROOM_ID ∈ server.tables.rooms) :
    (server.acceptProof env s nick publicKeyHex challenge).roster =
      (server.roster.updateSession s (named nick)).placeSession s DEFAULT_ROOM_ID := by
  unfold ChatServer.acceptProof
  simp only
  rw [ChatServer.moveSessionToRoom_roster, if_pos]
  · rfl
  · exact lobby

/-- The last event of a visit: the session has the nickname and is in the lobby. -/
theorem visit_joined {tables : ServerTables} {challenge : Bytes}
    (hc : server.tables.Consistent) (some : challenge ≠ [])
    (asked : server.tables = tables.withSession s (challengedSession nick challenge))
    (valid : isValidNickname nick = true) (unbound : tables.identities[nick]? = none)
    (bans : tables.bannedNicks = ∅)
    (free : ∀ t ∈ tables.sessions, (tables.session t).nickname ≠ nick) :
    ∃ server' : ChatServer,
      step .plain server (.line s (clientFrame (.identityProof visitorSignature))) =
        .some server' ∧
      server'.tables.sessions = tables.sessions.insert s ∧
      server'.tables.identities = tables.identities.insert nick visitorKey ∧
      server'.tables.bannedNicks = ∅ ∧
      (∀ t ≠ s, server'.tables.session t = tables.session t) ∧
      (server'.tables.session s).nickname = nick ∧
      (server'.tables.session s).activeRoomId = DEFAULT_ROOM_ID := by
  have session : server.tables.session s = challengedSession nick challenge := by
    rw [asked, withSession_session]
  have proof : step .plain server (.line s (clientFrame (.identityProof visitorSignature))) =
      .some (server.onMessage .plain s (.identityProof visitorSignature)) := by
    simp [step, session, challengedSession, ChatServer.onLine, decode_proof]
  have verified : Env.plain.verifyIdentitySignature visitorKey challenge visitorSignature =
      true := by
    have key : isHexOfLen visitorKey cryptoSignPublicKeyBytes = true := by decide
    have signature : isHexOfLen visitorSignature cryptoSignBytes = true := by decide +kernel
    simp [Env.verifyIdentitySignature, key, signature, Env.plain]
  have welcome : server.tables.isBanned nick = false := by
    simp [ServerTables.isBanned, asked, ServerTables.withSession, bans]
  have taken : server.tables.nicknameTaken .plain nick = false :=
    withSession_free asked rfl (isValidNickname_ne_nil valid) free
  have none : server.tables.identities[nick]? = .none := by rw [asked]; exact unbound
  have lobby : DEFAULT_ROOM_ID ∈ server.tables.rooms := hc.rooms.lobby
  have roster : (server.onMessage .plain s (.identityProof visitorSignature)).roster =
      ServerTables.placeSession
        { server.roster.updateSession s (named nick) with
          identities := server.tables.identities.insert nick visitorKey } s DEFAULT_ROOM_ID := by
    have gate : Env.plain.hasPassword = false := rfl
    have noNick : nick.isEmpty = false := by simpa using isValidNickname_ne_nil valid
    have noChallenge : challenge.isEmpty = false := by simpa using some
    have noKey : visitorKey.isEmpty = false := rfl
    simp only [ChatServer.onMessage, ChatServer.note_tables, session, challengedSession,
      Bool.not_true, Bool.false_eq_true, if_false, gate, Bool.false_and,
      ChatServer.onAdmittedMessage, ChatServer.onProof, List.isEmpty_nil, noNick, noChallenge,
      noKey, Bool.or_self, verified, welcome, taken]
    rcases (server.note (.received s (.identityProof visitorSignature))).bindIdentity_cases .plain
      nick visitorKey with ⟨-, key, other, -⟩ | ⟨-, other, -⟩ | ⟨bound, -, tables'⟩
    · rw [ChatServer.note_tables, none] at other
      cases other
    · rw [ChatServer.note_tables, none] at other
      cases other
    · have lobby' : DEFAULT_ROOM_ID ∈ ((server.note (.received s
          (.identityProof visitorSignature))).bindIdentity .plain nick visitorKey).1.tables.rooms := by
        rw [tables']
        exact lobby
      simp only [bound, Bool.not_true, Bool.false_eq_true, if_false]
      rw [acceptProof_roster lobby', ChatServer.roster, tables']
      rfl
  refine ⟨_, proof, ?_⟩
  have sessions := congrArg (fun tables => tables.sessions) roster
  have identities := congrArg (fun tables => tables.identities) roster
  have bannedNicks := congrArg (fun tables => tables.bannedNicks) roster
  have each := congrArg (fun tables => tables.session) roster
  refine ⟨?_, ?_, ?_, fun t ht => ?_, ?_, ?_⟩
  · refine sessions.trans ?_
    change server.tables.sessions = _
    rw [asked]
    rfl
  · refine identities.trans ?_
    change server.tables.identities.insert nick visitorKey = _
    rw [asked]
    rfl
  · refine bannedNicks.trans ?_
    change server.tables.bannedNicks = _
    rw [asked]
    exact bans
  · refine (congrFun each t).trans ?_
    simp only [ServerTables.placeSession_session, ht, if_false]
    change (server.tables.updateSession s (named nick)).session t = _
    rw [ServerTables.updateSession_session, if_neg ht, asked]
    exact Function.update_of_ne ht _ _
  · refine (congrArg (fun session => session.nickname) (congrFun each s)).trans ?_
    simp only [ServerTables.placeSession_session, if_true]
    change ((server.tables.updateSession s (named nick)).session s).nickname = _
    rw [ServerTables.updateSession_session, if_pos rfl]
    rfl
  · refine (congrArg (fun session => session.activeRoomId) (congrFun each s)).trans ?_
    simp only [ServerTables.placeSession_session, if_true]

theorem crowd_empty (name : Nat → Bytes) :
    Crowd name 0 (ChatServer.start .plain emptyStore) := by
  obtain ⟨-, -, sessions, session⟩ := start_tables .plain emptyStore
  refine ⟨⟨[], rfl⟩, fun s hs => ?_, fun s hs => absurd hs (Nat.not_lt_zero s), fun s _ => ?_,
    fun nick hn => ?_, rfl⟩
  · rw [sessions] at hs
    exact absurd hs Std.ExtTreeSet.not_mem_empty
  · rw [session]
  · exact absurd hn Std.ExtTreeMap.not_mem_empty

theorem Crowd.grow {name : Nat → Bytes} {n : Nat} (h : Crowd name n server)
    (valid : isValidNickname (name n) = true) (distinct : Function.Injective name) :
    ∃ server', Crowd name (n + 1) server' := by
  have unbound : server.tables.identities[name n]? = none := by
    apply Std.ExtTreeMap.getElem?_eq_none
    intro bound
    obtain ⟨s, before, same⟩ := h.bound (name n) bound
    exact absurd (distinct same) (by omega)
  have free (t : Nat) (listed : t ∈ server.tables.sessions) :
      (server.tables.session t).nickname ≠ name n := by
    have before := h.listed t listed
    rw [(h.joined t before).1]
    exact fun same => absurd (distinct same) (by omega)
  obtain ⟨asking, challenge, first, some, asked⟩ :=
    visit_challenged valid (h.absent n (Nat.le_refl n)) unbound h.bans free
  obtain ⟨before, start⟩ := h.reachable
  have reachable : Reachable .plain emptyStore asking :=
    ⟨_, Run.run_append.mpr ⟨server, start, first⟩⟩
  obtain ⟨server', last, sessions, identities, bans, others, nickname, room⟩ :=
    visit_joined (reachable_consistent reachable) some asked valid unbound h.bans free
  obtain ⟨events, run⟩ := reachable
  refine ⟨server', ⟨_, Run.run_snoc.mpr ⟨asking, run, last⟩⟩, fun s hs => ?_, fun s hs => ?_,
    fun s hs => ?_, fun nick hn => ?_, bans⟩
  · rw [sessions, OrderedMap.mem_insert] at hs
    rcases hs with rfl | hs
    · omega
    · have := h.listed s hs
      omega
  · by_cases e : s = n
    · subst e
      exact ⟨nickname, room⟩
    · rw [others s e]
      exact h.joined s (Nat.lt_of_le_of_ne (Nat.le_of_lt_succ hs) e)
  · rw [others s (Nat.ne_of_gt hs)]
    exact h.absent s (Nat.le_of_succ_le hs)
  · rw [identities, Std.ExtTreeMap.mem_insert] at hn
    rcases hn with same | hn
    · exact ⟨n, by omega, (Std.LawfulEqCmp.eq_of_compare same).symm⟩
    · obtain ⟨s, hs, same⟩ := h.bound nick hn
      exact ⟨s, Nat.lt_succ_of_lt hs, same⟩

theorem exists_crowd {name : Nat → Bytes} (distinct : Function.Injective name) {n : Nat}
    (valid : ∀ s < n, isValidNickname (name s) = true) : ∃ server, Crowd name n server := by
  induction n with
  | zero => exact ⟨_, crowd_empty name⟩
  | succ n ih =>
      obtain ⟨server, h⟩ := ih fun s hs => valid s (Nat.lt_succ_of_lt hs)
      exact h.grow (valid n (Nat.lt_succ_self n)) distinct

/-- The members of the lobby are at least as many as the crowd. -/
theorem Crowd.lobby {name : Nat → Bytes} {n : Nat} (h : Crowd name n server) :
    ∃ room, server.tables.rooms[DEFAULT_ROOM_ID]? = some room ∧
      n ≤ room.members.toList.length := by
  have hc := reachable_consistent h.reachable
  obtain ⟨room, present⟩ := Option.isSome_iff_exists.mp
    (Std.ExtTreeMap.isSome_getElem?_iff_mem.mpr hc.rooms.lobby)
  have seated (s : Nat) (hs : s < n) : s ∈ room.members := by
    have := (hc.member_iff s DEFAULT_ROOM_ID).mpr ⟨(h.joined s hs).2, by decide⟩
    simpa [ServerTables.members, present] using this
  have listed : List.range n ⊆ room.members.toList := by
    intro s hs
    exact Std.ExtTreeSet.mem_toList.mpr (seated s (List.mem_range.mp hs))
  have some := (List.nodup_range.subperm listed).length_le
  rw [List.length_range] at some
  exact ⟨room, present, some⟩

theorem isValidNickname_toDecimal {n : Nat} (small : n < 10 ^ 31) :
    isValidNickname (toDecimal n) = true := by
  have plain (ch : UInt8) : isDigit ch = true →
      isCntrl ch = false ∧ isSpace ch = false ∧ ch ≠ pipe ∧ ch ≠ comma :=
    @forall_byte (fun ch => isDigit ch = true →
      isCntrl ch = false ∧ isSpace ch = false ∧ ch ≠ pipe ∧ ch ≠ comma) (by decide +kernel) ch
  exact isValidNickname_iff.mpr ⟨toDecimal_ne_nil n, length_toDecimal_le (by omega) small,
    fun ch hm => plain ch (toDecimal_isDigit hm)⟩

/-- Nobody is sent the list of a lobby with 1532 members. -/
theorem Crowd.too_many {name : Nat → Bytes} (h : Crowd name 1532 server) :
    ∃ room, server.tables.rooms[DEFAULT_ROOM_ID]? = some room ∧
      ¬ UserListArrives .plain server DEFAULT_ROOM_ID room := by
  have hc := reachable_consistent h.reachable
  obtain ⟨room, present, many⟩ := h.lobby
  refine ⟨room, present, fun arrives => ?_⟩
  have fits := ((userListArrives_iff_fits hc present).mp arrives).2
  have two : ∀ length ∈ (room.members.toList.map fun s =>
      (server.tables.session s).nickname).map (fun nick => nick.length + 1), 2 ≤ length := by
    intro length hl
    obtain ⟨nick, hn, rfl⟩ := List.mem_map.mp hl
    obtain ⟨s, hs, rfl⟩ := List.mem_map.mp hn
    have := List.length_pos_iff.mpr (member_named hc present (Std.ExtTreeSet.mem_toList.mp hs))
    omega
  have total := List.card_nsmul_le_sum _ 2 two
  simp only [ServerTables.occupants, List.map_append, List.sum_append] at fits
  simp only [List.length_map, smul_eq_mul] at total
  omega

end Crowds

/-- In every reachable state the user list of a room arrives exactly when it fits
into a frame. -/
theorem reachable_userList (env : Env) (stored : StoredState) (server : ChatServer)
    (h : Reachable env stored server) (roomId : RoomId) (room : Room)
    (present : server.tables.rooms[roomId]? = some room) :
    UserListArrives env server roomId room ↔ UserListFits env server roomId room :=
  userListArrives_iff_fits (reachable_consistent h) present

/-- Three who are in the lobby are sent their names in order, whoever came first. -/
theorem reachable_userList_three :
    ∃ server room, serverAfter (visit 7 (ascii "dora") ++ visit 8 (ascii "ann") ++
        visit 9 (ascii "bob")) = some server ∧
      server.tables.rooms[DEFAULT_ROOM_ID]? = some room ∧
      server.tables.userNicknames .plain DEFAULT_ROOM_ID room.members =
        [ascii "ann", ascii "bob", ascii "dora"] ∧
      UserListArrives .plain server DEFAULT_ROOM_ID room := by
  obtain ⟨server, hserver, reachable, fits⟩ :=
    exists_serverAfter (visit 7 (ascii "dora") ++ visit 8 (ascii "ann") ++ visit 9 (ascii "bob"))
      (fun server => (server.tables.rooms[DEFAULT_ROOM_ID]?.any fun room =>
        decide (server.tables.userNicknames .plain DEFAULT_ROOM_ID room.members =
          [ascii "ann", ascii "bob", ascii "dora"]) &&
        decide (UserListFits .plain server DEFAULT_ROOM_ID room)) = true) (by decide +kernel)
  obtain ⟨room, present, state⟩ := (Option.any_eq_true _ _).mp fits
  simp only [Bool.and_eq_true, decide_eq_true_eq] at state
  exact ⟨server, room, hserver, present, state.1,
    (reachable_userList _ _ _ reachable _ _ present).mpr state.2⟩

/-- When the clients `0` to `1531` have joined, the list of the lobby reaches none
of them. -/
theorem reachable_userList_crowded :
    ¬ ∀ env stored server, Reachable env stored server → ∀ (roomId : RoomId) (room : Room),
      server.tables.rooms[roomId]? = some room → UserListArrives env server roomId room := by
  intro all
  obtain ⟨server, crowd⟩ := @exists_crowd toDecimal toDecimal_injective 1532
    fun s hs => isValidNickname_toDecimal (by omega)
  obtain ⟨room, present, lost⟩ := crowd.too_many
  exact lost (all _ _ server crowd.reachable _ room present)

end Chatbox.Chat
