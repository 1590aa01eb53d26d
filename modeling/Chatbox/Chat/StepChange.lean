import Chatbox.Chat.Change

/-!
Every step as a sequence of changes, with the exact condition under which a frame
admits or moves the session that sent it.
-/

namespace Chatbox.Chat

open Text Protocol Storage

/-- The checks of the PROOF branch. -/
def admitsSession (env : Env) (server : ChatServer) (s : SessionId) (signatureHex : Bytes) :
    Bool :=
  let session := server.tables.session s
  session.nickname.isEmpty && !session.pendingNickname.isEmpty &&
    !session.pendingPublicKeyHex.isEmpty && !session.pendingChallenge.isEmpty &&
    env.verifyIdentitySignature session.pendingPublicKeyHex session.pendingChallenge
      signatureHex &&
    !server.tables.isBanned session.pendingNickname &&
    !server.tables.nicknameTaken env session.pendingNickname &&
    (match server.tables.identities[session.pendingNickname]? with
      | some key => key == session.pendingPublicKeyHex
      | none => true)

/-- What a refused proof is answered with. -/
def ProofRefusal : ServerMessage → Prop
  | .joinRejected _ | .banned | .nicknameTaken => True
  | _ => False

/-- The gates every command but HELLO and AUTH has to pass. -/
def passesGates (env : Env) (server : ChatServer) (s : SessionId) : Bool :=
  (server.tables.session s).protocolNegotiated &&
    (!env.hasPassword || (server.tables.session s).authenticated)

/-- The checks of the commands that put the session that sends them into a room. -/
def passesChecks (env : Env) (server : ChatServer) (s : SessionId) : ClientMessage → Bool
  | .identityProof signatureHex => admitsSession env server s signatureHex
  | .leave =>
      !(server.tables.session s).nickname.isEmpty &&
        (server.tables.session s).activeRoomId != DEFAULT_ROOM_ID
  | .createRoom name =>
      !(server.tables.session s).nickname.isEmpty && server.canAddRoom name
  | .joinRoom name =>
      !(server.tables.session s).nickname.isEmpty &&
        (match server.tables.findRoomByName name with
          | some (roomId, _) => (server.tables.session s).activeRoomId != roomId
          | none => false)
  | _ => false

/-- The frames that put the session that sends them into a room. -/
def movesSession (env : Env) (server : ChatServer) (s : SessionId) (message : ClientMessage) :
    Bool :=
  passesGates env server s && passesChecks env server s message

/-- The session an event may let in or move. -/
def Mover (env : Env) (server : ChatServer) (event : Event) (s : SessionId) : Prop :=
  ∃ line message, event = .line s line ∧ decodeClientFrame line = .ok message ∧
    movesSession env server s message = true

section Mover

variable {env : Env} {server : ChatServer} {s a : SessionId} {line : Bytes}

theorem mover_line {message : ClientMessage} (h : decodeClientFrame line = .ok message) :
    Mover env server (.line s line) a ↔ a = s ∧ movesSession env server s message = true := by
  constructor
  · rintro ⟨line', message', he, hd, hm⟩
    obtain ⟨rfl, rfl⟩ := Event.line.inj he
    obtain rfl := Except.ok.inj (h.symm.trans hd)
    exact ⟨rfl, hm⟩
  · rintro ⟨rfl, hm⟩
    exact ⟨line, message, rfl, h, hm⟩

theorem not_mover_undecodable {e : Failure} (h : decodeClientFrame line = .error e) :
    ¬ Mover env server (.line s line) a := by
  rintro ⟨line', message', he, hd, -⟩
  obtain ⟨-, rfl⟩ := Event.line.inj he
  rw [h] at hd
  cases hd

theorem not_mover {event : Event} (h : ∀ s line, event ≠ .line s line) :
    ¬ Mover env server event a :=
  fun ⟨line, _, he, _⟩ => h a line he

end Mover

namespace ChatServer

variable {env : Env} {server : ChatServer} {s : SessionId} {mover : SessionId → Prop}

section Handlers

theorem stopReading_changes : Changes env mover server.roster (server.stopReading s).roster :=
  updateSession_changes fun _ => ⟨rfl, rfl, rfl, rfl, by simp [ReadLoop.Early]⟩

theorem reject_changes (stays : ¬ mover s) {message : ServerMessage} :
    Changes env mover server.roster (server.reject env s message).roster := by
  have dropped : Changes env mover ((server.deliver s message).close s).roster
      (((server.deliver s message).close s).disconnect env s false).roster :=
    disconnect_changes stays
  rw [close_roster, deliver_roster] at dropped
  exact dropped.trans stopReading_changes

theorem onHello_changes {version : UInt32} :
    Changes env mover server.roster (server.onHello env s version).roster := by
  unfold onHello
  split
  · exact .of_eq rfl
  · exact updateSession_changes fun _ => ⟨rfl, rfl, rfl, rfl, fun _ => rfl⟩

theorem onAuthenticate_changes (stays : ¬ mover s) {password : Bytes} :
    Changes env mover server.roster (server.onAuthenticate env s password).roster := by
  unfold onAuthenticate
  split
  · exact updateSession_changes fun _ => ⟨rfl, rfl, rfl, rfl, fun _ => rfl⟩
  · exact reject_changes stays

theorem identityAvailableFor_valid {tables : ServerTables} {nick publicKeyHex : Bytes}
    (h : tables.identityAvailableFor nick publicKeyHex = none) :
    isValidNickname nick = true ∧ isHexOfLen publicKeyHex cryptoSignPublicKeyBytes = true := by
  unfold ServerTables.identityAvailableFor at h
  split at h
  · cases h
  · next hn =>
      split at h
      · cases h
      · next hk => exact ⟨by simpa using hn, by simpa using hk⟩

theorem onIdentify_changes (stays : ¬ mover s)
    (reading : (server.tables.session s).readLoop = .reading) {nick publicKeyHex : Bytes} :
    Changes env mover server.roster (server.onIdentify env s nick publicKeyHex).roster := by
  unfold onIdentify
  split
  · exact .of_eq rfl
  · split
    · exact reject_changes stays
    · next h =>
        split
        · exact reject_changes stays
        · split
          · exact reject_changes stays
          · exact .one (.identify _ s _ _ _ (identityAvailableFor_valid h).1 reading)

/-- Admission gives the session its nickname and moves it to the lobby. -/
theorem acceptProof_changes (moves : mover s) {nick publicKeyHex challenge : Bytes}
    (unnamed : (server.tables.session s).nickname = [])
    (nick_eq : (server.tables.session s).pendingNickname = nick) (named : nick ≠ [])
    (key_eq : (server.tables.session s).pendingPublicKeyHex = publicKeyHex)
    (free : server.tables.nicknameTaken env nick = false)
    (bound : server.tables.identities[nick]? = some publicKeyHex) :
    Changes env mover server.roster (server.acceptProof env s nick publicKeyHex challenge).roster := by
  subst nick_eq key_eq
  have admitted : Changes env mover server.roster
      (server.takeNickname s (server.tables.session s).pendingNickname).roster :=
    .one (.admission _ s moves unnamed named free bound)
  refine Relation.ReflTransGen.trans admitted ?_
  unfold acceptProof
  simp only
  generalize hnamed : server.takeNickname s (server.tables.session s).pendingNickname = server'
  have name : (server'.tables.session s).nickname ≠ [] := by
    rw [← hnamed]
    simpa [takeNickname, updateSession, onTables, ServerTables.updateSession] using named
  have move (a b : ServerMessage) (effect : Effect) : Changes env mover
      (((server'.note effect).deliver s a).deliver s b).roster
      ((((server'.note effect).deliver s a).deliver s b).moveSessionToRoom env s DEFAULT_ROOM_ID
        false).roster := by
    refine moveSessionToRoom_changes moves ?_ false
    exact name
  simp only [deliver_roster, note_roster] at move
  exact move _ _ _

/-- A proof of a session that has joined, one that is refused, and one that admits the
session. -/
theorem onProof_cases (env : Env) (server : ChatServer) (s : SessionId) (signatureHex : Bytes) :
    ((server.tables.session s).nickname ≠ [] ∧ admitsSession env server s signatureHex = false ∧
        server.onProof env s signatureHex =
          server.deliver s (.joinRejected (ascii "Already joined"))) ∨
      (admitsSession env server s signatureHex = false ∧ ∃ message, ProofRefusal message ∧
        server.onProof env s signatureHex = server.reject env s message) ∨
      (admitsSession env server s signatureHex = true ∧
        (server.tables.session s).nickname = [] ∧
        (server.tables.session s).pendingNickname ≠ [] ∧
        server.tables.nicknameTaken env (server.tables.session s).pendingNickname = false ∧
        server.onProof env s signatureHex =
          (server.bindIdentity env (server.tables.session s).pendingNickname
            (server.tables.session s).pendingPublicKeyHex).1.acceptProof env s
            (server.tables.session s).pendingNickname (server.tables.session s).pendingPublicKeyHex
            (server.tables.session s).pendingChallenge) := by
  unfold onProof
  simp only
  split
  · exact .inl ⟨by simp_all, by simp_all [admitsSession], rfl⟩
  next hnick =>
  split
  · next hpending =>
      refine .inr (.inl ⟨?_, .joinRejected _, trivial, rfl⟩)
      simp only [Bool.or_eq_true] at hpending
      rcases hpending with (h | h) | h <;> simp [admitsSession, h]
  next hpending =>
  split
  · exact .inr (.inl ⟨by simp_all [admitsSession], .joinRejected _, trivial, rfl⟩)
  next hverify =>
  split
  · exact .inr (.inl ⟨by simp_all [admitsSession], .banned, trivial, rfl⟩)
  next hbanned =>
  split
  · exact .inr (.inl ⟨by simp_all [admitsSession], .nicknameTaken, trivial, rfl⟩)
  next htaken =>
  simp only [Bool.or_eq_true, List.isEmpty_iff, not_or] at hpending
  have facts : (server.tables.session s).nickname = [] ∧
      server.tables.nicknameTaken env (server.tables.session s).pendingNickname = false := by
    simp_all
  rcases server.bindIdentity_cases env (server.tables.session s).pendingNickname
    (server.tables.session s).pendingPublicKeyHex with
      ⟨h, key, other, hne⟩ | ⟨h, bound, -⟩ | ⟨h, unbound, -⟩
  · rw [h]
    exact .inr (.inl ⟨by simp_all [admitsSession], .joinRejected _, trivial, rfl⟩)
  · simp only [h, Bool.not_true, Bool.false_eq_true, if_false]
    exact .inr (.inr ⟨by simp_all [admitsSession], facts.1, hpending.1.1, facts.2, trivial⟩)
  · simp only [h, Bool.not_true, Bool.false_eq_true, if_false]
    exact .inr (.inr ⟨by simp_all [admitsSession], facts.1, hpending.1.1, facts.2, trivial⟩)

theorem onProof_changes {signatureHex : Bytes}
    (moves : mover s ↔ admitsSession env server s signatureHex = true) :
    Changes env mover server.roster (server.onProof env s signatureHex).roster := by
  obtain ⟨-, -, h⟩ | ⟨refused, message, -, h⟩ | ⟨admits, unnamed, named, free, h⟩ :=
    server.onProof_cases env s signatureHex
  · rw [h]
    exact .of_eq rfl
  · rw [h]
    exact reject_changes (by simp [moves, refused])
  · rw [h]
    rcases server.bindIdentity_cases env (server.tables.session s).pendingNickname
      (server.tables.session s).pendingPublicKeyHex with
        ⟨-, key, other, hne⟩ | ⟨-, bound, same⟩ | ⟨-, -, tables⟩
    · simp_all [admitsSession]
    · rw [same]
      exact acceptProof_changes (moves.mpr admits) unnamed rfl named rfl free bound
    · refine bindIdentity_changes.trans (acceptProof_changes (moves.mpr admits) ?_ ?_ named ?_ ?_ ?_)
        <;> rw [tables]
      · exact unnamed
      · exact free
      · simp

theorem onLeave_changes (moves : passesChecks env server s .leave = true → mover s) :
    Changes env mover server.roster (server.onLeave env s).roster := by
  unfold onLeave
  split
  · exact .of_eq rfl
  · next named =>
      rw [reportError_roster]
      refine leaveRoom_changes (fun hne => moves ?_) (by simpa using named)
      simpa [passesChecks, hne] using named

theorem onDisconnect_changes (stays : ¬ mover s) :
    Changes env mover server.roster (server.onDisconnect env s).roster :=
  (disconnect_changes stays).trans stopReading_changes

theorem onListRooms_roster : (server.onListRooms env s).roster = server.roster := by
  unfold onListRooms
  split <;> rfl

theorem onCreateRoom_changes {name : Bytes}
    (moves : passesChecks env server s (.createRoom name) = true → mover s) :
    Changes env mover server.roster (server.onCreateRoom env s name).roster := by
  unfold onCreateRoom
  split
  · exact .of_eq rfl
  · next named =>
      rw [reportError_roster]
      refine createRoom_changes (fun hcan => moves ?_) (by simpa using named)
      simpa [passesChecks, hcan] using named

theorem onJoinRoom_changes {name : Bytes}
    (moves : passesChecks env server s (.joinRoom name) = true → mover s) :
    Changes env mover server.roster (server.onJoinRoom env s name).roster := by
  unfold onJoinRoom
  split
  · exact .of_eq rfl
  · next named =>
      rw [reportError_roster]
      refine joinRoom_changes (fun item hfind hne => moves ?_) (by simpa using named)
      simpa [passesChecks, hfind, hne] using named

theorem onTopicRequest_changes {topic : Option Bytes} :
    Changes env mover server.roster (server.onTopicRequest env s topic).roster := by
  unfold onTopicRequest
  split
  · exact .of_eq rfl
  · cases topic with
    | none => exact .of_eq (by simp only [roster, sendTopic_tables])
    | some topic =>
        simp only [reportError_roster]
        exact setTopicForRoom_changes

theorem consumeMessageQuota_changes :
    Changes env mover server.roster (server.consumeMessageQuota env s).2.roster :=
  updateSession_changes fun _ => ⟨rfl, rfl, rfl, rfl, fun _ => rfl⟩

theorem onChat_changes {body : Bytes} :
    Changes env mover server.roster (server.onChat env s body).roster := by
  obtain h | h | h | ⟨-, session, reading, -, h⟩ := onChat_cases env server s body <;> rw [h]
  · exact .of_eq rfl
  · exact consumeMessageQuota_changes
  · exact consumeMessageQuota_changes
  · exact consumeMessageQuota_changes.then_eq (broadcastRoom_roster env _ _ _ _)

theorem onWhisper_changes {target body : Bytes} :
    Changes env mover server.roster (server.onWhisper env s target body).roster := by
  obtain h | h | h | ⟨-, h⟩ := onWhisper_cases env server s target body <;> rw [h]
  · exact .of_eq rfl
  · exact consumeMessageQuota_changes
  · exact consumeMessageQuota_changes
  · have same := sendPrivateInRoom_tables env (server.consumeMessageQuota env s).2
      ((server.consumeMessageQuota env s).2.tables.session s).nickname target body
      ((server.consumeMessageQuota env s).2.tables.session s).activeRoomId false
    refine consumeMessageQuota_changes.then_eq (?_ : _ = (server.consumeMessageQuota env s).2.roster)
    rw [sendPrivateFrom, roster, same, roster]

theorem onKickRequest_changes (stays : ∀ s, ¬ mover s) {nickname reason : Bytes} :
    Changes env mover server.roster (server.onKickRequest env s nickname reason).roster := by
  unfold onKickRequest
  split
  · exact .of_eq rfl
  · rw [reportError_roster]
    exact kickFrom_changes stays

theorem onAdmittedMessage_changes (reading : (server.tables.session s).readLoop = .reading)
    (gates : passesGates env server s = true) {message : ClientMessage}
    (moves : ∀ a, mover a ↔ a = s ∧ movesSession env server s message = true) :
    Changes env mover server.roster (server.onAdmittedMessage env s message).roster := by
  have mine : passesChecks env server s message = true → mover s := fun h =>
    (moves s).mpr ⟨rfl, by simp [movesSession, gates, h]⟩
  have stays (h : passesChecks env server s message = false) (a : SessionId) : ¬ mover a := by
    rw [moves, movesSession, h]
    simp
  cases message with
  | hello version => exact .of_eq rfl
  | authenticate password => exact .of_eq rfl
  | identify nick publicKeyHex => exact onIdentify_changes (stays rfl s) reading
  | identityProof signatureHex =>
      refine onProof_changes ?_
      rw [moves]
      simp [movesSession, passesChecks, gates]
  | leave => exact onLeave_changes mine
  | disconnect => exact onDisconnect_changes (stays rfl s)
  | listRooms => exact .of_eq onListRooms_roster
  | createRoom name => exact onCreateRoom_changes mine
  | joinRoom name => exact onJoinRoom_changes mine
  | topicRequest topic => exact onTopicRequest_changes
  | chat body => exact onChat_changes
  | whisper target body => exact onWhisper_changes
  | kickRequest nickname reason => exact onKickRequest_changes (stays rfl)

/-- The branches of a frame that has been decoded, in their order. -/
theorem onMessage_cases (env : Env) (server : ChatServer) (s : SessionId)
    (message : ClientMessage) :
    let received := server.note (.received s message)
    (∃ version, message = .hello version ∧
      server.onMessage env s message = received.onHello env s version) ∨
    ((∀ version, message ≠ .hello version) ∧
      (server.tables.session s).protocolNegotiated = false ∧
      server.onMessage env s message =
        received.reject env s (.serverError (ascii "Protocol handshake required"))) ∨
    ((server.tables.session s).protocolNegotiated = true ∧ ∃ password,
      message = .authenticate password ∧
      server.onMessage env s message = received.onAuthenticate env s password) ∨
    ((∀ version, message ≠ .hello version) ∧ (∀ password, message ≠ .authenticate password) ∧
      (server.tables.session s).protocolNegotiated = true ∧ passesGates env server s = false ∧
      server.onMessage env s message = received.deliver s .authRequired) ∨
    ((∀ version, message ≠ .hello version) ∧ (∀ password, message ≠ .authenticate password) ∧
      passesGates env server s = true ∧
      server.onMessage env s message = received.onAdmittedMessage env s message) := by
  intro received
  cases hn : (server.tables.session s).protocolNegotiated with
  | false =>
      cases message with
      | hello version => exact .inl ⟨version, rfl, rfl⟩
      | _ => exact .inr (.inl ⟨nofun, rfl, by simp [onMessage, hn, received]⟩)
  | true =>
      cases hp : env.hasPassword && !(server.tables.session s).authenticated with
      | true =>
          have closed : passesGates env server s = false := by
            simp only [Bool.and_eq_true, Bool.not_eq_true'] at hp
            simp [passesGates, hn, hp]
          cases message with
          | hello version => exact .inl ⟨version, rfl, rfl⟩
          | authenticate password =>
              exact .inr (.inr (.inl ⟨rfl, password, rfl, by simp [onMessage, hn, received]⟩))
          | _ =>
              exact .inr (.inr (.inr (.inl ⟨nofun, nofun, rfl, closed, by
                simp [onMessage, hn, hp, received]⟩)))
      | false =>
          have gates : passesGates env server s = true := by
            simp only [Bool.and_eq_false_iff, Bool.not_eq_false'] at hp
            rcases hp with hp | hp <;> simp [passesGates, hn, hp]
          cases message with
          | hello version => exact .inl ⟨version, rfl, rfl⟩
          | authenticate password =>
              exact .inr (.inr (.inl ⟨rfl, password, rfl, by simp [onMessage, hn, received]⟩))
          | _ =>
              exact .inr (.inr (.inr (.inr ⟨nofun, nofun, gates, by
                simp [onMessage, hn, hp, received]⟩)))

/-- Behind the gates the rest of a frame is up to its branch. -/
theorem onMessage_passed {message : ClientMessage} (passes : passesGates env server s = true)
    (other : (∀ version, message ≠ .hello version) ∧ ∀ password, message ≠ .authenticate password) :
    server.onMessage env s message =
      (server.note (.received s message)).onAdmittedMessage env s message := by
  have negotiated := (Bool.and_eq_true_iff.mp passes).1
  rcases server.onMessage_cases env s message with ⟨version, hello, -⟩ | ⟨-, fresh, -⟩ |
    ⟨-, password, auth, -⟩ | ⟨-, -, -, closed, -⟩ | ⟨-, -, -, same⟩
  · exact absurd hello (other.1 version)
  · rw [negotiated] at fresh
    cases fresh
  · exact absurd auth (other.2 password)
  · rw [passes] at closed
    cases closed
  · exact same

theorem onMessage_changes (reading : (server.tables.session s).readLoop = .reading)
    {message : ClientMessage}
    (moves : ∀ a, mover a ↔ a = s ∧ movesSession env server s message = true) :
    Changes env mover server.roster (server.onMessage env s message).roster := by
  rw [← note_roster server (.received s message)]
  rcases server.onMessage_cases env s message with ⟨version, -, h⟩ | ⟨-, closed, h⟩ |
    ⟨-, password, rfl, h⟩ | ⟨-, -, -, -, h⟩ | ⟨-, -, gates, h⟩
  · rw [h]
    exact onHello_changes
  · rw [h]
    refine reject_changes ?_
    rw [moves]
    simp [movesSession, passesGates, closed]
  · rw [h]
    exact onAuthenticate_changes (by rw [moves]; simp [movesSession, passesChecks])
  · rw [h, deliver_roster]
  · rw [h]
    refine onAdmittedMessage_changes ?_ ?_ ?_
    · exact reading
    · exact gates
    · cases message <;> exact moves

theorem onLine_changes (reading : (server.tables.session s).readLoop = .reading) (line : Bytes) :
    Changes env (Mover env server (.line s line)) server.roster
      (server.onLine env s line).roster := by
  unfold onLine
  split
  · next message h =>
      exact onMessage_changes reading fun a => mover_line h
  · next e h =>
      split
      · exact reject_changes (not_mover_undecodable h)
      · exact .of_eq rfl

end Handlers

end ChatServer

open ChatServer in
/-- Every step is a sequence of changes, and it admits or moves a session only if
the event is a frame of that session that passes its checks. -/
theorem step_changes {env : Env} {server server' : ChatServer} {event : Event}
    (h : step env server event = some server') :
    Changes env (Mover env server event) server.roster server'.roster := by
  have stays (he : ∀ s line, event ≠ .line s line) (a : SessionId) :
      ¬ Mover env server event a := not_mover he
  cases event with
  | accept s =>
      simp only [step, Option.ite_none_right_eq_some, Option.some.injEq] at h
      obtain ⟨absent, rfl⟩ := h
      exact .one (.accept _ s absent)
  | handshake s ok =>
      simp only [step, Option.ite_none_right_eq_some, Option.some.injEq] at h
      obtain ⟨-, rfl⟩ := h
      cases ok with
      | false => exact (disconnect_changes (stays (by simp) s)).trans stopReading_changes
      | true =>
          rw [← deliver_roster server s (.hello VERSION)]
          exact updateSession_changes fun _ => ⟨rfl, rfl, rfl, rfl, by simp [ReadLoop.Early]⟩
  | line s line =>
      simp only [step, Option.ite_none_right_eq_some, Option.some.injEq] at h
      obtain ⟨reading, rfl⟩ := h
      exact onLine_changes reading line
  | readError s =>
      simp only [step, Option.ite_none_right_eq_some, Option.some.injEq] at h
      obtain ⟨-, rfl⟩ := h
      exact (disconnect_changes (stays (by simp) s)).trans stopReading_changes
  | posted s =>
      simp only [step] at h
      split at h
      · cases h
      · cases h
        exact .of_eq rfl
  | writeDone s ok =>
      simp only [step, Option.ite_none_right_eq_some, Option.some.injEq] at h
      obtain ⟨-, rfl⟩ := h
      exact .of_eq rfl
  | registerLocalIdentity nick publicKeyHex =>
      cases h
      exact registerLocalIdentity_changes
  | startLocalUser =>
      simp only [step, Option.ite_none_right_eq_some, Option.some.injEq] at h
      obtain ⟨-, rfl⟩ := h
      exact startLocalUser_changes
  | broadcast msg =>
      cases h
      exact .of_eq (broadcast_roster env _ msg)
  | broadcastServer msg =>
      cases h
      exact .of_eq (broadcastServer_roster env _ msg)
  | sendPrivate sender target message mirrorToLocal =>
      cases h
      exact .of_eq (by simp only [roster, sendPrivate, sendPrivateInRoom_tables])
  | createLocalRoom name =>
      cases h
      exact createLocalRoom_changes
  | joinLocalRoom name =>
      cases h
      exact joinLocalRoom_changes
  | leaveLocalRoom =>
      cases h
      exact leaveLocalRoom_changes
  | setLocalTopic topic =>
      cases h
      exact setTopicForRoom_changes
  | showRoomListLocal =>
      cases h
      exact .of_eq rfl
  | kickUser nick reason =>
      cases h
      exact kickUser_changes (stays (by simp))
  | banUser nick reason =>
      cases h
      exact banUser_changes (stays (by simp))
  | unbanUser nick =>
      cases h
      exact unbanUser_changes
  | createAdminRoom name =>
      cases h
      exact createAdminRoom_changes
  | setAdminTopic roomName topic =>
      cases h
      exact setAdminTopic_changes
  | kickUserInRoom roomName nick reason =>
      cases h
      exact kickUserInRoomNamed_changes (stays (by simp))

/-- What every change keeps of the roster holds in every reachable state. -/
theorem reachable_roster {env : Env} {stored : StoredState} {server : ChatServer}
    {Inv : ServerTables → Prop} (h : Reachable env stored server)
    (keeps : ∀ mover a b, Change env mover a b → Inv a → Inv b)
    (start : Inv (ChatServer.start env stored).roster) : Inv server.roster := by
  obtain ⟨events, h⟩ := h
  have each (a : ChatServer) (event : Event) (b : ChatServer) (ha : Inv a.roster)
      (hstep : step env a event = some b) : Inv b.roster :=
    (step_changes hstep).invariant (keeps _) ha
  exact Run.run_invariant each h start

end Chatbox.Chat
