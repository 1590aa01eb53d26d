import Chatbox.Chat.Act
import Chatbox.Chat.Admission
import Chatbox.Chat.Posting

/-!
Who gets in. A session that has sent the frames of a login and nothing else that decodes is let in
exactly if its nickname is free then, whatever the other sessions, the host and the operators have
done in between: nobody can stop a login but by banning, taking or binding the nickname.
-/

namespace Chatbox.Chat

open Text Protocol Storage ServerTables

/-- The frames of a login before its IDENTIFY. -/
def greetingFrames (env : Env) : List ClientMessage :=
  .hello VERSION :: if env.hasPassword then [.authenticate env.config.password] else []

/-- The frames of a login before its proof. -/
def loginFrames (env : Env) (nick publicKeyHex : Bytes) : List ClientMessage :=
  greetingFrames env ++ [.identify nick publicKeyHex]

/-- What an IDENTIFY may ask for. -/
def Proper (nick publicKeyHex : Bytes) : Prop :=
  isValidNickname nick = true ∧ isHexOfLen publicKeyHex cryptoSignPublicKeyBytes = true

/-- Whether a nickname is free for a key. -/
def Free (env : Env) (tables : ServerTables) (nick publicKeyHex : Bytes) : Prop :=
  tables.isBanned nick = false ∧ tables.nicknameTaken env nick = false ∧
    ∀ key, tables.identities[nick]? = some key → key = publicKeyHex

/-- What a frame of a login that is not refused makes of the session. -/
def ClientSession.hears (challenge : Bytes) (session : ClientSession) :
    ClientMessage → ClientSession
  | .hello version => { session with protocolNegotiated := version == VERSION }
  | .authenticate _ => { session with authenticated := true }
  | .identify nick publicKeyHex =>
      { session with
        pendingNickname := nick
        pendingPublicKeyHex := publicKeyHex
        pendingChallenge := challenge }
  | _ => session

/-- The login of a session that has sent some frames of a login. -/
def loginAfter (challenge : Bytes) (messages : List ClientMessage) : ClientSession :=
  messages.foldl (ClientSession.hears challenge) { readLoop := .reading }

section Handlers

variable {env : Env} {server server' : ChatServer} {s : SessionId} {may : Holding → Prop}
variable {P : Effect → Prop} {a b : ChatServer}

/-- Deeds that may not change a login keep it. -/
theorem Deeds.login (deeds : Deeds may P a b) (fixed : ¬ may (.login s)) :
    (b.tables.session s).login = (a.tables.session s).login := by
  induction deeds with
  | refl => rfl
  | tail _ deed ih =>
      rw [← ih]
      cases deed with
      | tables change touches => exact (touches.login s).resolve_left fixed
      | _ => rfl

theorem onHello_login {version : UInt32}
    (fresh : (server.tables.session s).protocolNegotiated = false) :
    ((server.onHello env s version).tables.session s).login =
      { (server.tables.session s).login with protocolNegotiated := version == VERSION } := by
  unfold ChatServer.onHello
  rw [if_neg (by simp [fresh])]
  simp [ChatServer.updateSession, ChatServer.onTables, ClientSession.login]

theorem onAuthenticate_login {password : Bytes} (accepted : env.checkPassword password = true) :
    ((server.onAuthenticate env s password).tables.session s).login =
      { (server.tables.session s).login with authenticated := true } := by
  unfold ChatServer.onAuthenticate
  rw [if_pos accepted]
  simp [ChatServer.updateSession, ChatServer.onTables, ClientSession.login]

theorem identityAvailableFor_eq_none {tables : ServerTables} {nick publicKeyHex : Bytes} :
    tables.identityAvailableFor nick publicKeyHex = none ↔ isValidNickname nick = true ∧
      isHexOfLen publicKeyHex cryptoSignPublicKeyBytes = true ∧
      ∀ key, tables.identities[nick]? = some key → key = publicKeyHex := by
  unfold identityAvailableFor
  cases valid : isValidNickname nick with
  | false => simp
  | true =>
      cases hex : isHexOfLen publicKeyHex cryptoSignPublicKeyBytes with
      | false => simp
      | true =>
          cases bound : tables.identities[nick]? with
          | none => simp
          | some key => by_cases same : key = publicKeyHex <;> simp [same]

/-- An IDENTIFY is answered with a challenge, or ends the session. -/
theorem onIdentify_login {nick publicKeyHex : Bytes}
    (unnamed : (server.tables.session s).nickname = []) :
    ((Proper nick publicKeyHex ∧ Free env server.tables nick publicKeyHex) ∧
      ((server.onIdentify env s nick publicKeyHex).tables.session s).login =
        (server.tables.session s).login.hears
          (env.randomHex server.output.readings IDENTITY_CHALLENGE_BYTES)
          (.identify nick publicKeyHex)) ∨
    (¬ (Proper nick publicKeyHex ∧ Free env server.tables nick publicKeyHex) ∧
      ((server.onIdentify env s nick publicKeyHex).tables.session s).readLoop = .stopped) := by
  unfold ChatServer.onIdentify
  rw [if_neg (by simp [unnamed])]
  cases available : server.tables.identityAvailableFor nick publicKeyHex with
  | some error =>
      refine .inr ⟨fun free => ?_, ChatServer.reject_stopped⟩
      have none := identityAvailableFor_eq_none.mpr ⟨free.1.1, free.1.2, free.2.2.2⟩
      rw [available] at none
      cases none
  | none =>
      obtain ⟨valid, hex, bound⟩ := identityAvailableFor_eq_none.mp available
      cases banned : server.tables.isBanned nick with
      | true =>
          refine .inr ⟨fun free => ?_, ChatServer.reject_stopped⟩
          rw [free.2.1] at banned
          cases banned
      | false =>
          cases taken : server.tables.nicknameTaken env nick with
          | true =>
              refine .inr ⟨fun free => ?_, ChatServer.reject_stopped⟩
              rw [free.2.2.1] at taken
              cases taken
          | false =>
              refine .inl ⟨⟨⟨valid, hex⟩, banned, taken, bound⟩, ?_⟩
              simp [ChatServer.updateSession, ChatServer.onTables, ClientSession.login,
                ClientSession.hears, ChatServer.nextReading, ChatServer.onOutput]

end Handlers

section Login

variable {env : Env} {stored : StoredState} {server server' : ChatServer} {s : SessionId}
variable {event : Event} {nick publicKeyHex : Bytes}

/-- Where a session stands in a login: it has heard nothing before its handshake, and while it
reads on it is what its frames have made of it. -/
structure LogsIn (env : Env) (nick publicKeyHex : Bytes) (s : SessionId) (server : ChatServer) :
    Prop where
  early : (server.tables.session s).readLoop.Early →
    receivedFrom s server.output.trace = [] ∧
      ∃ loop, (server.tables.session s).login = { readLoop := loop }
  reading : (server.tables.session s).readLoop = .reading →
    receivedFrom s server.output.trace <+: loginFrames env nick publicKeyHex →
    ∃ challenge ≠ [], (server.tables.session s).login =
      loginAfter challenge (receivedFrom s server.output.trace) ∧
        (.identify nick publicKeyHex ∈ receivedFrom s server.output.trace →
          Proper nick publicKeyHex)

/-- One frame of a login, by its place. -/
theorem loginFrames_snoc {messages : List ClientMessage} {message : ClientMessage}
    (h : messages ++ [message] <+: loginFrames env nick publicKeyHex) :
    (messages = [] ∧ message = .hello VERSION) ∨
    (messages = [.hello VERSION] ∧ env.hasPassword = true ∧
      message = .authenticate env.config.password) ∨
    (messages = greetingFrames env ∧ message = .identify nick publicKeyHex) := by
  cases password : env.hasPassword with
  | false =>
      simp only [loginFrames, greetingFrames, password] at h ⊢
      cases messages with
      | nil => simp_all
      | cons first messages =>
          cases messages with
          | nil => simp_all
          | cons second messages => simp_all
  | true =>
      simp only [loginFrames, greetingFrames, password] at h ⊢
      cases messages with
      | nil => simp_all
      | cons first messages =>
          cases messages with
          | nil => simp_all
          | cons second messages =>
              cases messages with
              | nil => simp_all
              | cons third messages => simp_all

theorem loginAfter_greeting (challenge challenge' : Bytes) :
    loginAfter challenge (greetingFrames env) = loginAfter challenge' (greetingFrames env) := by
  cases password : env.hasPassword <;>
    simp [loginAfter, greetingFrames, password, ClientSession.hears]

/-- Behind the gates of a login. -/
theorem greeted_passes {challenge : Bytes}
    (h : (server.tables.session s).login = loginAfter challenge (greetingFrames env)) :
    passesGates env server s = true ∧ (server.tables.session s).nickname = [] := by
  have negotiated := congrArg ClientSession.protocolNegotiated h
  have authenticated := congrArg ClientSession.authenticated h
  have nickname := congrArg ClientSession.nickname h
  cases password : env.hasPassword <;>
    simp_all [ClientSession.login, loginAfter, greetingFrames, ClientSession.hears, passesGates]

theorem step_awake (stepped : step env server event = some server')
    (awake : ¬ (server.tables.session s).readLoop.Early) :
    ¬ (server'.tables.session s).readLoop.Early :=
  (step_changes stepped).invariant (fun _ _ change => change.awake) awake

theorem step_login (stepped : step env server event = some server')
    (other : ¬ event.touches (.login s)) :
    (server'.tables.session s).login = (server.tables.session s).login := by
  obtain deeds | ⟨same, -, -⟩ := step_deeds_or stepped
  · exact deeds.login other
  · rw [same]

theorem randomHex_ne_nil {reading : Nat} : env.randomHex reading IDENTITY_CHALLENGE_BYTES ≠ [] := by
  intro none
  have length := congrArg List.length (hexToBytes_bytesToHex (env.randomBytes reading
    IDENTITY_CHALLENGE_BYTES))
  rw [Env.randomHex] at none
  rw [none, env.randomBytes_length] at length
  cases length

/-- The next frame of a login. -/
theorem LogsIn.message {message : ClientMessage} (h : LogsIn env nick publicKeyHex s server)
    (reading : (server.tables.session s).readLoop = .reading)
    (reading' : ((server.onMessage env s message).tables.session s).readLoop = .reading)
    (next : receivedFrom s server.output.trace ++ [message] <+: loginFrames env nick publicKeyHex) :
    ∃ challenge ≠ [], ((server.onMessage env s message).tables.session s).login =
      loginAfter challenge (receivedFrom s server.output.trace ++ [message]) ∧
        (.identify nick publicKeyHex ∈ receivedFrom s server.output.trace ++ [message] →
          Proper nick publicKeyHex) := by
  obtain ⟨challenge, some, login, -⟩ := h.reading reading ((List.prefix_append _ _).trans next)
  rcases loginFrames_snoc next with ⟨none, rfl⟩ | ⟨greeted, password, rfl⟩ | ⟨greeted, rfl⟩
  · rw [none] at login ⊢
    refine ⟨challenge, some, ?_, by simp⟩
    have fresh : (server.tables.session s).protocolNegotiated = false :=
      congrArg ClientSession.protocolNegotiated login
    have hello := @onHello_login env (server.note (.received s (.hello VERSION))) s VERSION fresh
    refine hello.trans ?_
    rw [ChatServer.note_tables, login]
    rfl
  · rw [greeted] at login ⊢
    refine ⟨challenge, some, ?_, by simp⟩
    have negotiated : (server.tables.session s).protocolNegotiated = true :=
      congrArg ClientSession.protocolNegotiated login
    have handled : server.onMessage env s (.authenticate env.config.password) =
        (server.note (.received s (.authenticate env.config.password))).onAuthenticate env s
          env.config.password := by
      simp [ChatServer.onMessage, negotiated]
    have accepted : env.checkPassword env.config.password = true := by simp [Env.checkPassword]
    rw [handled, onAuthenticate_login accepted, ChatServer.note_tables, login]
    rfl
  · rw [greeted] at login ⊢
    obtain ⟨passes, unnamed⟩ := greeted_passes login
    rw [ChatServer.onMessage_passed passes ⟨by simp, by simp⟩] at reading' ⊢
    have answer := @onIdentify_login env
      (server.note (.received s (.identify nick publicKeyHex))) s nick publicKeyHex unnamed
    obtain ⟨⟨proper, -⟩, asked⟩ | ⟨-, stopped⟩ := answer
    · refine ⟨env.randomHex server.output.readings IDENTITY_CHALLENGE_BYTES, randomHex_ne_nil, ?_,
        fun _ => proper⟩
      refine asked.trans ?_
      rw [ChatServer.note_tables, login, loginAfter_greeting, loginAfter, loginAfter,
        List.foldl_append]
      rfl
    · rw [ChatServer.onAdmittedMessage, stopped] at reading'
      cases reading'

theorem ChatServer.stopReading_stopped :
    ((server.stopReading s).tables.session s).readLoop = .stopped := by
  simp [ChatServer.stopReading, ChatServer.updateSession, ChatServer.onTables,
    ServerTables.updateSession]

/-- A line that decodes is handled as its message. -/
theorem onLine_decoded {frame : Bytes} {message : ClientMessage}
    (decodes : decodeClientFrame frame = .ok message) :
    server.onLine env s frame = server.onMessage env s message := by
  simp [ChatServer.onLine, decodes]

/-- A line that does not decode leaves the login, or ends the session. -/
theorem onLine_malformed {frame : Bytes} {e : Failure}
    (malformed : decodeClientFrame frame = .error e)
    (reading' : ((server.onLine env s frame).tables.session s).readLoop = .reading) :
    ((server.onLine env s frame).tables.session s).login = (server.tables.session s).login := by
  unfold ChatServer.onLine at reading' ⊢
  rw [malformed] at reading' ⊢
  simp only at reading' ⊢
  split at reading'
  · rw [ChatServer.reject_stopped] at reading'
    cases reading'
  · next other => rw [if_neg other, ChatServer.deliver_tables]

theorem LogsIn.step (h : LogsIn env nick publicKeyHex s server)
    (stepped : step env server event = some server') : LogsIn env nick publicKeyHex s server' := by
  have early (early' : (server'.tables.session s).readLoop.Early) :
      (server.tables.session s).readLoop.Early := by
    by_contra awake
    exact step_awake stepped awake early'
  have stopped (last : (server'.tables.session s).readLoop = .stopped) :
      LogsIn env nick publicKeyHex s server' := by
    refine ⟨fun early' => ?_, fun reading' => ?_⟩
    · rw [last] at early'
      cases early' <;> contradiction
    · rw [last] at reading'
      cases reading'
  by_cases own : event.touches (.login s)
  · cases event with
    | accept t =>
        obtain rfl : s = t := by simpa [Event.touches] using own
        have same := @step_receivedFrom _ _ _ s _ stepped (by simp)
        simp only [Chat.step, Option.ite_none_right_eq_some, Option.some.injEq] at stepped
        obtain ⟨absent, rfl⟩ := stepped
        obtain ⟨none, loop, fresh⟩ := h.early (.inl absent)
        have accepted : (server.accept s).tables.session s =
            { server.tables.session s with readLoop := .handshake } := Function.update_self _ _ _
        refine ⟨fun _ => ⟨same.trans none, .handshake, ?_⟩, fun reading' => ?_⟩
        · rw [accepted]
          exact congrArg (fun session : ClientSession => { session with readLoop := .handshake })
            fresh
        · rw [accepted] at reading'
          cases reading'
    | handshake t ok =>
        obtain rfl : s = t := by simpa [Event.touches] using own
        have same := @step_receivedFrom _ _ _ s _ stepped (by simp)
        simp only [Chat.step, Option.ite_none_right_eq_some, Option.some.injEq] at stepped
        obtain ⟨waiting, rfl⟩ := stepped
        cases ok with
        | false => exact stopped ChatServer.stopReading_stopped
        | true =>
            obtain ⟨none, loop, fresh⟩ := h.early (.inr waiting)
            have greeted : ((server.onHandshake env s true).tables.session s) =
                { server.tables.session s with readLoop := .reading } := by
              refine (Function.update_self _ _ _).trans ?_
              rw [ChatServer.deliver_tables]
            refine ⟨fun early' => ?_, fun _ _ => ⟨[0], by simp, ?_, ?_⟩⟩
            · rw [greeted] at early'
              cases early' <;> contradiction
            · rw [same, none, greeted]
              exact congrArg (fun session : ClientSession => { session with readLoop := .reading })
                fresh
            · rw [same, none]
              exact fun identified => absurd identified List.not_mem_nil
    | readError t =>
        obtain rfl : s = t := by simpa [Event.touches] using own
        simp only [Chat.step, Option.ite_none_right_eq_some, Option.some.injEq] at stepped
        obtain ⟨-, rfl⟩ := stepped
        exact stopped ChatServer.stopReading_stopped
    | line t frame =>
        obtain rfl : s = t := by simpa [Event.touches] using own
        have received := line_received stepped
        have awake (reading : (server.tables.session s).readLoop = .reading) :
            ¬ (server'.tables.session s).readLoop.Early :=
          step_awake stepped (by simp [reading, ReadLoop.Early])
        simp only [Chat.step, Option.ite_none_right_eq_some, Option.some.injEq] at stepped
        obtain ⟨reading, rfl⟩ := stepped
        refine ⟨fun early' => absurd early' (awake reading), fun reading' next => ?_⟩
        cases decodes : decodeClientFrame frame with
        | ok message =>
            rw [decodes] at received
            rw [onLine_decoded decodes] at reading' received next ⊢
            rw [received] at next ⊢
            exact h.message reading reading' next
        | error e =>
            rw [decodes, Except.toOption, Option.toList_none, List.append_nil] at received
            rw [received] at next ⊢
            rw [onLine_malformed decodes reading']
            exact h.reading reading next
    | _ => simp [Event.touches] at own
  · have login := step_login stepped own
    have same : receivedFrom s server'.output.trace = receivedFrom s server.output.trace := by
      refine step_receivedFrom stepped fun frame same => ?_
      subst same
      exact own (.inl rfl)
    have loop : (server'.tables.session s).readLoop = (server.tables.session s).readLoop :=
      congrArg (fun session => session.readLoop) login
    refine ⟨fun early' => ?_, fun reading => ?_⟩
    · rw [same, login]
      exact h.early (early early')
    · rw [same, login]
      exact h.reading (loop ▸ reading)

theorem reachable_logsIn (h : Reachable env stored server) (nick publicKeyHex : Bytes)
    (s : SessionId) : LogsIn env nick publicKeyHex s server := by
  obtain ⟨events, run⟩ := h
  refine Run.run_invariant (fun _ _ _ held stepped => held.step stepped) run ?_
  have start := (start_tables env stored).2.2.2
  refine ⟨fun _ => ⟨start_received env stored, .absent, by rw [start]; rfl⟩, fun reading => ?_⟩
  rw [start] at reading
  cases reading

theorem reject_nickname {message : ServerMessage} (h : ProofRefusal message) :
    ((server.reject env s message).tables.session s).nickname =
      (server.tables.session s).nickname := by
  have quiet : Quiet server (server.reject env s message) :=
    ChatServer.reject_quiet (by cases message <;> trivial)
  exact (ClientSession.credentials_eq.mp (quiet.credentials s)).1

/-- An accepted proof puts the session into the lobby, under its name. -/
theorem acceptProof_session {challenge : Bytes} (lobby : DEFAULT_ROOM_ID ∈ server.tables.rooms) :
    ((server.acceptProof env s nick publicKeyHex challenge).tables.session s).nickname = nick ∧
      ((server.acceptProof env s nick publicKeyHex challenge).tables.session s).activeRoomId =
        DEFAULT_ROOM_ID := by
  have roster : (server.acceptProof env s nick publicKeyHex challenge).roster =
      (server.takeNickname s nick).roster.placeSession s DEFAULT_ROOM_ID := by
    unfold ChatServer.acceptProof
    simp only [ChatServer.moveSessionToRoom_roster, ChatServer.deliver_roster,
      ChatServer.note_roster, ChatServer.deliver_tables, ChatServer.note_tables]
    exact if_pos lobby
  have session : (server.acceptProof env s nick publicKeyHex challenge).tables.session s =
      { (server.takeNickname s nick).tables.session s with activeRoomId := DEFAULT_ROOM_ID } := by
    refine (congrArg (fun tables => tables.session s) roster).trans ?_
    rw [placeSession_session, if_pos rfl]
    rfl
  have name : ((server.takeNickname s nick).tables.session s).nickname = nick := by
    simp [ChatServer.takeNickname, ChatServer.updateSession, ChatServer.onTables,
      ServerTables.updateSession]
  rw [session]
  exact ⟨name, rfl⟩

/-- A proof that admits the session, and one that does not. -/
theorem onProof_admits {signatureHex : Bytes} (lobby : DEFAULT_ROOM_ID ∈ server.tables.rooms)
    (unnamed : (server.tables.session s).nickname = [])
    (pending : (server.tables.session s).pendingNickname ≠ []) :
    (((server.onProof env s signatureHex).tables.session s).nickname =
        (server.tables.session s).pendingNickname ∧
      ((server.onProof env s signatureHex).tables.session s).activeRoomId = DEFAULT_ROOM_ID) ↔
      admitsSession env server s signatureHex = true := by
  obtain ⟨named, -, -⟩ | ⟨refused, message, refusal, same⟩ | ⟨admits, -, -, -, same⟩ :=
    server.onProof_cases env s signatureHex
  · exact absurd unnamed named
  · rw [same, refused]
    refine ⟨fun entered => ?_, fun impossible => by cases impossible⟩
    exact absurd (entered.1.symm.trans ((reject_nickname refusal).trans unnamed)) pending
  · rw [same, admits]
    refine ⟨fun _ => rfl, fun _ => acceptProof_session ?_⟩
    rcases server.bindIdentity_cases env (server.tables.session s).pendingNickname
      (server.tables.session s).pendingPublicKeyHex with
        ⟨failed, -⟩ | ⟨-, -, kept⟩ | ⟨-, -, tables⟩
    · rw [failed]
      exact lobby
    · rw [kept]
      exact lobby
    · rw [tables]
      exact lobby

/-- What a login leaves pending. -/
theorem loginAfter_pending {session : ClientSession} {challenge : Bytes}
    (h : session.login = loginAfter challenge (loginFrames env nick publicKeyHex)) :
    session.pendingNickname = nick ∧ session.pendingPublicKeyHex = publicKeyHex ∧
      session.pendingChallenge = challenge := by
  rw [loginFrames, loginAfter, List.foldl_append] at h
  exact ⟨congrArg (fun session => session.pendingNickname) h,
    congrArg (fun session => session.pendingPublicKeyHex) h,
    congrArg (fun session => session.pendingChallenge) h⟩

theorem Proper.publicKeyHex_ne_nil (proper : Proper nick publicKeyHex) : publicKeyHex ≠ [] := by
  rintro rfl
  have hex := proper.2
  revert hex
  decide

/-- The checks of a proof, for a session with a login pending. -/
theorem admitsSession_iff {challenge signatureHex : Bytes} (proper : Proper nick publicKeyHex)
    (some : challenge ≠ []) (unnamed : (server.tables.session s).nickname = [])
    (nickname : (server.tables.session s).pendingNickname = nick)
    (key : (server.tables.session s).pendingPublicKeyHex = publicKeyHex)
    (pending : (server.tables.session s).pendingChallenge = challenge) :
    admitsSession env server s signatureHex = true ↔
      env.verifyIdentitySignature publicKeyHex challenge signatureHex = true ∧
        Free env server.tables nick publicKeyHex := by
  have named := isValidNickname_ne_nil proper.1
  have keyed := proper.publicKeyHex_ne_nil
  cases bound : server.tables.identities[nick]? with
  | none =>
      simp [admitsSession, Free, unnamed, nickname, key, pending, named, keyed, some, bound,
        and_assoc]
  | some other =>
      simp [admitsSession, Free, unnamed, nickname, key, pending, named, keyed, some, bound,
        and_assoc]

/-- In every reachable state an IDENTIFY that follows the greeting of a session gets a challenge
exactly if its nickname and key are proper and the nickname is free, and a proof that follows the
login of a session lets it into the lobby exactly if it answers the challenge and the nickname is
still free. -/
theorem reachable_access (env : Env) (stored : StoredState) (server server' : ChatServer)
    (h : Reachable env stored server) (s : SessionId) (frame : Bytes)
    (stepped : step env server (.line s frame) = some server') (nick publicKeyHex : Bytes) :
    (decodeClientFrame frame = .ok (.identify nick publicKeyHex) →
      receivedFrom s server.output.trace = greetingFrames env →
      (((server'.tables.session s).readLoop = .reading ∧
          ∃ challenge, Challenged server'.output.trace s nick publicKeyHex challenge) ↔
        Proper nick publicKeyHex ∧ Free env server.tables nick publicKeyHex)) ∧
    ∀ signatureHex, decodeClientFrame frame = .ok (.identityProof signatureHex) →
      receivedFrom s server.output.trace = loginFrames env nick publicKeyHex →
      ∃ challenge, Challenged server.output.trace s nick publicKeyHex challenge ∧
        (((server'.tables.session s).nickname = nick ∧
            (server'.tables.session s).activeRoomId = DEFAULT_ROOM_ID) ↔
          env.verifyIdentitySignature publicKeyHex challenge signatureHex = true ∧
            Free env server.tables nick publicKeyHex) := by
  have logs := reachable_logsIn h nick publicKeyHex s
  have reachable' : Reachable env stored server' := by
    obtain ⟨events, run⟩ := h
    exact ⟨events ++ [.line s frame], Run.run_snoc.mpr ⟨server, run, stepped⟩⟩
  simp only [step, Option.ite_none_right_eq_some, Option.some.injEq] at stepped
  obtain ⟨reading, rfl⟩ := stepped
  constructor
  · intro decodes messages
    have prefixed : receivedFrom s server.output.trace <+: loginFrames env nick publicKeyHex := by
      rw [messages]
      exact List.prefix_append _ _
    obtain ⟨challenge, -, login, -⟩ := logs.reading reading prefixed
    rw [messages] at login
    obtain ⟨passes, unnamed⟩ := greeted_passes login
    rw [onLine_decoded decodes, ChatServer.onMessage_passed passes ⟨by simp, by simp⟩] at reachable' ⊢
    have answer := @onIdentify_login env
      (server.note (.received s (.identify nick publicKeyHex))) s nick publicKeyHex unnamed
    obtain ⟨⟨proper, free⟩, asked⟩ | ⟨refused, stopped⟩ := answer
    · refine ⟨fun _ => ⟨proper, free⟩, fun _ => ?_⟩
      set asking := ChatServer.onAdmittedMessage env
        (server.note (.received s (.identify nick publicKeyHex))) s (.identify nick publicKeyHex)
      have nickname : (asking.tables.session s).pendingNickname = nick :=
        congrArg (fun session => session.pendingNickname) asked
      have key : (asking.tables.session s).pendingPublicKeyHex = publicKeyHex :=
        congrArg (fun session => session.pendingPublicKeyHex) asked
      have loop : (asking.tables.session s).readLoop = .reading :=
        (congrArg (fun session => session.readLoop) asked).trans reading
      have named := isValidNickname_ne_nil proper.1
      have challenged := ((reachable_credited reachable').pending s (by rwa [nickname])).2.2
        (by simp [loop])
      rw [nickname, key] at challenged
      exact ⟨loop, _, challenged⟩
    · refine ⟨fun entered => ?_, fun free => absurd free refused⟩
      have impossible := stopped.symm.trans entered.1
      cases impossible
  · intro signatureHex decodes messages
    obtain ⟨challenge, some, login, proper⟩ := logs.reading reading (by rw [messages])
    rw [messages] at login proper
    have proper := proper (by simp [loginFrames])
    have named := isValidNickname_ne_nil proper.1
    obtain ⟨nickname, key, pending⟩ := loginAfter_pending login
    obtain ⟨passes, unnamed, challenged⟩ := (reachable_credited h).pending s (by rwa [nickname])
    have challenged := challenged (by rw [reading]; simp)
    rw [nickname, key, pending] at challenged
    refine ⟨challenge, challenged, ?_⟩
    have lobby := (reachable_consistent h).rooms.lobby
    rw [onLine_decoded decodes, ChatServer.onMessage_passed passes ⟨by simp, by simp⟩]
    have admits := @onProof_admits env (server.note (.received s (.identityProof signatureHex))) s
      signatureHex lobby unnamed (by simpa [nickname] using named)
    rw [ChatServer.note_tables, nickname] at admits
    refine admits.trans ?_
    exact admitsSession_iff proper some unnamed nickname key pending

/-- The proof of a visitor whose login is pending. -/
theorem reachable_access_ann :
    ∃ server server' challenge,
      serverAfter ((visit 7 (ascii "ann")).take 4) = some server ∧
      step .plain server (.line 7 (clientFrame (.identityProof (List.replicate 128 48)))) =
        some server' ∧
      (((server'.tables.session 7).nickname = ascii "ann" ∧
          (server'.tables.session 7).activeRoomId = DEFAULT_ROOM_ID) ↔
        Env.plain.verifyIdentitySignature (List.replicate 64 48) challenge
            (List.replicate 128 48) = true ∧
          Free .plain server.tables (ascii "ann") (List.replicate 64 48)) := by
  obtain ⟨server, hserver, reachable, messages, going⟩ :=
    exists_serverAfter ((visit 7 (ascii "ann")).take 4) (fun server =>
      receivedFrom 7 server.output.trace =
          loginFrames .plain (ascii "ann") (List.replicate 64 48) ∧
        (step .plain server (.line 7 (clientFrame (.identityProof (List.replicate 128 48))))).isSome
          = true) (by decide +kernel)
  obtain ⟨server', stepped⟩ := Option.isSome_iff_exists.mp going
  obtain ⟨challenge, -, admits⟩ := (reachable_access .plain emptyStore server server' reachable 7
    _ stepped (ascii "ann") (List.replicate 64 48)).2 (List.replicate 128 48) (by decide +kernel)
    messages
  exact ⟨server, server', challenge, hserver, stepped, admits⟩

end Login

end Chatbox.Chat
