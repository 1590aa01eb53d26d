import Chatbox.Chat.Access
import Chatbox.Chat.Agreement
import Chatbox.Chat.Relay
import Chatbox.Chat.Speaking

/-!
What a session is answered while it logs in, and what the client makes of it. A frame of a login
that comes at its time has an answer that gets through to the client, an answer by which a login
goes on tells where the session stands, and the flags that a client waits for follow its answers.
-/

namespace Chatbox.Chat

open Text Protocol Storage ServerTables

/-- The answers that settle a join. -/
def SettlesJoin : ServerMessage → Prop
  | .joinAccepted | .joinRejected _ | .banned | .nicknameTaken => True
  | _ => False

/-- The answers to a frame of a login. -/
def Answers : ClientMessage → ServerMessage → Prop
  | .hello _, answer => answer = .authRequired ∨ answer = .authAccepted
  | .authenticate _, answer => answer = .authAccepted ∨ answer = .authRejected
  | .identify _ _, answer => (∃ challenge, answer = .challenge challenge) ∨ SettlesJoin answer
  | .identityProof _, answer => SettlesJoin answer
  | _, _ => False

/-- The frame of a login comes at its time. -/
def Awaited (env : Env) (server : ChatServer) (s : SessionId) : ClientMessage → Prop
  | .hello _ => (server.tables.session s).protocolNegotiated = false
  | .authenticate _ => (server.tables.session s).protocolNegotiated = true
  | .identify _ _ | .identityProof _ => passesGates env server s = true
  | _ => False

/-- The session has been told a message that gets through. -/
def Told (s : SessionId) (trace : Trace) (kind : ServerMessage → Prop) : Prop :=
  ∃ message, kind message ∧ Transmissible message ∧ .deliver s message ∈ trace

section Told

variable {env : Env} {server : ChatServer} {s : SessionId} {trace trace' : Trace}
variable {kind : ServerMessage → Prop} {message : ServerMessage}

theorem Told.grows (h : Told s trace kind) (later : trace <+: trace') : Told s trace' kind := by
  obtain ⟨message, answers, through, member⟩ := h
  exact ⟨message, answers, through, later.subset member⟩

theorem Deeds.grows {may : Holding → Prop} {P : Effect → Prop} {a b : ChatServer}
    (deeds : Deeds may P a b) : a.output.trace <+: b.output.trace := by
  obtain ⟨new, grown, -⟩ := deeds.emits
  exact ⟨new, grown.symm⟩

theorem told_deliver (h : kind message) (through : Transmissible message) :
    Told s (server.deliver s message).output.trace kind :=
  ⟨message, h, through, by simp⟩

theorem told_reject (h : kind message) (through : Transmissible message) :
    Told s (server.reject env s message).output.trace kind := by
  have told : Told s (server.deliver s message).output.trace kind := told_deliver h through
  have after : Deeds (fun _ => True) Usual (server.deliver s message)
      (server.reject env s message) :=
    ((ChatServer.close_deeds trivial).trans ChatServer.disconnect_deeds).trans
      (ChatServer.stopReading_deeds trivial)
  exact told.grows after.grows

theorem transmissible_of (names : NamesValid message) (h : Encodable message) :
    Transmissible message := by
  obtain ⟨frame, encodes⟩ := h
  obtain ⟨⟨read, parses⟩, framed⟩ := encodeServerFrame_ok encodes
  refine ⟨frame, encodes, (decodeMessageFrame_encodeFrame framed parseServerMessage).trans ?_⟩
  rw [parses, parseServerMessage_serializeServer names parses]

theorem transmissible_word (h : message = .authRequired ∨ message = .authAccepted ∨
    message = .authRejected ∨ message = .joinAccepted ∨ message = .banned ∨
    message = .nicknameTaken ∨ message = .hello VERSION) : Transmissible message := by
  refine transmissible_of ?_ (encodable_word h)
  rcases h with rfl | rfl | rfl | rfl | rfl | rfl | rfl
  all_goals trivial

theorem transmissible_refusal {reason : Bytes} (h : Line reason) :
    Transmissible (.joinRejected reason) := transmissible_of trivial (encodable_joinRejected h)

end Told

namespace ChatServer

variable {env : Env} {server : ChatServer} {s : SessionId}

theorem onHello_told {version : UInt32}
    (first : (server.tables.session s).protocolNegotiated = false) :
    Told s (server.onHello env s version).output.trace (Answers (.hello version)) := by
  unfold onHello
  rw [if_neg (by simp [first])]
  cases env.hasPassword with
  | true => exact told_deliver (.inl rfl) (transmissible_word (by simp))
  | false => exact told_deliver (.inr rfl) (transmissible_word (by simp))

theorem onAuthenticate_told {password : Bytes} :
    Told s (server.onAuthenticate env s password).output.trace
      (Answers (.authenticate password)) := by
  unfold onAuthenticate
  split
  · exact told_deliver (.inl rfl) (transmissible_word (by simp))
  · exact told_reject (.inr rfl) (transmissible_word (by simp))

theorem onIdentify_told {nick publicKeyHex : Bytes} :
    Told s (server.onIdentify env s nick publicKeyHex).output.trace
      (Answers (.identify nick publicKeyHex)) := by
  unfold onIdentify
  split
  · exact told_deliver (.inr trivial) (transmissible_refusal (literal_line (by decide)))
  · split
    · next reason refused =>
        exact told_reject (.inr trivial) (transmissible_refusal (identityAvailableFor_line refused))
    · split
      · exact told_reject (.inr trivial) (transmissible_word (by simp))
      · split
        · exact told_reject (.inr trivial) (transmissible_word (by simp))
        · exact told_deliver (.inl ⟨_, rfl⟩)
            (transmissible_of trivial (encodable_challenge env _))

theorem acceptProof_told {nick publicKeyHex challenge : Bytes} :
    Told s (server.acceptProof env s nick publicKeyHex challenge).output.trace SettlesJoin := by
  have accepted : Transmissible .joinAccepted := transmissible_word (by simp)
  exact (told_deliver trivial accepted).grows
    (@Deeds.grows (fun _ => False) _ _ _ moveSessionToRoom_deeds)

theorem onProof_told {signatureHex : Bytes} :
    Told s (server.onProof env s signatureHex).output.trace
      (Answers (.identityProof signatureHex)) := by
  have refused {server : ChatServer} {reason : Bytes} (line : Line reason) :
      Told s (server.reject env s (.joinRejected reason)).output.trace
        (Answers (.identityProof signatureHex)) :=
    told_reject trivial (transmissible_refusal line)
  unfold onProof
  simp only
  split
  · exact told_deliver trivial (transmissible_refusal (literal_line (by decide)))
  · split
    · exact refused (literal_line (by decide))
    · split
      · exact refused (literal_line (by decide))
      · split
        · exact told_reject trivial (transmissible_word (by simp))
        · split
          · exact told_reject trivial (transmissible_word (by simp))
          · split
            · exact refused (literal_line (by decide))
            · exact acceptProof_told

/-- A frame of a login that comes at its time is answered. -/
theorem onMessage_told {message : ClientMessage} (awaited : Awaited env server s message) :
    Told s (server.onMessage env s message).output.trace (Answers message) := by
  cases message with
  | hello version => exact onHello_told awaited
  | authenticate password =>
      have greeted : (server.tables.session s).protocolNegotiated = true := awaited
      have handled : server.onMessage env s (.authenticate password) =
          (server.note (.received s (.authenticate password))).onAuthenticate env s password := by
        simp [onMessage, greeted]
      exact handled ▸ onAuthenticate_told
  | identify nick publicKeyHex =>
      rw [onMessage_passed awaited ⟨by simp, by simp⟩]
      exact onIdentify_told
  | identityProof signatureHex =>
      rw [onMessage_passed awaited ⟨by simp, by simp⟩]
      exact onProof_told
  | _ => exact awaited.elim

end ChatServer

section Steps

variable {env : Env} {stored : StoredState} {server server' : ChatServer} {s : SessionId}
variable {event : Event}

/-- What a login has come to is not taken back. -/
theorem Progress.keeps (h : Progress env server server') (s : SessionId) :
    ((server.tables.session s).protocolNegotiated = true →
      (server'.tables.session s).protocolNegotiated = true) ∧
    (passesGates env server s = true → passesGates env server' s = true) ∧
    ((server.tables.session s).nickname ≠ [] → (server'.tables.session s).nickname ≠ []) := by
  rcases h.session_cases s with ⟨same, -⟩ | ⟨fresh, version, -, same⟩ | ⟨-, -, same⟩ |
    ⟨nick, key, challenge, -, -, -, same⟩ | ⟨signatureHex, rest, -, -, checks, -, -, -, same⟩
  all_goals
    obtain ⟨nickname, -, -, -, authenticated, negotiated⟩ := ClientSession.credentials_eq.mp same
    simp only [passesGates, negotiated, authenticated, nickname]
  · exact ⟨id, id, id⟩
  · rw [fresh]
    simp
  · refine ⟨id, fun passes => ?_, id⟩
    rw [Bool.and_eq_true] at passes ⊢
    exact ⟨passes.1, by simp⟩
  · exact ⟨id, id, id⟩
  · exact ⟨id, id, fun _ => (admitsSession_spec checks).2.1⟩

/-- Where a session stands after the answers by which a login goes on, and after its HELLO. -/
structure Granted (env : Env) (s : SessionId) (server : ChatServer) : Prop where
  accepted : .deliver s .authAccepted ∈ server.output.trace → passesGates env server s = true
  challenged : ∀ challenge, .deliver s (.challenge challenge) ∈ server.output.trace →
    passesGates env server s = true
  joined : .deliver s .joinAccepted ∈ server.output.trace →
    (server.tables.session s).nickname ≠ []
  greeted : (receivedFrom s server.output.trace).head? = some (.hello VERSION) →
    (server.tables.session s).protocolNegotiated = true

theorem onMessage_hello : ((server.onMessage env s (.hello VERSION)).tables.session
    s).protocolNegotiated = true := by
  cases greeted : (server.tables.session s).protocolNegotiated with
  | false =>
      have hello := @onHello_login env (server.note (.received s (.hello VERSION))) s VERSION greeted
      exact congrArg (fun session : ClientSession => session.protocolNegotiated) hello
  | true => simp [ChatServer.onMessage, ChatServer.onHello, greeted]

/-- What the frame of a step makes of the session, by the answer that it gets. -/
theorem Grants.after {message : ClientMessage} {answer : ServerMessage}
    (h : Grants env server s message answer) (lobby : DEFAULT_ROOM_ID ∈ server.tables.rooms)
    (reading : (server.tables.session s).readLoop = .reading)
    (hello : ∀ version, message = .hello version → version = VERSION) :
    (answer ≠ .joinAccepted → passesGates env (server.onMessage env s message) s = true) ∧
    (answer = .joinAccepted →
      ((server.onMessage env s message).tables.session s).nickname ≠ []) := by
  have keeps := (@onMessage_progress env server s reading message).keeps s
  cases h with
  | greeting version first free =>
      obtain rfl := hello version rfl
      refine ⟨fun _ => ?_, fun impossible => by cases impossible⟩
      simp [passesGates, onMessage_hello, free]
  | password password greeted correct =>
      refine ⟨fun _ => ?_, fun impossible => by cases impossible⟩
      have handled : server.onMessage env s (.authenticate password) =
          (server.note (.received s (.authenticate password))).onAuthenticate env s password := by
        simp [ChatServer.onMessage, greeted]
      have login := @onAuthenticate_login env
        (server.note (.received s (.authenticate password))) s password correct
      have authenticated : ((server.onMessage env s (.authenticate password)).tables.session
          s).authenticated = true := by
        rw [handled]
        exact congrArg (fun session : ClientSession => session.authenticated) login
      simp [passesGates, keeps.1 greeted, authenticated]
  | challenge nick publicKeyHex challenge passes =>
      exact ⟨fun _ => keeps.2.1 passes, fun impossible => by cases impossible⟩
  | admission signatureHex passes admits =>
      refine ⟨fun impossible => absurd rfl impossible, fun _ => ?_⟩
      obtain ⟨unnamed, pending, -⟩ := admitsSession_spec admits
      rw [ChatServer.onMessage_passed passes ⟨by simp, by simp⟩]
      have entered := (@onProof_admits env (server.note (.received s (.identityProof signatureHex)))
        s signatureHex lobby unnamed pending).mpr admits
      rw [ChatServer.onAdmittedMessage, entered.1]
      exact pending

/-- A new answer by which a login goes on comes from the frame of the step. -/
theorem step_grants {answer : ServerMessage} (lobby : DEFAULT_ROOM_ID ∈ server.tables.rooms)
    (login : LoginAnswer answer) (stepped : step env server event = some server')
    (member : .deliver s answer ∈ server'.output.trace) :
    .deliver s answer ∈ server.output.trace ∨
      (answer ≠ .joinAccepted → passesGates env server' s = true) ∧
      (answer = .joinAccepted → (server'.tables.session s).nickname ≠ []) := by
  obtain ⟨new, grown, caused⟩ := step_caused stepped
  rw [grown] at member
  refine (List.mem_append.mp member).imp id fun fresh => ?_
  obtain ⟨frame, message, rfl, decodes, grants⟩ := caused _ fresh login
  simp only [Chat.step, Option.ite_none_right_eq_some, Option.some.injEq] at stepped
  obtain ⟨reading, rfl⟩ := stepped
  rw [onLine_decoded decodes]
  refine grants.after lobby reading fun version same => ?_
  subst same
  obtain ⟨payload, line⟩ := decodeClientFrame_ok decodes
  cases line
  rfl

/-- Behind a first message that is a HELLO the session is greeted. -/
theorem step_greets (stepped : step env server event = some server')
    (first : (receivedFrom s server'.output.trace).head? = some (.hello VERSION)) :
    (receivedFrom s server.output.trace).head? = some (.hello VERSION) ∨
      (server'.tables.session s).protocolNegotiated = true := by
  by_cases own : ∃ frame, event = .line s frame
  · obtain ⟨frame, rfl⟩ := own
    rw [line_received stepped] at first
    cases before : receivedFrom s server.output.trace with
    | cons message messages =>
        rw [before] at first
        exact .inl first
    | nil =>
        cases decodes : decodeClientFrame frame with
        | error e => simp [before, decodes, Except.toOption] at first
        | ok message =>
            obtain rfl : message = .hello VERSION := by
              simpa [before, decodes, Except.toOption] using first
            simp only [Chat.step, Option.ite_none_right_eq_some, Option.some.injEq] at stepped
            obtain ⟨-, rfl⟩ := stepped
            rw [onLine_decoded decodes]
            exact .inr onMessage_hello
  · rw [step_receivedFrom stepped fun frame same => own ⟨frame, same⟩] at first
    exact .inl first

theorem Granted.step (h : Granted env s server) (lobby : DEFAULT_ROOM_ID ∈ server.tables.rooms)
    (stepped : step env server event = some server') : Granted env s server' := by
  have keeps := (step_progress stepped).keeps s
  refine ⟨fun member => ?_, fun challenge member => ?_, fun member => ?_, fun first => ?_⟩
  · obtain old | ⟨passes, -⟩ := step_grants lobby (by trivial) stepped member
    · exact keeps.2.1 (h.accepted old)
    · exact passes (by simp)
  · obtain old | ⟨passes, -⟩ := step_grants lobby (by trivial) stepped member
    · exact keeps.2.1 (h.challenged challenge old)
    · exact passes (by simp)
  · obtain old | ⟨-, named⟩ := step_grants lobby (by trivial) stepped member
    · exact keeps.2.2 (h.joined old)
    · exact named rfl
  · obtain old | greeted := step_greets stepped first
    · exact keeps.1 (h.greeted old)
    · exact greeted

theorem reachable_granted (h : Reachable env stored server) (s : SessionId) :
    Granted env s server := by
  obtain ⟨events, run⟩ := h
  have keeps (a : ChatServer) (event : Event) (b : ChatServer)
      (held : Reachable env stored a ∧ Granted env s a) (stepped : step env a event = some b) :
      Reachable env stored b ∧ Granted env s b :=
    ⟨Dialogue.reachable_step held.1 stepped,
      held.2.step (reachable_consistent held.1).rooms.lobby stepped⟩
  refine (Run.run_invariant keeps run ⟨⟨[], rfl⟩, ?_⟩).2
  have silent {answer : ServerMessage} :
      .deliver s answer ∉ (ChatServer.start env stored).output.trace := by
    intro member
    obtain ⟨write, stores⟩ := ChatServer.start_stores env stored _ member
    cases stores
  refine ⟨fun member => absurd member silent, fun _ member => absurd member silent,
    fun member => absurd member silent, fun first => ?_⟩
  rw [start_received env stored] at first
  cases first

end Steps

section Wire

variable {env : Env} {stored : StoredState} {s : SessionId} {d : Dialogue}

/-- A message that names somebody or a room is not read as an answer of a login. -/
theorem parse_named {word rest : Bytes} {message : ServerMessage}
    (h : word = ascii "KICK" ∨ word = ascii "USERS" ∨ word = ascii "ROOMS" ∨ word = ascii "ROOM")
    (parses : parseServerMessage (word ++ pipe :: rest) = .ok message) : ¬ LoginAnswer message := by
  have first : pipe ∉ word := by
    rcases h with rfl | rfl | rfl | rfl
    all_goals decide
  rcases h with rfl | rfl | rfl | rfl
  all_goals
    simp +decide [parseServerMessage, splitFields_cons first] at parses
    repeat' split at parses
    all_goals cases parses
  all_goals exact id

theorem parse_login {sent heard : ServerMessage}
    (parses : parseServerMessage (serializeServer sent) = .ok heard) (login : LoginAnswer heard) :
    heard = sent := by
  by_cases names : NamesValid sent
  · exact parseServerMessage_serializeServer names parses
  · refine absurd login ?_
    cases sent with
    | kick nick reason =>
        have shape : serializeServer (.kick nick reason) =
            ascii "KICK" ++ pipe :: (nick ++ ascii "|" ++ reason) := rfl
        exact parse_named (.inl rfl) (shape ▸ parses)
    | userList roomId nicknames =>
        have shape : serializeServer (.userList roomId nicknames) = ascii "USERS" ++
            pipe :: (toDecimal roomId.toNat ++ ascii "|" ++ [comma].intercalate nicknames) := rfl
        exact parse_named (.inr (.inl rfl)) (shape ▸ parses)
    | roomList rooms => exact parse_named (.inr (.inr (.inl rfl))) parses
    | roomJoined id name topic =>
        have shape : serializeServer (.roomJoined id name topic) = ascii "ROOM" ++
            pipe :: (toDecimal id.toNat ++ ascii "|" ++ name ++ ascii "|" ++ topic) := rfl
        exact parse_named (.inr (.inr (.inr rfl))) (shape ▸ parses)
    | _ => exact absurd trivial names

/-- An answer of a login that a client reads has been given. -/
theorem Dialogue.Flows.heard_login (flows : Dialogue.Flows env stored s d)
    {answer : ServerMessage} (login : LoginAnswer answer)
    (heard : answer ∈ readLines d.heard) : .deliver s answer ∈ d.server.output.trace := by
  obtain ⟨line, member, read⟩ := List.mem_filterMap.mp heard
  obtain ⟨frame, handed, rfl⟩ := List.mem_map.mp (flows.down.taken_prefix.subset member)
  have known : frame ∈ framesFor s d.server.output.trace :=
    reachable_frames flows.server s ▸ List.mem_append_left _ handed
  obtain ⟨message, told, encodes⟩ := List.mem_filterMap.mp known
  cases result : encodeServerFrame message with
  | error e => simp [result, Except.toOption] at encodes
  | ok frame' =>
      simp only [result, Except.toOption, Option.some.injEq] at encodes
      subst encodes
      obtain ⟨-, framed⟩ := encodeServerFrame_ok result
      cases reads : decodeServerFrame frame'.dropLast with
      | error e => simp [reads, Except.toOption] at read
      | ok answer' =>
          simp only [reads, Except.toOption, Option.some.injEq] at read
          subst read
          have parses := (decodeMessageFrame_line framed parseServerMessage).symm.trans reads
          rw [parse_login parses login]
          exact mem_delivered.mp told

/-- What gets through has been read when nothing is on the way to the client any more. -/
theorem Dialogue.Flows.heard_told (flows : Dialogue.Flows env stored s d)
    (rest : Dialogue.AtRest s d)
    {kind : ServerMessage → Prop} (told : Told s d.server.output.trace kind) :
    ∃ message ∈ readLines d.heard, kind message := by
  obtain ⟨message, holds, ⟨frame, encodes, decodes⟩, member⟩ := told
  refine ⟨message, List.mem_filterMap.mpr ⟨frame.dropLast, ?_, ?_⟩, holds⟩
  · have heard := flows.down.taken_all (by decide) rest.down
    have frames := reachable_frames flows.server s
    rw [rest.told.1, rest.told.2] at frames
    have handed : framesFor s d.server.output.trace = (d.server.output.wire s).handed := by
      simpa [WireHistory.frames] using frames
    rw [heard, ← handed]
    refine List.mem_map.mpr ⟨frame, List.mem_filterMap.mpr ⟨message, ?_, ?_⟩, rfl⟩
    · exact mem_delivered.mpr member
    · rw [encodes]
      rfl
  · have framed := (encodeServerFrame_ok encodes).2
    have same := (decodeMessageFrame_line framed parseServerMessage).trans
      (decodeMessageFrame_encodeFrame framed parseServerMessage).symm
    have reads : decodeServerFrame frame.dropLast = .ok message := same.trans decodes
    rw [reads]
    rfl

/-- A frame is read as the message that it was made of. -/
theorem decodes_of_encodes {message : ClientMessage} {frame : Bytes}
    (encodes : encodeClientFrame message = .ok frame) (read : ¬ MisreadTarget message) :
    decodeClientFrame frame = .ok message := by
  obtain ⟨⟨message', parses⟩, framed⟩ := encodeClientFrame_ok_iff.mp encodes
  rw [decodeClientFrame, decodeMessageFrame_encodeFrame framed, parses,
    parseClientMessage_serializeClient parses read]

/-- A step moves the server by one event, or not at all. -/
theorem Dialogue.step_server {d' : Dialogue} {exchange : Exchange}
    (stepped : Dialogue.step env s d exchange = some d') :
    d'.server = d.server ∨ ∃ event, Chat.step env d.server event = some d'.server ∧
      d'.login = d.login ∧ d'.heard = d.heard := by
  have onServer {a : Dialogue} {event : Event} (moved : a.onServer env s event = some d') :
      Chat.step env a.server event = some d'.server ∧ d'.login = a.login ∧ d'.heard = a.heard := by
    obtain ⟨server', advanced, rfl⟩ := Option.map_eq_some_iff.mp moved
    exact ⟨advanced, rfl, rfl⟩
  have onLogin {a : Dialogue} {event : LoginEvent} (moved : a.onLogin event = some d') :
      d'.server = a.server := by
    obtain ⟨login', -, rfl⟩ := Option.map_eq_some_iff.mp moved
    rfl
  cases exchange with
  | server event =>
      cases event with
      | line a line =>
          simp only [Dialogue.step, Option.ite_none_left_eq_some] at stepped
          exact .inr ⟨_, onServer stepped.2⟩
      | writeDone a ok =>
          simp only [Dialogue.step, Option.ite_none_left_eq_some] at stepped
          exact .inr ⟨_, onServer stepped.2⟩
      | _ => exact .inr ⟨_, onServer stepped⟩
  | client event =>
      cases event with
      | connected | line line | writeError aborted message | closed => cases stepped
      | _ => exact .inl (onLogin stepped)
  | posted =>
      simp only [Dialogue.step] at stepped
      split at stepped
      · cases stepped
      · obtain rfl := Option.some.inj stepped
        exact .inl rfl
      · have same := onLogin stepped
        exact .inl same
  | written =>
      simp only [Dialogue.step, Option.ite_none_right_eq_some, Option.some.injEq] at stepped
      obtain ⟨-, rfl⟩ := stepped
      exact .inl rfl
  | writeFailed aborted message =>
      simp only [Dialogue.step, Option.ite_none_right_eq_some] at stepped
      have same := onLogin stepped.2
      exact .inl same
  | sendUp n | sendDown n =>
      obtain ⟨stream, -, rfl⟩ := Option.map_eq_some_iff.mp stepped
      exact .inl rfl
  | receiveUp n | receiveDown n =>
      simp only [Dialogue.step, Option.ite_none_right_eq_some] at stepped
      obtain ⟨stream, -, rfl⟩ := Option.map_eq_some_iff.mp stepped.2
      exact .inl rfl
  | readUp =>
      obtain ⟨⟨line, up⟩, -, stepped⟩ := Option.bind_eq_some_iff.mp stepped
      have moved := onServer stepped
      exact .inr ⟨.line s line, moved⟩
  | readDown =>
      obtain ⟨⟨line, down⟩, -, stepped⟩ := Option.bind_eq_some_iff.mp stepped
      have same := onLogin stepped
      exact .inl same

end Wire

/-- What a login waits for. -/
@[ext]
structure LoginFlags where
  authRequired : Bool
  authResolved : Bool
  authOk : Bool
  joinResolved : Bool

namespace LoginFlags

variable (flags : LoginFlags)

/-- What a message sets. -/
def update : ServerMessage → LoginFlags
  | .authRequired => { flags with authRequired := true }
  | .authAccepted => { flags with authOk := true, authResolved := true }
  | .authRejected => { flags with authOk := false, authResolved := true }
  | .joinAccepted | .joinRejected _ | .banned | .nicknameTaken => { flags with joinResolved := true }
  | _ => flags

/-- The login is given up. -/
def giveUp : LoginFlags := { flags with authResolved := true, authOk := false, joinResolved := true }

/-- The flags are set for the messages that have been read. -/
structure Learned (messages : List ServerMessage) (flags : LoginFlags) : Prop where
  required : .authRequired ∈ messages → flags.authRequired = true ∨ flags.authResolved = true
  resolved : .authAccepted ∈ messages ∨ .authRejected ∈ messages → flags.authResolved = true
  settled : (∃ message ∈ messages, SettlesJoin message) → flags.joinResolved = true
  accepted : flags.authOk = true → .authAccepted ∈ messages

variable {flags : LoginFlags} {messages messages' : List ServerMessage}

theorem learned_giveUp : flags.giveUp.Learned messages :=
  ⟨fun _ => .inr rfl, fun _ => rfl, fun _ => rfl, fun ok => by cases ok⟩

theorem Learned.update (h : flags.Learned messages) (message : ServerMessage) :
    (flags.update message).Learned (messages ++ [message]) := by
  have before {answer : ServerMessage} (member : answer ∈ messages ++ [message])
      (other : answer ≠ message) : answer ∈ messages :=
    (List.mem_append.mp member).resolve_right fun last => other (List.mem_singleton.mp last)
  refine ⟨fun member => ?_, fun member => ?_, fun ⟨answer, member, settles⟩ => ?_, fun ok => ?_⟩
  · by_cases required : message = .authRequired
    · subst required
      exact .inl rfl
    · have known := h.required (before member (Ne.symm required))
      cases message <;> simp [LoginFlags.update, known]
  · by_cases accepted : message = .authAccepted
    · subst accepted
      rfl
    · by_cases rejected : message = .authRejected
      · subst rejected
        rfl
      · have known := h.resolved (member.imp (fun member => before member (Ne.symm accepted))
          fun member => before member (Ne.symm rejected))
        cases message <;> simp [LoginFlags.update, known]
  · by_cases same : answer = message
    · subst same
      cases answer with
      | joinAccepted | joinRejected | banned | nicknameTaken => rfl
      | _ => exact settles.elim
    · have known := h.settled ⟨answer, before member same, settles⟩
      cases message <;> simp [LoginFlags.update, known]
  · by_cases accepted : message = .authAccepted
    · simp [accepted]
    · refine List.mem_append_left _ (h.accepted ?_)
      cases message with
      | authAccepted => exact absurd rfl accepted
      | authRejected => exact absurd ok (by simp [LoginFlags.update])
      | _ => exact ok

end LoginFlags

namespace ChatClient

variable {client : ChatClient}

def flags (client : ChatClient) : LoginFlags where
  authRequired := client.authRequired
  authResolved := client.authResolved
  authOk := client.authOk
  joinResolved := client.joinResolved

@[simp] theorem pushMessage_flags (msg : Bytes) : (client.pushMessage msg).flags = client.flags := rfl

@[simp] theorem send_flags (message : ClientMessage) :
    (client.send message).flags = client.flags := by
  unfold send
  split
  · rfl
  · split
    · rfl
    · rfl

theorem showRooms_flags (rooms : List RoomSummary) :
    (client.showRooms rooms).flags = client.flags :=
  showRooms_related (R := fun a b => b.flags = a.flags) (fun _ => rfl)
    (fun _ _ _ hab hbc => hbc.trans hab) (fun _ _ => rfl) client rooms

theorem onNegotiated_flags {sign : Bytes → Bytes} (own : client.identity = some sign)
    (message : ServerMessage) :
    (client.onNegotiated message).flags = client.flags.update message := by
  cases message with
  | challenge challengeHex =>
      simp only [onNegotiated, own]
      exact send_flags _
  | roomList rooms =>
      simp only [onNegotiated]
      split
      · exact showRooms_flags rooms
      · rfl
  | roomTopic roomId topic =>
      simp only [onNegotiated]
      split
      · rfl
      · rfl
  | roomText roomId body =>
      simp only [onNegotiated]
      split
      · rfl
      · rfl
  | _ => rfl

theorem receive_flags {sign : Bytes → Bytes} (own : client.identity = some sign)
    (reading : client.reading = true) (message : ServerMessage) :
    (client.receive message).flags = client.flags.update message ∨
      (client.receive message).flags = client.flags.giveUp := by
  have negotiated := @onNegotiated_flags client sign own message
  cases handshake : client.protocolNegotiated with
  | true =>
      refine .inl (Eq.trans ?_ negotiated)
      cases message <;> simp [receive, reading, handshake]
  | false =>
      cases message with
      | hello version => exact .inl (by simpa [receive, reading] using negotiated)
      | _ =>
          refine .inr ?_
          simp only [receive, reading, handshake]
          rfl

theorem receiveLine_flags {sign : Bytes → Bytes} (own : client.identity = some sign)
    (reading : client.reading = true) (line : Bytes) :
    (∃ message, decodeServerFrame line = .ok message ∧
      (client.receiveLine line).flags = client.flags.update message) ∨
    ((decodeServerFrame line).toOption = none ∧
      (client.receiveLine line).flags = client.flags) ∨
    (client.receiveLine line).flags = client.flags.giveUp := by
  simp only [receiveLine, reading, Bool.not_true, Bool.false_eq_true, if_false]
  cases decodes : decodeServerFrame line with
  | ok message =>
      obtain updated | gaveUp := receive_flags own reading message
      · exact .inl ⟨message, rfl, updated⟩
      · exact .inr (.inr gaveUp)
  | error e =>
      simp only
      split
      · exact .inr (.inr rfl)
      · exact .inr (.inl ⟨rfl, rfl⟩)

theorem readError_login : client.readError.flags = client.flags ∨
    client.readError.flags = client.flags.giveUp := by
  have shown {p : Prop} [Decidable p] (client : ChatClient) (msg : Bytes) :
      (if p then client.pushMessage msg else client).flags = client.flags := by
    split
    · rfl
    · rfl
  unfold readError
  simp only [shown]
  split
  · exact .inr rfl
  · exact .inl rfl

theorem send_frame {message : ClientMessage} {frame : Bytes} (active : client.active = true)
    (encodes : encodeClientFrame message = .ok frame) :
    (client.send message).sent = client.sent ++ [frame] := by
  obtain ⟨connected, opened⟩ := Bool.and_eq_true_iff.mp active
  simp only [Bool.not_eq_true'] at opened
  simp [send, connected, opened, encodes]

/-- A client that is active signs the challenge, unless the login is given up. -/
theorem receiveLine_challenge {sign : Bytes → Bytes} {line challenge frame : Bytes}
    (own : client.identity = some sign) (reading : client.reading = true)
    (active : client.active = true)
    (decodes : decodeServerFrame line = .ok (.challenge challenge))
    (encodes : encodeClientFrame (.identityProof (sign challenge)) = .ok frame) :
    (client.receiveLine line).joinResolved = true ∨
      frame ∈ (client.receiveLine line).sent := by
  simp only [receiveLine, reading, decodes, receive, Bool.not_true, Bool.false_eq_true, if_false]
  cases handshake : client.protocolNegotiated with
  | false => exact .inl rfl
  | true =>
      have answered := send_frame active encodes
      refine .inr ?_
      simp [onNegotiated, own, answered]

end ChatClient

end Chatbox.Chat
