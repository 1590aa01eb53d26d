import Chatbox.Chat.Answers

/-!
The login of the interactive program: `join_client_session` waits for one flag of the client after
the other, asks for the password where the server wants one, and returns what came of it. The
network thread, the session at the server and everybody else go on meanwhile.
-/

namespace Chatbox.App

open Text Protocol Storage Chat

/-- Where `join_client_session` is. -/
inductive JoinStage where
  | handshake
  | password
  | checkingPassword
  | checkingIdentity
  | returned (error : Option Bytes)
deriving DecidableEq, Repr

/-- The end of a wait or of the prompt. A wait is over when its flag is set, or it is given up, by
the user or at its deadline. -/
inductive JoinAct where
  | ready
  | cancelled
  | typed (password : Bytes)
deriving DecidableEq, Repr

section Model

variable (client : ChatClient) (nickname publicKeyHex : Bytes)

/-- `ready` of the wait that is going on. -/
def JoinStage.ready : JoinStage → Bool
  | .handshake => client.authRequired || client.authResolved
  | .checkingPassword => client.authResolved
  | .checkingIdentity => client.joinResolved
  | _ => false

/-- `client.identify(nickname)`, after the last look at `auth_ok`. -/
def identifying : JoinStage × Option LoginEvent :=
  if !client.authOk then
    (.returned (some (ascii "Server rejected authentication or the protocol handshake.")), none)
  else (.checkingIdentity, some (.identify nickname publicKeyHex))

/-- What is returned when the join is resolved. -/
def joinError : Option Bytes :=
  if client.banned then some (ascii "You are banned from this server.")
  else if client.nicknameTaken then some (ascii "Nickname is already in use.")
  else if client.joinFailed then some (ascii "Join failed: " ++ client.joinFailureReason)
  else none

/-- `join_client_session`: where it gets to, and the call of the client on the way. -/
def joinClientSession : JoinStage → JoinAct → Option (JoinStage × Option LoginEvent)
  | .handshake, .ready =>
      if client.authRequired || client.authResolved then
        if client.authRequired then some (.password, none)
        else some (identifying client nickname publicKeyHex)
      else none
  | .handshake, .cancelled =>
      some (.returned (some (ascii "Protocol handshake timed out or was cancelled.")), none)
  | .password, .typed password =>
      some (.checkingPassword, some (.send (.authenticate password)))
  | .password, .cancelled => some (.returned (some (ascii "Joining was cancelled.")), none)
  | .checkingPassword, .ready =>
      if client.authResolved then
        if !client.authOk then
          some (.returned (some (ascii "Authentication failed. Wrong password.")), none)
        else some (identifying client nickname publicKeyHex)
      else none
  | .checkingPassword, .cancelled =>
      some (.returned (some (ascii "Authentication timed out or was cancelled.")), none)
  | .checkingIdentity, .ready =>
      if client.joinResolved then some (.returned (joinError client), none) else none
  | .checkingIdentity, .cancelled =>
      some (.returned (some (ascii "Joining timed out or was cancelled.")), none)
  | _, _ => none

end Model

/-- A step of the network or of the server, or of `join_client_session`. -/
inductive JoinEvent where
  | exchange (exchange : Exchange)
  | act (act : JoinAct)

structure Joining where
  dialogue : Dialogue
  stage : JoinStage := .handshake

/-- What happens to the client without being called. -/
def unasked : Exchange → Bool
  | .client (.readError _) => true
  | .client _ => false
  | _ => true

namespace Joining

variable (env : Env) (s : SessionId) (nickname publicKeyHex : Bytes)

/-- The client is called by `join_client_session` alone. -/
def step (joining : Joining) : JoinEvent → Option Joining
  | .exchange exchange =>
      if unasked exchange then
        (Dialogue.step env s joining.dialogue exchange).map fun dialogue =>
          { joining with dialogue }
      else none
  | .act act =>
      match joinClientSession joining.dialogue.login.client nickname publicKeyHex joining.stage
          act with
      | none => none
      | some (stage, none) => some { joining with stage }
      | some (stage, some event) =>
          (Dialogue.step env s joining.dialogue (.client event)).map fun dialogue =>
            { dialogue, stage }

/-- A client with its key that has just connected. -/
def start (stored : StoredState) (sign : Bytes → Bytes) : Joining :=
  let d := Dialogue.start env stored
  let client := { d.login.client with identity := some sign }
  { dialogue := { d with login := { d.login with client } } }

end Joining

section Frames

variable {message : ClientMessage}

theorem encodes_of_line (line : ClientLine (serializeClient message) message)
    (some : serializeClient message ≠ []) (short : (serializeClient message).length ≤ 3069) :
    ∃ frame, encodeClientFrame message = .ok frame := by
  have framed := encodeFrame_ok_iff.mpr ⟨some, short, rfl⟩
  exact ⟨_, encodeClientFrame_ok_iff.mpr ⟨⟨message, line.parse⟩, framed⟩⟩

theorem authenticate_encodes {password : Bytes} (fits : password.length ≤ 63)
    (plain : ∀ c ∈ password, isCntrl c = false) :
    ∃ frame, encodeClientFrame (.authenticate password) = .ok frame := by
  have shape : serializeClient (.authenticate password) = ascii "AUTH" ++ pipe :: password := rfl
  have word : (ascii "AUTH").length = 4 := rfl
  refine encodes_of_line (shape ▸ .authenticate fits plain) (by simp [shape]) ?_
  rw [shape, List.length_append, List.length_cons]
  omega

theorem identify_encodes {nickname publicKeyHex : Bytes} (valid : isValidNickname nickname = true)
    (key : isHex publicKeyHex 64 = true) :
    ∃ frame, encodeClientFrame (.identify nickname publicKeyHex) = .ok frame := by
  have shape : serializeClient (.identify nickname publicKeyHex) =
      ascii "IDENTIFY" ++ pipe :: (nickname ++ pipe :: publicKeyHex) := by
    simp [serializeClient, ascii, pipe]
  have word : (ascii "IDENTIFY").length = 8 := rfl
  have short := isValidNickname_length valid
  have digits := isHex_length key
  refine encodes_of_line (shape ▸ .identify valid key) (by simp [shape]) ?_
  rw [shape]
  simp only [List.length_append, List.length_cons]
  omega

theorem identityProof_encodes {signatureHex : Bytes} (signature : isHex signatureHex 128 = true) :
    ∃ frame, encodeClientFrame (.identityProof signatureHex) = .ok frame := by
  have shape : serializeClient (.identityProof signatureHex) =
      ascii "PROOF" ++ pipe :: signatureHex := rfl
  have word : (ascii "PROOF").length = 5 := rfl
  have digits := isHex_length signature
  refine encodes_of_line (shape ▸ .identityProof signature) (by simp [shape]) ?_
  rw [shape, List.length_append, List.length_cons]
  omega

end Frames

section Client

variable {nickname publicKeyHex : Bytes} {told told' : List ServerMessage}
variable {a b : ChatClient} {login login' : Login}

/-- What a login sends behind its HELLO, by what it has been told. -/
def InTurn (nickname publicKeyHex : Bytes) (told : List ServerMessage) : ClientMessage → Prop
  | .authenticate _ => True
  | .identify nick key => nick = nickname ∧ key = publicKeyHex ∧ .authAccepted ∈ told
  | .identityProof _ => ∃ challenge, .challenge challenge ∈ told
  | _ => False

/-- The frames are a HELLO, and behind it what the login sends. -/
def Asked (nickname publicKeyHex : Bytes) (told : List ServerMessage) (frames : List Bytes) :
    Prop :=
  ∃ hello rest, frames = hello :: rest ∧ decodeClientFrame hello = .ok (.hello VERSION) ∧
    ∀ frame ∈ rest, ∃ message, decodeClientFrame frame = .ok message ∧
      InTurn nickname publicKeyHex told message

theorem InTurn.more {message : ClientMessage} (h : InTurn nickname publicKeyHex told message)
    (more : ∀ message ∈ told, message ∈ told') : InTurn nickname publicKeyHex told' message := by
  cases message with
  | authenticate password => trivial
  | identify nick key => exact ⟨h.1, h.2.1, more _ h.2.2⟩
  | identityProof signatureHex => exact h.imp fun challenge member => more _ member
  | _ => exact h

theorem Asked.sends {said : ClientMessage → Prop}
    (h : Asked nickname publicKeyHex told a.sent) (more : ∀ message ∈ told, message ∈ told')
    (sends : Sends said a b)
    (asks : ∀ message, said message → InTurn nickname publicKeyHex told' message) :
    Asked nickname publicKeyHex told' b.sent := by
  obtain ⟨hello, rest, frames, greets, behind⟩ := h
  have before : ∀ frame ∈ rest, ∃ message, decodeClientFrame frame = .ok message ∧
      InTurn nickname publicKeyHex told' message := by
    intro frame member
    obtain ⟨message, decodes, known⟩ := behind frame member
    exact ⟨message, decodes, known.more more⟩
  obtain same | ⟨message, frame, spoken, encodes, grown⟩ := sends.sent
  · exact ⟨hello, rest, same.trans frames, greets, before⟩
  · refine ⟨hello, rest ++ [frame], by rw [grown, frames, List.cons_append], greets, ?_⟩
    intro other member
    obtain old | last := List.mem_append.mp member
    · exact before other old
    · obtain rfl := List.mem_singleton.mp last
      have known := asks message spoken
      refine ⟨message, decodes_of_encodes encodes ?_, known⟩
      intro misread
      cases message with
      | whisper target body | kickRequest nick reason => exact known
      | _ => exact misread

/-- What happens to the client of a login. -/
def Fits (nickname publicKeyHex : Bytes) (client : ChatClient) : LoginEvent → Prop
  | .line _ | .readError _ | .writeError _ _ | .closed => True
  | .identify nick key => nick = nickname ∧ key = publicKeyHex ∧ client.authOk = true
  | .send message => ∃ password, message = .authenticate password
  | _ => False

/-- A client that logs in, with what it has been told. -/
structure Applicant (nickname publicKeyHex : Bytes) (sign : Bytes → Bytes)
    (told : List ServerMessage) (login : Login) : Prop where
  identity : login.client.identity = some sign
  accounted : login.Accounted
  accepted : login.joinAccepted = true → .joinAccepted ∈ told
  learned : login.client.flags.Learned told
  asked : Asked nickname publicKeyHex told login.client.sent

/-- An event that reads no line and sends at most what is in turn. -/
theorem Applicant.quiet {sign : Bytes → Bytes} {said : ClientMessage → Prop} {lines : List Bytes}
    (h : Applicant nickname publicKeyHex sign told login) (unread : lines = [])
    (accounted : login'.Accounted)
    (joined : login'.joinAccepted = login.joinAccepted)
    (flags : login'.client.flags = login.client.flags ∨
      login'.client.flags = login.client.flags.giveUp)
    (sends : Sends said login.client login'.client)
    (asks : ∀ message, said message → InTurn nickname publicKeyHex told message) :
    Applicant nickname publicKeyHex sign (told ++ readLines lines) login' := by
  have silent : told ++ readLines [] = told := List.append_nil told
  rw [unread, silent]
  refine ⟨sends.identity.trans h.identity, accounted, ?_, ?_, ?_⟩
  · rw [joined]
    exact h.accepted
  · obtain same | gaveUp := flags
    · rw [same]
      exact h.learned
    · rw [gaveUp]
      exact LoginFlags.learned_giveUp
  · exact h.asked.sends (fun _ => id) sends asks

/-- A line is told as it decodes, and a challenge is answered. -/
theorem Applicant.receiveLine {sign : Bytes → Bytes} {line : Bytes}
    (h : Applicant nickname publicKeyHex sign told login)
    (stepped : login.step (.line line) = some login') :
    Applicant nickname publicKeyHex sign (told ++ readLines [line]) login' := by
  have accounted := h.accounted.step stepped
  have grows : ∀ message ∈ told, message ∈ told ++ readLines [line] :=
    fun message member => List.mem_append_left _ member
  simp only [Login.step, Option.ite_none_right_eq_some, Option.some.injEq] at stepped
  obtain ⟨reading, rfl⟩ := stepped
  have sends := @receiveLine_sends login.client line
  have read {message : ServerMessage} (decodes : decodeServerFrame line = .ok message) :
      message ∈ told ++ readLines [line] := by
    refine List.mem_append_right _ ?_
    simp [readLines, decodes, Except.toOption]
  refine ⟨sends.identity.trans h.identity, accounted, fun joined => ?_, ?_, ?_⟩
  · obtain before | now := Bool.or_eq_true_iff.mp joined
    · exact grows _ (h.accepted before)
    · refine read ?_
      unfold ChatClient.accepts at now
      split at now
      · next accepted => exact accepted
      · simp at now
  · obtain ⟨message, decodes, flags⟩ | ⟨undecoded, flags⟩ | flags :=
      ChatClient.receiveLine_flags h.identity reading line
    · have told : readLines [line] = [message] := by
        simp [readLines, decodes, Except.toOption]
      rw [flags, told]
      exact h.learned.update message
    · have silent : readLines [line] = [] := by simp [readLines, undecoded]
      rw [flags, silent, List.append_nil]
      exact h.learned
    · rw [flags]
      exact LoginFlags.learned_giveUp
  · refine h.asked.sends grows sends ?_
    rintro message ⟨challenge, -, decodes, -, rfl⟩
    exact ⟨challenge, read decodes⟩

/-- A step keeps what is known of the client, with what it reads. -/
theorem Applicant.step {sign : Bytes → Bytes} {event : LoginEvent}
    (h : Applicant nickname publicKeyHex sign told login)
    (fits : Fits nickname publicKeyHex login.client event)
    (stepped : login.step event = some login') :
    Applicant nickname publicKeyHex sign (told ++ readLines event.lines) login' := by
  have accounted := h.accounted.step stepped
  cases event with
  | line line => exact h.receiveLine stepped
  | readError message =>
      simp only [Login.step, Option.ite_none_right_eq_some, Option.some.injEq] at stepped
      obtain ⟨-, rfl⟩ := stepped
      have unsaid : Sends (fun _ => False) login.client login.client.readError := by
        simp only [ChatClient.readError]
        split <;> split <;> exact .silent rfl rfl
      exact h.quiet rfl accounted rfl ChatClient.readError_login unsaid fun _ => False.elim
  | writeError aborted message =>
      obtain rfl := Option.some.inj stepped
      have unsaid : Sends (fun _ => False) login.client
          (login.client.writeError aborted message) := by
        simp only [ChatClient.writeError]
        split <;> exact .silent rfl rfl
      refine h.quiet rfl accounted rfl (.inl ?_) unsaid fun _ => False.elim
      simp only [ChatClient.writeError]
      split <;> rfl
  | identify nick key =>
      obtain ⟨rfl, rfl, ok⟩ := fits
      have sent : login.client.identify nick key = login.client.send (.identify nick key) := by
        simp [ChatClient.identify, h.identity]
      simp only [Login.step, sent, Option.some.injEq] at stepped
      subst stepped
      refine h.quiet rfl accounted rfl (.inl (ChatClient.send_flags _)) (send_sends _) ?_
      rintro message rfl
      exact ⟨rfl, rfl, h.learned.accepted ok⟩
  | send message =>
      obtain ⟨password, rfl⟩ := fits
      obtain rfl := Option.some.inj stepped
      refine h.quiet rfl accounted rfl (.inl (ChatClient.send_flags _)) (send_sends _) ?_
      rintro message rfl
      trivial
  | closed =>
      simp only [Login.step, Option.ite_none_right_eq_some, Option.some.injEq] at stepped
      obtain ⟨-, rfl⟩ := stepped
      have unsaid : Sends (fun _ => False) login.client
          { login.client with connected := false } := .silent rfl rfl
      exact h.quiet rfl accounted rfl (.inl rfl) unsaid fun _ => False.elim
  | _ => exact fits.elim

end Client

section Underway

variable {env : Env} {stored : StoredState} {s : SessionId} {nickname publicKeyHex : Bytes}
variable {sign : Bytes → Bytes} {d d' : Dialogue} {exchange : Exchange}

/-- A login under way: what the session has received is answered. -/
structure Underway (env : Env) (stored : StoredState) (s : SessionId)
    (nickname publicKeyHex : Bytes) (sign : Bytes → Bytes) (d : Dialogue) : Prop where
  flows : Dialogue.Flows env stored s d
  applicant : Applicant nickname publicKeyHex sign (readLines d.heard) d.login
  answered : ∀ message ∈ receivedFrom s d.server.output.trace,
    Told s d.server.output.trace (Answers message)

theorem mem_receivedFrom {trace : Trace} {message : ClientMessage}
    (h : .received s message ∈ trace) : message ∈ receivedFrom s trace :=
  List.mem_filterMap.mpr ⟨_, h, by simp⟩

/-- A frame is read at its time. -/
theorem Underway.awaited {frame : Bytes} {message : ClientMessage}
    (h : Underway env stored s nickname publicKeyHex sign d)
    (flows : Dialogue.Flows env stored s d') (login : d'.login = d.login)
    (moved : Chat.step env d.server (.line s frame) = some d'.server)
    (decodes : decodeClientFrame frame = .ok message) : Awaited env d.server s message := by
  have granted := reachable_granted h.flows.server s
  have known := Dialogue.received_sent flows
  obtain ⟨hello, rest, frames, greets, behind⟩ := h.applicant.asked
  rw [line_received moved, login, frames, decodes] at known
  cases received : receivedFrom s d.server.output.trace with
  | nil =>
      obtain rfl : message = .hello VERSION := by
        simpa [received, greets, Except.toOption] using known
      refine Bool.eq_false_iff.mpr fun negotiated => ?_
      have greeted := mem_receivedFrom ((reachable_credited h.flows.server).greeted s negotiated)
      rw [received] at greeted
      exact List.not_mem_nil greeted
  | cons first others =>
      simp only [received, List.cons_append, List.map_cons, List.cons_prefix_cons, greets,
        Except.ok.injEq] at known
      obtain ⟨rfl, later⟩ := known
      have sent : Except.ok message ∈ rest.map decodeClientFrame :=
        later.subset (by simp [Except.toOption])
      obtain ⟨frame', member, reads⟩ := List.mem_map.mp sent
      obtain ⟨message', decodes', asks⟩ := behind frame' member
      obtain rfl := Except.ok.inj (reads.symm.trans decodes')
      cases message with
      | authenticate password => exact granted.greeted (by rw [received]; rfl)
      | identify nick key =>
          exact granted.accepted (h.flows.heard_login trivial asks.2.2)
      | identityProof signatureHex =>
          obtain ⟨challenge, told⟩ := asks
          exact granted.challenged challenge (h.flows.heard_login trivial told)
      | _ => exact asks.elim

theorem Underway.step (h : Underway env stored s nickname publicKeyHex sign d)
    (fits : ∀ event, exchange.Moves event → Fits nickname publicKeyHex d.login.client event)
    (stepped : Dialogue.step env s d exchange = some d') :
    Underway env stored s nickname publicKeyHex sign d' := by
  have flows := h.flows.step stepped
  refine ⟨flows, ?_, ?_⟩
  · obtain ⟨login, heard⟩ | ⟨event, moves, -, moved, heard⟩ := Dialogue.step_login stepped
    · rw [login, heard]
      exact h.applicant
    · have told : readLines d'.heard = readLines d.heard ++ readLines event.lines := by
        rw [heard, readLines, List.filterMap_append]
        rfl
      rw [told]
      exact h.applicant.step (fits event moves) moved
  · obtain same | ⟨event, moved, login, -⟩ := Dialogue.step_server stepped
    · rw [same]
      exact h.answered
    · obtain ⟨new, grown, -⟩ := step_caused moved
      have later : d.server.output.trace <+: d'.server.output.trace := ⟨new, grown.symm⟩
      by_cases own : ∃ frame, event = .line s frame
      · obtain ⟨frame, rfl⟩ := own
        intro message member
        rw [line_received moved] at member
        obtain old | fresh := List.mem_append.mp member
        · exact (h.answered message old).grows later
        · cases decodes : decodeClientFrame frame with
          | error e => simp [decodes, Except.toOption] at fresh
          | ok message' =>
              obtain rfl : message = message' := by
                simpa [decodes, Except.toOption] using fresh
              have awaited := h.awaited flows login moved decodes
              simp only [Chat.step, Option.ite_none_right_eq_some, Option.some.injEq] at moved
              obtain ⟨-, same⟩ := moved
              have handled : d.server.onLine env s frame = d.server.onMessage env s message := by
                simp [ChatServer.onLine, decodes]
              rw [← same, handled]
              exact ChatServer.onMessage_told awaited
      · intro message member
        rw [step_receivedFrom moved fun frame same => own ⟨frame, same⟩] at member
        exact (h.answered message member).grows later

/-- A client that has just connected and has its key. -/
theorem underway_start (env : Env) (stored : StoredState) (s : SessionId)
    (nickname publicKeyHex : Bytes) (sign : Bytes → Bytes) :
    Underway env stored s nickname publicKeyHex sign (Joining.start env stored sign).dialogue := by
  obtain ⟨hello, encodes⟩ : ∃ hello, encodeClientFrame (.hello VERSION) = .ok hello :=
    ⟨_, rfl⟩
  have greets := decodes_of_encodes encodes id
  have sent : (Joining.start env stored sign).dialogue.login.client.sent = [hello] :=
    @ChatClient.send_frame { connected := true, reading := false } _ _ rfl encodes
  have flags : (Joining.start env stored sign).dialogue.login.client.flags =
      ChatClient.flags {} :=
    @ChatClient.send_flags { connected := true, reading := false } _
  have identified : Dialogue.step env s (Dialogue.start env stored) (.client (.setIdentity sign)) =
      some (Joining.start env stored sign).dialogue := by
    simp [Dialogue.step, Dialogue.onLogin, Login.step, LoginEvent.closes, Joining.start,
      Dialogue.start]
  refine ⟨(Dialogue.flows_start env stored s).step identified, ?_, ?_⟩
  · refine ⟨rfl, ?_, (fun accepted => by cases accepted), ?_, hello, [], sent, greets, ?_⟩
    · have run : Run.run Login.step {} [.connected, .setIdentity sign] =
          some (Joining.start env stored sign).dialogue.login := rfl
      exact Login.run_accounted run
    · rw [flags]
      refine ⟨fun member => absurd member List.not_mem_nil, fun member => ?_, ?_,
        fun ok => by cases ok⟩
      · exact absurd member (not_or.mpr ⟨List.not_mem_nil, List.not_mem_nil⟩)
      · rintro ⟨message, member, -⟩
        exact absurd member List.not_mem_nil
    · exact fun frame member => absurd member List.not_mem_nil
  · have silent : receivedFrom s (ChatServer.start env stored).output.trace = [] :=
      start_received env stored
    intro message member
    exact absurd (silent ▸ member) List.not_mem_nil

section Steps

variable {joining joining' : Joining} {event : JoinEvent}

/-- A step of the network or the server, a look at the flags, or a call of the client. -/
theorem Joining.step_cases (h : Joining.step env s nickname publicKeyHex joining event =
    some joining') :
    (∃ exchange, event = .exchange exchange ∧ unasked exchange = true ∧
      Dialogue.step env s joining.dialogue exchange = some joining'.dialogue ∧
      joining'.stage = joining.stage) ∨
    (∃ act, event = .act act ∧ joinClientSession joining.dialogue.login.client nickname publicKeyHex
        joining.stage act = some (joining'.stage, none) ∧ joining'.dialogue = joining.dialogue) ∨
    ∃ act called, event = .act act ∧ joinClientSession joining.dialogue.login.client nickname
        publicKeyHex joining.stage act = some (joining'.stage, some called) ∧
      Dialogue.step env s joining.dialogue (.client called) = some joining'.dialogue := by
  cases event with
  | exchange exchange =>
      simp only [Joining.step, Option.ite_none_right_eq_some] at h
      obtain ⟨d, moved, rfl⟩ := Option.map_eq_some_iff.mp h.2
      exact .inl ⟨exchange, rfl, h.1, moved, rfl⟩
  | act act =>
      simp only [Joining.step] at h
      split at h
      · cases h
      · next stage looks =>
          obtain rfl := Option.some.inj h
          exact .inr (.inl ⟨act, rfl, looks, rfl⟩)
      · next stage called calls =>
          obtain ⟨d, moved, rfl⟩ := Option.map_eq_some_iff.mp h
          exact .inr (.inr ⟨act, called, rfl, calls, moved⟩)

theorem unasked_fits {event : LoginEvent} {client : ChatClient} (h : unasked exchange = true)
    (moves : exchange.Moves event) : Fits nickname publicKeyHex client event := by
  cases exchange with
  | client other =>
      obtain rfl : other = event := moves
      cases other with
      | readError message => trivial
      | _ => cases h
  | posted =>
      obtain rfl : event = .closed := moves
      trivial
  | writeFailed aborted message =>
      obtain rfl : event = .writeError aborted message := moves
      trivial
  | readDown =>
      obtain ⟨line, rfl⟩ := moves
      trivial
  | _ => exact moves.elim

end Steps

section Calls

variable {client : ChatClient} {stage stage' : JoinStage} {act : JoinAct}
variable {call : Option LoginEvent} {called : LoginEvent}

/-- Behind the password the client identifies itself, or that is the end. -/
theorem identifying_cases (h : identifying client nickname publicKeyHex = (stage', call)) :
    (client.authOk = true ∧ stage' = .checkingIdentity ∧
      call = some (.identify nickname publicKeyHex)) ∨
    ∃ error, stage' = .returned (some error) ∧ call = none := by
  unfold identifying at h
  cases ok : client.authOk with
  | false =>
      simp only [ok, Bool.not_false, if_true, Prod.mk.injEq] at h
      exact .inr ⟨_, h.1.symm, h.2.symm⟩
  | true =>
      simp only [ok, Bool.not_true, Bool.false_eq_true, if_false, Prod.mk.injEq] at h
      exact .inl ⟨rfl, h.1.symm, h.2.symm⟩

/-- What `join_client_session` does next: it prompts, sends what is typed, identifies itself, fails,
or returns what has come of the join. -/
theorem joinClientSession_cases (h : joinClientSession client nickname publicKeyHex stage act =
    some (stage', call)) :
    (stage' = .password ∧ call = none) ∨
    (∃ password, act = .typed password ∧ stage' = .checkingPassword ∧
      call = some (.send (.authenticate password))) ∨
    (client.authOk = true ∧ stage' = .checkingIdentity ∧
      call = some (.identify nickname publicKeyHex)) ∨
    (∃ error, stage' = .returned (some error) ∧ call = none) ∨
    (client.joinResolved = true ∧ stage' = .returned (joinError client) ∧ call = none) := by
  cases stage with
  | handshake =>
      cases act with
      | ready =>
          simp only [joinClientSession, Option.ite_none_right_eq_some] at h
          obtain ⟨-, h⟩ := h
          split at h
          · cases h
            exact .inl ⟨rfl, rfl⟩
          · obtain identifies | fails := identifying_cases (Option.some.inj h)
            · exact .inr (.inr (.inl identifies))
            · exact .inr (.inr (.inr (.inl fails)))
      | cancelled =>
          cases h
          exact .inr (.inr (.inr (.inl ⟨_, rfl, rfl⟩)))
      | typed password => cases h
  | password =>
      cases act with
      | typed password =>
          cases h
          exact .inr (.inl ⟨password, rfl, rfl, rfl⟩)
      | cancelled =>
          cases h
          exact .inr (.inr (.inr (.inl ⟨_, rfl, rfl⟩)))
      | ready => cases h
  | checkingPassword =>
      cases act with
      | ready =>
          simp only [joinClientSession, Option.ite_none_right_eq_some] at h
          obtain ⟨-, h⟩ := h
          split at h
          · cases h
            exact .inr (.inr (.inr (.inl ⟨_, rfl, rfl⟩)))
          · obtain identifies | fails := identifying_cases (Option.some.inj h)
            · exact .inr (.inr (.inl identifies))
            · exact .inr (.inr (.inr (.inl fails)))
      | cancelled =>
          cases h
          exact .inr (.inr (.inr (.inl ⟨_, rfl, rfl⟩)))
      | typed password => cases h
  | checkingIdentity =>
      cases act with
      | ready =>
          simp only [joinClientSession, Option.ite_none_right_eq_some, Option.some.injEq,
            Prod.mk.injEq] at h
          obtain ⟨resolved, ends, none⟩ := h
          exact .inr (.inr (.inr (.inr ⟨resolved, ends.symm, none.symm⟩)))
      | cancelled =>
          cases h
          exact .inr (.inr (.inr (.inl ⟨_, rfl, rfl⟩)))
      | typed password => cases h
  | returned error => cases act <;> cases h

/-- The two calls of the client. -/
theorem joinClientSession_calls (h : joinClientSession client nickname publicKeyHex stage act =
    some (stage', some called)) :
    (called = .identify nickname publicKeyHex ∧ client.authOk = true ∧
      stage' = .checkingIdentity) ∨
    ∃ password, act = .typed password ∧ called = .send (.authenticate password) ∧
      stage' = .checkingPassword := by
  obtain ⟨-, none⟩ | ⟨password, typed, next, call⟩ | ⟨ok, next, call⟩ | ⟨error, -, none⟩ |
    ⟨-, -, none⟩ := joinClientSession_cases h
  · cases none
  · exact .inr ⟨password, typed, Option.some.inj call, next⟩
  · exact .inl ⟨Option.some.inj call, ok, next⟩
  · cases none
  · cases none

/-- What else it does is to ask for the password or to return. -/
theorem joinClientSession_looks (h : joinClientSession client nickname publicKeyHex stage act =
    some (stage', none)) :
    stage' = .password ∨ ∃ error, stage' = .returned error ∧
      (error = none → client.joinResolved = true ∧ joinError client = none) := by
  obtain ⟨prompts, -⟩ | ⟨password, -, -, call⟩ | ⟨-, -, call⟩ | ⟨error, ends, -⟩ |
    ⟨resolved, ends, -⟩ := joinClientSession_cases h
  · exact .inl prompts
  · cases call
  · cases call
  · exact .inr ⟨some error, ends, fun none => by cases none⟩
  · exact .inr ⟨_, ends, fun none => ⟨resolved, none⟩⟩

end Calls

section Runs

variable {joining joining' : Joining} {event : JoinEvent} {events : List JoinEvent}

/-- No step of a login takes a JoinAccepted back, nor that the join is settled. -/
theorem login_joined {login login' : Login} {event : LoginEvent}
    (h : login.step event = some login') :
    (login.joinAccepted = true → login'.joinAccepted = true) ∧
      (login.client.joinResolved = true → login'.client.joinResolved = true) := by
  obtain ⟨-, rfl⟩ | ⟨accepted, joined, -, settles⟩ := Login.step_settles h
  · exact ⟨id, id⟩
  · refine ⟨fun before => ?_, settles.join⟩
    rw [joined, before, Bool.true_or]

theorem exchange_joined (h : Dialogue.step env s d exchange = some d') :
    (d.login.joinAccepted = true → d'.login.joinAccepted = true) ∧
      (d.login.client.joinResolved = true → d'.login.client.joinResolved = true) := by
  obtain ⟨same, -⟩ | ⟨event, -, -, moved, -⟩ := Dialogue.step_login h
  · rw [same]
    exact ⟨id, id⟩
  · exact login_joined moved

/-- A join without an error has been accepted. -/
theorem accepted_of_joinError {login : Login} (accounted : login.Accounted)
    (resolved : login.client.joinResolved = true) (none : joinError login.client = none) :
    login.joinAccepted = true := by
  unfold joinError at none
  obtain accepted | failed | banned | taken := accounted.join resolved
  · exact accepted
  · split at none
    · cases none
    · split at none
      · cases none
      · simp at none
  · rw [if_pos banned] at none
    cases none
  · split at none
    · cases none
    · simp at none

/-- Where `join_client_session` returns without an error, the join has been accepted. -/
def Returned (joining : Joining) : Prop :=
  joining.stage = .returned none → joining.dialogue.login.joinAccepted = true

theorem Underway.join_step (h : Underway env stored s nickname publicKeyHex sign joining.dialogue)
    (stepped : Joining.step env s nickname publicKeyHex joining event = some joining') :
    Underway env stored s nickname publicKeyHex sign joining'.dialogue := by
  obtain ⟨exchange, -, unasked, moved, -⟩ | ⟨act, -, -, same⟩ | ⟨act, called, -, calls, moved⟩ :=
    Joining.step_cases stepped
  · exact h.step (fun event moves => unasked_fits unasked moves) moved
  · rw [same]
    exact h
  · refine h.step (fun event moves => ?_) moved
    obtain rfl : called = event := moves
    obtain ⟨rfl, ok, -⟩ | ⟨password, -, rfl, -⟩ := joinClientSession_calls calls
    · exact ⟨rfl, rfl, ok⟩
    · exact ⟨password, rfl⟩

theorem Returned.step (h : Returned joining)
    (underway : Underway env stored s nickname publicKeyHex sign joining.dialogue)
    (stepped : Joining.step env s nickname publicKeyHex joining event = some joining') :
    Returned joining' := by
  intro returned
  obtain ⟨exchange, -, -, moved, stage⟩ | ⟨act, -, looks, same⟩ | ⟨act, called, -, calls, -⟩ :=
    Joining.step_cases stepped
  · exact (exchange_joined moved).1 (h (stage.symm.trans returned))
  · rw [same]
    obtain asks | ⟨error, ends, settled⟩ := joinClientSession_looks looks
    · exact absurd (asks.symm.trans returned) (by simp)
    · have none : error = none := JoinStage.returned.inj (ends.symm.trans returned)
      obtain ⟨resolved, quiet⟩ := settled none
      exact accepted_of_joinError underway.applicant.accounted resolved quiet
  · obtain ⟨-, -, waits⟩ | ⟨password, -, -, waits⟩ := joinClientSession_calls calls
    · exact absurd (waits.symm.trans returned) (by simp)
    · exact absurd (waits.symm.trans returned) (by simp)

theorem run_underway (h : Run.run (Joining.step env s nickname publicKeyHex)
    (Joining.start env stored sign) events = some joining) :
    Underway env stored s nickname publicKeyHex sign joining.dialogue ∧ Returned joining := by
  have keeps (a : Joining) (event : JoinEvent) (b : Joining)
      (held : Underway env stored s nickname publicKeyHex sign a.dialogue ∧ Returned a)
      (stepped : Joining.step env s nickname publicKeyHex a event = some b) :
      Underway env stored s nickname publicKeyHex sign b.dialogue ∧ Returned b :=
    ⟨held.1.join_step stepped, held.2.step held.1 stepped⟩
  refine Run.run_invariant keeps h ⟨underway_start env stored s nickname publicKeyHex sign, ?_⟩
  intro returned
  cases returned

/-- What the session has received as an IDENTIFY is the one that was asked for. -/
theorem Underway.identify (h : Underway env stored s nickname publicKeyHex sign d)
    {nick key : Bytes} (received : .received s (.identify nick key) ∈ d.server.output.trace) :
    nick = nickname ∧ key = publicKeyHex := by
  have sent := (Dialogue.received_sent h.flows).subset
    (List.mem_map_of_mem (f := Except.ok) (mem_receivedFrom received))
  obtain ⟨hello, rest, frames, greets, behind⟩ := h.applicant.asked
  obtain ⟨frame, member, decodes⟩ := List.mem_map.mp sent
  rw [frames] at member
  obtain first | later := List.mem_cons.mp member
  · rw [first, greets] at decodes
    cases decodes
  · obtain ⟨message, decodes', asks⟩ := behind frame later
    obtain rfl := Except.ok.inj (decodes'.symm.trans decodes)
    exact ⟨asks.1, asks.2.1⟩

section Scripts

/-- A guest that joins a server without a password. -/
def joinScript : List JoinEvent :=
  Dialogue.greeting.map .exchange ++ [.act .ready] ++
    (Dialogue.carryUp 105 ++ Dialogue.carryDown 7 101 ++ Dialogue.carryUp 181 ++
      [41, 13, 45, 53, 17, 21].flatMap (Dialogue.carryDown 7)).map .exchange

def joiningAfter (events : List JoinEvent) : Option Joining :=
  Run.run (Joining.step .plain 7 (ascii "ann") (List.replicate 64 48))
    (Joining.start .plain emptyStore fun _ => List.replicate 128 48) events

theorem exists_joiningAfter (events : List JoinEvent) (p : Joining → Prop) [DecidablePred p]
    (h : (joiningAfter events).any (fun joining => p joining) = true) :
    ∃ joining, joiningAfter events = some joining ∧ p joining := by
  obtain ⟨joining, run, holds⟩ := (Option.any_eq_true _ _).mp h
  exact ⟨joining, run, by simpa using holds⟩

end Scripts

/-- `join_client_session` returns without an error only when the server has given the session the
nickname, which is bound to the client's key, for a proof of that key. -/
theorem run_joined (h : Run.run (Joining.step env s nickname publicKeyHex)
    (Joining.start env stored sign) events = some joining)
    (returned : joining.stage = .returned none) :
    let server := joining.dialogue.server
    (server.tables.session s).nickname = nickname ∧
      server.tables.identities[nickname]? = some publicKeyHex ∧
      Presented env server.output.trace s nickname publicKeyHex := by
  obtain ⟨underway, returns⟩ := run_underway h
  have reachable := underway.flows.server
  have heard := underway.applicant.accepted (returns returned)
  have told : .deliver s .joinAccepted ∈ joining.dialogue.server.output.trace :=
    underway.flows.heard_login trivial heard
  have named := (reachable_granted reachable s).joined told
  obtain ⟨key, bound, presented⟩ := (reachable_credited reachable).presented s named
  obtain ⟨challenge, signatureHex, before, after, trace, ⟨first, rest, placed, -⟩, verified⟩ :=
    id presented
  have received : .received s (.identify
      (joining.dialogue.server.tables.session s).nickname key) ∈
        joining.dialogue.server.output.trace := by
    rw [trace, placed]
    simp
  obtain ⟨same, own⟩ := underway.identify received
  rw [own] at bound presented
  rw [same] at bound presented
  exact ⟨same, bound, presented⟩

theorem run_joined_ann : ∃ joining, joiningAfter (joinScript ++ [.act .ready]) = some joining ∧
    (joining.dialogue.server.tables.session 7).nickname = ascii "ann" := by
  obtain ⟨joining, run, returned⟩ := exists_joiningAfter (joinScript ++ [.act .ready])
    (fun joining => joining.stage = .returned none) (by decide +kernel)
  exact ⟨joining, run, (run_joined run returned).1⟩

/-- The client has sent a frame of the kind. -/
def HasSent (kind : ClientMessage → Prop) (client : ChatClient) : Prop :=
  ∃ frame ∈ client.sent, ∃ message, decodeClientFrame frame = .ok message ∧ kind message

theorem HasSent.sending {kind : ClientMessage → Prop} {a b : ChatClient} (h : HasSent kind a)
    (sending : Sending a b) : HasSent kind b := by
  obtain ⟨frame, member, rest⟩ := h
  obtain ⟨new, grown, -⟩ := sending.grows
  exact ⟨frame, by rw [grown]; exact List.mem_append_left new member, rest⟩

theorem hasSent_send {kind : ClientMessage → Prop} {client : ChatClient} {message : ClientMessage}
    (active : client.active = true) (encodes : ∃ frame, encodeClientFrame message = .ok frame)
    (read : ¬ MisreadTarget message) (holds : kind message) :
    HasSent kind (client.send message) := by
  obtain ⟨frame, encoded⟩ := encodes
  refine ⟨frame, ?_, message, decodes_of_encodes encoded read, holds⟩
  rw [ChatClient.send_frame active encoded]
  simp

def IsPassword (message : ClientMessage) : Prop := ∃ password, message = .authenticate password

def IsIdentify (message : ClientMessage) : Prop := ∃ nick key, message = .identify nick key

def IsProof (message : ClientMessage) : Prop :=
  ∃ signatureHex, message = .identityProof signatureHex

/-- What is waited for has been asked, and a challenge is answered, while the client is active. -/
structure Pending (joining : Joining) : Prop where
  challenged : joining.dialogue.login.client.active = true →
    (∃ challenge, .challenge challenge ∈ readLines joining.dialogue.heard) →
      joining.dialogue.login.client.joinResolved = true ∨
        HasSent IsProof joining.dialogue.login.client
  password : joining.dialogue.login.client.active = true → joining.stage = .checkingPassword →
    HasSent IsPassword joining.dialogue.login.client
  identify : joining.dialogue.login.client.active = true → joining.stage = .checkingIdentity →
    HasSent IsIdentify joining.dialogue.login.client

theorem active_before {a b : ChatClient} (h : Sending a b) (active : b.active = true) :
    a.active = true := by
  cases idle : a.active with
  | true => rfl
  | false => exact absurd ((h.quiet idle).1.symm.trans active) (by simp)

theorem exchange_sending (h : Dialogue.step env s d exchange = some d') :
    Sending d.login.client d'.login.client := by
  obtain ⟨same, -⟩ | ⟨event, -, later, moved, -⟩ := Dialogue.step_login h
  · rw [same]
    exact Sending.refl _
  · exact Login.step_sending later moved

theorem exchange_send {message : ClientMessage}
    (h : Dialogue.step env s d (.client (.send message)) = some d') :
    d'.login.client = d.login.client.send message := by
  have sent : d.onLogin (.send message) = some d' := h
  obtain ⟨login, advanced, rfl⟩ := Option.map_eq_some_iff.mp sent
  obtain rfl := Option.some.inj advanced
  rfl

theorem exchange_identify {nick key : Bytes} (own : d.login.client.identity = some sign)
    (h : Dialogue.step env s d (.client (.identify nick key)) = some d') :
    d'.login.client = d.login.client.send (.identify nick key) := by
  have identified : d.onLogin (.identify nick key) = some d' := h
  obtain ⟨login, advanced, rfl⟩ := Option.map_eq_some_iff.mp identified
  obtain rfl := Option.some.inj advanced
  simp [ChatClient.identify, own]

/-- A challenge that is read is answered. -/
theorem exchange_challenged (signs : ∀ challenge, isHex (sign challenge) 128 = true)
    (own : d.login.client.identity = some sign)
    (h : Dialogue.step env s d exchange = some d') (active : d'.login.client.active = true)
    (before : (∃ challenge, .challenge challenge ∈ readLines d.heard) →
      d.login.client.joinResolved = true ∨ HasSent IsProof d.login.client)
    (told : ∃ challenge, .challenge challenge ∈ readLines d'.heard) :
    d'.login.client.joinResolved = true ∨ HasSent IsProof d'.login.client := by
  have sending := exchange_sending h
  have kept (told : ∃ challenge, .challenge challenge ∈ readLines d.heard) :
      d'.login.client.joinResolved = true ∨ HasSent IsProof d'.login.client :=
    (before told).imp (exchange_joined h).2 fun sent => sent.sending sending
  obtain ⟨challenge, member⟩ := told
  obtain ⟨-, heard⟩ | ⟨event, -, -, moved, heard⟩ := Dialogue.step_login h
  · exact kept ⟨challenge, heard ▸ member⟩
  · rw [heard, readLines, List.filterMap_append] at member
    obtain old | fresh := List.mem_append.mp member
    · exact kept ⟨challenge, old⟩
    · cases event with
      | line line =>
          simp only [Login.step, Option.ite_none_right_eq_some, Option.some.injEq] at moved
          obtain ⟨reading, same⟩ := moved
          have decodes : decodeServerFrame line = .ok (.challenge challenge) := by
            cases decodes : decodeServerFrame line with
            | error e => simp [LoginEvent.lines, decodes, Except.toOption] at fresh
            | ok message =>
                obtain rfl : message = .challenge challenge := by
                  simpa [LoginEvent.lines, decodes, Except.toOption, eq_comm] using fresh
                rfl
          obtain ⟨frame, encodes⟩ := identityProof_encodes (signs challenge)
          have answers := ChatClient.receiveLine_challenge own reading
            (active_before sending active) decodes encodes
          rw [← same]
          refine answers.imp id fun sent => ?_
          exact ⟨frame, sent, _, decodes_of_encodes encodes id, _, rfl⟩
      | _ => exact absurd fresh List.not_mem_nil

/-- What the form for the password hands over. -/
def Typable : JoinEvent → Prop
  | .act (.typed password) => password.length ≤ 63 ∧ ∀ c ∈ password, isCntrl c = false
  | _ => True

theorem Pending.step (h : Pending joining)
    (underway : Underway env stored s nickname publicKeyHex sign joining.dialogue)
    (valid : isValidNickname nickname = true) (key : isHex publicKeyHex 64 = true)
    (signs : ∀ challenge, isHex (sign challenge) 128 = true) (typable : Typable event)
    (stepped : Joining.step env s nickname publicKeyHex joining event = some joining') :
    Pending joining' := by
  have own := underway.applicant.identity
  obtain ⟨exchange, -, -, moved, stage⟩ | ⟨act, -, looks, same⟩ |
    ⟨act, called, rfl, calls, moved⟩ := Joining.step_cases stepped
  · have sending := exchange_sending moved
    refine ⟨fun active told => ?_, fun active asks => ?_, fun active asks => ?_⟩
    · have before := h.challenged (active_before sending active)
      exact exchange_challenged signs own moved active before told
    · exact (h.password (active_before sending active) (stage.symm.trans asks)).sending sending
    · exact (h.identify (active_before sending active) (stage.symm.trans asks)).sending sending
  · refine ⟨same ▸ h.challenged, fun _ asks => ?_, fun _ asks => ?_⟩
    · obtain prompts | ⟨error, ends, -⟩ := joinClientSession_looks looks
      · exact absurd (prompts.symm.trans asks) (by simp)
      · exact absurd (ends.symm.trans asks) (by simp)
    · obtain prompts | ⟨error, ends, -⟩ := joinClientSession_looks looks
      · exact absurd (prompts.symm.trans asks) (by simp)
      · exact absurd (ends.symm.trans asks) (by simp)
  · have sending := exchange_sending moved
    have challenged : joining'.dialogue.login.client.active = true →
        (∃ challenge, .challenge challenge ∈ readLines joining'.dialogue.heard) →
          joining'.dialogue.login.client.joinResolved = true ∨
            HasSent IsProof joining'.dialogue.login.client := fun active told =>
      exchange_challenged signs own moved active (h.challenged (active_before sending active)) told
    obtain ⟨rfl, -, waits⟩ | ⟨password, rfl, rfl, waits⟩ := joinClientSession_calls calls
    · have other : joining'.stage ≠ .checkingPassword := by simp [waits]
      refine ⟨challenged, fun _ asks => absurd asks other, fun active _ => ?_⟩
      rw [exchange_identify own moved]
      exact hasSent_send (active_before sending active) (identify_encodes valid key) id ⟨_, _, rfl⟩
    · have other : joining'.stage ≠ .checkingIdentity := by simp [waits]
      refine ⟨challenged, fun active _ => ?_, fun _ asks => absurd asks other⟩
      rw [exchange_send moved]
      exact hasSent_send (active_before sending active)
        (authenticate_encodes typable.1 typable.2) id ⟨_, rfl⟩

theorem run_pending (valid : isValidNickname nickname = true) (key : isHex publicKeyHex 64 = true)
    (signs : ∀ challenge, isHex (sign challenge) 128 = true)
    (typable : ∀ event ∈ events, Typable event)
    (h : Run.run (Joining.step env s nickname publicKeyHex) (Joining.start env stored sign) events =
      some joining) : Pending joining := by
  induction events using List.reverseRecOn generalizing joining with
  | nil =>
      obtain rfl := Option.some.inj h
      refine ⟨fun _ told => ?_, (fun _ asks => by cases asks), fun _ asks => by cases asks⟩
      obtain ⟨challenge, member⟩ := told
      exact absurd member List.not_mem_nil
  | append_singleton events event ih =>
      obtain ⟨before, run, stepped⟩ := Run.run_snoc.mp h
      have pending := ih (fun event member => typable event (List.mem_append_left _ member)) run
      exact pending.step (run_underway run).1 valid key signs (typable event (by simp)) stepped

/-- What a client that is active has sent is answered, and the answer is read, when nothing is on
the way any more. -/
theorem Underway.answer (h : Underway env stored s nickname publicKeyHex sign d)
    (rest : Dialogue.AtRest s d) (active : d.login.client.active = true)
    {kind : ClientMessage → Prop} (sent : HasSent kind d.login.client) :
    ∃ message, kind message ∧ ∃ answer ∈ readLines d.heard, Answers message answer := by
  obtain ⟨frame, member, message, decodes, holds⟩ := sent
  have all := h.flows.received_all rest active
  have received : decodeClientFrame frame ∈
      (receivedFrom s d.server.output.trace).map Except.ok := by
    rw [all]
    exact List.mem_map_of_mem member
  obtain ⟨message', known, same⟩ := List.mem_map.mp received
  obtain rfl := Except.ok.inj (same.trans decodes)
  exact ⟨message', holds, h.flows.heard_told rest (h.answered message' known)⟩

/-- While the connection is up nobody waits for nothing: whenever nothing is on the way between the
client and its session, `join_client_session` asks for the password, has returned, or the flag that
it waits for is set. -/
theorem run_waits (valid : isValidNickname nickname = true) (key : isHex publicKeyHex 64 = true)
    (signs : ∀ challenge, isHex (sign challenge) 128 = true)
    (typable : ∀ event ∈ events, Typable event)
    (h : Run.run (Joining.step env s nickname publicKeyHex) (Joining.start env stored sign) events =
      some joining)
    (rest : Dialogue.AtRest s joining.dialogue)
    (active : joining.dialogue.login.client.active = true) :
    joining.stage = .password ∨ (∃ error, joining.stage = .returned error) ∨
      joining.stage.ready joining.dialogue.login.client = true := by
  obtain ⟨underway, -⟩ := run_underway h
  have pending := run_pending valid key signs typable h
  have learned := underway.applicant.learned
  have settled {answer : ServerMessage} (member : answer ∈ readLines joining.dialogue.heard)
      (settles : SettlesJoin answer) : joining.dialogue.login.client.joinResolved = true :=
    learned.settled ⟨answer, member, settles⟩
  cases stage : joining.stage with
  | handshake =>
      obtain ⟨hello, others, frames, greets, -⟩ := underway.applicant.asked
      have greeted : HasSent (fun message => message = .hello VERSION)
          joining.dialogue.login.client :=
        ⟨hello, by rw [frames]; exact List.mem_cons_self, _, greets, rfl⟩
      obtain ⟨message, rfl, answer, member, answers⟩ := underway.answer rest active greeted
      refine .inr (.inr ?_)
      simp only [JoinStage.ready, Bool.or_eq_true]
      obtain rfl | rfl := answers
      · exact learned.required member
      · exact .inr (learned.resolved (.inl member))
  | password => exact .inl rfl
  | checkingPassword =>
      obtain ⟨message, ⟨password, rfl⟩, answer, member, answers⟩ :=
        underway.answer rest active (pending.password active stage)
      refine .inr (.inr (learned.resolved ?_))
      obtain rfl | rfl := answers
      · exact .inl member
      · exact .inr member
  | checkingIdentity =>
      refine .inr (.inr ?_)
      obtain ⟨message, ⟨nick, publicKey, rfl⟩, answer, member, answers⟩ :=
        underway.answer rest active (pending.identify active stage)
      obtain ⟨challenge, rfl⟩ | settles := answers
      · obtain resolved | proved := pending.challenged active ⟨challenge, member⟩
        · exact resolved
        · obtain ⟨message, ⟨signatureHex, rfl⟩, answer, member, settles⟩ :=
            underway.answer rest active proved
          exact settled member settles
      · exact settled member settles
  | returned error => exact .inr (.inl ⟨error, rfl⟩)

theorem joinScript_typable : ∀ event ∈ joinScript, Typable event := by
  intro event member
  simp only [joinScript, List.mem_append, List.mem_map, List.mem_singleton] at member
  obtain (⟨exchange, -, rfl⟩ | rfl) | ⟨exchange, -, rfl⟩ := member
  · trivial
  · trivial
  · trivial

theorem run_waits_ann : ∃ joining, joiningAfter joinScript = some joining ∧
    joining.stage = .checkingIdentity ∧
    joining.stage.ready joining.dialogue.login.client = true := by
  obtain ⟨joining, run, stage, rest, active⟩ := exists_joiningAfter joinScript
    (fun joining => joining.stage = .checkingIdentity ∧ Dialogue.AtRest 7 joining.dialogue ∧
      joining.dialogue.login.client.active = true) (by decide +kernel)
  refine ⟨joining, run, stage, ?_⟩
  obtain password | ⟨error, returned⟩ | ready := run_waits (by decide) (by decide)
    (fun _ => by decide) joinScript_typable run rest active
  · exact absurd (stage.symm.trans password) (by simp)
  · exact absurd (stage.symm.trans returned) (by simp)
  · exact ready

end Runs

end Underway
end Chatbox.App
