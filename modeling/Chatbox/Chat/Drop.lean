import Chatbox.Chat.Client
import Chatbox.Lib.Run

/-!
A client that loses its connection. The read error settles the whole login while the
authentication is open; after it, whoever waits for the join is left waiting, unless
the join has been settled by a frame before.
-/

namespace Chatbox.Chat

open Text Protocol

namespace ChatClient

variable (client : ChatClient)

/-- `read_loop` with an error. -/
def readError : ChatClient :=
  let client := { client with connected := false, reading := false }
  let client :=
    if !client.closing && !client.authResolved then
      { client with authOk := false, authResolved := true }.failJoin
        (ascii "Connection closed during protocol handshake")
    else client
  if !client.closing && !client.kicked && !client.banned && client.authOk then
    client.pushMessage (ascii "[system] disconnected")
  else client

/-- `write_next` with an error. -/
def writeError (aborted : Bool) (message : Bytes) : ChatClient :=
  let client := { client with connected := false }
  if !aborted && !client.closing then
    client.pushMessage (ascii "[system] Send failed: " ++ message ++
      ascii ". Delivery may be uncertain.")
  else client

def identify (nick publicKeyHex : Bytes) : ChatClient :=
  if client.identity.isNone then client.failJoin (ascii "No local identity key loaded")
  else client.send (.identify nick publicKeyHex)

def requestRooms : ChatClient := { client with roomListRequested := true }.send .listRooms

/-- The line is a JoinAccepted, and it is processed. -/
def accepts (line : Bytes) : Bool :=
  client.reading && client.protocolNegotiated &&
    match decodeServerFrame line with
    | .ok .joinAccepted => true
    | _ => false

end ChatClient

/-- What can happen to a client with a connection. -/
inductive LoginEvent where
  | connected
  | line (line : Bytes)
  | readError (message : Bytes)
  | writeError (aborted : Bool) (message : Bytes)
  | setIdentity (sign : Bytes → Bytes)
  | identify (nick publicKeyHex : Bytes)
  | send (message : ClientMessage)
  | requestRooms
  | close
  /-- The handler that `close` posts. -/
  | closed

/-- A client with its past: whether a JoinAccepted has been processed, whether the user
has closed it, and whether a read error was handled before that. -/
structure Login where
  client : ChatClient := { connected := false, reading := false }
  disconnectReason : Bytes := []
  joinAccepted : Bool := false
  userClosed : Bool := false
  dropped : Bool := false

namespace Login

variable (login : Login)

/-- A read ends only while `read_loop` has armed one, and it arms one at a time. -/
def step (login : Login) : LoginEvent → Option Login
  | .connected =>
      if login.client.reading then none
      else some { login with client := { login.client.finishConnect with reading := true } }
  | .line line =>
      if login.client.reading then
        some { login with
          client := login.client.receiveLine line
          joinAccepted := login.joinAccepted || login.client.accepts line }
      else none
  | .readError message =>
      if login.client.reading then
        some { login with
          client := login.client.readError
          disconnectReason := message
          dropped := login.dropped || !login.userClosed }
      else none
  | .writeError aborted message =>
      some { login with
        client := login.client.writeError aborted message
        disconnectReason := message }
  | .setIdentity sign => some { login with client := { login.client with identity := some sign } }
  | .identify nick publicKeyHex =>
      some { login with client := login.client.identify nick publicKeyHex }
  | .send message => some { login with client := login.client.send message }
  | .requestRooms => some { login with client := login.client.requestRooms }
  | .close => some { login with client := { login.client with closing := true }, userClosed := true }
  | .closed =>
      if login.client.closing then
        some { login with client := { login.client with connected := false } }
      else none

/-- Nobody has to wait any longer, and what came of the login is recorded. -/
def Resolved (login : Login) : Prop :=
  login.client.authResolved = true ∧ login.client.joinResolved = true ∧
    (login.joinAccepted = true ∨ login.client.joinFailed = true ∨ login.client.banned = true ∨
      login.client.nicknameTaken = true ∨ login.client.authOk = false)

/-- The authentication is open, or the join is settled already. -/
def Covered (login : Login) : Prop :=
  login.client.authResolved = false ∨ login.client.joinResolved = true

/-- A read error is handled where the error path covers it. -/
def Timely (login : Login) : LoginEvent → Prop
  | .readError _ => login.userClosed = false → login.Covered
  | _ => True

end Login

namespace ChatClient

/-- What becomes of the flags that a login waits for: none is taken back, the join is
settled with a reason, and the client closes by itself only when it is. -/
structure Settles (accepted : Bool) (a b : ChatClient) : Prop where
  auth : a.authResolved = true → b.authResolved = true
  join : a.joinResolved = true → b.joinResolved = true
  failed : a.joinFailed = true → b.joinFailed = true
  banned : a.banned = true → b.banned = true
  taken : a.nicknameTaken = true → b.nicknameTaken = true
  accounted : b.joinResolved = true → a.joinResolved = true ∨ accepted = true ∨
    b.joinFailed = true ∨ b.banned = true ∨ b.nicknameTaken = true
  closing : b.closing = true → a.closing = true ∨
    b.authResolved = true ∧ b.joinResolved = true ∧ b.joinFailed = true

namespace Settles

variable {accepted : Bool} {a b c : ChatClient}

theorem trans (hab : Settles accepted a b) (hbc : Settles accepted b c) : Settles accepted a c where
  auth h := hbc.auth (hab.auth h)
  join h := hbc.join (hab.join h)
  failed h := hbc.failed (hab.failed h)
  banned h := hbc.banned (hab.banned h)
  taken h := hbc.taken (hab.taken h)
  accounted h := by
    obtain joined | rest := hbc.accounted h
    · obtain before | passed | failed | banned | taken := hab.accounted joined
      · exact .inl before
      · exact .inr (.inl passed)
      · exact .inr (.inr (.inl (hbc.failed failed)))
      · exact .inr (.inr (.inr (.inl (hbc.banned banned))))
      · exact .inr (.inr (.inr (.inr (hbc.taken taken))))
    · exact .inr rest
  closing h := by
    obtain closing | rest := hbc.closing h
    · obtain before | ⟨auth, join, failed⟩ := hab.closing closing
      · exact .inl before
      · exact .inr ⟨hbc.auth auth, hbc.join join, hbc.failed failed⟩
    · exact .inr rest

/-- A client that gives the login up has settled all of it. -/
theorem of_settled (auth : b.authResolved = true) (join : b.joinResolved = true)
    (failed : b.joinFailed = true) (banned : b.banned = a.banned)
    (taken : b.nicknameTaken = a.nicknameTaken) : Settles accepted a b :=
  ⟨fun _ => auth, fun _ => join, fun _ => failed, banned.trans, taken.trans,
    fun _ => .inr (.inr (.inl failed)), fun _ => .inr ⟨auth, join, failed⟩⟩

theorem ite {p : Prop} [Decidable p] (hb : Settles accepted a b) (hc : Settles accepted a c) :
    Settles accepted a (if p then b else c) := by
  split
  · exact hb
  · exact hc

end Settles

variable {accepted : Bool} {client : ChatClient}

theorem settles_refl (accepted : Bool) (client : ChatClient) : Settles accepted client client :=
  ⟨id, id, id, id, id, .inl, .inl⟩

theorem pushMessage_settles (msg : Bytes) : Settles accepted client (client.pushMessage msg) :=
  ⟨id, id, id, id, id, .inl, .inl⟩

theorem send_settles (message : ClientMessage) : Settles accepted client (client.send message) := by
  unfold send
  refine .ite (settles_refl _ _) ?_
  cases encodeClientFrame message with
  | error e => exact pushMessage_settles _
  | ok wire => exact ⟨id, id, id, id, id, .inl, .inl⟩

theorem requestRooms_settles : Settles accepted client client.requestRooms := by
  rw [requestRooms]
  refine Settles.trans ?_ (send_settles .listRooms)
  exact ⟨id, id, id, id, id, .inl, .inl⟩

theorem finishConnect_settles :
    Settles accepted client { client.finishConnect with reading := true } := by
  have sent : Settles accepted client client.finishConnect := by
    rw [finishConnect]
    refine Settles.trans ?_ (send_settles (.hello VERSION))
    exact ⟨id, id, id, id, id, .inl, .inl⟩
  exact ⟨sent.auth, sent.join, sent.failed, sent.banned, sent.taken, sent.accounted, sent.closing⟩

theorem failJoin_settles (reason : Bytes) : Settles accepted client (client.failJoin reason) :=
  ⟨id, fun _ => rfl, fun _ => rfl, id, id, fun _ => .inr (.inr (.inl rfl)), .inl⟩

theorem showRooms_settles (rooms : List RoomSummary) :
    Settles accepted client (client.showRooms rooms) :=
  showRooms_related (settles_refl accepted) (fun _ _ _ hab hbc => hab.trans hbc)
    (fun _ msg => pushMessage_settles msg) client rooms

theorem onNegotiated_settles (message : ServerMessage) :
    Settles (message matches .joinAccepted) client (client.onNegotiated message) := by
  cases message with
  | authAccepted | authRejected => exact ⟨fun _ => rfl, id, id, id, id, .inl, .inl⟩
  | joinAccepted => exact ⟨id, fun _ => rfl, id, id, id, fun _ => .inr (.inl rfl), .inl⟩
  | challenge challengeHex =>
      simp only [onNegotiated]
      split
      · exact send_settles _
      · exact failJoin_settles _
  | banned =>
      exact ⟨id, fun _ => rfl, id, fun _ => rfl, id, fun _ => .inr (.inr (.inr (.inl rfl))), .inl⟩
  | nicknameTaken =>
      exact ⟨id, fun _ => rfl, id, id, fun _ => rfl, fun _ => .inr (.inr (.inr (.inr rfl))), .inl⟩
  | joinRejected reason => exact (failJoin_settles reason).trans (pushMessage_settles _)
  | roomList rooms =>
      refine .ite ?_ ⟨id, id, id, id, id, .inl, .inl⟩
      refine Settles.trans ?_ (showRooms_settles rooms)
      exact ⟨id, id, id, id, id, .inl, .inl⟩
  | roomTopic roomId topic =>
      refine .ite ?_ ⟨id, id, id, id, id, .inl, .inl⟩
      exact ⟨id, id, id, id, id, .inl, .inl⟩
  | roomText roomId body => exact .ite (pushMessage_settles _) (settles_refl _ _)
  | _ => exact ⟨id, id, id, id, id, .inl, .inl⟩

theorem onUnnegotiated_settles : Settles accepted client client.onUnnegotiated :=
  .of_settled rfl rfl rfl rfl rfl

/-- The message is processed behind the handshake, or it is no JoinAccepted. -/
theorem receive_settles (reading : client.reading = true) (message : ServerMessage) :
    Settles (client.protocolNegotiated && message matches .joinAccepted) client
      (client.receive message) := by
  cases negotiated : client.protocolNegotiated with
  | true =>
      have branch : client.receive message = client.onNegotiated message := by
        cases message <;> simp [receive, reading, negotiated]
      rw [branch, Bool.true_and]
      exact onNegotiated_settles message
  | false =>
      rw [Bool.false_and]
      cases message with
      | hello version =>
          have branch : client.receive (.hello version) = client.onNegotiated (.hello version) := by
            simp [receive, reading]
          rw [branch]
          exact onNegotiated_settles (.hello version)
      | _ =>
          simp only [receive, reading, negotiated, Bool.not_true, Bool.not_false, if_true,
            Bool.false_eq_true, if_false]
          exact onUnnegotiated_settles

theorem receiveLine_settles (line : Bytes) :
    Settles (client.accepts line) client (client.receiveLine line) := by
  cases reading : client.reading with
  | false =>
      have branch : client.receiveLine line = client := by simp [receiveLine, reading]
      rw [branch]
      exact settles_refl _ _
  | true =>
      simp only [receiveLine, accepts, reading, Bool.not_true, Bool.false_eq_true, if_false,
        Bool.true_and]
      cases decodeServerFrame line with
      | ok message =>
          have settles := receive_settles reading message
          cases message <;> exact settles
      | error e =>
          refine (pushMessage_settles _).trans (.ite ?_ (settles_refl _ _))
          exact .of_settled rfl rfl rfl rfl rfl

/-- The part of the error path that decides the login. -/
theorem readError_flags (client : ChatClient) :
    client.readError.authResolved = (client.authResolved || !client.closing) ∧
      client.readError.joinResolved =
        (client.joinResolved || !client.closing && !client.authResolved) ∧
      client.readError.joinFailed =
        (client.joinFailed || !client.closing && !client.authResolved) ∧
      client.readError.banned = client.banned ∧
      client.readError.nicknameTaken = client.nicknameTaken ∧
      client.readError.closing = client.closing := by
  unfold readError
  cases client.closing <;> cases client.authResolved <;>
    simp [failJoin, apply_ite, pushMessage]

theorem readError_settles : Settles accepted client client.readError := by
  obtain ⟨auth, join, failed, banned, taken, closing⟩ := readError_flags client
  refine ⟨?_, ?_, ?_, banned.trans, taken.trans, ?_, fun closed => .inl (closing.symm.trans closed)⟩
  · intro resolved
    simp [auth, resolved]
  · intro resolved
    simp [join, resolved]
  · intro failure
    simp [failed, failure]
  · intro joined
    rw [join, Bool.or_eq_true] at joined
    obtain before | settled := joined
    · exact .inl before
    · exact .inr (.inr (.inl (by simp [failed, settled])))

end ChatClient

namespace Login

section Steps

variable {login login' : Login} {event : LoginEvent}

/-- Why the join is settled, and that a client that has closed by itself has settled all. -/
structure Accounted (login : Login) : Prop where
  join : login.client.joinResolved = true → login.joinAccepted = true ∨
    login.client.joinFailed = true ∨ login.client.banned = true ∨
      login.client.nicknameTaken = true
  closing : login.client.closing = true → login.userClosed = true ∨
    login.client.authResolved = true ∧ login.client.joinResolved = true

/-- The user closes the client, or the step settles what it settles. -/
theorem step_settles (h : step login event = some login') :
    (event = .close ∧
      login' = { login with client := { login.client with closing := true }, userClosed := true }) ∨
    ∃ accepted, login'.joinAccepted = (login.joinAccepted || accepted) ∧
      login'.userClosed = login.userClosed ∧
      ChatClient.Settles accepted login.client login'.client := by
  have quiet {login' : Login} (accepted : login'.joinAccepted = login.joinAccepted)
      (closed : login'.userClosed = login.userClosed)
      (settles : ChatClient.Settles false login.client login'.client) :
      ∃ accepted, login'.joinAccepted = (login.joinAccepted || accepted) ∧
        login'.userClosed = login.userClosed ∧
        ChatClient.Settles accepted login.client login'.client :=
    ⟨false, by rw [accepted, Bool.or_false], closed, settles⟩
  cases event with
  | close => exact .inl ⟨rfl, (Option.some.inj h).symm⟩
  | connected =>
      simp only [step, Option.ite_none_left_eq_some] at h
      obtain ⟨-, h⟩ := h
      obtain rfl := Option.some.inj h
      exact .inr (quiet rfl rfl ChatClient.finishConnect_settles)
  | line line =>
      simp only [step, Option.ite_none_right_eq_some] at h
      obtain ⟨-, h⟩ := h
      obtain rfl := Option.some.inj h
      exact .inr ⟨_, rfl, rfl, ChatClient.receiveLine_settles line⟩
  | readError message =>
      simp only [step, Option.ite_none_right_eq_some] at h
      obtain ⟨-, h⟩ := h
      obtain rfl := Option.some.inj h
      exact .inr (quiet rfl rfl ChatClient.readError_settles)
  | writeError aborted message =>
      obtain rfl := Option.some.inj h
      refine .inr (quiet rfl rfl ?_)
      exact .ite ⟨id, id, id, id, id, .inl, .inl⟩ ⟨id, id, id, id, id, .inl, .inl⟩
  | setIdentity sign =>
      obtain rfl := Option.some.inj h
      exact .inr (quiet rfl rfl ⟨id, id, id, id, id, .inl, .inl⟩)
  | identify nick publicKeyHex =>
      obtain rfl := Option.some.inj h
      refine .inr (quiet rfl rfl ?_)
      exact .ite (ChatClient.failJoin_settles _) (ChatClient.send_settles _)
  | send message =>
      obtain rfl := Option.some.inj h
      exact .inr (quiet rfl rfl (ChatClient.send_settles message))
  | requestRooms =>
      obtain rfl := Option.some.inj h
      exact .inr (quiet rfl rfl ChatClient.requestRooms_settles)
  | closed =>
      simp only [step, Option.ite_none_right_eq_some] at h
      obtain ⟨-, h⟩ := h
      obtain rfl := Option.some.inj h
      exact .inr (quiet rfl rfl ⟨id, id, id, id, id, .inl, .inl⟩)

theorem Accounted.step (accounted : Accounted login) (h : step login event = some login') :
    Accounted login' := by
  obtain ⟨-, rfl⟩ | ⟨accepted, joined, closed, settles⟩ := step_settles h
  · exact ⟨accounted.join, fun _ => .inl rfl⟩
  · refine ⟨?_, ?_⟩
    · intro resolved
      obtain before | passed | rest := settles.accounted resolved
      · obtain accepted | failed | banned | taken := accounted.join before
        · exact .inl (by simp [joined, accepted])
        · exact .inr (.inl (settles.failed failed))
        · exact .inr (.inr (.inl (settles.banned banned)))
        · exact .inr (.inr (.inr (settles.taken taken)))
      · exact .inl (by simp [joined, passed])
      · exact .inr rest
    · intro closing
      obtain before | ⟨auth, join, -⟩ := settles.closing closing
      · obtain user | ⟨auth, join⟩ := accounted.closing before
        · exact .inl (closed.trans user)
        · exact .inr ⟨settles.auth auth, settles.join join⟩
      · exact .inr ⟨auth, join⟩

/-- With the join settled nobody waits, and the reason is there. -/
theorem Accounted.resolved (accounted : Accounted login)
    (auth : login.client.authResolved = true) (join : login.client.joinResolved = true) :
    login.Resolved := by
  refine ⟨auth, join, ?_⟩
  obtain accepted | failed | banned | taken := accounted.join join
  · exact .inl accepted
  · exact .inr (.inl failed)
  · exact .inr (.inr (.inl banned))
  · exact .inr (.inr (.inr (.inl taken)))

/-- A read error leaves nobody waiting exactly when its error path covers the login, or a
frame has settled it. -/
theorem Accounted.readError_iff (accounted : Accounted login) (user : login.userClosed = false)
    {message : Bytes} (h : Login.step login (.readError message) = some login') :
    login'.Resolved ↔ login.Covered := by
  have accounted' := accounted.step h
  simp only [Login.step, Option.ite_none_right_eq_some] at h
  obtain ⟨-, h⟩ := h
  obtain rfl := Option.some.inj h
  obtain ⟨auth, join, -⟩ := login.client.readError_flags
  constructor
  · rintro ⟨-, resolved, -⟩
    rw [Covered]
    cases open' : login.client.authResolved with
    | false => exact .inl rfl
    | true =>
        rw [join, open', Bool.not_true, Bool.and_false, Bool.or_false] at resolved
        exact .inr resolved
  · intro covered
    cases closing : login.client.closing with
    | true =>
        obtain closed | ⟨authResolved, joinResolved⟩ := accounted.closing closing
        · exact absurd closed (by simp [user])
        · exact accounted'.resolved (by simp [auth, authResolved]) (by simp [join, joinResolved])
    | false =>
        have settled : login.client.readError.joinResolved = true := by
          obtain early | late := covered
          · simp [join, closing, early]
          · simp [join, late]
        exact accounted'.resolved (by simp [auth, closing]) settled

end Steps

section Runs

variable {login : Login} {events : List LoginEvent}

theorem run_accounted (h : Run.run step {} events = some login) : Accounted login :=
  Run.run_invariant (fun _ _ _ accounted stepped => accounted.step stepped) h ⟨nofun, nofun⟩

/-- Once a read error has been handled, the login stays settled. -/
def Quiet (login : Login) : Prop :=
  login.dropped = true → login.client.authResolved = true ∧ login.client.joinResolved = true

/-- Only a read error drops the connection. -/
theorem step_dropped {login' : Login} {event : LoginEvent} (h : step login event = some login') :
    login'.dropped = login.dropped ∨
      (login.userClosed = false ∧ ∃ message, event = .readError message) := by
  cases event with
  | connected =>
      simp only [step, Option.ite_none_left_eq_some] at h
      obtain rfl := Option.some.inj h.2
      exact .inl rfl
  | line _ | closed =>
      simp only [step, Option.ite_none_right_eq_some] at h
      obtain rfl := Option.some.inj h.2
      exact .inl rfl
  | readError message =>
      simp only [step, Option.ite_none_right_eq_some] at h
      obtain rfl := Option.some.inj h.2
      cases user : login.userClosed with
      | true => exact .inl (by simp)
      | false => exact .inr ⟨rfl, message, rfl⟩
  | writeError _ _ | setIdentity _ | identify _ _ | send _ | requestRooms | close =>
      obtain rfl := Option.some.inj h
      exact .inl rfl

theorem Quiet.step {login' : Login} {event : LoginEvent} (accounted : Accounted login)
    (quiet : Quiet login) (timely : login.Timely event) (h : Login.step login event = some login') :
    Quiet login' := by
  intro dropped
  obtain same | ⟨user, message, rfl⟩ := step_dropped h
  · obtain ⟨auth, join⟩ := quiet (same.symm.trans dropped)
    obtain ⟨-, rfl⟩ | ⟨accepted, -, -, settles⟩ := step_settles h
    · exact ⟨auth, join⟩
    · exact ⟨settles.auth auth, settles.join join⟩
  · have resolved := (accounted.readError_iff user h).mpr (timely user)
    exact ⟨resolved.1, resolved.2.1⟩

/-- Where every read error comes while the authentication is open or after the join has
been settled, nobody waits once one has been handled; and of the next one this is so
exactly when it comes so. -/
theorem run_resolves (h : Run.run step {} events = some login) :
    (Run.Always step Timely {} events → login.dropped = true → login.Resolved) ∧
    (∀ message login', login.userClosed = false →
      step login (.readError message) = some login' → (login'.Resolved ↔ login.Covered)) := by
  have accounted := run_accounted h
  refine ⟨?_, fun message login' user stepped => accounted.readError_iff user stepped⟩
  intro timely dropped
  have keeps (state : Login) (event : LoginEvent) (state' : Login)
      (both : Accounted state ∧ Quiet state) (timely : state.Timely event)
      (stepped : step state event = some state') : Accounted state' ∧ Quiet state' :=
    ⟨both.1.step stepped, both.2.step both.1 timely stepped⟩
  have quiet := (Run.run_invariant_of keeps timely h ⟨⟨nofun, nofun⟩, nofun⟩).2
  obtain ⟨auth, join⟩ := quiet dropped
  exact accounted.resolved auth join

theorem run_resolves_early : ∃ login login',
    Run.run step {} [.connected, .line (ascii "SEVMTE98Mw==")] = some login ∧
      step login (.readError (ascii "End of file")) = some login' ∧ login'.Resolved := by
  have ends : (Run.run step {} [.connected, .line (ascii "SEVMTE98Mw==")]).any (fun login =>
      !login.userClosed && login.client.reading && !login.client.authResolved) = true := by
    decide +kernel
  obtain ⟨login, run, open'⟩ := (Option.any_eq_true _ _).mp ends
  simp only [Bool.and_eq_true, Bool.not_eq_true'] at open'
  obtain ⟨⟨user, reading⟩, early⟩ := open'
  have stepped : step login (.readError (ascii "End of file")) = some { login with
      client := login.client.readError
      disconnectReason := ascii "End of file"
      dropped := login.dropped || !login.userClosed } := if_pos reading
  exact ⟨login, _, run, stepped, ((run_resolves run).2 _ _ user stepped).mpr (.inl early)⟩

/-- HELLO and AUTH_OK have been processed when the connection is lost. -/
theorem run_resolves_late : ¬ ∀ events login, Run.run step {} events = some login →
    login.userClosed = false → login.dropped = true → login.Resolved := by
  intro always
  have ends : (Run.run step {} [.connected, .line (ascii "SEVMTE98Mw=="),
      .line (ascii "QVVUSF9PSw=="), .readError (ascii "End of file")]).any (fun login =>
      !login.userClosed && login.dropped && !login.client.joinResolved) = true := by decide +kernel
  obtain ⟨login, run, waiting⟩ := (Option.any_eq_true _ _).mp ends
  simp only [Bool.and_eq_true, Bool.not_eq_true'] at waiting
  obtain ⟨⟨user, dropped⟩, waiting⟩ := waiting
  obtain ⟨-, joined, -⟩ := always _ login run user dropped
  exact absurd joined (by simp [waiting])

end Runs

end Login

end Chatbox.Chat
