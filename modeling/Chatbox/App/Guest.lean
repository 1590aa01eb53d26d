import Chatbox.App.Commands
import Chatbox.Chat.Agreement
import Chatbox.Chat.Relay

/-!
A guest at the keyboard. Every line that is typed asks one thing of the server or nothing, and
what the server's session receives, behind the login, are the first of these requests: in the
order of typing, none twice, none left out in between.
-/

namespace Chatbox.App

open Text Protocol Chat Storage

section Requests

variable (input : Bytes)

/-- What a command of a guest asks of the server. -/
def commandRequest (cmd : Command) : Option ClientMessage :=
  if cmd.name = ascii "help" then none
  else if cmd.name = ascii "users" then none
  else if cmd.name = ascii "rooms" then some .listRooms
  else if cmd.name = ascii "create" then
    match cmd.args with
    | [name] => some (.createRoom name)
    | _ => none
  else if cmd.name = ascii "join" then
    match cmd.args with
    | [name] => some (.joinRoom name)
    | _ => none
  else if cmd.name = ascii "leave" then
    match cmd.args with
    | [] => some .leave
    | _ => none
  else if cmd.name = ascii "topic" then
    match cmd.args with
    | [] => some (.topicRequest none)
    | args => some (.topicRequest (some (joinFields args 0 space)))
  else if cmd.name = ascii "clear" then none
  else if cmd.name = ascii "time" then none
  else if cmd.name = ascii "whisper" then
    (extractWhisper input).map fun (target, message) => .whisper target message
  else if cmd.name = ascii "kick" then
    match cmd.args with
    | [] => none
    | nick :: reason => some (.kickRequest nick (joinFields reason 0 space))
  else none

/-- What a line that a guest types asks of the server. -/
def request : Option ClientMessage :=
  if input.isEmpty then none
  else
    match parseCommand input with
    | none => some (.chat input)
    | some cmd => if cmd.name = ascii "exit" then none else commandRequest input cmd

end Requests

/-- From the one client to the other nothing was sent but the message, if there is one. -/
structure Asks (message : Option ClientMessage) (a b : ChatClient) : Prop where
  sent : b.sent = (message.elim a a.send).sent
  active : b.active = a.active

namespace Asks

variable {message : Option ClientMessage} {a b : ChatClient}

theorem send (message : ClientMessage) : Asks (some message) a (a.send message) := by
  refine ⟨rfl, ?_⟩
  unfold ChatClient.send
  split
  · rfl
  · split <;> rfl

theorem requestRooms : Asks (some .listRooms) a a.requestRooms := by
  refine ⟨?_, ?_⟩
  · simp only [ChatClient.requestRooms, Option.elim, ChatClient.send]
    split
    · rfl
    · split <;> rfl
  · exact (send .listRooms).active

theorem sending (h : Asks message a b) : Sending a b := by
  cases message with
  | none => exact .of_same h.sent fun idle => h.active.trans idle
  | some message =>
      have sent : Sending a (a.send message) := ChatClient.send_sending message
      refine ⟨?_, fun idle => ⟨h.active.trans idle, h.sent.trans (sent.quiet idle).2⟩⟩
      rw [h.sent]
      exact sent.grows

end Asks

/-- The seat is a guest's that has asked the server for the message. -/
def Seat.Asked (message : Option ClientMessage) (client : ChatClient) (seat : Seat) : Prop :=
  ∃ client', seat = .client client' ∧ Asks message client client'

section Asked

variable {env : Env} {context : ChatInputContext} {time input : Bytes} {client : ChatClient}
  {message : Option ClientMessage} {seat : Seat}

theorem Seat.Asked.of {client' : ChatClient} (h : Asks message client client') :
    Seat.Asked message client (.client client') := ⟨client', rfl, h⟩

theorem Seat.Asked.onApp (h : seat.Asked message client) (change : AppState → AppState) :
    (seat.onApp change).Asked message client := by
  obtain ⟨client', rfl, sent, active⟩ := h
  exact ⟨_, rfl, sent, active⟩

theorem Seat.Asked.pushAll (h : seat.Asked message client) (msgs : List Bytes) :
    (seat.pushAll msgs).Asked message client := by
  induction msgs generalizing seat with
  | nil => exact h
  | cons msg msgs ih => exact ih (h.onApp _)

theorem Seat.Asked.still (client : ChatClient) : Seat.Asked none client (.client client) :=
  .of ⟨rfl, rfl⟩

theorem Seat.Asked.ite {p : Prop} [Decidable p] {other : Option ClientMessage} {a b : Seat}
    (ha : a.Asked message client) (hb : b.Asked other client) :
    (if p then a else b).Asked (if p then message else other) client := by
  by_cases h : p
  · rwa [if_pos h, if_pos h]
  · rwa [if_neg h, if_neg h]

theorem runCommand_asked (cmd : Command) :
    (runCommand env context time (.client client) input cmd).Asked (commandRequest input cmd)
      client := by
  have still := Seat.Asked.still client
  unfold runCommand commandRequest
  refine .ite ?help (.ite ?users (.ite ?rooms (.ite ?create (.ite ?join (.ite ?leave (.ite ?topic
    (.ite ?clear (.ite ?time (.ite ?whisper (.ite ?kick ?other))))))))))
  case help =>
    split
    · exact (still.pushAll _).pushAll _
    · exact still.pushAll _
  case users => exact (still.onApp _).pushAll _
  case rooms => exact .of .requestRooms
  case create =>
    cases cmd.args with
    | nil => exact still.onApp _
    | cons name more =>
        cases more with
        | nil => exact .of (.send _)
        | cons _ _ => exact still.onApp _
  case join =>
    cases cmd.args with
    | nil => exact still.onApp _
    | cons name more =>
        cases more with
        | nil => exact .of (.send _)
        | cons _ _ => exact still.onApp _
  case leave =>
    cases cmd.args with
    | nil => exact .of (.send _)
    | cons _ _ => exact still.onApp _
  case topic =>
    cases cmd.args with
    | nil => exact .of (.send _)
    | cons _ _ => exact .of (.send _)
  case clear => exact (still.onApp _).onApp _
  case time => exact still.onApp _
  case whisper =>
    cases extractWhisper input with
    | none => exact still.onApp _
    | some pair => exact .of (.send _)
  case kick =>
    cases cmd.args with
    | nil => exact still.onApp _
    | cons _ _ => exact .of (.send _)
  case other => exact still.onApp _

/-- A line of a guest sends its request and shows the rest. -/
theorem handleChatInput_asked : (handleChatInput env context time (.client client) input).2.Asked
    (request input) client := by
  unfold handleChatInput request
  split
  · exact .still client
  · cases parseCommand input with
    | none => exact .of (.send _)
    | some cmd =>
        simp only
        split
        · exact .still client
        · exact runCommand_asked cmd

end Asked

/-- The requests that commands can make, but for what stands in them. -/
inductive Wanted (input : Bytes) (cmd : Command) : ClientMessage → Prop where
  | rooms : Wanted input cmd .listRooms
  | create (name : Bytes) : Wanted input cmd (.createRoom name)
  | join (name : Bytes) : Wanted input cmd (.joinRoom name)
  | leave : Wanted input cmd .leave
  | topic (topic : Option Bytes) : Wanted input cmd (.topicRequest topic)
  | whisper (target message : Bytes) (named : cmd.name = ascii "whisper")
      (found : extractWhisper input = some (target, message)) :
      Wanted input cmd (.whisper target message)
  | kick (nick reason : Bytes) : Wanted input cmd (.kickRequest nick reason)

section Grammar

variable {input target message : Bytes} {cmd : Command}

theorem commandRequest_wanted : ∀ message ∈ commandRequest input cmd, Wanted input cmd message := by
  have either {p : Prop} [Decidable p] {a b : Option ClientMessage}
      (ha : p → ∀ message ∈ a, Wanted input cmd message)
      (hb : ∀ message ∈ b, Wanted input cmd message) :
      ∀ message ∈ if p then a else b, Wanted input cmd message := by
    split
    · next h => exact ha h
    · exact hb
  have absent {p : Prop} (_ : p) : ∀ message ∈ none, Wanted input cmd message := by simp
  have one {p : Prop} {said : ClientMessage} (h : Wanted input cmd said) (_ : p) :
      ∀ message ∈ some said, Wanted input cmd message := by
    intro message asked
    exact Option.some.inj asked ▸ h
  unfold commandRequest
  refine either absent (either absent (either ?rooms (either ?create (either ?join (either ?leave
    (either ?topic (either absent (either absent (either ?whisper (either ?kick ?other))))))))))
  case rooms => exact one .rooms
  case create =>
    rcases cmd.args with _ | ⟨name, _ | ⟨more, rest⟩⟩
    · exact absent
    · exact one (.create name)
    · exact absent
  case join =>
    rcases cmd.args with _ | ⟨name, _ | ⟨more, rest⟩⟩
    · exact absent
    · exact one (.join name)
    · exact absent
  case leave =>
    cases cmd.args with
    | nil => exact one .leave
    | cons name more => exact absent
  case topic =>
    cases cmd.args with
    | nil => exact one (.topic none)
    | cons name more => exact one (.topic _)
  case whisper =>
    intro named message asked
    obtain ⟨⟨target, body⟩, found, rfl⟩ := Option.map_eq_some_iff.mp asked
    exact .whisper target body named found
  case kick =>
    cases cmd.args with
    | nil => exact absent
    | cons nick reason => exact one (.kick nick _)
  case other => exact absent trivial

theorem commandRequest_whisper (named : cmd.name = ascii "whisper") :
    commandRequest input cmd =
      (extractWhisper input).map fun (target, message) => .whisper target message := by
  simp +decide only [commandRequest, named, if_false, if_true]

/-- A line is a whisper exactly when it is the command, the target and the message with spaces
between them, the message being all that follows. -/
theorem request_whisper_iff : request input = some (.whisper target message) ↔
    ∃ m n, input = ascii "/whisper" ++ List.replicate (m + 1) space ++
        (target ++ (List.replicate (n + 1) space ++ message)) ∧
      space ∉ target ∧ target ≠ [] ∧ message ≠ [] ∧ message.head? ≠ some space := by
  have name : space ∉ ascii "whisper" := by decide
  constructor
  · intro asked
    simp only [request, Option.ite_none_left_eq_some] at asked
    obtain ⟨-, asked⟩ := asked
    cases parsed : parseCommand input with
    | none => simp [parsed] at asked
    | some cmd =>
        simp only [parsed, Option.ite_none_left_eq_some] at asked
        obtain ⟨-, asked⟩ := asked
        obtain ⟨named, found⟩ : cmd.name = ascii "whisper" ∧
            extractWhisper input = some (target, message) := by
          cases commandRequest_wanted _ asked with
          | whisper _ _ named found => exact ⟨named, found⟩
        obtain ⟨command, m, n, cut, whole, shape⟩ := extractWhisper_eq_some.mp found
        obtain ⟨rest, fields, rfl, words, -⟩ := parseCommand_eq_some parsed
        rw [named] at words
        have spaced : slash :: rest = command ++ space ::
            (List.replicate m space ++ (target ++ (List.replicate (n + 1) space ++ message))) := by
          rw [cut, List.append_assoc]
          rfl
        obtain rfl | ⟨rest, rfl⟩ := (split_eq_cons words).2
        · have alone : space ∉ slash :: ascii "whisper" := by decide
          rw [spaced] at alone
          exact absurd (by simp) alone
        · obtain ⟨rfl, -⟩ := @first_delimiter_unique space command (slash :: ascii "whisper") _ _
            whole (by decide) spaced.symm
          exact ⟨m, n, cut, shape⟩
  · rintro ⟨m, n, rfl, shape⟩
    obtain ⟨args, parsed⟩ := @parseCommand_append (ascii "whisper")
      (List.replicate m space ++ (target ++ (List.replicate (n + 1) space ++ message))) name
    have line : ascii "/whisper" ++ List.replicate (m + 1) space ++
        (target ++ (List.replicate (n + 1) space ++ message)) =
          slash :: (ascii "whisper" ++ space ::
            (List.replicate m space ++ (target ++ (List.replicate (n + 1) space ++ message)))) := by
      rw [List.append_assoc]
      rfl
    have found := extractWhisper_eq_some.mpr
      ⟨ascii "/whisper", m, n, rfl, by decide, shape⟩
    rw [line] at found ⊢
    simp only [request, parsed]
    rw [if_neg (by simp), if_neg (by decide)]
    rw [commandRequest_whisper rfl, found]
    rfl

end Grammar

/-- What happens at a guest: the exchange with the server, and lines that are typed. -/
inductive GuestAct where
  | exchange (exchange : Exchange)
  | typed (time input : Bytes)

/-- The messages that the login sends, none of which a line can ask for. -/
def ofLogin : ClientMessage → Bool
  | .hello _ | .authenticate _ | .identify _ _ | .identityProof _ => true
  | _ => false

/-- The client after the chat loop has handled a line; its frames are posted. -/
def onClient (d : Dialogue) (client : ChatClient) : Dialogue :=
  let frames := client.sent.drop d.login.client.sent.length
  { d with
    login := { d.login with client }
    wire := { d.wire with posted := d.wire.posted ++ frames.map Posted.write } }

/-- Only the login sends on its own. -/
def guestStep (env : Env) (context : ChatInputContext) (s : SessionId) (d : Dialogue) :
    GuestAct → Option Dialogue
  | .exchange (.client (.send message)) =>
      if ofLogin message then Dialogue.step env s d (.client (.send message)) else none
  | .exchange (.client .requestRooms) => none
  | .exchange exchange => Dialogue.step env s d exchange
  | .typed time input =>
      match (handleChatInput env context time (.client d.login.client) input).2 with
      | .client client => some (onClient d client)
      | .server _ => none

def GuestAct.line : GuestAct → Option Bytes
  | .typed _ input => some input
  | .exchange _ => none

/-- A message as it arrives, if it is sent at all. -/
def carried (message : ClientMessage) : Option ClientMessage :=
  (encodeClientFrame message).toOption.bind fun frame => (decodeClientFrame frame).toOption

/-- The messages behind the login. -/
def wanted (read : List (Result ClientMessage)) : List ClientMessage :=
  read.filterMap fun result => result.toOption.filter fun message => !ofLogin message

def chatText : ClientMessage → Option Bytes
  | .chat body => some body
  | _ => none

/-- A line that goes to the room as it is. -/
def isChatLine (input : Bytes) : Bool :=
  (parseCommand input).isNone && isValidText input MAX_CHAT_LENGTH

/-- What the lines ask of the server, as far as it can be sent. -/
def requests (typed : List Bytes) : List ClientMessage :=
  (typed.filterMap request).filterMap carried

section Carried

variable {message read : ClientMessage} {frame : Bytes} {input : Bytes}

/-- What is read as another message is a whisper or a kick, and so is what it is read as. -/
theorem decoded_eq_or (encoded : encodeClientFrame message = .ok frame)
    (decoded : decodeClientFrame frame = .ok read) : read = message ∨
      (ofLogin read = false ∧ ofLogin message = false) ∧
        ∀ body, read ≠ .chat body ∧ message ≠ .chat body := by
  obtain ⟨-, framed⟩ := encodeClientFrame_ok_iff.mp encoded
  rw [decodeClientFrame, decodeMessageFrame_encodeFrame framed] at decoded
  by_cases misread : MisreadTarget message
  · have line := ClientLine.of_parse decoded
    refine .inr ?_
    generalize payload : serializeClient message = text at line
    cases message with
    | whisper target body =>
        cases line with
        | whisper => simp [ofLogin]
        | _ => exact absurd (congrArg List.head? payload) (by simp [serializeClient, ascii])
    | kickRequest nickname reason =>
        cases line with
        | kickAlone | kickRequest => simp [ofLogin]
        | _ => exact absurd (congrArg List.head? payload) (by simp [serializeClient, ascii])
    | _ => exact misread.elim
  · exact .inl (parseClientMessage_serializeClient decoded misread)

theorem ofLogin_decoded (encoded : encodeClientFrame message = .ok frame)
    (decoded : decodeClientFrame frame = .ok read) : ofLogin read = ofLogin message := by
  obtain rfl | ⟨⟨here, there⟩, -⟩ := decoded_eq_or encoded decoded
  · rfl
  · rw [here, there]

theorem request_ofLogin (h : request input = some message) : ofLogin message = false := by
  simp only [request, Option.ite_none_left_eq_some] at h
  obtain ⟨-, h⟩ := h
  cases parsed : parseCommand input with
  | none =>
      simp only [parsed, Option.some.injEq] at h
      exact h ▸ rfl
  | some cmd =>
      simp only [parsed, Option.ite_none_left_eq_some] at h
      cases commandRequest_wanted _ h.2 <;> rfl

/-- A text arrives as it is, or it is not sent. -/
theorem carried_chat (body : Bytes) :
    carried (.chat body) = if isValidText body MAX_CHAT_LENGTH then some (.chat body) else none := by
  have parses : parseClientMessage (serializeClient (.chat body)) =
      if !isValidText body MAX_CHAT_LENGTH then
        Protocol.failure .invalidField
          (ascii "MSG body is empty, oversized, or contains control characters")
      else .ok (.chat body) := parseClient_msg body
  cases valid : isValidText body MAX_CHAT_LENGTH with
  | true =>
      rw [valid] at parses
      have short := (isValidText_iff.mp valid).2.1
      have limits : maxPayloadLength = 3069 ∧ MAX_CHAT_LENGTH = 1000 := ⟨rfl, rfl⟩
      have size : (serializeClient (.chat body)).length = 4 + body.length := by
        simp [serializeClient, ascii]
        omega
      have framed := (@encodeFrame_ok_iff (serializeClient (.chat body)) _).mpr
        ⟨by simp [serializeClient, ascii], by omega, rfl⟩
      have encoded := encodeClientFrame_ok_iff.mpr ⟨⟨_, parses⟩, framed⟩
      have decoded := (decodeMessageFrame_encodeFrame framed parseClientMessage).trans parses
      simp [carried, encoded, decodeClientFrame, decoded, Except.toOption]
  | false =>
      rw [valid] at parses
      have refused : (encodeClientFrame (.chat body)).toOption = none := by
        simp [encodeClientFrame, parses, Protocol.failure, Except.toOption]
      simp [carried, refused]

end Carried

theorem wanted_append (a b : List (Result ClientMessage)) :
    wanted (a ++ b) = wanted a ++ wanted b := List.filterMap_append

theorem wanted_ok (read : ClientMessage) :
    wanted [.ok read] = if ofLogin read then [] else [read] := by
  cases kind : ofLogin read <;> simp [wanted, Except.toOption, Option.filter, kind]

theorem wanted_error (e : Failure) : wanted [.error e] = [] := rfl

theorem requests_append (a b : List Bytes) : requests (a ++ b) = requests a ++ requests b := by
  simp [requests, List.filterMap_append]

section Texts

variable {input : Bytes}

theorem wanted_received (received : List ClientMessage) :
    wanted (received.map Except.ok) = received.filter fun message => !ofLogin message := by
  induction received with
  | nil => rfl
  | cons message received ih =>
      rw [List.map_cons, ← List.singleton_append, wanted_append, wanted_ok, ih]
      cases kind : ofLogin message <;> simp [kind]

/-- Commands make no texts, and are not read as texts either. -/
theorem carried_command {cmd : Command} {message read : ClientMessage}
    (asked : commandRequest input cmd = some message) (arrives : carried message = some read) :
    chatText read = none := by
  have plain : chatText message = none := by
    cases commandRequest_wanted _ asked <;> rfl
  cases encoded : encodeClientFrame message with
  | error e => simp [carried, encoded, Except.toOption] at arrives
  | ok frame =>
      cases decoded : decodeClientFrame frame with
      | error e => simp [carried, encoded, decoded, Except.toOption] at arrives
      | ok read' =>
          simp only [carried, encoded, decoded, Except.toOption, Option.bind_some,
            Option.some.injEq] at arrives
          subst arrives
          obtain rfl | ⟨-, other⟩ := decoded_eq_or encoded decoded
          · exact plain
          · cases read' with
            | chat body => exact absurd rfl (other body).1
            | _ => rfl

theorem texts_line (input : Bytes) :
    (((request input).bind carried).bind chatText) =
      if isChatLine input then some input else none := by
  cases input with
  | nil => rfl
  | cons c rest =>
      cases parsed : parseCommand (c :: rest) with
      | none =>
          simp only [request, parsed, List.isEmpty_cons, Option.bind_some, carried_chat,
            isChatLine, Option.isNone_none, Bool.true_and, if_neg Bool.false_ne_true]
          split <;> rfl
      | some cmd =>
          have other : isChatLine (c :: rest) = false := by simp [isChatLine, parsed]
          simp only [request, parsed, List.isEmpty_cons, other, if_neg Bool.false_ne_true]
          split
          · rfl
          · cases asked : commandRequest (c :: rest) cmd with
            | none => rfl
            | some message =>
                cases arrives : carried message with
                | none => simp [arrives]
                | some read => simp [arrives, carried_command asked arrives]

theorem texts_requests (typed : List Bytes) :
    (requests typed).filterMap chatText = typed.filter isChatLine := by
  simp only [requests, List.filterMap_filterMap]
  rw [← List.filterMap_eq_filter]
  refine List.filterMap_congr fun input _ => ?_
  rw [texts_line input]
  cases chat : isChatLine input <;> simp [Option.guard, chat]

end Texts

section Sent

variable {client a b : ChatClient}

/-- What is wanted of the server by the frames that a client has sent. -/
def wantedBy (client : ChatClient) : List ClientMessage :=
  wanted (client.sent.map decodeClientFrame)

theorem wantedBy_send {message : ClientMessage} (later : ofLogin message = false) :
    wantedBy (client.send message) =
      wantedBy client ++ if client.active then (carried message).toList else [] := by
  have active : client.active = !(!client.connected || client.closing) := by
    simp [ChatClient.active]
  unfold ChatClient.send
  cases idle : (!client.connected || client.closing) with
  | true => simp [active, idle]
  | false =>
      rw [idle, Bool.not_false] at active
      rw [if_neg (by simp), if_pos active]
      cases encoded : encodeClientFrame message with
      | error e => simp [carried, encoded, Except.toOption, wantedBy, ChatClient.pushMessage]
      | ok frame =>
          simp only [wantedBy, List.map_append, List.map_singleton, wanted_append]
          congr 1
          cases decoded : decodeClientFrame frame with
          | error e => simp [wanted_error, carried, encoded, decoded, Except.toOption]
          | ok read =>
              have kind := (ofLogin_decoded encoded decoded).trans later
              simp [wanted_ok, carried, encoded, decoded, Except.toOption, kind]

/-- The login adds nothing to it. -/
theorem wantedBy_sends {said : ClientMessage → Prop} (h : Sends said a b)
    (login : ∀ message, said message → ofLogin message = true) : wantedBy b = wantedBy a := by
  obtain same | ⟨message, frame, sent, encoded, same⟩ := h.sent
  · rw [wantedBy, same, wantedBy]
  · rw [wantedBy, same, List.map_append, wanted_append, ← wantedBy]
    cases decoded : decodeClientFrame frame with
    | error e => simp [wanted_error, decoded]
    | ok read =>
        have kind := (ofLogin_decoded encoded decoded).trans (login message sent)
        simp [wanted_ok, decoded, kind]

theorem step_wantedBy {login login' : Login} {event : LoginEvent} (later : event ≠ .connected)
    (rooms : event ≠ .requestRooms) (own : ∀ message, event = .send message → ofLogin message = true)
    (h : login.step event = some login') : wantedBy login'.client = wantedBy login.client := by
  cases event with
  | connected => exact absurd rfl later
  | requestRooms => exact absurd rfl rooms
  | line line =>
      simp only [Login.step, Option.ite_none_right_eq_some, Option.some.injEq] at h
      obtain ⟨-, rfl⟩ := h
      refine wantedBy_sends (receiveLine_sends line) ?_
      rintro message ⟨challenge, sign, -, -, rfl⟩
      rfl
  | readError message =>
      simp only [Login.step, Option.ite_none_right_eq_some, Option.some.injEq] at h
      obtain ⟨-, rfl⟩ := h
      simp only [ChatClient.readError]
      split <;> split <;> rfl
  | writeError aborted message =>
      obtain rfl := Option.some.inj h
      simp only [ChatClient.writeError]
      split <;> rfl
  | setIdentity sign =>
      obtain rfl := Option.some.inj h
      rfl
  | identify nick publicKeyHex =>
      obtain rfl := Option.some.inj h
      simp only [ChatClient.identify]
      split
      · rfl
      · exact wantedBy_sends (send_sends _) fun message same => same ▸ rfl
  | send message =>
      obtain rfl := Option.some.inj h
      exact wantedBy_sends (send_sends message) fun said same => same ▸ own message rfl
  | close =>
      obtain rfl := Option.some.inj h
      rfl
  | closed =>
      simp only [Login.step, Option.ite_none_right_eq_some, Option.some.injEq] at h
      obtain ⟨-, rfl⟩ := h
      rfl

end Sent

section Runs

variable {env : Env} {context : ChatInputContext} {stored : StoredState} {s : SessionId}
  {d d' : Dialogue} {typed : List Bytes}

/-- What the client has sent comes from the lines that were typed; all of them, while it is
active. -/
structure Heeds (client : ChatClient) (typed : List Bytes) : Prop where
  part : wantedBy client <+: requests typed
  all : client.active = true → wantedBy client = requests typed

theorem Heeds.quiet {client client' : ChatClient} (h : Heeds client typed)
    (same : wantedBy client' = wantedBy client)
    (idle : client.active = false → client'.active = false) : Heeds client' typed := by
  refine ⟨same ▸ h.part, fun active => same.trans (h.all ?_)⟩
  cases before : client.active with
  | true => rfl
  | false => exact (Bool.false_ne_true ((idle before).symm.trans active)).elim

theorem Heeds.asks {client client' : ChatClient} {input : Bytes} (h : Heeds client typed)
    (asks : Asks (request input) client client') : Heeds client' (typed ++ [input]) := by
  have grown : requests (typed ++ [input]) =
      requests typed ++ ((request input).bind carried).toList := by
    rw [requests_append]
    cases asked : request input with
    | none => simp [requests, asked]
    | some message => cases sent : carried message <;> simp [requests, asked, sent]
  have added : wantedBy client' = wantedBy client ++
      if client.active then ((request input).bind carried).toList else [] := by
    rw [wantedBy, asks.sent]
    cases asked : request input with
    | none => simp [wantedBy]
    | some message => exact wantedBy_send (request_ofLogin asked)
  refine ⟨?_, fun active => ?_⟩
  · cases active : client.active with
    | true => rw [added, if_pos active, h.all active, grown]
    | false =>
        rw [added, active, if_neg (by simp), List.append_nil, grown]
        exact h.part.trans (List.prefix_append _ _)
  · rw [asks.active] at active
    rw [added, if_pos active, h.all active, grown]

/-- The exchange adds nothing to what is wanted, unless the user does. -/
theorem Heeds.exchange {exchange : Exchange} (h : Heeds d.login.client typed)
    (rooms : exchange ≠ .client .requestRooms)
    (own : ∀ message, exchange = .client (.send message) → ofLogin message = true)
    (stepped : Dialogue.step env s d exchange = some d') : Heeds d'.login.client typed := by
  obtain ⟨same, -⟩ | ⟨event, moves, later, moved, -⟩ := Dialogue.step_login stepped
  · exact same ▸ h
  · refine h.quiet (step_wantedBy later ?_ ?_ moved)
      fun idle => ((Login.step_sending later moved).quiet idle).1
    · rintro rfl
      cases exchange with
      | client event => exact rooms (congrArg Exchange.client moves)
      | readDown =>
          obtain ⟨line, moves⟩ := moves
          cases moves
      | _ => cases moves
    · rintro message rfl
      cases exchange with
      | client event => exact own message (congrArg Exchange.client moves)
      | readDown =>
          obtain ⟨line, moves⟩ := moves
          cases moves
      | _ => cases moves

theorem guestStep_flows {act : GuestAct} (flows : Dialogue.Flows env stored s d)
    (heeds : Heeds d.login.client typed) (stepped : guestStep env context s d act = some d') :
    Dialogue.Flows env stored s d' ∧ Heeds d'.login.client (typed ++ act.line.toList) := by
  cases act with
  | exchange exchange =>
      have plain (rooms : exchange ≠ .client .requestRooms)
          (own : ∀ message, exchange = .client (.send message) → ofLogin message = true)
          (moved : Dialogue.step env s d exchange = some d') :
          Dialogue.Flows env stored s d' ∧ Heeds d'.login.client (typed ++ []) := by
        rw [List.append_nil]
        exact ⟨flows.step moved, heeds.exchange rooms own moved⟩
      cases exchange with
      | client event =>
          cases event with
          | send message =>
              simp only [guestStep, Option.ite_none_right_eq_some] at stepped
              refine plain (by simp) (fun said same => ?_) stepped.2
              cases same
              exact stepped.1
          | requestRooms => cases stepped
          | _ => exact plain (by simp) (by simp) stepped
      | _ => exact plain (by simp) (by simp) stepped
  | typed time input =>
      obtain ⟨client, seat, asks⟩ := @handleChatInput_asked env context time input d.login.client
      simp only [guestStep, seat, Option.some.injEq] at stepped
      subst stepped
      have sends := flows.sends.login asks.sending [] rfl
      rw [List.append_nil] at sends
      exact ⟨⟨flows.server, flows.down, flows.up, sends, flows.received⟩, heeds.asks asks⟩

theorem run_heeds {acts : List GuestAct}
    (h : Run.run (guestStep env context s) (Dialogue.start env stored) acts = some d) :
    Dialogue.Flows env stored s d ∧ Heeds d.login.client (acts.filterMap GuestAct.line) := by
  induction acts using List.reverseRecOn generalizing d with
  | nil =>
      obtain rfl := Option.some.inj h
      refine ⟨Dialogue.flows_start env stored s, ?_⟩
      have silent : wantedBy (Dialogue.start env stored).login.client = [] :=
        wantedBy_sends (send_sends (.hello VERSION)) fun message (same : message = _) => same ▸ rfl
      exact ⟨silent ▸ List.nil_prefix, fun _ => silent⟩
  | append_singleton acts act ih =>
      obtain ⟨middle, run, stepped⟩ := Run.run_snoc.mp h
      obtain ⟨flows, heeds⟩ := ih run
      rw [List.filterMap_append]
      have last : [act].filterMap GuestAct.line = act.line.toList := by
        cases line : act.line <;> simp [line]
      rw [last]
      exact guestStep_flows flows heeds stepped

/-- Behind the login the server receives the first of the requests that the guest's lines make,
and all of them when nothing is on the way any more; the texts among them are, byte for byte, the
lines that are no commands. -/
theorem run_typed {acts : List GuestAct}
    (h : Run.run (guestStep env context s) (Dialogue.start env stored) acts = some d) :
    let received := receivedFrom s d.server.output.trace
    let typed := acts.filterMap GuestAct.line
    (received.filter fun message => !ofLogin message) <+: requests typed ∧
      received.filterMap chatText <+: typed.filter isChatLine ∧
      (Dialogue.AtRest s d → d.login.client.active = true →
        (received.filter fun message => !ofLogin message) = requests typed) := by
  obtain ⟨flows, heeds⟩ := run_heeds h
  have arrived := (Dialogue.received_sent flows).filterMap
    fun result => result.toOption.filter fun message => !ofLogin message
  have first : ((receivedFrom s d.server.output.trace).filter fun message => !ofLogin message) <+:
      requests (acts.filterMap GuestAct.line) := by
    rw [← wanted_received]
    exact arrived.trans heeds.part
  refine ⟨first, ?_, fun rest active => ?_⟩
  · have texts := first.filterMap chatText
    rw [texts_requests, List.filterMap_filter] at texts
    refine (List.filterMap_congr fun message _ => ?_).symm ▸ texts
    cases message <;> rfl
  · rw [← wanted_received, flows.received_all rest active]
    exact heeds.all active

/-- A guest who has joined looks who is there and then says something. -/
def greetingRoom : List GuestAct :=
  Dialogue.joining.map .exchange ++
    [.typed (ascii "12:30:00") (ascii "/users"), .typed (ascii "12:30:01") (ascii "hi")] ++
    (Dialogue.carryUp 9).map .exchange

theorem run_typed_hi : ∃ d, Run.run (guestStep .plain { localNickname := ascii "ann" } 7)
      (Dialogue.start .plain emptyStore) greetingRoom = some d ∧
    (receivedFrom 7 d.server.output.trace).filterMap chatText = [ascii "hi"] ∧
    (receivedFrom 7 d.server.output.trace).filterMap chatText <+:
      (greetingRoom.filterMap GuestAct.line).filter isChatLine := by
  have found : (Run.run (guestStep .plain { localNickname := ascii "ann" } 7)
      (Dialogue.start .plain emptyStore) greetingRoom).any (fun d => decide
        ((receivedFrom 7 d.server.output.trace).filterMap chatText = [ascii "hi"])) = true := by
    decide +kernel
  obtain ⟨d, run, texts⟩ := (Option.any_eq_true _ _).mp found
  exact ⟨d, run, by simpa using texts, (run_typed run).2.1⟩

end Runs

end Chatbox.App
