import Chatbox.Chat.Admission
import Chatbox.Chat.Client
import Chatbox.Protocol.ClientGrammar

/-!
A server and the connections of a client that never talks to it. Whoever the client
does talk to can take sessions at the server and pass on what the client says there.
The client signs the challenges it is sent, whoever chose them, so the server gives
the client's name to such a session exactly when its own challenge was passed on.
-/

namespace Chatbox.Chat

open Text Protocol Storage

section Client

variable {client : ChatClient}

/-- Only a proof can be read as a proof. -/
theorem proof_of_encoded {message : ClientMessage} {frame signatureHex : Bytes}
    (encoded : encodeClientFrame message = .ok frame)
    (decoded : decodeClientFrame frame = .ok (.identityProof signatureHex)) :
    message = .identityProof signatureHex := by
  obtain ⟨-, he⟩ := encodeClientFrame_ok_iff.mp encoded
  rw [decodeClientFrame, decodeMessageFrame_encodeFrame he] at decoded
  by_cases misread : MisreadTarget message
  · have line := ClientLine.of_parse decoded
    generalize payload : serializeClient message = text at line
    cases line
    cases message with
    | whisper target body =>
        exact absurd (congrArg List.head? payload) (by simp [serializeClient, ascii])
    | kickRequest nickname reason =>
        exact absurd (congrArg List.head? payload) (by simp [serializeClient, ascii])
    | _ => exact misread.elim
  · exact (parseClientMessage_serializeClient decoded misread).symm

/-- Between two states of a client it has sent nothing new, or one frame with the
message, under the same identity. -/
structure Sends (message : ClientMessage → Prop) (a b : ChatClient) : Prop where
  identity : b.identity = a.identity
  sent : b.sent = a.sent ∨
    ∃ said frame, message said ∧ encodeClientFrame said = .ok frame ∧ b.sent = a.sent ++ [frame]

theorem Sends.silent {said : ClientMessage → Prop} {a b : ChatClient}
    (identity : b.identity = a.identity) (sent : b.sent = a.sent) : Sends said a b :=
  ⟨identity, .inl sent⟩

theorem Sends.after {said : ClientMessage → Prop} {a b c : ChatClient} (h : Sends said b c)
    (identity : b.identity = a.identity) (sent : b.sent = a.sent) : Sends said a c := by
  refine ⟨h.identity.trans identity, ?_⟩
  rw [← sent]
  exact h.sent

theorem Sends.ite {said : ClientMessage → Prop} {p : Prop} [Decidable p] {a b c : ChatClient}
    (hb : Sends said a b) (hc : Sends said a c) : Sends said a (if p then b else c) := by
  split
  · exact hb
  · exact hc

theorem send_sends (message : ClientMessage) :
    Sends (fun said => said = message) client (client.send message) := by
  unfold ChatClient.send
  split
  · exact .silent rfl rfl
  · split
    · exact .silent rfl rfl
    · next frame encoded => exact ⟨rfl, .inr ⟨message, frame, rfl, encoded, rfl⟩⟩

theorem showRooms_sends {said : ClientMessage → Prop} (rooms : List RoomSummary) :
    Sends said client (client.showRooms rooms) := by
  obtain ⟨identity, sent⟩ := ChatClient.showRooms_related
    (R := fun a b => b.identity = a.identity ∧ b.sent = a.sent) (fun _ => ⟨rfl, rfl⟩)
    (fun _ _ _ hab hbc => ⟨hbc.1.trans hab.1, hbc.2.trans hab.2⟩) (fun _ _ => ⟨rfl, rfl⟩)
    client rooms
  exact .silent identity sent

/-- A client answers a challenge with its signature, and no other message with a frame. -/
theorem receive_sends (message : ServerMessage) :
    Sends (fun said => ∃ challenge sign, message = .challenge challenge ∧
        client.identity = some sign ∧ said = .identityProof (sign challenge))
      client (client.receive message) := by
  unfold ChatClient.receive
  refine .ite (.silent rfl rfl) ?_
  split
  · exact .silent rfl rfl
  · refine .ite (.silent rfl rfl) ?_
    cases message with
    | challenge challenge =>
        simp only [ChatClient.onNegotiated]
        split
        · next sign own =>
            obtain ⟨identity, sent⟩ := @send_sends client (.identityProof (sign challenge))
            refine ⟨identity, sent.imp_right ?_⟩
            rintro ⟨said, frame, same, rest⟩
            exact ⟨said, frame, ⟨challenge, sign, rfl, own, same⟩, rest⟩
        · exact .silent rfl rfl
    | roomList rooms =>
        exact .ite ((showRooms_sends rooms).after rfl rfl) (.silent rfl rfl)
    | roomTopic roomId topic => exact .ite (.silent rfl rfl) (.silent rfl rfl)
    | roomText roomId body => exact .ite (.silent rfl rfl) (.silent rfl rfl)
    | _ => exact .silent rfl rfl

theorem receiveLine_sends (line : Bytes) :
    Sends (fun said => ∃ challenge sign, decodeServerFrame line = .ok (.challenge challenge) ∧
        client.identity = some sign ∧ said = .identityProof (sign challenge))
      client (client.receiveLine line) := by
  unfold ChatClient.receiveLine
  refine .ite (.silent rfl rfl) ?_
  split
  · next message decoded =>
      obtain ⟨identity, sent⟩ := @receive_sends client message
      refine ⟨identity, sent.imp id fun ⟨said, frame, ⟨challenge, sign, is, rest⟩, more⟩ => ?_⟩
      exact ⟨said, frame, ⟨challenge, sign, is ▸ decoded, rest⟩, more⟩
  · exact .ite (.silent rfl rfl) (.silent rfl rfl)

end Client

section Server

variable {env : Env} {server server' : ChatServer} {s : SessionId}

/-- Not the arrival of a message. -/
def Internal : Effect → Prop
  | .received _ _ => False
  | _ => True

theorem Quiet.internal (h : Quiet server server') : Emits Internal server server' :=
  h.emits.mono fun e routine => by
    cases e with
    | received s message => exact routine
    | _ => trivial

theorem reject_internal {message : ServerMessage} (h : Routine (.deliver s message)) :
    Emits Internal server (server.reject env s message) := (ChatServer.reject_quiet h).internal

theorem onIdentify_internal (nick publicKeyHex : Bytes) :
    Emits Internal server (server.onIdentify env s nick publicKeyHex) := by
  unfold ChatServer.onIdentify
  refine .ite (ChatServer.deliver_emits trivial) ?_
  split
  · exact reject_internal trivial
  · refine .ite (reject_internal trivial) ?_
    refine .ite (reject_internal trivial) ?_
    refine .one (e := .deliver s (.challenge
      (env.randomHex server.output.readings IDENTITY_CHALLENGE_BYTES))) ?_ trivial
    simp only [ChatServer.deliver_trace, ChatServer.updateSession_trace,
      ChatServer.nextReading_trace]
    rfl

theorem onProof_internal (signatureHex : Bytes) :
    Emits Internal server (server.onProof env s signatureHex) := by
  unfold ChatServer.onProof
  simp only
  refine .ite (ChatServer.deliver_emits trivial) ?_
  refine .ite (reject_internal trivial) ?_
  refine .ite (reject_internal trivial) ?_
  refine .ite (reject_internal trivial) ?_
  refine .ite (reject_internal trivial) ?_
  refine .ite (ChatServer.bindIdentity_quiet.internal.trans (reject_internal trivial)) ?_
  have binding := (@ChatServer.bindIdentity_quiet env server (server.tables.session s).pendingNickname
    (server.tables.session s).pendingPublicKeyHex).internal
  have named (middle : ChatServer) (nick key challenge : Bytes) : Emits Internal middle
      (middle.acceptProof env s nick key challenge) := by
    have taken : Emits Internal middle (middle.takeNickname s nick) := .of_eq rfl
    have noted : Emits Internal (middle.takeNickname s nick)
        ((middle.takeNickname s nick).note (.admitted s nick key challenge)) :=
      ChatServer.note_emits trivial
    exact (taken.trans noted).trans (Quiet.internal acceptProof_quiet)
  exact binding.trans (named _ _ _ _)

theorem onMessage_internal (message : ClientMessage) :
    Emits Internal (server.note (.received s message)) (server.onMessage env s message) := by
  rcases server.onMessage_cases env s message with ⟨version, rfl, h⟩ | ⟨-, closed, h⟩ |
    ⟨-, password, rfl, h⟩ | ⟨-, -, -, closed, h⟩ | ⟨hello, auth, gates, h⟩
  · rw [h]
    unfold ChatServer.onHello
    refine .ite (ChatServer.deliver_emits trivial) ?_
    exact (Emits.of_eq rfl).trans (ChatServer.deliver_emits trivial)
  · rw [h]
    exact reject_internal trivial
  · rw [h]
    unfold ChatServer.onAuthenticate
    refine .ite ?_ (reject_internal trivial)
    exact (Emits.of_eq rfl).trans (ChatServer.deliver_emits trivial)
  · rw [h]
    exact ChatServer.deliver_emits trivial
  · rw [h]
    cases message with
    | hello version => exact absurd rfl (hello version)
    | authenticate password => exact absurd rfl (auth password)
    | identify nick publicKeyHex => exact onIdentify_internal nick publicKeyHex
    | identityProof signatureHex => exact onProof_internal signatureHex
    | leave => exact ChatServer.onLeave_quiet.internal
    | disconnect => exact ChatServer.onDisconnect_quiet.internal
    | listRooms => exact ChatServer.onListRooms_quiet.internal
    | createRoom name => exact ChatServer.onCreateRoom_quiet.internal
    | joinRoom name => exact ChatServer.onJoinRoom_quiet.internal
    | topicRequest topic => exact ChatServer.onTopicRequest_quiet.internal
    | chat body => exact ChatServer.onChat_quiet.internal
    | whisper target body => exact ChatServer.onWhisper_quiet.internal
    | kickRequest nickname reason => exact ChatServer.onKickRequest_quiet.internal

/-- A message arrives by a line that says it. -/
theorem step_received {event : Event} (h : step env server event = some server')
    {message : ClientMessage} (received : .received s message ∈ server'.output.trace) :
    .received s message ∈ server.output.trace ∨
      ∃ line, event = .line s line ∧ decodeClientFrame line = .ok message := by
  have before {middle : ChatServer} (internal : Emits Internal middle server') :
      .received s message ∈ middle.output.trace := by
    obtain ⟨new, trace, all⟩ := internal
    rw [trace, List.mem_append] at received
    exact received.resolve_right fun mem => all _ mem
  by_cases line : ∃ s line, event = .line s line
  · obtain ⟨s', line, rfl⟩ := line
    simp only [step, Option.ite_none_right_eq_some, Option.some.injEq] at h
    obtain ⟨-, rfl⟩ := h
    cases decoded : decodeClientFrame line with
    | error e =>
        refine .inl (before ?_)
        simp only [ChatServer.onLine, decoded]
        exact .ite (reject_internal trivial) (ChatServer.deliver_emits trivial)
    | ok message' =>
        have noted := @before (server.note (.received s' message')) (by
          simp only [ChatServer.onLine, decoded]
          exact onMessage_internal message')
        rw [ChatServer.note_trace, List.mem_append, List.mem_singleton] at noted
        refine noted.imp id fun same => ?_
        obtain ⟨rfl, rfl⟩ := Effect.received.inj same
        exact ⟨line, rfl, decoded⟩
  · exact .inl (before (step_quiet (fun s text same => line ⟨s, text, same⟩) h).internal)

end Server

/-- The server, the connections of the client, and what the client has been told on
them. -/
structure World where
  server : ChatServer
  clients : List ChatClient := []
  told : List ServerMessage := []

inductive Move where
  | atServer (event : Event)
  | connect
  | tell (connection : Nat) (line : Bytes)
  | speak (connection : Nat) (message : ClientMessage)

/-- The line that comes to the server. -/
def Move.line? : Move → Option Bytes
  | .atServer (.line _ line) => some line
  | _ => none

/-- A message that only `read_loop` of the client sends. -/
def isProof : ClientMessage → Bool
  | .identityProof _ => true
  | _ => false

namespace World

/-- What the client's identity makes of a challenge. -/
def signs (signDetached : Bytes → Bytes) (challenge : Bytes) : Bytes :=
  bytesToHex (signDetached challenge)

def onClient (world : World) (connection : Nat) (change : ChatClient → ChatClient) : World :=
  { world with clients := world.clients.modify connection change }

/-- Anything happens at the server; the client connects to somebody else, hears a line
from there or says something there. -/
def step (env : Env) (signDetached : Bytes → Bytes) (world : World) : Move → Option World
  | .atServer event => (Chat.step env world.server event).map fun server => { world with server }
  | .connect =>
      let client : ChatClient := { identity := some (signs signDetached) }
      some { world with clients := world.clients ++ [client.finishConnect] }
  | .tell connection line =>
      let world := world.onClient connection fun client => client.receiveLine line
      some { world with told := world.told ++ (decodeServerFrame line).toOption.toList }
  | .speak connection message =>
      if isProof message then none
      else some (world.onClient connection fun client => client.send message)

/-- The signature that a frame presents. -/
def proofOf (frame : Bytes) : Option Bytes :=
  match decodeClientFrame frame with
  | .ok (.identityProof signatureHex) => some signatureHex
  | _ => none

/-- The client has sent a proof with the signature. -/
def Reveals (world : World) (signature : Bytes) : Prop :=
  ∃ client ∈ world.clients, ∃ frame ∈ client.sent, (proofOf frame).map hexToBytes = some signature

/-- Nobody but the client can make a signature of its key: where one is presented to
the server, the client has sent it. -/
def Unforged (env : Env) (key : Bytes) (world : World) (move : Move) : Prop :=
  ∀ line signatureHex challenge, move.line? = some line → proofOf line = some signatureHex →
    env.verifyIdentitySignature key challenge signatureHex = true →
      world.Reveals (hexToBytes signatureHex)

def start (env : Env) (stored : StoredState) : World := { server := ChatServer.start env stored }

end World

section Signatures

theorem verifyDetached_of_verify {env : Env} {key challenge signatureHex : Bytes}
    (h : env.verifyIdentitySignature key challenge signatureHex = true) :
    env.verifyDetached (hexToBytes signatureHex) challenge (hexToBytes key) = true := by
  unfold Env.verifyIdentitySignature at h
  split at h
  · cases h
  · exact h

end Signatures

namespace World

variable {env : Env} {stored : StoredState} {key : Bytes} {signDetached : Bytes → Bytes}
  {world world' : World}

theorem proofOf_eq {frame signatureHex : Bytes} : proofOf frame = some signatureHex ↔
    decodeClientFrame frame = .ok (.identityProof signatureHex) := by
  unfold proofOf
  split
  · next other decoded => simp [decoded]
  · next none => simpa using none signatureHex

/-- The proofs that the client has sent are signatures of challenges it was told. -/
def Answers (signDetached : Bytes → Bytes) (told : List ServerMessage) (client : ChatClient) :
    Prop :=
  ∀ frame ∈ client.sent, ∀ signatureHex, proofOf frame = some signatureHex → ∃ challenge,
    .challenge challenge ∈ told ∧ signatureHex = signs signDetached challenge

theorem Answers.sends {said : ClientMessage → Prop} {told told' : List ServerMessage}
    {a b : ChatClient} (h : Answers signDetached told a) (sends : Sends said a b)
    (more : ∀ message ∈ told, message ∈ told')
    (proofs : ∀ signatureHex, said (.identityProof signatureHex) →
      ∃ challenge, .challenge challenge ∈ told' ∧ signatureHex = signs signDetached challenge) :
    Answers signDetached told' b := by
  have old : ∀ frame ∈ a.sent, ∀ signatureHex, proofOf frame = some signatureHex → ∃ challenge,
      .challenge challenge ∈ told' ∧ signatureHex = signs signDetached challenge := by
    intro frame mem signatureHex decoded
    obtain ⟨challenge, there, same⟩ := h frame mem signatureHex decoded
    exact ⟨challenge, more _ there, same⟩
  intro frame mem signatureHex decoded
  obtain same | ⟨message, new, own, encoded, same⟩ := sends.sent
  · exact old frame (same ▸ mem) signatureHex decoded
  · rw [same, List.mem_append, List.mem_singleton] at mem
    obtain mem | rfl := mem
    · exact old frame mem signatureHex decoded
    · obtain rfl := proof_of_encoded encoded (proofOf_eq.mp decoded)
      exact proofs signatureHex own

theorem reachable_step {server server' : ChatServer} {event : Event}
    (h : Reachable env stored server) (hstep : Chat.step env server event = some server') :
    Reachable env stored server' := by
  obtain ⟨events, hrun⟩ := h
  exact ⟨events ++ [event], Run.run_snoc.mpr ⟨server, hrun, hstep⟩⟩

/-- Every proof with the client's key that has come to the server answers a challenge
that the client has been told. -/
structure Relayed (env : Env) (stored : StoredState) (key : Bytes) (signDetached : Bytes → Bytes)
    (world : World) : Prop where
  reachable : Reachable env stored world.server
  identity : ∀ client ∈ world.clients, client.identity = some (signs signDetached)
  answers : ∀ client ∈ world.clients, Answers signDetached world.told client
  proofs : ∀ s signatureHex challenge,
    .received s (.identityProof signatureHex) ∈ world.server.output.trace →
      env.verifyIdentitySignature key challenge signatureHex = true →
        .challenge challenge ∈ world.told

namespace Relayed

/-- Where one connection of the client goes on. -/
theorem onClient (h : Relayed env stored key signDetached world) {connection : Nat}
    {change : ChatClient → ChatClient} {told : List ServerMessage}
    {said : ChatClient → ClientMessage → Prop}
    (sends : ∀ client ∈ world.clients, Sends (said client) client (change client))
    (more : ∀ message ∈ world.told, message ∈ told)
    (proofs : ∀ client ∈ world.clients, ∀ signatureHex, said client (.identityProof signatureHex) →
      ∃ challenge, .challenge challenge ∈ told ∧ signatureHex = signs signDetached challenge) :
    Relayed env stored key signDetached { world.onClient connection change with told } := by
  have cases_ {client : ChatClient} (mem : client ∈ world.clients.modify connection change) :
      client ∈ world.clients ∨ ∃ before ∈ world.clients, client = change before := by
    obtain ⟨i, there⟩ := List.mem_iff_getElem?.mp mem
    rw [List.getElem?_modify] at there
    obtain ⟨before, found, same⟩ := Option.map_eq_some_iff.mp there
    have old := List.mem_of_getElem? found
    split at same
    · exact .inr ⟨before, old, same.symm⟩
    · exact .inl (same ▸ old)
  refine ⟨h.reachable, fun client mem => ?_, fun client mem => ?_, fun s signatureHex challenge
    received verified => more _ (h.proofs s signatureHex challenge received verified)⟩
  · obtain old | ⟨before, old, rfl⟩ := cases_ mem
    · exact h.identity client old
    · exact (sends before old).identity.trans (h.identity before old)
  · obtain old | ⟨before, old, rfl⟩ := cases_ mem
    · exact @Answers.sends signDetached (fun _ => False) world.told told client client
        (h.answers client old) (.silent rfl rfl) more nofun
    · exact (h.answers before old).sends (sends before old) more (proofs before old)

theorem step (own : ∀ challenge other,
      env.verifyDetached (signDetached challenge) other (hexToBytes key) = true →
        other = challenge)
    (h : Relayed env stored key signDetached world) {move : Move}
    (unforged : world.Unforged env key move)
    (hstep : World.step env signDetached world move = some world') :
    Relayed env stored key signDetached world' := by
  cases move with
  | atServer event =>
      obtain ⟨server, hserver, rfl⟩ := Option.map_eq_some_iff.mp hstep
      refine ⟨reachable_step h.reachable hserver, h.identity, h.answers, ?_⟩
      intro s signatureHex challenge received verified
      obtain before | ⟨line, rfl, decoded⟩ := step_received hserver received
      · exact h.proofs s signatureHex challenge before verified
      · obtain ⟨client, there, frame, sent, reveals⟩ :=
          unforged line signatureHex challenge rfl (proofOf_eq.mpr decoded) verified
        obtain ⟨shown, proof, same⟩ := Option.map_eq_some_iff.mp reveals
        obtain ⟨asked, told, rfl⟩ := h.answers client there frame sent shown proof
        rw [signs, hexToBytes_bytesToHex] at same
        have signed := verifyDetached_of_verify verified
        rw [← same] at signed
        rwa [own asked challenge signed]
  | connect =>
      cases hstep
      have fresh := @send_sends { identity := some (signs signDetached), connected := true }
        (.hello VERSION)
      refine ⟨h.reachable, fun client mem => ?_, fun client mem => ?_, h.proofs⟩
      · obtain old | rfl := List.mem_append.mp mem |>.imp id List.mem_singleton.mp
        · exact h.identity client old
        · exact fresh.identity
      · obtain old | rfl := List.mem_append.mp mem |>.imp id List.mem_singleton.mp
        · exact h.answers client old
        · have none : Answers signDetached world.told
              { identity := some (signs signDetached), connected := true } := nofun
          exact none.sends fresh (fun _ => id) nofun
  | tell connection line =>
      cases hstep
      refine h.onClient (fun client _ => receiveLine_sends line)
        (fun message mem => List.mem_append_left _ mem) ?_
      rintro client mem signatureHex ⟨challenge, sign, decoded, identity, same⟩
      rw [h.identity client mem] at identity
      obtain rfl := Option.some.inj identity
      obtain rfl := ClientMessage.identityProof.inj same
      refine ⟨challenge, List.mem_append_right _ ?_, rfl⟩
      rw [decoded]
      exact List.mem_singleton.mpr rfl
  | speak connection message =>
      simp only [World.step, Option.ite_none_left_eq_some] at hstep
      obtain ⟨other, same⟩ := hstep
      cases same
      refine h.onClient (fun client _ => send_sends message) (fun _ => id) ?_
      rintro client mem signatureHex rfl
      exact absurd rfl other

end Relayed

theorem start_relayed (env : Env) (stored : StoredState) (key : Bytes)
    (signDetached : Bytes → Bytes) :
    Relayed env stored key signDetached (start env stored) := by
  refine ⟨⟨[], rfl⟩, fun client mem => absurd mem List.not_mem_nil,
    fun client mem => absurd mem List.not_mem_nil, fun s signatureHex challenge received _ => ?_⟩
  have routine : Routine (.received s (.identityProof signatureHex)) :=
    start_routine env stored _ received
  exact routine.elim

/-- A session of the server gets a nickname that is bound to the client's key only with
the client's answer to the very challenge that the server gave this session: whoever
has the session has passed the challenge on to the client. -/
theorem run_relayed (env : Env) (stored : StoredState) (key : Bytes)
    (signDetached : Bytes → Bytes)
    (own : ∀ challenge other,
      env.verifyDetached (signDetached challenge) other (hexToBytes key) = true →
        other = challenge)
    (moves : List Move) (world : World)
    (unforged : Run.Always (World.step env signDetached) (Unforged env key) (start env stored) moves)
    (h : Run.run (World.step env signDetached) (start env stored) moves = some world)
    (s : SessionId) (nick : Bytes) (named : (world.server.tables.session s).nickname = nick)
    (some_ : nick ≠ []) (bound : world.server.tables.identities[nick]? = some key) :
    ∃ challenge signatureHex before after,
      world.server.output.trace = before ++ .received s (.identityProof signatureHex) :: after ∧
        Challenged before s nick key challenge ∧ .challenge challenge ∈ world.told := by
  have relayed : Relayed env stored key signDetached world := Run.run_invariant_of
    (fun _ _ _ relayed unforged hstep => relayed.step own unforged hstep) unforged h
    (start_relayed env stored key signDetached)
  subst named
  obtain ⟨key', hkey, challenge, signatureHex, before, after, trace, challenged, verified⟩ :=
    (reachable_credited relayed.reachable).presented s some_
  obtain rfl : key = key' := Option.some.inj (bound.symm.trans hkey)
  refine ⟨challenge, signatureHex, before, after, trace, challenged, ?_⟩
  refine relayed.proofs s signatureHex challenge ?_ verified
  rw [trace]
  exact List.mem_append_right _ List.mem_cons_self

section Passing

/-- A server whose signature check knows the signatures that `signWith` makes. -/
def signWith (key challenge : Bytes) : Bytes := challenge.map (· + key.headD 0)

def signing : Env :=
  { Env.plain with verifyDetached := fun signature message key => signature == signWith key message }

def annKey : Bytes := List.replicate 64 49

def annSigns : Bytes → Bytes := signWith (hexToBytes annKey)

theorem annSigns_own (challenge other : Bytes)
    (h : signing.verifyDetached (annSigns challenge) other (hexToBytes annKey) = true) :
    other = challenge := by
  have same : challenge.map (· + (hexToBytes annKey).headD 0) =
      other.map (· + (hexToBytes annKey).headD 0) := by simpa [signing, annSigns, signWith] using h
  exact (List.map_injective_iff.mpr (add_left_injective _) same).symm

def serverFrame (message : ServerMessage) : Bytes := (encodeServerFrame message).toOption.getD []

/-- Somebody takes a session, asks for the client's name, and passes the challenge on to
the client and the client's proof back to the server. -/
def pass (challenge : Bytes) : List Move :=
  [.atServer (.accept 7), .atServer (.handshake 7 true),
    .atServer (.line 7 (clientFrame (.hello VERSION))),
    .atServer (.line 7 (clientFrame (.identify (ascii "ann") annKey))),
    .connect, .tell 0 (serverFrame (.hello VERSION)), .tell 0 (serverFrame (.challenge challenge)),
    .atServer (.line 7 (clientFrame (.identityProof (signs annSigns challenge))))]

/-- Every proof that comes to the server is one the client has sent. -/
def Passed (world : World) (move : Move) : Prop :=
  ∀ line ∈ move.line?, ∀ signatureHex ∈ proofOf line, world.Reveals (hexToBytes signatureHex)

instance (world : World) (signature : Bytes) : Decidable (world.Reveals signature) :=
  inferInstanceAs (Decidable (∃ client ∈ world.clients, ∃ frame ∈ client.sent,
    (proofOf frame).map hexToBytes = some signature))

instance (world : World) (move : Move) : Decidable (world.Passed move) :=
  inferInstanceAs (Decidable (∀ line ∈ move.line?, ∀ signatureHex ∈ proofOf line,
    world.Reveals (hexToBytes signatureHex)))

theorem Passed.unforged {env : Env} {key : Bytes} {world : World} {move : Move}
    (h : world.Passed move) : world.Unforged env key move :=
  fun line signatureHex _ come proof _ => h line come signatureHex proof

theorem exists_passed : ∃ world,
    Run.run (World.step signing annSigns) (start signing emptyStore)
      (pass (signing.randomHex 0 IDENTITY_CHALLENGE_BYTES)) = some world ∧
    Run.Always (World.step signing annSigns) (Unforged signing annKey) (start signing emptyStore)
      (pass (signing.randomHex 0 IDENTITY_CHALLENGE_BYTES)) ∧
    (world.server.tables.session 7).nickname = ascii "ann" ∧
    world.server.tables.identities[ascii "ann"]? = some annKey := by
  have passed : Run.Always (World.step signing annSigns) Passed (start signing emptyStore)
      (pass (signing.randomHex 0 IDENTITY_CHALLENGE_BYTES)) := by decide +kernel
  have last : (Run.run (World.step signing annSigns) (start signing emptyStore)
      (pass (signing.randomHex 0 IDENTITY_CHALLENGE_BYTES))).any (fun world =>
        (world.server.tables.session 7).nickname = ascii "ann" ∧
          world.server.tables.identities[ascii "ann"]? = some annKey) = true := by decide +kernel
  obtain ⟨world, hrun, named⟩ := (Option.any_eq_true _ _).mp last
  exact ⟨world, hrun, passed.mono fun _ _ => Passed.unforged, by simpa using named⟩

theorem run_relayed_ann : ∃ world,
    Run.run (World.step signing annSigns) (start signing emptyStore)
      (pass (signing.randomHex 0 IDENTITY_CHALLENGE_BYTES)) = some world ∧
    ∃ challenge signatureHex before after,
      world.server.output.trace = before ++ .received 7 (.identityProof signatureHex) :: after ∧
        Challenged before 7 (ascii "ann") annKey challenge ∧ .challenge challenge ∈ world.told := by
  obtain ⟨world, hrun, unforged, named, bound⟩ := exists_passed
  exact ⟨world, hrun, run_relayed signing emptyStore annKey annSigns annSigns_own _ world unforged
    hrun 7 (ascii "ann") named (by decide) bound⟩

/-- The client has only talked to somebody else, and the server takes somebody else for
the client. -/
theorem run_relayed_never : ¬ ∀ (env : Env) (stored : StoredState) (key : Bytes)
    (signDetached : Bytes → Bytes), (∀ challenge other,
      env.verifyDetached (signDetached challenge) other (hexToBytes key) = true →
        other = challenge) → ∀ (moves : List Move) (world : World),
    Run.Always (World.step env signDetached) (Unforged env key) (start env stored) moves →
    Run.run (World.step env signDetached) (start env stored) moves = some world →
    ∀ (s : SessionId) (nick : Bytes), (world.server.tables.session s).nickname = nick →
      nick ≠ [] → world.server.tables.identities[nick]? ≠ some key := by
  intro never
  obtain ⟨world, hrun, unforged, named, bound⟩ := exists_passed
  exact never signing emptyStore annKey annSigns annSigns_own _ world unforged hrun 7 _ named
    (by decide) bound

end Passing

end World

end Chatbox.Chat
