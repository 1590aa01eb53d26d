import Chatbox.Chat.Client
import Chatbox.Lib.Run
import Chatbox.Network.Tls

/-!
`async_connect` and everything that can end an attempt. An attempt is fenced by its
lifetime token, a phase's timer by the generation it was armed with; handlers of what has
been ended still run, later and in any order. A token is the number of the attempt it
was made for, and `log` notes what each attempt has been through.
-/

namespace Chatbox.Chat

open Text Protocol Network

inductive ConnectionFailure where
  | none
  | dns
  | refused
  | timeout
  | tls
  | cancelled
  | network
deriving DecidableEq, Repr

/-- The texts of `connection_phase_`. -/
inductive Phase where
  | idle
  | resolving
  | connecting
  | negotiating
deriving DecidableEq, Repr

def Phase.text : Phase → Bytes
  | .idle => []
  | .resolving => ascii "Resolving address"
  | .connecting => ascii "Connecting TCP"
  | .negotiating => ascii "Negotiating TLS"

/-- An `error_code` that is set. -/
structure ErrorCode where
  connectionRefused : Bool := false
  message : Bytes
deriving DecidableEq, Repr

/-- A handler that has been handed to the executor, with what it captures. The phase of
a timer is noted for the statements only. -/
inductive Handler where
  | resolved (attempt : Nat) (host : Bytes) (port : UInt16)
  | connected (attempt : Nat) (host : Bytes) (port : UInt16)
  | handshaken (attempt : Nat) (host : Bytes) (port : UInt16)
  | deadline (lifetime : Option Nat) (generation : UInt64) (phase : Phase)
deriving DecidableEq, Repr

/-- What a handler is run with and what it meets: the outcome of its operation, OpenSSL's
answer to the server name and the connection after the handshake. -/
structure Completion where
  ec : Option ErrorCode := none
  serverName : Except (Option Bytes) Unit := .ok ()
  handle : Ssl
  surroundings : Surroundings

/-- What an attempt has been through. -/
inductive Milestone where
  | started (attempt : Nat)
  | resolved (attempt : Nat)
  | connected (attempt : Nat)
  | verified (attempt : Nat)
  | called (attempt : Nat) (success : Bool)
deriving DecidableEq, Repr

def Milestone.attempt : Milestone → Nat
  | .started attempt | .resolved attempt | .connected attempt | .verified attempt
  | .called attempt _ => attempt

structure ConnectSetup where
  enabled : Bool := true
  config : ClientConfig

/-- The part of `ChatClient` that connects. `connectCompleted` is the attempt whose
callback is stored. -/
structure Connector where
  client : ChatClient
  files : FileSystem
  attemptLifetime : Option Nat := none
  connectCompleted : Option Nat := none
  connecting : Bool := false
  deadlineGeneration : UInt64 := 0
  connectionFailure : ConnectionFailure := .none
  connectionPhase : Phase := .idle
  connectError : Bytes := []
  pending : List Handler := []
  attempts : Nat := 0
  log : List Milestone := []

def opensslError (text : Bytes) : Option Bytes → Bytes
  | none => text
  | some detail => text ++ ascii ": " ++ detail

/-- `set_server_name`, and the text of what it throws. -/
def setServerName (answer : Except (Option Bytes) Unit) (host : Bytes) : Except Bytes Unit :=
  if host.isEmpty then .ok ()
  else answer.mapError (opensslError (ascii "Could not set TLS server name"))

inductive ConnectEvent where
  | asyncConnect (host : Bytes) (port : UInt16)
  | cancelConnect
  | complete (handler : Handler) (completion : Completion)
  /-- What the rest of the client does in between. -/
  | elsewhere (client : ChatClient)

namespace Connector

variable (setup : ConnectSetup) (connector : Connector)

/-- `lifetime.expired()`: nothing but `attempt_lifetime_` keeps the token. -/
def expired (lifetime : Option Nat) : Bool :=
  lifetime.isNone || lifetime != connector.attemptLifetime

def note (milestone : Milestone) : Connector :=
  { connector with log := connector.log ++ [milestone] }

def await (handler : Handler) : Connector :=
  { connector with pending := connector.pending ++ [handler] }

def armDeadline : Connector :=
  let generation := connector.deadlineGeneration + 1
  { connector with deadlineGeneration := generation }.await
    (.deadline connector.attemptLifetime generation connector.connectionPhase)

/-- The operations that are cancelled here run their handlers later, with an error or
without. -/
def finishConnect (failure : ConnectionFailure) (error : Bytes) : Connector :=
  if !connector.connecting then connector
  else
    { connector with
      connecting := false
      attemptLifetime := none
      connectionFailure := failure
      connectError := error
      client :=
        if failure ≠ .none then connector.client
        else { connector.client.finishConnect with reading := true }
      connectCompleted := none
      log := connector.log ++
        (connector.connectCompleted.toList.map fun attempt => .called attempt (failure = .none)) }

def asyncConnect (host : Bytes) (port : UInt16) : Connector :=
  ({ connector with
    attemptLifetime := some connector.attempts
    connectError := []
    connectionFailure := .none
    connectCompleted := some connector.attempts
    connecting := true
    connectionPhase := .resolving
    attempts := connector.attempts + 1 }.note (.started connector.attempts)).armDeadline.await
      (.resolved connector.attempts host port)

def cancelConnect : Connector :=
  if connector.connecting then
    connector.finishConnect .cancelled (ascii "Connection cancelled.")
  else connector

/-- The lambdas of `async_connect` and `arm_deadline`. A throw of `verify_peer` leaves
the executor's loop, and the attempt as it is. -/
def complete (completion : Completion) : Handler → Connector
  | .resolved attempt host port =>
      if connector.expired (some attempt) || !connector.connecting then connector
      else
        match completion.ec with
        | some ec => connector.finishConnect .dns ec.message
        | none =>
            { connector.note (.resolved attempt) with
              connectionPhase := .connecting }.armDeadline.await (.connected attempt host port)
  | .connected attempt host port =>
      if connector.expired (some attempt) || !connector.connecting then connector
      else
        match completion.ec with
        | some ec =>
            connector.finishConnect (if ec.connectionRefused then .refused else .network) ec.message
        | none =>
            if !setup.enabled then (connector.note (.connected attempt)).finishConnect .none []
            else
              let connector := { connector.note (.connected attempt) with
                connectionPhase := .negotiating }.armDeadline
              match setServerName completion.serverName host with
              | .error error => connector.finishConnect .tls error
              | .ok () => connector.await (.handshaken attempt host port)
  | .handshaken attempt host port =>
      if connector.expired (some attempt) || !connector.connecting then connector
      else
        match completion.ec with
        | some ec => connector.finishConnect .tls ec.message
        | none =>
            match verifyPeer completion.surroundings completion.handle host port setup.config
                connector.files with
            | (files, .threw) => { connector with files }
            | (files, .refused error) => { connector with files }.finishConnect .tls error
            | (files, .verified notice) =>
                let client :=
                  if notice.isEmpty then connector.client
                  else connector.client.pushMessage (ascii "[security] " ++ notice)
                ({ connector with files, client }.note (.verified attempt)).finishConnect .none []
  | .deadline lifetime generation _ =>
      if !connector.expired lifetime && completion.ec.isNone && connector.connecting &&
          generation == connector.deadlineGeneration then
        connector.finishConnect .timeout (connector.connectionPhase.text ++ ascii " timed out.")
      else connector

/-- A handler runs once. An attempt is begun only when none is in progress. -/
def step (connector : Connector) : ConnectEvent → Option Connector
  | .asyncConnect host port =>
      if connector.connecting then none else some (connector.asyncConnect host port)
  | .cancelConnect => some connector.cancelConnect
  | .complete handler completion =>
      if handler ∈ connector.pending then
        some ({ connector with pending := connector.pending.erase handler }.complete setup
          completion handler)
      else none
  | .elsewhere client => some { connector with client }

/-- What an attempt has been through when it is in the phase. -/
def path (attempt : Nat) : Phase → List Milestone
  | .idle => []
  | .resolving => [.started attempt]
  | .connecting => [.started attempt, .resolved attempt]
  | .negotiating => [.started attempt, .resolved attempt, .connected attempt]

/-- What an attempt has been through when all of its phases have succeeded. -/
def wholePath (enabled : Bool) (attempt : Nat) : List Milestone :=
  path attempt .negotiating ++ if enabled then [.verified attempt] else []

def past (attempt : Nat) : List Milestone :=
  connector.log.filter fun milestone => milestone.attempt = attempt

/-- The attempt has ended: after a part of its path its callback was called, and with
`true` exactly after the whole path. -/
def Ended (enabled : Bool) (attempt : Nat) (past : List Milestone) : Prop :=
  ∃ passed success, past = passed ++ [.called attempt success] ∧
    passed <+: wholePath enabled attempt ∧ (success = true ↔ passed = wholePath enabled attempt)

end Connector

def Phase.rank : Phase → Nat
  | .idle => 0
  | .resolving => 1
  | .connecting => 2
  | .negotiating => 3

def Handler.lifetime : Handler → Option Nat
  | .resolved attempt _ _ | .connected attempt _ _ | .handshaken attempt _ _ => some attempt
  | .deadline lifetime _ _ => lifetime

def Handler.phase : Handler → Phase
  | .resolved _ _ _ => .resolving
  | .connected _ _ _ => .connecting
  | .handshaken _ _ _ => .negotiating
  | .deadline _ _ phase => phase

def Handler.isOperation : Handler → Bool
  | .resolved _ _ _ | .connected _ _ _ | .handshaken _ _ _ => true
  | .deadline _ _ _ => false

namespace Connector

/-- A handler of the current attempt: an operation is that of the phase in progress, a
timer was armed for it or an earlier one, one generation for each phase since. -/
def Fits (connector : Connector) (handler : Handler) : Prop :=
  match handler with
  | .deadline _ generation phase => ∃ since, phase.rank + since = connector.connectionPhase.rank ∧
      generation + UInt64.ofNat since = connector.deadlineGeneration
  | handler => handler.phase = connector.connectionPhase

/-- The operations of the attempt whose handlers have not run. -/
def operations (connector : Connector) (attempt : Nat) : Nat :=
  connector.pending.countP fun handler =>
    handler.isOperation && handler.lifetime == some attempt

/-- The current attempt is at a phase of its path, every other has ended, and of the
handlers only those of the current attempt can do something. -/
structure Fenced (enabled : Bool) (connector : Connector) : Prop where
  flag : connector.connecting = connector.attemptLifetime.isSome
  quiet : connector.connecting = true → connector.connectionFailure = .none
  current : ∀ attempt, connector.attemptLifetime = some attempt →
    attempt + 1 = connector.attempts ∧ connector.connectCompleted = some attempt ∧
      connector.past attempt = path attempt connector.connectionPhase
  encrypted : enabled = false → connector.attemptLifetime ≠ none →
    connector.connectionPhase ≠ .negotiating
  ended : ∀ attempt < connector.attempts, connector.attemptLifetime ≠ some attempt →
    Ended enabled attempt (connector.past attempt)
  unborn : ∀ attempt, connector.attempts ≤ attempt → connector.past attempt = []
  issued : ∀ handler ∈ connector.pending,
    ∃ attempt < connector.attempts, handler.lifetime = some attempt
  fits : ∀ handler ∈ connector.pending, connector.attemptLifetime = handler.lifetime →
    connector.Fits handler
  single : ∀ attempt, connector.attemptLifetime = some attempt → connector.operations attempt ≤ 1

section Operations

variable {enabled : Bool} {connector : Connector} {attempt : Nat}

theorem past_note (connector : Connector) (milestone : Milestone) (attempt : Nat) :
    (connector.note milestone).past attempt =
      connector.past attempt ++ if milestone.attempt = attempt then [milestone] else [] := by
  simp only [past, note, List.filter_append, List.filter_cons, List.filter_nil,
    decide_eq_true_eq]

/-- What an operation has no hand in may change. -/
theorem Fenced.elsewhere (fenced : Fenced enabled connector) (client : ChatClient)
    (files : FileSystem) : Fenced enabled { connector with client, files } :=
  { fenced with }

theorem Fenced.erase (fenced : Fenced enabled connector) (handler : Handler) :
    Fenced enabled { connector with pending := connector.pending.erase handler } := by
  have kept {other : Handler} (mem : other ∈ connector.pending.erase handler) :
      other ∈ connector.pending := List.mem_of_mem_erase mem
  refine { fenced with issued := ?_, fits := ?_, single := ?_ }
  · intro other mem
    exact fenced.issued other (kept mem)
  · intro other mem live
    exact fenced.fits other (kept mem) live
  · intro attempt live
    exact List.erase_sublist.countP_le.trans (fenced.single attempt live)

/-- With its handler running the current attempt has no operation under way. -/
theorem Fenced.erase_operations (fenced : Fenced enabled connector)
    (live : connector.attemptLifetime = some attempt) {handler : Handler}
    (mem : handler ∈ connector.pending) (operation : handler.isOperation = true)
    (own : handler.lifetime = some attempt) :
    { connector with pending := connector.pending.erase handler }.operations attempt = 0 := by
  have single := fenced.single attempt live
  have counted := List.countP_erase (fun handler : Handler =>
    handler.isOperation && handler.lifetime == some attempt) connector.pending handler
  rw [if_pos ⟨mem, by simp [operation, own]⟩] at counted
  simp only [operations] at single ⊢
  omega

/-- Milestones of one attempt are in its past only. -/
theorem past_append (connector : Connector) {milestones : List Milestone}
    (own : ∀ milestone ∈ milestones, milestone.attempt = attempt) (other : Nat) :
    { connector with log := connector.log ++ milestones }.past other =
      connector.past other ++ if attempt = other then milestones else [] := by
  simp only [past, List.filter_append]
  congr 1
  split
  · next same => exact List.filter_eq_self.mpr fun m mem => by simp [own m mem, same]
  · next apart => exact List.filter_eq_nil_iff.mpr fun m mem => by simp [own m mem, apart]

theorem path_along (enabled : Bool) (attempt : Nat) (phase : Phase) :
    path attempt phase <+: wholePath enabled attempt := by
  refine List.IsPrefix.trans ?_ (List.prefix_append _ _)
  cases phase <;> simp [path]

/-- The end of the current attempt, after some more milestones. -/
theorem Fenced.end (fenced : Fenced enabled connector)
    (live : connector.attemptLifetime = some attempt) (last : List Milestone)
    (own : ∀ milestone ∈ last, milestone.attempt = attempt)
    (along : path attempt connector.connectionPhase ++ last <+: wholePath enabled attempt)
    (failure : ConnectionFailure)
    (whole : failure = .none ↔
      path attempt connector.connectionPhase ++ last = wholePath enabled attempt)
    (error : Bytes) :
    Fenced enabled ({ connector with log := connector.log ++ last }.finishConnect failure error) := by
  obtain ⟨newest, completed, past⟩ := fenced.current attempt live
  have connecting : connector.connecting = true := by simp [fenced.flag, live]
  have called : ∀ milestone ∈ last ++ [.called attempt (failure = .none)],
      milestone.attempt = attempt := by
    intro milestone mem
    obtain mem | mem := List.mem_append.mp mem
    · exact own milestone mem
    · rw [List.mem_singleton.mp mem]
      rfl
  have pasts := past_append connector called
  simp only [finishConnect, connecting, completed, Bool.not_true, Bool.false_eq_true, if_false,
    Option.toList_some, List.map_cons, List.map_nil, List.append_assoc]
  refine ⟨rfl, nofun, nofun, fun _ gone => absurd rfl gone, ?_, ?_, fenced.issued, ?_, nofun⟩
  · intro other started _
    refine (congrArg (Ended enabled other) (pasts other)).mpr ?_
    by_cases same : attempt = other
    · subst same
      rw [if_pos rfl, past, ← List.append_assoc]
      exact ⟨_, _, rfl, along, by simpa using whole⟩
    · rw [if_neg same, List.append_nil]
      exact fenced.ended other started fun now => same (Option.some.inj (live.symm.trans now))
  · intro other unborn
    have apart : attempt ≠ other := by
      have unborn : connector.attempts ≤ other := unborn
      omega
    refine (pasts other).trans ?_
    rw [if_neg apart, List.append_nil]
    exact fenced.unborn other unborn
  · intro handler mem gone
    obtain ⟨issued, -, lifetime⟩ := fenced.issued handler mem
    rw [lifetime] at gone
    cases gone

/-- An attempt that fails ends in the phase it is in. -/
theorem Fenced.fail (fenced : Fenced enabled connector) {failure : ConnectionFailure}
    (failed : failure ≠ .none) (error : Bytes) :
    Fenced enabled (connector.finishConnect failure error) := by
  cases live : connector.attemptLifetime with
  | none =>
      have idle : connector.connecting = false := by simp [fenced.flag, live]
      rwa [finishConnect, idle]
  | some attempt =>
      have short : path attempt connector.connectionPhase ≠ wholePath enabled attempt := by
        have encrypted := fun plain => fenced.encrypted plain (by simp [live])
        cases enabled with
        | false =>
            have early := encrypted rfl
            cases phase : connector.connectionPhase <;>
              simp_all [path, wholePath]
        | true => cases connector.connectionPhase <;> simp [path, wholePath]
      have along := path_along enabled attempt connector.connectionPhase
      have ends := fenced.end live [] nofun (by rwa [List.append_nil]) failure
        (by simp [failed, short]) error
      rwa [List.append_nil] at ends

/-- An attempt succeeds with the last milestone of its path. -/
theorem Fenced.succeed (fenced : Fenced enabled connector)
    (live : connector.attemptLifetime = some attempt) (milestone : Milestone)
    (own : milestone.attempt = attempt)
    (whole : path attempt connector.connectionPhase ++ [milestone] = wholePath enabled attempt) :
    Fenced enabled ((connector.note milestone).finishConnect .none []) := by
  refine fenced.end live [milestone] ?_ (by rw [whole]) .none (by simp [whole]) []
  intro other mem
  rwa [List.mem_singleton.mp mem]

/-- The current attempt goes on to the next phase: the timers of the earlier ones fall
behind by one generation. -/
theorem Fenced.advance (fenced : Fenced enabled connector)
    (live : connector.attemptLifetime = some attempt) (settled : connector.operations attempt = 0)
    (milestone : Milestone) (own : milestone.attempt = attempt) (phase : Phase)
    (along : path attempt phase = path attempt connector.connectionPhase ++ [milestone])
    (next : phase.rank = connector.connectionPhase.rank + 1)
    (encrypted : enabled = false → phase ≠ .negotiating) :
    let advanced := { connector.note milestone with connectionPhase := phase }.armDeadline
    Fenced enabled advanced ∧ advanced.operations attempt = 0 := by
  intro advanced
  obtain ⟨newest, completed, past⟩ := fenced.current attempt live
  have noted := past_note connector milestone
  rw [own] at noted
  have arms : advanced.pending = connector.pending ++
      [.deadline (some attempt) (connector.deadlineGeneration + 1) phase] := by
    simp only [advanced, armDeadline, Connector.await, note, live]
  have timers : advanced.operations attempt = 0 := by
    rw [operations, arms, List.countP_append, ← operations, settled]
    rfl
  refine ⟨⟨fenced.flag, fenced.quiet, ?_, fun plain _ => encrypted plain, ?_, ?_, ?_, ?_, ?_⟩, timers⟩
  · intro other now
    obtain rfl : attempt = other := Option.some.inj (live.symm.trans now)
    refine ⟨newest, completed, (noted attempt).trans ?_⟩
    rw [if_pos rfl, past]
    exact along.symm
  · intro other started gone
    refine (congrArg (Ended enabled other) (noted other)).mpr ?_
    rw [if_neg fun same : attempt = other => gone (same ▸ live), List.append_nil]
    exact fenced.ended other started gone
  · intro other unborn
    have unborn : connector.attempts ≤ other := unborn
    refine (noted other).trans ?_
    rw [if_neg (by omega), List.append_nil]
    exact fenced.unborn other unborn
  · intro handler mem
    rw [arms] at mem
    obtain mem | mem := List.mem_append.mp mem
    · exact fenced.issued handler mem
    · rw [List.mem_singleton.mp mem]
      refine ⟨attempt, ?_, rfl⟩
      show attempt < connector.attempts
      omega
  · intro handler mem now
    rw [arms] at mem
    obtain mem | mem := List.mem_append.mp mem
    · have fits := fenced.fits handler mem now
      have settled := List.countP_eq_zero.mp settled handler mem
      have own : handler.lifetime = some attempt := now.symm.trans live
      cases handler with
      | deadline lifetime generation armed =>
          obtain ⟨since, ranks, generations⟩ := fits
          refine ⟨since + 1, ?_, ?_⟩
          · show armed.rank + (since + 1) = phase.rank
            omega
          · show generation + UInt64.ofNat (since + 1) = connector.deadlineGeneration + 1
            rw [← generations, UInt64.ofNat_add, UInt64.add_assoc]
            rfl
      | resolved _ _ _ | connected _ _ _ | handshaken _ _ _ =>
          exact absurd (by simp [own, Handler.isOperation]) settled
    · rw [List.mem_singleton.mp mem]
      exact ⟨0, rfl, by simp [advanced, armDeadline, Connector.await, note]⟩
  · intro other now
    obtain rfl : attempt = other := Option.some.inj (live.symm.trans now)
    omega

/-- The operation of the phase in progress begins. -/
theorem Fenced.await (fenced : Fenced enabled connector)
    (live : connector.attemptLifetime = some attempt) (settled : connector.operations attempt = 0)
    {handler : Handler} (operation : handler.isOperation = true)
    (own : handler.lifetime = some attempt) (phase : handler.phase = connector.connectionPhase) :
    Fenced enabled (connector.await handler) := by
  obtain ⟨newest, -, -⟩ := fenced.current attempt live
  refine { fenced with issued := ?_, fits := ?_, single := ?_ }
  · intro other mem
    obtain mem | mem := List.mem_append.mp mem
    · exact fenced.issued other mem
    · rw [List.mem_singleton.mp mem]
      exact ⟨attempt, by simp only [Connector.await]; omega, own⟩
  · intro other mem now
    obtain mem | mem := List.mem_append.mp mem
    · exact fenced.fits other mem now
    · rw [List.mem_singleton.mp mem]
      cases handler with
      | deadline _ _ _ => cases operation
      | resolved _ _ _ | connected _ _ _ | handshaken _ _ _ => exact phase
  · intro other now
    obtain rfl : attempt = other := Option.some.inj (live.symm.trans now)
    simp only [operations] at settled
    simp only [operations, Connector.await, List.countP_append, settled, List.countP_singleton]
    split <;> omega

/-- An attempt begins when the one before has ended. -/
theorem Fenced.start (fenced : Fenced enabled connector) (idle : connector.connecting = false)
    (host : Bytes) (port : UInt16) : Fenced enabled (connector.asyncConnect host port) := by
  have none : connector.attemptLifetime = none := by simpa [idle] using fenced.flag
  have fresh : ∀ handler ∈ connector.pending, handler.lifetime ≠ some connector.attempts := by
    intro handler mem same
    obtain ⟨attempt, older, lifetime⟩ := fenced.issued handler mem
    obtain rfl := Option.some.inj (lifetime.symm.trans same)
    omega
  let begun : Connector := { connector with
    attemptLifetime := some connector.attempts
    connectError := []
    connectionFailure := .none
    connectCompleted := some connector.attempts
    connecting := true
    connectionPhase := .idle
    attempts := connector.attempts + 1 }
  have settled : begun.operations connector.attempts = 0 := by
    refine List.countP_eq_zero.mpr fun handler mem => ?_
    simp [fresh handler mem]
  have fenced : Fenced enabled begun := by
    refine ⟨rfl, fun _ => rfl, ?_, fun _ _ => nofun, ?_, ?_, ?_, ?_, ?_⟩
    · intro attempt now
      obtain rfl : connector.attempts = attempt := Option.some.inj now
      exact ⟨rfl, rfl, fenced.unborn _ (Nat.le_refl _)⟩
    · intro attempt started gone
      have apart : connector.attempts ≠ attempt := fun same => gone (congrArg some same)
      have started : attempt < connector.attempts + 1 := started
      exact fenced.ended attempt (by omega) (by simp [none])
    · intro attempt unborn
      have unborn : connector.attempts + 1 ≤ attempt := unborn
      exact fenced.unborn attempt (by omega)
    · intro handler mem
      obtain ⟨attempt, older, lifetime⟩ := fenced.issued handler mem
      exact ⟨attempt, Nat.lt_succ_of_lt older, lifetime⟩
    · intro handler mem now
      exact absurd now.symm (fresh handler mem)
    · intro attempt now
      obtain rfl : connector.attempts = attempt := Option.some.inj now
      omega
  have live : begun.attemptLifetime = some connector.attempts := rfl
  obtain ⟨fenced, settled⟩ := fenced.advance live settled (.started connector.attempts) rfl
    .resolving rfl rfl nofun
  exact fenced.await live settled rfl rfl rfl

end Operations

section Steps

variable {setup : ConnectSetup} {connector connector' : Connector} {attempt : Nat}

theorem expired_of_ne {lifetime : Option Nat} (gone : connector.attemptLifetime ≠ lifetime) :
    connector.expired lifetime = true := by
  simp [expired, Ne.symm gone]

theorem Fenced.guard {enabled : Bool} (fenced : Fenced enabled connector)
    (live : connector.attemptLifetime = some attempt) :
    (connector.expired (some attempt) || !connector.connecting) = false := by
  simp [expired, fenced.flag, live]

/-- Whatever its attempt has left behind, the token is gone. -/
theorem complete_stale (completion : Completion) {handler : Handler}
    (gone : connector.attemptLifetime ≠ handler.lifetime) :
    connector.complete setup completion handler = connector := by
  have expired := expired_of_ne gone
  cases handler with
  | resolved _ _ _ | connected _ _ _ | handshaken _ _ _ =>
      simp only [Handler.lifetime] at expired
      simp only [complete, expired, Bool.true_or, if_true]
  | deadline lifetime generation phase =>
      simp only [Handler.lifetime] at expired
      simp only [complete, expired, Bool.not_true, Bool.false_and, Bool.false_eq_true, if_false]

theorem Fenced.resolve (fenced : Fenced setup.enabled connector)
    (live : connector.attemptLifetime = some attempt) (settled : connector.operations attempt = 0)
    (phase : connector.connectionPhase = .resolving) (completion : Completion) (host : Bytes)
    (port : UInt16) :
    Fenced setup.enabled (connector.complete setup completion (.resolved attempt host port)) := by
  rw [Connector.complete, fenced.guard live, if_neg Bool.false_ne_true]
  cases completion.ec with
  | some ec => exact fenced.fail (by nofun) ec.message
  | none =>
      obtain ⟨advanced, settled⟩ := fenced.advance live settled (.resolved attempt) rfl .connecting
        (by rw [phase]; rfl) (by rw [phase]; rfl) nofun
      exact advanced.await live settled rfl rfl rfl

theorem Fenced.connect (fenced : Fenced setup.enabled connector)
    (live : connector.attemptLifetime = some attempt) (settled : connector.operations attempt = 0)
    (phase : connector.connectionPhase = .connecting) (completion : Completion) (host : Bytes)
    (port : UInt16) :
    Fenced setup.enabled (connector.complete setup completion (.connected attempt host port)) := by
  rw [Connector.complete, fenced.guard live, if_neg Bool.false_ne_true]
  cases completion.ec with
  | some ec => exact fenced.fail (by split <;> nofun) ec.message
  | none =>
      cases enabled : setup.enabled with
      | false =>
          rw [enabled] at fenced
          exact fenced.succeed live (.connected attempt) rfl (by rw [phase]; rfl)
      | true =>
          rw [enabled] at fenced
          obtain ⟨advanced, settled⟩ := fenced.advance live settled (.connected attempt) rfl
            .negotiating (by rw [phase]; rfl) (by rw [phase]; rfl) nofun
          dsimp only
          rw [Bool.not_true, if_neg Bool.false_ne_true]
          split
          · exact advanced.fail (by nofun) _
          · exact advanced.await live settled rfl rfl rfl

theorem Fenced.handshake (fenced : Fenced setup.enabled connector)
    (live : connector.attemptLifetime = some attempt)
    (phase : connector.connectionPhase = .negotiating) (completion : Completion) (host : Bytes)
    (port : UInt16) :
    Fenced setup.enabled (connector.complete setup completion (.handshaken attempt host port)) := by
  have enabled : setup.enabled = true := by
    cases enabled : setup.enabled with
    | true => rfl
    | false => exact absurd phase (fenced.encrypted enabled (by simp [live]))
  rw [Connector.complete, fenced.guard live, if_neg Bool.false_ne_true]
  cases completion.ec with
  | some ec => exact fenced.fail (by nofun) ec.message
  | none =>
      dsimp only
      split
      · exact fenced.elsewhere _ _
      · exact (fenced.elsewhere _ _).fail (by nofun) _
      · next files notice _ =>
          have shown := fenced.elsewhere (if notice.isEmpty then connector.client
            else connector.client.pushMessage (ascii "[security] " ++ notice)) files
          refine shown.succeed live (.verified attempt) rfl ?_
          dsimp only
          rw [phase, enabled]
          rfl

theorem Fenced.complete (fenced : Fenced setup.enabled connector) (completion : Completion)
    {handler : Handler} (mem : handler ∈ connector.pending) :
    Fenced setup.enabled ({ connector with pending := connector.pending.erase handler }.complete
      setup completion handler) := by
  have erased := fenced.erase handler
  by_cases own : connector.attemptLifetime = handler.lifetime
  · have fits := fenced.fits handler mem own
    cases handler with
    | resolved attempt host port =>
        exact erased.resolve own (fenced.erase_operations own mem rfl rfl) fits.symm completion
          host port
    | connected attempt host port =>
        exact erased.connect own (fenced.erase_operations own mem rfl rfl) fits.symm completion
          host port
    | handshaken attempt host port => exact erased.handshake own fits.symm completion host port
    | deadline lifetime generation phase =>
        rw [Connector.complete]
        split
        · exact erased.fail (by nofun) _
        · exact erased
  · have stale : { connector with pending := connector.pending.erase handler }.complete setup
        completion handler = { connector with pending := connector.pending.erase handler } :=
      complete_stale completion own
    rwa [stale]

theorem finishConnect_ne_timeout {failure : ConnectionFailure} (other : failure ≠ .timeout)
    (before : connector.connectionFailure ≠ .timeout) (error : Bytes) :
    (connector.finishConnect failure error).connectionFailure ≠ .timeout := by
  rw [finishConnect]
  split
  · exact before
  · exact other

/-- Operations report no timeout. -/
theorem complete_ne_timeout {handler : Handler} (operation : handler.isOperation = true)
    (before : connector.connectionFailure ≠ .timeout) (completion : Completion) :
    (connector.complete setup completion handler).connectionFailure ≠ .timeout := by
  cases handler with
  | deadline _ _ _ => cases operation
  | resolved attempt host port =>
      rw [Connector.complete]
      split
      · exact before
      · split
        · exact finishConnect_ne_timeout (by nofun) (by exact before) _
        · exact before
  | connected attempt host port =>
      rw [Connector.complete]
      split
      · exact before
      · split
        · exact finishConnect_ne_timeout (by split <;> nofun) (by exact before) _
        · split
          · exact finishConnect_ne_timeout (by nofun) (by exact before) _
          · dsimp only
            split
            · exact finishConnect_ne_timeout (by nofun) (by exact before) _
            · exact before
  | handshaken attempt host port =>
      rw [Connector.complete]
      split
      · exact before
      · split
        · exact finishConnect_ne_timeout (by nofun) (by exact before) _
        · split
          · exact before
          · exact finishConnect_ne_timeout (by nofun) (by exact before) _
          · exact finishConnect_ne_timeout (by nofun) (by exact before) _

theorem rank_injective {phase phase' : Phase} (same : phase.rank = phase'.rank) :
    phase = phase' := by
  cases phase <;> cases phase' <;> first | rfl | cases same

/-- A timer of the current attempt has the generation of the last one only when it was armed for
the phase in progress. -/
theorem Fits.phase {lifetime : Option Nat} {generation : UInt64} {phase : Phase}
    (fits : connector.Fits (.deadline lifetime generation phase))
    (last : generation = connector.deadlineGeneration) : phase = connector.connectionPhase := by
  obtain ⟨since, ranks, generations⟩ := fits
  have bound : connector.connectionPhase.rank ≤ 3 := by
    cases connector.connectionPhase <;> simp [Phase.rank]
  have none : since = 0 := by
    rw [last] at generations
    have value := congrArg UInt64.toNat generations
    have limit := connector.deadlineGeneration.toNat_lt
    rw [UInt64.toNat_add, UInt64.toNat_ofNat'] at value
    omega
  exact rank_injective (by omega)

theorem Fenced.step (fenced : Fenced setup.enabled connector) {event : ConnectEvent}
    (h : step setup connector event = some connector') : Fenced setup.enabled connector' := by
  cases event with
  | asyncConnect host port =>
      simp only [Connector.step, Option.ite_none_left_eq_some] at h
      obtain ⟨idle, h⟩ := h
      obtain rfl := Option.some.inj h
      exact fenced.start (by simpa using idle) host port
  | cancelConnect =>
      obtain rfl := Option.some.inj h
      rw [cancelConnect]
      split
      · exact fenced.fail (by nofun) _
      · exact fenced
  | complete handler completion =>
      simp only [Connector.step, Option.ite_none_right_eq_some] at h
      obtain ⟨mem, h⟩ := h
      obtain rfl := Option.some.inj h
      exact fenced.complete completion mem
  | elsewhere client =>
      obtain rfl := Option.some.inj h
      exact fenced.elsewhere client _

end Steps

section Runs

variable {setup : ConnectSetup} {client : ChatClient} {files : FileSystem}
  {connector : Connector} {events : List ConnectEvent}

theorem start_fenced (client : ChatClient) (files : FileSystem) :
    Fenced setup.enabled { client, files } :=
  ⟨rfl, nofun, nofun, fun _ live => absurd rfl live, nofun, fun _ _ => rfl, nofun, nofun, nofun⟩

theorem run_fenced (h : Run.run (step setup) { client, files } events = some connector) :
    Fenced setup.enabled connector :=
  Run.run_invariant (fun _ _ _ fenced stepped => fenced.step stepped) h
    (start_fenced client files)

/-- The calls of the callback of an attempt. -/
def calls (connector : Connector) (attempt : Nat) : List Milestone :=
  connector.log.filter fun milestone =>
    milestone = .called attempt true || milestone = .called attempt false

theorem mem_past {milestone : Milestone} :
    milestone ∈ connector.past attempt ↔ milestone ∈ connector.log ∧ milestone.attempt = attempt := by
  simp [past]

/-- No attempt calls its callback on the way. -/
theorem called_not_mem_path {enabled success : Bool} {attempt : Nat} {passed : List Milestone}
    (along : passed <+: wholePath enabled attempt) :
    Milestone.called attempt success ∉ passed := by
  intro mem
  have mem := along.subset mem
  cases enabled <;> simp [wholePath, path] at mem

/-- An attempt has been called back exactly when it is no longer the current one. -/
theorem Fenced.called_iff {enabled : Bool} (fenced : Fenced enabled connector) {attempt : Nat}
    (started : attempt < connector.attempts) :
    (∃ success, .called attempt success ∈ connector.log) ↔
      connector.attemptLifetime ≠ some attempt := by
  constructor
  · rintro ⟨success, called⟩ live
    obtain ⟨-, -, past⟩ := fenced.current attempt live
    have called : .called attempt success ∈ connector.past attempt := mem_past.mpr ⟨called, rfl⟩
    rw [past] at called
    exact called_not_mem_path (path_along enabled attempt connector.connectionPhase) called
  · intro gone
    obtain ⟨passed, success, past, -, -⟩ := fenced.ended attempt started gone
    have called : Milestone.called attempt success ∈ connector.past attempt := by simp [past]
    exact ⟨success, (mem_past.mp called).1⟩

theorem Fenced.calls_length {enabled : Bool} (fenced : Fenced enabled connector) (attempt : Nat) :
    (connector.calls attempt).length ≤ 1 := by
  have own : connector.calls attempt = (connector.past attempt).filter fun milestone =>
      milestone = .called attempt true || milestone = .called attempt false := by
    rw [calls, past, List.filter_filter]
    refine List.filter_congr fun milestone _ => ?_
    cases milestone with
    | called other success =>
        by_cases same : other = attempt <;> simp [Milestone.attempt, same]
    | _ => rfl
  have silent {passed : List Milestone} (along : passed <+: wholePath enabled attempt) :
      (passed.filter fun milestone =>
        milestone = .called attempt true || milestone = .called attempt false) = [] := by
    refine List.filter_eq_nil_iff.mpr fun milestone mem called => ?_
    obtain same | same := (Bool.or_eq_true _ _).mp called
    · exact called_not_mem_path along (of_decide_eq_true same ▸ mem)
    · exact called_not_mem_path along (of_decide_eq_true same ▸ mem)
  rw [own]
  by_cases started : attempt < connector.attempts
  · by_cases live : connector.attemptLifetime = some attempt
    · rw [(fenced.current attempt live).2.2, silent (path_along _ _ _)]
      exact Nat.zero_le 1
    · obtain ⟨passed, success, past, along, -⟩ := fenced.ended attempt started live
      rw [past, List.filter_append, silent along]
      exact List.length_filter_le _ _
  · rw [fenced.unborn attempt (by omega)]
    exact Nat.zero_le 1

theorem Fenced.called_true {enabled : Bool} (fenced : Fenced enabled connector) {attempt : Nat}
    (called : .called attempt true ∈ connector.log) :
    connector.past attempt = wholePath enabled attempt ++ [.called attempt true] := by
  have mem : .called attempt true ∈ connector.past attempt := mem_past.mpr ⟨called, rfl⟩
  have started : attempt < connector.attempts := by
    by_contra unborn
    rw [fenced.unborn attempt (by omega)] at mem
    cases mem
  have gone := (fenced.called_iff started).mp ⟨true, called⟩
  obtain ⟨passed, success, past, along, whole⟩ := fenced.ended attempt started gone
  rw [past] at mem ⊢
  obtain mem | mem := List.mem_append.mp mem
  · exact absurd mem (called_not_mem_path along)
  · obtain rfl : success = true := by simpa using mem
    rw [whole.mp rfl]

theorem Fenced.connecting_iff {enabled : Bool} (fenced : Fenced enabled connector) :
    connector.connecting = false ↔
      ∀ attempt < connector.attempts, ∃ success, .called attempt success ∈ connector.log := by
  rw [fenced.flag]
  cases live : connector.attemptLifetime with
  | none =>
      refine iff_of_true rfl fun attempt started => ?_
      exact (fenced.called_iff started).mpr (by simp [live])
  | some attempt =>
      refine iff_of_false nofun fun all => ?_
      have started : attempt < connector.attempts := by
        have newest := (fenced.current attempt live).1
        omega
      exact (fenced.called_iff started).mp (all attempt started) live

theorem Fenced.stale (fenced : Fenced setup.enabled connector) {handler : Handler}
    {completion : Completion} {connector' : Connector} {attempt : Nat}
    (own : handler.lifetime = some attempt)
    (past : (∃ success, .called attempt success ∈ connector.log) ∨
      handler.isOperation = false ∧ handler.phase ≠ connector.connectionPhase)
    (h : Connector.step setup connector (.complete handler completion) = some connector') :
    connector' = { connector with pending := connector.pending.erase handler } := by
  simp only [Connector.step, Option.ite_none_right_eq_some] at h
  obtain ⟨mem, h⟩ := h
  obtain rfl := Option.some.inj h
  by_cases live : connector.attemptLifetime = handler.lifetime
  · have fits := fenced.fits handler mem live
    obtain called | ⟨timer, apart⟩ := past
    · obtain ⟨issuer, started, same⟩ := fenced.issued handler mem
      obtain rfl : attempt = issuer := Option.some.inj (own.symm.trans same)
      exact absurd (live.trans own) ((fenced.called_iff started).mp called)
    · cases handler with
      | resolved _ _ _ | connected _ _ _ | handshaken _ _ _ => cases timer
      | deadline lifetime generation phase =>
          have older : (generation == connector.deadlineGeneration) = false := by
            simp only [beq_eq_false_iff_ne]
            exact fun last => apart (fits.phase last)
          rw [Connector.complete, older, Bool.and_false, if_neg Bool.false_ne_true]
  · exact complete_stale completion live

theorem Fenced.timeout (fenced : Fenced setup.enabled connector) {event : ConnectEvent}
    {connector' : Connector} (h : Connector.step setup connector event = some connector')
    (timeout : connector'.connectionFailure = .timeout) :
    (connector.connectionFailure = .timeout ∧ connector'.log = connector.log) ∨
      ∃ attempt completion, event = .complete
          (.deadline (some attempt) connector.deadlineGeneration connector.connectionPhase)
          completion ∧
        completion.ec = none ∧ connector.attemptLifetime = some attempt ∧
        connector'.log = connector.log ++ [.called attempt false] ∧
        connector'.connectError = connector.connectionPhase.text ++ ascii " timed out." := by
  cases event with
  | asyncConnect host port =>
      simp only [Connector.step, Option.ite_none_left_eq_some] at h
      obtain ⟨-, h⟩ := h
      obtain rfl := Option.some.inj h
      cases timeout
  | cancelConnect =>
      obtain rfl := Option.some.inj h
      rw [cancelConnect] at timeout ⊢
      split at timeout
      · next connecting =>
          have before : connector.connectionFailure ≠ .timeout := by
            rw [fenced.quiet connecting]
            nofun
          exact absurd timeout (finishConnect_ne_timeout (by nofun) before _)
      · next idle => exact .inl ⟨timeout, by rw [if_neg idle]⟩
  | complete handler completion =>
      simp only [Connector.step, Option.ite_none_right_eq_some] at h
      obtain ⟨mem, h⟩ := h
      obtain rfl := Option.some.inj h
      by_cases live : connector.attemptLifetime = handler.lifetime
      · obtain ⟨attempt, started, own⟩ := fenced.issued handler mem
        have connecting : connector.connecting = true := by simp [fenced.flag, live, own]
        have before : connector.connectionFailure ≠ .timeout := by
          rw [fenced.quiet connecting]
          nofun
        cases handler with
        | resolved _ _ _ | connected _ _ _ | handshaken _ _ _ =>
            exact absurd timeout (complete_ne_timeout rfl (by exact before) completion)
        | deadline lifetime generation phase =>
            have fits := fenced.fits _ mem live
            rw [Connector.complete] at timeout ⊢
            split at timeout
            · next fires =>
                rw [if_pos fires]
                simp only [Bool.and_eq_true, beq_iff_eq, Option.isNone_iff_eq_none] at fires
                obtain ⟨⟨⟨-, clean⟩, -⟩, last⟩ := fires
                obtain rfl : lifetime = some attempt := own
                obtain rfl := fits.phase last
                obtain ⟨-, completed, -⟩ := fenced.current attempt live
                refine .inr ⟨attempt, completion, ?_, clean, live, ?_, ?_⟩
                · rw [last]
                · simp [finishConnect, connecting, completed]
                · simp [finishConnect, connecting]
            · exact absurd timeout before
      · have stale : { connector with pending := connector.pending.erase handler }.complete setup
            completion handler = { connector with pending := connector.pending.erase handler } :=
          complete_stale completion live
        rw [stale] at timeout ⊢
        exact .inl ⟨timeout, rfl⟩
  | elsewhere client =>
      obtain rfl := Option.some.inj h
      exact .inl ⟨timeout, rfl⟩

/-- Over every run each attempt calls its callback at most once, and with `true` only
after the whole of its own path; handlers of what has ended change nothing, and only the
timer of the phase in progress reports a timeout. -/
theorem run_attempts (h : Run.run (step setup) { client, files } events = some connector) :
    (∀ attempt, (connector.calls attempt).length ≤ 1) ∧
    (∀ attempt, .called attempt true ∈ connector.log →
      connector.past attempt = wholePath setup.enabled attempt ++ [.called attempt true]) ∧
    (connector.connecting = false ↔
      ∀ attempt < connector.attempts, ∃ success, .called attempt success ∈ connector.log) ∧
    (∀ handler completion connector' attempt,
      step setup connector (.complete handler completion) = some connector' →
      handler.lifetime = some attempt →
      ((∃ success, .called attempt success ∈ connector.log) ∨
        handler.isOperation = false ∧ handler.phase ≠ connector.connectionPhase) →
      connector' = { connector with pending := connector.pending.erase handler }) ∧
    (∀ event connector', step setup connector event = some connector' →
      connector'.connectionFailure = .timeout →
      (connector.connectionFailure = .timeout ∧ connector'.log = connector.log) ∨
        ∃ attempt completion, event = .complete
            (.deadline (some attempt) connector.deadlineGeneration connector.connectionPhase)
            completion ∧
          completion.ec = none ∧ connector.attemptLifetime = some attempt ∧
          connector'.log = connector.log ++ [.called attempt false] ∧
          connector'.connectError = connector.connectionPhase.text ++ ascii " timed out.") := by
  have fenced := run_fenced h
  refine ⟨?_, ?_, ?_, ?_, ?_⟩
  · exact fenced.calls_length
  · exact fun attempt called => fenced.called_true called
  · exact fenced.connecting_iff
  · intro handler completion connector' attempt stepped own past
    exact fenced.stale own past stepped
  · intro event connector' stepped timeout
    exact fenced.timeout stepped timeout

/-- An attempt is cancelled and a second one succeeds; the first one's handler and the
timer of an earlier phase run late. -/
theorem run_attempts_retry :
    let host := ascii "localhost"
    let arrived : Completion :=
      { handle := ⟨none, X509_V_OK, []⟩, surroundings := { defaultTrustStorePath := [] } }
    ∃ connector, Run.run (step { enabled := false, config := { trustStorePath := [] } })
        { client := { connected := false, reading := false }, files := fun _ => none }
        [.asyncConnect host 7777, .cancelConnect, .asyncConnect host 7777,
          .complete (.resolved 0 host 7777) arrived, .complete (.resolved 1 host 7777) arrived,
          .complete (.deadline (some 1) 2 .resolving) arrived,
          .complete (.connected 1 host 7777) arrived] = some connector ∧
      connector.past 1 = wholePath false 1 ++ [.called 1 true] := by
  intro host arrived
  have ends : (Run.run (step { enabled := false, config := { trustStorePath := [] } })
      { client := { connected := false, reading := false }, files := fun _ => none }
      [.asyncConnect host 7777, .cancelConnect, .asyncConnect host 7777,
        .complete (.resolved 0 host 7777) arrived, .complete (.resolved 1 host 7777) arrived,
        .complete (.deadline (some 1) 2 .resolving) arrived,
        .complete (.connected 1 host 7777) arrived]).any
      (fun connector => decide (.called 1 true ∈ connector.log)) = true := by decide +kernel
  obtain ⟨connector, run, called⟩ := (Option.any_eq_true _ _).mp ends
  exact ⟨connector, run, (run_attempts run).2.1 1 (of_decide_eq_true called)⟩

end Runs

end Connector

end Chatbox.Chat
