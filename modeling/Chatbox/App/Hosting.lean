import Chatbox.App.Commands
import Chatbox.Chat.Alike
import Chatbox.Chat.Authorship
import Chatbox.Chat.Speaking

/-!
The program of a host: the server on the network thread, and the lines that the host types into
the same process. What the lines do to the server is what its operations do, one at most for
each line; the rest is shown to the host.
-/

namespace Chatbox.App

open Text Protocol Chat Storage

section Operations

variable (context : ChatInputContext) (input : Bytes)

/-- The operation that a command of the host calls. -/
def commandOperation (cmd : Command) : Option Event :=
  if cmd.name = ascii "help" then none
  else if cmd.name = ascii "users" then none
  else if cmd.name = ascii "rooms" then some .showRoomListLocal
  else if cmd.name = ascii "create" then
    match cmd.args with
    | [name] => some (.createLocalRoom name)
    | _ => none
  else if cmd.name = ascii "join" then
    match cmd.args with
    | [name] => some (.joinLocalRoom name)
    | _ => none
  else if cmd.name = ascii "leave" then
    match cmd.args with
    | [] => some .leaveLocalRoom
    | _ => none
  else if cmd.name = ascii "topic" then
    match cmd.args with
    | [] => none
    | args => some (.setLocalTopic (joinFields args 0 space))
  else if cmd.name = ascii "clear" then none
  else if cmd.name = ascii "time" then none
  else if cmd.name = ascii "whisper" then
    (extractWhisper input).map fun (target, message) =>
      .sendPrivate context.localNickname target message true
  else if cmd.name = ascii "kick" then
    match cmd.args with
    | [] => none
    | nick :: reason =>
        if context.hostCommandsEnabled then some (.kickUser nick (joinFields reason 0 space))
        else none
  else if !context.hostCommandsEnabled then none
  else if cmd.name = ascii "ban" then
    match cmd.args with
    | [] => none
    | nick :: reason => some (.banUser nick (joinFields reason 0 space))
  else if cmd.name = ascii "unban" then
    match cmd.args with
    | [] => none
    | nick :: _ => some (.unbanUser nick)
  else none

/-- The operation that a line of the host calls. -/
def operation (time : Bytes) : Option Event :=
  if input.isEmpty then none
  else
    match parseCommand input with
    | none => some (.broadcast (hostLine context time input))
    | some cmd => if cmd.name = ascii "exit" then none else commandOperation context input cmd

end Operations

/-- Only what the host is shown may differ. -/
def screenApart : Hidden where
  session := fun _ => false
  host := true

/-- The seat is a host's; its server is like the other after the operation, if there is one. -/
def Seat.Plays (env : Env) (event : Option Event) (other : ChatServer) (seat : Seat) : Prop :=
  ∃ server other', seat = .server server ∧
    Run.run (step env) other event.toList = some other' ∧ Alike screenApart server other'

section Plays

variable {env : Env} {context : ChatInputContext} {time input : Bytes}
  {server other : ChatServer} {event : Option Event} {seat : Seat}

namespace Seat.Plays

theorem still (h : Alike screenApart server other) : Seat.Plays env none other (.server server) :=
  ⟨server, other, rfl, rfl, h⟩

theorem of {event : Event} {server' : ChatServer} (h : Alike screenApart server other)
    (stepped : step env server event = some server') :
    Seat.Plays env (some event) other (.server server') := by
  obtain ⟨other', moved, alike⟩ := h.step stepped
  exact ⟨server', other', rfl, by simp [Run.run, moved], alike⟩

theorem onApp (h : seat.Plays env event other) (change : AppState → AppState) :
    (seat.onApp change).Plays env event other := by
  obtain ⟨server, other', rfl, run, alike⟩ := h
  exact ⟨server.onHost change, other', rfl, run, alike.onHostHidden rfl change id⟩

theorem pushAll (h : seat.Plays env event other) (msgs : List Bytes) :
    (seat.pushAll msgs).Plays env event other := by
  induction msgs generalizing seat with
  | nil => exact h
  | cons msg msgs ih => exact ih (h.onApp _)

theorem reported {event : Event} {result : ChatServer × Option Bytes}
    (h : Alike screenApart server other) (stepped : step env server event = some result.1) :
    (Seat.reported result).Plays env (some event) other := by
  unfold Seat.reported
  split
  · exact of h stepped
  · exact (of h stepped).onApp _

theorem ite {p : Prop} [Decidable p] {event' : Option Event} {a b : Seat}
    (ha : a.Plays env event other) (hb : b.Plays env event' other) :
    (if p then a else b).Plays env (if p then event else event') other := by
  by_cases h : p
  · rwa [if_pos h, if_pos h]
  · rwa [if_neg h, if_neg h]

end Seat.Plays

theorem runCommand_plays (h : Alike screenApart server other) (cmd : Command) :
    (runCommand env context time (.server server) input cmd).Plays env
      (commandOperation context input cmd) other := by
  have still : Seat.Plays env none other (.server server) := .still h
  unfold runCommand commandOperation
  refine .ite ?help (.ite ?users (.ite ?rooms (.ite ?create (.ite ?join (.ite ?leave (.ite ?topic
    (.ite ?clear (.ite ?time (.ite ?whisper (.ite ?kick ?other))))))))))
  case help =>
    split
    · exact (still.pushAll _).pushAll _
    · exact still.pushAll _
  case users => exact (still.onApp _).pushAll _
  case rooms => exact .of h rfl
  case create =>
    rcases cmd.args with _ | ⟨name, _ | ⟨more, rest⟩⟩
    · exact still.onApp _
    · exact .reported h rfl
    · exact still.onApp _
  case join =>
    rcases cmd.args with _ | ⟨name, _ | ⟨more, rest⟩⟩
    · exact still.onApp _
    · exact .reported h rfl
    · exact still.onApp _
  case leave =>
    cases cmd.args with
    | nil => exact .reported h rfl
    | cons name more => exact still.onApp _
  case topic =>
    cases cmd.args with
    | nil => exact still.onApp _
    | cons name more => exact .reported h rfl
  case clear => exact (still.onApp _).onApp _
  case time => exact still.onApp _
  case whisper =>
    cases extractWhisper input with
    | none => exact still.onApp _
    | some pair => exact .of h rfl
  case kick =>
    cases cmd.args with
    | nil => exact still.onApp _
    | cons nick reason =>
        refine .ite ?_ still
        have kicked : Seat.Plays env (some (.kickUser nick (joinFields reason 0 space))) other
            (.server (server.kickUser env nick (joinFields reason 0 space)).1) := .of h rfl
        simp only
        split
        · exact kicked
        · exact kicked.onApp _
  case other =>
    refine .ite (still.onApp _) (.ite ?ban (.ite ?unban ?bans))
    case ban =>
      cases cmd.args with
      | nil => exact still.onApp _
      | cons nick reason =>
          have banned : Seat.Plays env (some (.banUser nick (joinFields reason 0 space))) other
              (.server (server.banUser env nick (joinFields reason 0 space))) := .of h rfl
          exact banned.onApp _
    case unban =>
      cases cmd.args with
      | nil => exact still.onApp _
      | cons nick rest =>
          have unbanned : Seat.Plays env (some (.unbanUser nick)) other
              (.server (server.unbanUser env nick).1) := .of h rfl
          exact unbanned.onApp _
    case bans =>
      split
      · simp only
        split
        · exact still.onApp _
        · exact (still.onApp _).pushAll _
      · exact still.onApp _

/-- A line of the host is its operation, and shows the rest. -/
theorem handleChatInput_plays (h : Alike screenApart server other) :
    (handleChatInput env context time (.server server) input).2.Plays env
      (operation context input time) other := by
  unfold handleChatInput operation
  split
  · exact .still h
  · cases parseCommand input with
    | none => exact .of h rfl
    | some cmd =>
        simp only
        split
        · exact .still h
        · exact runCommand_plays h cmd

end Plays

/-- What happens in the program of a host. -/
inductive HostAct where
  | network (event : Event)
  | typed (reading : Nat) (input : Bytes)

/-- `left` is set when the chat loop has returned. -/
structure Hosting where
  server : ChatServer
  left : Bool := false

namespace Hosting

/-- The network thread runs the sessions, and the terminal thread the chat loop. -/
def step (env : Env) (context : ChatInputContext) (hosting : Hosting) : HostAct → Option Hosting
  | .network event =>
      if hosting.left || !event.ofClients then none
      else (Chat.step env hosting.server event).map fun server => { hosting with server }
  | .typed reading input =>
      if hosting.left then none
      else
        match handleChatInput env context (env.timestamp reading) (.server hosting.server) input with
        | (result, .server server) => some { server, left := result == .exit }
        | (_, .client _) => none

/-- The server as the chat loop finds it, if the host's key is accepted. -/
def start (env : Env) (context : ChatInputContext) (stored : StoredState) (publicKeyHex : Bytes) :
    Option Hosting :=
  let (server, registered) := (ChatServer.start env stored).registerLocalIdentity env
    context.localNickname publicKeyHex
  if registered then some { server := server.startLocalUser env } else none

/-- The operations that the acts are. -/
def events (env : Env) (context : ChatInputContext) : HostAct → List Event
  | .network event => [event]
  | .typed reading input => (operation context input (env.timestamp reading)).toList

variable {env : Env} {context : ChatInputContext} {stored : StoredState} {publicKeyHex : Bytes}
  {first hosting hosting' : Hosting} {acts : List HostAct}

theorem step_refines {other : ChatServer} {act : HostAct}
    (h : Alike screenApart hosting.server other)
    (stepped : hosting.step env context act = some hosting') :
    ∃ other', Run.run (Chat.step env) other (events env context act) = some other' ∧
      Alike screenApart hosting'.server other' := by
  cases act with
  | network event =>
      simp only [step, Option.ite_none_left_eq_some] at stepped
      obtain ⟨server', moved, rfl⟩ := Option.map_eq_some_iff.mp stepped.2
      obtain ⟨other', moved', alike⟩ := h.step moved
      exact ⟨other', by simp [Run.run, events, moved'], alike⟩
  | typed reading input =>
      obtain ⟨server, other', seat, run, alike⟩ :=
        @handleChatInput_plays env context (env.timestamp reading) input _ _ h
      simp only [step, Option.ite_none_left_eq_some] at stepped
      cases handled : handleChatInput env context (env.timestamp reading) (.server hosting.server)
          input with
      | mk result seat' =>
          rw [handled] at seat
          obtain rfl : seat' = .server server := seat
          simp only [handled, Option.some.injEq] at stepped
          obtain ⟨-, rfl⟩ := stepped
          exact ⟨other', run, alike⟩

theorem start_localRoomId : (ChatServer.start env stored).tables.localRoomId = 0 := by
  unfold ChatServer.start
  simp only
  split <;> simp [ChatServer.onTables]

theorem registerLocalIdentity_localRoomId {server : ChatServer} (nick publicKeyHex : Bytes) :
    (server.registerLocalIdentity env nick publicKeyHex).1.tables.localRoomId =
      server.tables.localRoomId := by
  unfold ChatServer.registerLocalIdentity
  split
  · rfl
  · unfold ChatServer.bindIdentity
    split
    · rfl
    · simp only
      split <;> simp [ChatServer.onTables]

theorem run_alike (started : start env context stored publicKeyHex = some first)
    (h : Run.run (step env context) first acts = some hosting) :
    ∃ server, Run.run (Chat.step env) (ChatServer.start env stored)
        ([.registerLocalIdentity context.localNickname publicKeyHex, .startLocalUser] ++
          acts.flatMap (events env context)) = some server ∧
      Alike screenApart hosting.server server := by
  obtain ⟨server, run, alike⟩ := @Run.run_expansion _ _ (step env context) _ _ (Chat.step env)
    (fun a b => Alike screenApart a.server b) (events env context)
    (fun _ _ _ _ alike stepped => step_refines alike stepped) _ _ _ _ h (.refl first.server)
  refine ⟨server, Run.run_append.mpr ⟨first.server, ?_, run⟩, alike⟩
  have place := @registerLocalIdentity_localRoomId env (ChatServer.start env stored)
    context.localNickname publicKeyHex
  rw [start_localRoomId] at place
  cases registered : (ChatServer.start env stored).registerLocalIdentity env
      context.localNickname publicKeyHex with
  | mk server accepted =>
      rw [registered] at place
      simp only [start, registered, Option.ite_none_right_eq_some, Option.some.injEq] at started
      obtain ⟨-, rfl⟩ := started
      have place : server.tables.localRoomId = 0 := place
      simp [Run.run, Chat.step, registered, place]

theorem trace_alike {a b : ChatServer} (h : Alike screenApart a b) :
    b.output.trace = a.output.trace := by
  have all (trace : Trace) : trace.filter screenApart.shows = trace := by
    refine List.filter_eq_self.mpr fun effect _ => ?_
    cases effect with
    | received s message => cases message <;> rfl
    | _ => rfl
  rw [← all b.output.trace, h.trace, all]

section Evening

/-- The host hal. -/
def hal : Env := { Env.plain with config := { localNickname := ascii "hal" } }

def halContext : ChatInputContext := { localNickname := ascii "hal", hostCommandsEnabled := true }

/-- Somebody comes, both say something, and the host ends it. -/
def evening : List HostAct :=
  (visit 7 (ascii "ann")).map .network ++ [.typed 0 (ascii "hello"),
    .network (.line 7 (clientFrame (.chat (ascii "hi")))), .typed 1 (ascii "/kick ann late")]

theorem exists_evening (p : Hosting → Prop) [DecidablePred p]
    (h : ((start hal halContext emptyStore (List.replicate 64 48)).bind fun first =>
      Run.run (step hal halContext) first evening).any (fun hosting => p hosting) = true) :
    ∃ first hosting, start hal halContext emptyStore (List.replicate 64 48) = some first ∧
      Run.run (step hal halContext) first evening = some hosting ∧ p hosting := by
  obtain ⟨hosting, found, holds⟩ := (Option.any_eq_true _ _).mp h
  obtain ⟨first, started, run⟩ := Option.bind_eq_some_iff.mp found
  exact ⟨first, hosting, started, run, by simpa using holds⟩

end Evening

/-- The program of a host does what a server does whose operations are called: after every run
the two have the same rooms, sessions, bindings and bans, have sent the same to everyone and have
done the same in the same order. -/
theorem run_refines (started : start env context stored publicKeyHex = some first)
    (h : Run.run (step env context) first acts = some hosting) :
    ∃ server, Run.run (Chat.step env) (ChatServer.start env stored)
        ([.registerLocalIdentity context.localNickname publicKeyHex, .startLocalUser] ++
          acts.flatMap (events env context)) = some server ∧
      server.tables = hosting.server.tables ∧ server.output.wire = hosting.server.output.wire ∧
      server.output.trace = hosting.server.output.trace := by
  obtain ⟨server, run, alike⟩ := run_alike started h
  exact ⟨server, run, alike.tables, funext fun s => alike.wire s rfl, trace_alike alike⟩

theorem run_refines_evening : ∃ (hosting : Hosting) (server : ChatServer),
    (hosting.server.tables.session 7).activeRoomId = 0 ∧
    Run.run (Chat.step hal) (ChatServer.start hal emptyStore)
      ([.registerLocalIdentity (ascii "hal") (List.replicate 64 48), .startLocalUser] ++
        evening.flatMap (events hal halContext)) = some server ∧
      server.tables = hosting.server.tables := by
  obtain ⟨first, hosting, started, run, gone⟩ :=
    exists_evening (fun hosting => (hosting.server.tables.session 7).activeRoomId = 0)
      (by decide +kernel)
  obtain ⟨server, runs, tables, -⟩ := run_refines started run
  exact ⟨hosting, server, gone, runs, tables⟩

section Authorship

theorem commandOperation_quiet {input line : Bytes} (cmd : Command) :
    commandOperation context input cmd ≠ some (.broadcast line) := by
  have either {p : Prop} [Decidable p] {a b : Option Event} (ha : a ≠ some (.broadcast line))
      (hb : b ≠ some (.broadcast line)) : (if p then a else b) ≠ some (.broadcast line) := by
    split
    · exact ha
    · exact hb
  have absent : none ≠ some (Event.broadcast line) := by simp
  unfold commandOperation
  refine either absent (either absent (either ?rooms (either ?create (either ?join (either ?leave
    (either ?topic (either absent (either absent (either ?whisper (either ?kick (either absent
      (either ?ban (either ?unban absent)))))))))))))
  case rooms => simp
  case create => rcases cmd.args with _ | ⟨name, _ | ⟨more, rest⟩⟩ <;> simp
  case join => rcases cmd.args with _ | ⟨name, _ | ⟨more, rest⟩⟩ <;> simp
  case leave => cases cmd.args <;> simp
  case topic => cases cmd.args <;> simp
  case whisper => cases extractWhisper input <;> simp
  case kick =>
    cases cmd.args with
    | nil => exact absent
    | cons nick reason => exact either (by simp) absent
  case ban => cases cmd.args <;> simp
  case unban => cases cmd.args <;> simp

/-- Only a line that is no command is broadcast. -/
theorem operation_broadcast {input time line : Bytes}
    (h : operation context input time = some (.broadcast line)) :
    parseCommand input = none ∧ line = hostLine context time input := by
  simp only [operation, Option.ite_none_left_eq_some] at h
  obtain ⟨-, h⟩ := h
  cases parsed : parseCommand input with
  | none =>
      simp only [parsed, Option.some.injEq, Event.broadcast.injEq] at h
      exact ⟨rfl, h.symm⟩
  | some cmd =>
      simp only [parsed, Option.ite_none_left_eq_some] at h
      exact absurd h.2 (commandOperation_quiet cmd)

theorem network_ofClients {event : Event}
    (h : Run.run (step env context) first acts = some hosting) (member : .network event ∈ acts) :
    event.ofClients = true := by
  have asked (a : Hosting) (act : HostAct) (b : Hosting) (stepped : step env context a act = some b) :
      ∀ event, act = .network event → event.ofClients = true := by
    rintro event rfl
    simp only [step, Option.ite_none_left_eq_some] at stepped
    simpa using And.right (by simpa using stepped.1)
  exact Run.run_forall asked h _ member event rfl

theorem broadcast_typed {line : Bytes} (h : Run.run (step env context) first acts = some hosting)
    (told : .broadcast line ∈ acts.flatMap (events env context)) :
    ∃ reading input, .typed reading input ∈ acts ∧ parseCommand input = none ∧
      line = ChatServer.chatLine env reading context.localNickname input := by
  obtain ⟨act, member, told⟩ := List.mem_flatMap.mp told
  cases act with
  | network event =>
      obtain rfl := List.mem_singleton.mp told
      cases network_ofClients h member
  | typed reading input =>
      obtain ⟨plain, rfl⟩ := operation_broadcast (Option.mem_toList.mp told)
      exact ⟨reading, input, member, plain, rfl⟩

theorem start_valid (started : start env context stored publicKeyHex = some first) :
    isValidNickname context.localNickname = true := by
  by_contra invalid
  have refused : (ChatServer.start env stored).tables.identityAvailableFor context.localNickname
      publicKeyHex = some (ascii "Invalid nickname") := by
    simp [ServerTables.identityAvailableFor, invalid]
  simp [start, ChatServer.registerLocalIdentity, refused] at started

/-- In the program of a host every recorded line that reads as said under a nickname was typed
by the host under the host's own nickname, or it was sent by a session that had proved the key
the nickname is bound to. -/
theorem run_hosted_authors (started : start env context stored publicKeyHex = some first)
    (h : Run.run (step env context) first acts = some hosting)
    {before after : Trace} {roomId : RoomId} {nickname body line : Bytes}
    (place : hosting.server.output.trace = before ++ .recorded roomId line :: after)
    (valid : isValidNickname nickname = true) (reads : ReadsAs nickname body line) :
    (nickname = context.localNickname ∧ parseCommand body = none ∧
        ∃ reading, .typed reading body ∈ acts) ∨
      Authored env before hosting.server.tables.identities nickname body := by
  obtain ⟨server, run, alike⟩ := run_alike started h
  rw [← trace_alike alike] at place
  obtain said | authored := run_authors run place valid reads
  · have typed : .broadcast line ∈ acts.flatMap (events env context) := by simpa using said
    obtain ⟨reading, input, member, plain, rfl⟩ := broadcast_typed h typed
    obtain ⟨rfl, rfl⟩ := reads.unique (chatLine_readsAs reading) valid (start_valid started)
    exact .inl ⟨rfl, plain, reading, member⟩
  · rw [alike.tables] at authored
    exact .inr authored

theorem run_hosted_authors_evening : ∃ (hosting : Hosting) (before : Trace),
    Authored hal before hosting.server.tables.identities (ascii "ann") (ascii "hi") := by
  obtain ⟨first, hosting, started, run, recorded⟩ := exists_evening
    (fun hosting => .recorded 1 (ascii "[12:30:00] ann: hi") ∈ hosting.server.output.trace)
    (by decide +kernel)
  obtain ⟨before, after, place⟩ := List.append_of_mem recorded
  have reads : ReadsAs (ascii "ann") (ascii "hi") (ascii "[12:30:00] ann: hi") :=
    ⟨ascii "12:30:00", ⟨by decide +kernel, by decide +kernel⟩, by decide +kernel⟩
  obtain ⟨own, -⟩ | authored := run_hosted_authors started run place (by decide) reads
  · exact absurd own (by decide)
  · exact ⟨hosting, before, authored⟩

end Authorship

end Hosting

end Chatbox.App
