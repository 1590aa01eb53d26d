import Chatbox.Lib.Fields
import Chatbox.Chat.Drop
import Chatbox.Chat.Session

/-!
What a typed line does. One function takes the lines of the host and of a guest alike; the
words of a command are cut at the spaces, but for a whisper, whose message is taken as it was
typed. The clock is read when the line is handled, so its time comes with the line.
-/

namespace Chatbox.App

open Text Protocol Chat

structure Command where
  name : Bytes
  args : List Bytes
deriving DecidableEq, Repr

inductive ChatInputResult where
  | proceed
  | exit
deriving DecidableEq, Repr

def slash : UInt8 := 47

def space : UInt8 := 32

def parseCommand : Bytes → Option Command
  | [] => none
  | c :: rest =>
      if c ≠ slash then none
      else
        match split space rest with
        | [] => none
        | name :: args => some { name, args := args.filter fun arg => !arg.isEmpty }

/-- `extract_whisper`: the target and the message. -/
def extractWhisper (input : Bytes) : Option (Bytes × Bytes) := do
  let commandEnd ← findFrom input space 0
  let targetStart ← findFirstNotOf input space commandEnd
  let targetEnd ← findFrom input space targetStart
  let messageStart ← findFirstNotOf input space targetEnd
  let target := (input.drop targetStart).take (targetEnd - targetStart)
  let message := input.drop messageStart
  if target.isEmpty || message.isEmpty then none else some (target, message)

/-- `context.server` or `context.client`, whichever there is, with the screen. -/
inductive Seat where
  | server (server : ChatServer)
  | client (client : ChatClient)

structure ChatInputContext where
  localNickname : Bytes
  hostCommandsEnabled : Bool := false
deriving DecidableEq, Repr

namespace Seat

variable (seat : Seat)

def app : Seat → AppState
  | .server host => host.output.host
  | .client guest => guest.app

def onApp (change : AppState → AppState) : Seat → Seat
  | .server host => .server (host.onHost change)
  | .client guest => .client { guest with app := change guest.app }

def push (msg : Bytes) : Seat := seat.onApp fun app => app.pushMessage msg

def pushAll (msgs : List Bytes) : Seat := msgs.foldl push seat

/-- `if (!call(error)) push_message("[system] " + error);` -/
def reported (result : ChatServer × Option Bytes) : Seat :=
  match result.2 with
  | none => .server result.1
  | some error => (Seat.server result.1).push (ascii "[system] " ++ error)

end Seat

def commandHelp : List Bytes :=
  [ascii "[system] === Rooms: /create music, /join music ===",
    ascii "[system] /help                    - Show this help message",
    ascii "[system] /rooms                   - List available rooms",
    ascii "[system] /create <name>           - Create and enter a room",
    ascii "[system] /join <name>             - Switch to a room",
    ascii "[system] /leave                   - Return to the lobby",
    ascii "[system] /topic [text]            - View or set the room topic",
    ascii "[system] === People: /whisper alex hello ===",
    ascii "[system] /users                   - List users in this room",
    ascii "[system] /clear                   - Clear message history",
    ascii "[system] /time                    - Show current time",
    ascii "[system] /whisper <nick> <msg>    - Whisper within this room",
    ascii "[system] /kick <nick> [reason]    - Kick a room member (room creator/host)",
    ascii "[system] /exit                    - Return to server selection",
    ascii "[system] === End Help ==="]

def hostCommandHelp : List Bytes :=
  [ascii "[system] /ban  <nick> [reason] - Ban a user server-wide (host only)",
    ascii "[system] /unban <nick>         - Unban a user (host only)",
    ascii "[system] /bans                 - List server-wide bans"]

/-- The chat line of the host. -/
def hostLine (context : ChatInputContext) (time input : Bytes) : Bytes :=
  ascii "[" ++ time ++ ascii "] " ++ context.localNickname ++ ascii ": " ++ input

section HandleChatInput

variable (env : Env) (context : ChatInputContext) (time : Bytes) (seat : Seat)

/-- The branches of `handle_chat_input` with a command, but for `/exit`. -/
def runCommand (input : Bytes) (cmd : Command) : Seat :=
  if cmd.name = ascii "help" then
    let seat := seat.pushAll commandHelp
    if context.hostCommandsEnabled then seat.pushAll hostCommandHelp else seat
  else if cmd.name = ascii "users" then
    (seat.push (ascii "[system] Users in #" ++ seat.app.activeRoomName ++ ascii ":")).pushAll
      (seat.app.users.map fun user => ascii "[system]   - " ++ user)
  else if cmd.name = ascii "rooms" then
    match seat with
    | .server server => .server (server.showRoomListLocal env)
    | .client client => .client client.requestRooms
  else if cmd.name = ascii "create" then
    match cmd.args, seat with
    | [name], .server server => Seat.reported (server.createLocalRoom env name)
    | [name], .client client => .client (client.send (.createRoom name))
    | _, _ => seat.push (ascii "[system] Usage: /create <name>")
  else if cmd.name = ascii "join" then
    match cmd.args, seat with
    | [name], .server server => Seat.reported (server.joinLocalRoom env name)
    | [name], .client client => .client (client.send (.joinRoom name))
    | _, _ => seat.push (ascii "[system] Usage: /join <name>")
  else if cmd.name = ascii "leave" then
    match cmd.args, seat with
    | [], .server server => Seat.reported (server.leaveLocalRoom env)
    | [], .client client => .client (client.send .leave)
    | _, _ => seat.push (ascii "[system] Usage: /leave")
  else if cmd.name = ascii "topic" then
    match cmd.args, seat with
    | [], .server _ => seat.push (ascii "[system] Topic: " ++
        (if seat.app.activeRoomTopic.isEmpty then ascii "(none)" else seat.app.activeRoomTopic))
    | [], .client client => .client (client.send (.topicRequest none))
    | args, .server server => Seat.reported (server.setLocalTopic env (joinFields args 0 space))
    | args, .client client => .client (client.send (.topicRequest (some (joinFields args 0 space))))
  else if cmd.name = ascii "clear" then
    (seat.onApp AppState.clearMessages).push (ascii "[system] Message history cleared")
  else if cmd.name = ascii "time" then
    seat.push (ascii "[system] Current time: " ++ time)
  else if cmd.name = ascii "whisper" then
    match extractWhisper input, seat with
    | none, _ => seat.push (ascii "[system] Usage: /whisper <nick> <message>")
    | some (target, message), .server server =>
        .server (server.sendPrivate env context.localNickname target message true).1
    | some (target, message), .client client => .client (client.send (.whisper target message))
  else if cmd.name = ascii "kick" then
    match cmd.args, seat with
    | [], _ => seat.push (ascii "[system] Usage: /kick <nick> [reason]")
    | nick :: reason, .server server =>
        if context.hostCommandsEnabled then
          let (server, kicked) := server.kickUser env nick (joinFields reason 0 space)
          if kicked then .server server
          else (Seat.server server).push
            (ascii "[system] User '" ++ nick ++ ascii "' is not in this room")
        else .server server
    | nick :: reason, .client client =>
        .client (client.send (.kickRequest nick (joinFields reason 0 space)))
  else
    let unknown := seat.push (ascii "[system] Unknown command: " ++ cmd.name ++
      ascii ". Type /help.")
    match seat, cmd.args with
    | .client _, _ => unknown
    | .server server, args =>
        if !context.hostCommandsEnabled then unknown
        else if cmd.name = ascii "ban" then
          match args with
          | [] => unknown
          | nick :: reason =>
              (Seat.server (server.banUser env nick (joinFields reason 0 space))).push
                (ascii "[system] " ++ nick ++ ascii " has been banned server-wide")
        else if cmd.name = ascii "unban" then
          match args with
          | [] => unknown
          | nick :: _ =>
              let (server, removed) := server.unbanUser env nick
              (Seat.server server).push
                (if removed then ascii "[system] " ++ nick ++ ascii " has been unbanned"
                else ascii "[system] '" ++ nick ++ ascii "' is not on the ban list")
        else if cmd.name = ascii "bans" then
          let bans := server.tables.bannedNicks.toList
          if bans.isEmpty then seat.push (ascii "[system] Ban list is empty")
          else (seat.push (ascii "[system] Banned users:")).pushAll
            (bans.map fun banned => ascii "[system]   - " ++ banned)
        else unknown

def handleChatInput (input : Bytes) : ChatInputResult × Seat :=
  if input.isEmpty then (.proceed, seat)
  else
    match parseCommand input with
    | none =>
        match seat with
        | .server server => (.proceed, .server (server.broadcast env (hostLine context time input)))
        | .client client => (.proceed, .client (client.send (.chat input)))
    | some cmd =>
        if cmd.name = ascii "exit" then (.exit, seat)
        else (.proceed, runCommand env context time seat input cmd)

end HandleChatInput

section Grammar

variable {input target message : Bytes}

theorem parseCommand_eq_some {cmd : Command} (h : parseCommand input = some cmd) :
    ∃ rest fields, input = slash :: rest ∧ split space rest = cmd.name :: fields ∧
      cmd.args = fields.filter fun arg => !arg.isEmpty := by
  cases input with
  | nil => cases h
  | cons c rest =>
      simp only [parseCommand, ne_eq, ite_not, Option.ite_none_right_eq_some] at h
      obtain ⟨rfl, h⟩ := h
      cases fields : split space rest with
      | nil => simp [fields] at h
      | cons name args =>
          simp only [fields, Option.some.injEq] at h
          subst h
          exact ⟨rest, args, rfl, fields, rfl⟩

/-- The name of a command ends at the first space. -/
theorem parseCommand_append {name rest : Bytes} (whole : space ∉ name) :
    ∃ args, parseCommand (slash :: (name ++ space :: rest)) = some { name, args } := by
  simp [parseCommand, split_item whole]

/-- The two words between the runs of spaces. -/
theorem cut_eq {before word blanks said : Bytes} {n : Nat} (length : blanks.length = n) :
    ((before ++ (word ++ (blanks ++ said))).drop before.length).take
        (before.length + word.length - before.length) = word ∧
      (before ++ (word ++ (blanks ++ said))).drop ((before ++ word).length + n) = said := by
  subst length
  constructor
  · rw [List.drop_left, Nat.add_sub_cancel_left, List.take_left]
  · rw [← List.append_assoc before, ← List.append_assoc, ← List.length_append, List.drop_left]

theorem extractWhisper_eq_some : extractWhisper input = some (target, message) ↔
    ∃ command m n, input = command ++ List.replicate (m + 1) space ++
        (target ++ (List.replicate (n + 1) space ++ message)) ∧
      space ∉ command ∧ space ∉ target ∧ target ≠ [] ∧ message ≠ [] ∧
      message.head? ≠ some space := by
  simp only [extractWhisper, Option.bind_eq_bind, Option.bind_eq_some_iff]
  constructor
  · rintro ⟨commandEnd, first, targetStart, second, targetEnd, third, messageStart, fourth, cut⟩
    obtain ⟨command, rest, rfl, whole, rfl⟩ := (@findFrom_eq_some space [] _ _).mp first
    simp only [List.length_nil, Nat.zero_add] at second
    obtain ⟨m, text, blanks, -, other, rfl⟩ := findFirstNotOf_cons_eq_some.mp second
    rw [blanks, ← List.append_assoc] at third fourth cut
    have start : (command ++ List.replicate (m + 1) space).length = command.length + (m + 1) := by
      simp
    rw [← start] at third cut
    obtain ⟨word, text', rfl, inside, rfl⟩ := findFrom_eq_some.mp third
    rw [← List.length_append, ← List.append_assoc] at fourth
    obtain ⟨n, said, blanks', some, plain, rfl⟩ := findFirstNotOf_cons_eq_some.mp fourth
    obtain ⟨left, right⟩ := @cut_eq (command ++ List.replicate (m + 1) space) word
      (List.replicate (n + 1) space) said (n + 1) List.length_replicate
    rw [blanks', left, right, Option.ite_none_left_eq_some, Option.some.injEq,
      Prod.mk.injEq] at cut
    obtain ⟨-, rfl, rfl⟩ := cut
    refine ⟨command, m, n, ?_, whole, inside, ?_, some, plain⟩
    · rw [blanks, blanks', List.append_assoc]
    · rintro rfl
      exact other rfl
  · rintro ⟨command, m, n, rfl, whole, inside, someTarget, some, plain⟩
    obtain ⟨left, right⟩ := @cut_eq (command ++ List.replicate (m + 1) space) target
      (List.replicate (n + 1) space) message (n + 1) List.length_replicate
    have start : (command ++ List.replicate (m + 1) space).length = command.length + (m + 1) := by
      simp
    have other : (target ++ (List.replicate (n + 1) space ++ message)).head? ≠ Option.some space := by
      cases target with
      | nil => exact absurd rfl someTarget
      | cons c target =>
          intro head
          exact inside (Option.some.inj head ▸ List.mem_cons_self)
    have first : findFrom (command ++ List.replicate (m + 1) space ++
        (target ++ (List.replicate (n + 1) space ++ message))) space 0 =
          Option.some command.length := by
      rw [List.append_assoc]
      exact (@findFrom_eq_some space [] _ _).mpr
        ⟨command, _, rfl, whole, (Nat.zero_add _).symm⟩
    have second : findFirstNotOf (command ++ List.replicate (m + 1) space ++
        (target ++ (List.replicate (n + 1) space ++ message))) space command.length =
          Option.some (command ++ List.replicate (m + 1) space).length := by
      rw [List.append_assoc, start]
      exact findFirstNotOf_cons_eq_some.mpr ⟨m, _, rfl, by simp [some], other, rfl⟩
    have third := (@findFrom_eq_some space (command ++ List.replicate (m + 1) space) _ _).mpr
      ⟨target, List.replicate n space ++ message, rfl, inside, rfl⟩
    have fourth := (@findFirstNotOf_cons_eq_some space
      (command ++ List.replicate (m + 1) space ++ target) _ _).mpr ⟨n, message, rfl, some, plain, rfl⟩
    rw [List.append_assoc _ target, @List.length_append _ _ target] at fourth
    refine ⟨_, first, _, second, _, third, _, fourth, ?_⟩
    rw [left, ← @List.length_append _ _ target, right]
    exact if_neg (by simp [someTarget, some])

end Grammar

end Chatbox.App
