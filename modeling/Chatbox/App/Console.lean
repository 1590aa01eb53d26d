import Chatbox.Chat.Authorship
import Chatbox.Chat.Speaking
import Chatbox.Lib.Fields

/-!
The console of a dedicated server. Its words are cut at single spaces, so two spaces in a row
make an empty word. A line calls one operation of the server at most, and none of them puts a
line into a history that could be taken for a user's.
-/

namespace Chatbox.App

open Text Protocol Chat Storage

/-- What goes to `std::cout`: the usage, or a line. -/
inductive ConsoleOutput where
  | usage
  | line (text : Bytes)
deriving DecidableEq, Repr

/-- `users_in_room` -/
def usersInRoom (env : Env) (tables : ServerTables) (name : Bytes) : Except Bytes (List Bytes) :=
  match tables.findRoomByName name with
  | none => .error (ChatServer.noSuchRoom name)
  | some (roomId, room) => .ok (tables.userNicknames env roomId room.members)

/-- The loop of `admin_console`: the server, what has been written, and whether it has been
asked to quit. -/
structure AdminConsole where
  server : ChatServer
  output : List ConsoleOutput := [.usage]
  quit : Bool := false

namespace AdminConsole

variable (env : Env) (console : AdminConsole)

def write (text : Bytes) : AdminConsole :=
  { console with output := console.output ++ [.line text] }

def writeAll (texts : List Bytes) : AdminConsole := texts.foldl write console

/-- `if (call(error)) std::cout << done << "\n"; else std::cout << error << "\n";` -/
def answered (done : Bytes) (result : ChatServer × Option Bytes) : AdminConsole :=
  { console with server := result.1 }.write (result.2.getD done)

def listed (texts : List Bytes) : List Bytes := texts.map fun text => ascii "  - " ++ text

/-- The branches of `admin_console` for the words of a line. -/
def runWords (parts : List Bytes) : AdminConsole :=
  let cmd := parts.getD 0 []
  let first := parts.getD 1 []
  let second := parts.getD 2 []
  let server := console.server
  if cmd = ascii "/quit" ∨ cmd = ascii "/exit" then { console with quit := true }
  else if cmd = ascii "/help" then { console with output := console.output ++ [.usage] }
  else if cmd = ascii "/rooms" then
    console.writeAll ((server.tables.roomList env).map fun room =>
      ascii "  - " ++ room.name ++ ascii " (" ++ toDecimal room.userCount.toNat ++ ascii ")")
  else if cmd = ascii "/create" ∧ parts.length = 2 then
    console.answered (ascii "Created room: " ++ first) (server.createAdminRoom env first)
  else if cmd = ascii "/users" ∧ parts.length = 2 then
    match usersInRoom env server.tables first with
    | .error error => console.write error
    | .ok [] => console.write (ascii "(no users in #" ++ first ++ ascii ")")
    | .ok users => console.writeAll (listed users)
  else if cmd = ascii "/topic" ∧ 3 ≤ parts.length then
    console.answered (ascii "Updated topic for #" ++ first)
      (server.setAdminTopic env first (joinFields parts 2 32))
  else if cmd = ascii "/kick" ∧ 3 ≤ parts.length then
    console.answered (ascii "Kicked " ++ second ++ ascii " from #" ++ first)
      (server.kickUserInRoomNamed env first second (joinFields parts 3 32))
  else if cmd = ascii "/ban" ∧ 2 ≤ parts.length then
    { console with server := server.banUser env first (joinFields parts 2 32) }.write
      (ascii "Banned: " ++ first)
  else if cmd = ascii "/unban" ∧ 2 ≤ parts.length then
    let (server, removed) := server.unbanUser env first
    { console with server }.write
      (if removed then ascii "Unbanned: " ++ first else ascii "Not in ban list: " ++ first)
  else if cmd = ascii "/bans" then
    match server.tables.bannedNicks.toList with
    | [] => console.write (ascii "(ban list is empty)")
    | bans => console.writeAll (listed bans)
  else if cmd = ascii "/broadcast" ∧ 2 ≤ parts.length then
    { console with server := server.broadcastServer env (joinFields parts 1 32) }
  else console.write (ascii "Unknown command. Type /help for a list.")

/-- One round of the loop. -/
def onLine (line : Bytes) : AdminConsole :=
  if line.isEmpty || (split 32 line).isEmpty then console else console.runWords env (split 32 line)

end AdminConsole

/-- What happens in the program of a dedicated server. -/
inductive DedicatedAct where
  | network (event : Event)
  | typed (line : Bytes)

namespace AdminConsole

def step (env : Env) (console : AdminConsole) : DedicatedAct → Option AdminConsole
  | .network event =>
      if console.quit || !event.ofClients then none
      else (Chat.step env console.server event).map fun server => { console with server }
  | .typed line => if console.quit then none else some (console.onLine env line)

def start (env : Env) (stored : StoredState) : AdminConsole :=
  { server := ChatServer.start env stored }

/-- The operation that the words of a line call. -/
def wordsOperation (parts : List Bytes) : Option Event :=
  let cmd := parts.getD 0 []
  let first := parts.getD 1 []
  let second := parts.getD 2 []
  if cmd = ascii "/quit" ∨ cmd = ascii "/exit" then none
  else if cmd = ascii "/help" then none
  else if cmd = ascii "/rooms" then none
  else if cmd = ascii "/create" ∧ parts.length = 2 then some (.createAdminRoom first)
  else if cmd = ascii "/users" ∧ parts.length = 2 then none
  else if cmd = ascii "/topic" ∧ 3 ≤ parts.length then
    some (.setAdminTopic first (joinFields parts 2 32))
  else if cmd = ascii "/kick" ∧ 3 ≤ parts.length then
    some (.kickUserInRoom first second (joinFields parts 3 32))
  else if cmd = ascii "/ban" ∧ 2 ≤ parts.length then some (.banUser first (joinFields parts 2 32))
  else if cmd = ascii "/unban" ∧ 2 ≤ parts.length then some (.unbanUser first)
  else if cmd = ascii "/bans" then none
  else if cmd = ascii "/broadcast" ∧ 2 ≤ parts.length then
    some (.broadcastServer (joinFields parts 1 32))
  else none

def lineOperation (line : Bytes) : Option Event :=
  if line.isEmpty || (split 32 line).isEmpty then none else wordsOperation (split 32 line)

/-- The operations that an act is. -/
def events : DedicatedAct → List Event
  | .network event => [event]
  | .typed line => (lineOperation line).toList

section Refinement

variable {env : Env} {console console' : AdminConsole} {event : Option Event}

/-- The one console comes from the other by the operation, if there is one. -/
def Calls (env : Env) (event : Option Event) (console console' : AdminConsole) : Prop :=
  Run.run (Chat.step env) console.server event.toList = some console'.server

namespace Calls

theorem still (h : console'.server = console.server) : Calls env none console console' := by
  simp [Calls, Run.run, h]

theorem of {event : Event} (h : Chat.step env console.server event = some console'.server) :
    Calls env (some event) console console' := by
  simp [Calls, Run.run, h]

theorem ite {p : Prop} [Decidable p] {event' : Option Event} {a b : AdminConsole}
    (ha : Calls env event console a) (hb : Calls env event' console b) :
    Calls env (if p then event else event') console (if p then a else b) := by
  by_cases h : p
  · rwa [if_pos h, if_pos h]
  · rwa [if_neg h, if_neg h]

end Calls

@[simp] theorem write_server (text : Bytes) : (console.write text).server = console.server := rfl

@[simp] theorem writeAll_server (texts : List Bytes) :
    (console.writeAll texts).server = console.server := by
  unfold writeAll
  induction texts generalizing console with
  | nil => rfl
  | cons text texts ih => exact ih

theorem runWords_calls (parts : List Bytes) :
    Calls env (wordsOperation parts) console (console.runWords env parts) := by
  unfold wordsOperation runWords
  refine .ite (.still rfl) (.ite (.still rfl) (.ite ?rooms (.ite (.of rfl) (.ite ?users
    (.ite (.of rfl) (.ite (.of rfl) (.ite (.of rfl) (.ite (.of rfl) (.ite ?bans
      (.ite (.of rfl) (.still rfl)))))))))))
  case rooms => exact .still (writeAll_server _)
  case users =>
    split
    · exact .still rfl
    · exact .still rfl
    · exact .still (writeAll_server _)
  case bans =>
    split
    · exact .still rfl
    · exact .still (writeAll_server _)

theorem onLine_calls (line : Bytes) :
    Calls env (lineOperation line) console (console.onLine env line) := by
  unfold lineOperation onLine
  exact .ite (.still rfl) (runWords_calls _)

variable {stored : StoredState} {acts : List DedicatedAct}

/-- The program of a dedicated server does what its server does whose operations are called. -/
theorem run_calls (h : Run.run (step env) (start env stored) acts = some console) :
    Run.run (Chat.step env) (ChatServer.start env stored) (acts.flatMap events) =
      some console.server := by
  have each (a : AdminConsole) (b : ChatServer) (act : DedicatedAct) (a' : AdminConsole)
      (same : a.server = b) (stepped : step env a act = some a') :
      ∃ b', Run.run (Chat.step env) b (events act) = some b' ∧ a'.server = b' := by
    subst same
    cases act with
    | network event =>
        simp only [step, Option.ite_none_left_eq_some] at stepped
        obtain ⟨server, moved, rfl⟩ := Option.map_eq_some_iff.mp stepped.2
        exact ⟨server, by simp [Run.run, events, moved], rfl⟩
    | typed line =>
        simp only [step, Option.ite_none_left_eq_some, Option.some.injEq] at stepped
        obtain ⟨-, rfl⟩ := stepped
        exact ⟨_, onLine_calls line, rfl⟩
  obtain ⟨server, run, rfl⟩ := Run.run_expansion events each h rfl
  exact run

theorem network_ofClients {event : Event} {first : AdminConsole}
    (h : Run.run (step env) first acts = some console) (member : .network event ∈ acts) :
    event.ofClients = true := by
  have asked (a : AdminConsole) (act : DedicatedAct) (b : AdminConsole)
      (stepped : step env a act = some b) : ∀ event, act = .network event →
        event.ofClients = true := by
    rintro event rfl
    simp only [step, Option.ite_none_left_eq_some] at stepped
    exact And.right (by simpa using stepped.1)
  exact Run.run_forall asked h _ member event rfl

theorem wordsOperation_quiet {line : Bytes} (parts : List Bytes) :
    wordsOperation parts ≠ some (.broadcast line) := by
  have either {p : Prop} [Decidable p] {a b : Option Event} (ha : a ≠ some (.broadcast line))
      (hb : b ≠ some (.broadcast line)) : (if p then a else b) ≠ some (.broadcast line) := by
    split
    · exact ha
    · exact hb
  unfold wordsOperation
  repeat' refine either ?_ ?_
  all_goals simp

/-- On a dedicated server, whatever is typed at its console, every recorded line that reads as
said under a nickname was sent by a session that had proved the key the nickname is bound to. -/
theorem run_dedicated_authors (h : Run.run (step env) (start env stored) acts = some console)
    {before after : Trace} {roomId : RoomId} {nickname body line : Bytes}
    (place : console.server.output.trace = before ++ .recorded roomId line :: after)
    (valid : isValidNickname nickname = true) (reads : ReadsAs nickname body line) :
    Authored env before console.server.tables.identities nickname body := by
  obtain said | authored := run_authors (run_calls h) place valid reads
  · obtain ⟨act, member, told⟩ := List.mem_flatMap.mp said
    cases act with
    | network event =>
        obtain rfl := List.mem_singleton.mp told
        cases network_ofClients h member
    | typed text =>
        have operation := Option.mem_toList.mp told
        simp only [lineOperation, Option.ite_none_left_eq_some] at operation
        exact absurd operation.2 (wordsOperation_quiet _)
  · exact authored

theorem run_dedicated_authors_hi : ∃ (console : AdminConsole) (before : Trace),
    Authored .plain before console.server.tables.identities (ascii "ann") (ascii "hi") := by
  have found : (Run.run (step .plain) (start .plain emptyStore)
      ((visit 7 (ascii "ann")).map .network ++ [.typed (ascii "/broadcast [12:30:00] ann: no"),
        .network (.line 7 (clientFrame (.chat (ascii "hi"))))])).any (fun console => decide
          (.recorded 1 (ascii "[12:30:00] ann: hi") ∈ console.server.output.trace)) = true := by
    decide +kernel
  obtain ⟨console, run, recorded⟩ := (Option.any_eq_true _ _).mp found
  obtain ⟨before, after, place⟩ := List.append_of_mem (of_decide_eq_true recorded)
  have reads : ReadsAs (ascii "ann") (ascii "hi") (ascii "[12:30:00] ann: hi") :=
    ⟨ascii "12:30:00", ⟨by decide +kernel, by decide +kernel⟩, by decide +kernel⟩
  exact ⟨console, before, run_dedicated_authors run place (by decide) reads⟩

end Refinement

end AdminConsole

end Chatbox.App
