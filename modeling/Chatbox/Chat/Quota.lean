import Chatbox.Chat.Session
import Chatbox.Lib.SlidingWindow
import Mathlib.Order.Monotone.Basic

/-!
The message quota of a session over all sequences of calls. The queues that the session
keeps for its rooms are as good as the history of all its calls.
-/

namespace Chatbox.Chat

open SlidingWindow Protocol

/-- Nanoseconds. -/
def rateLimitWindow : Int := RATE_LIMIT_WINDOW_SECONDS * 1000000000

/-- The calls of `consume_message_quota` that a session has made, each with the room it
was in and the reading of the clock. What happens in between may move the session and
read clocks, and leaves its queues alone. -/
inductive Asked (env : Env) (s : SessionId) : ChatServer → List (Answer RoomId) → Prop where
  | fresh {server : ChatServer}
      (none : (server.tables.session s).recentMessagesByRoom = fun _ => []) : Asked env s server []
  | between {server server' : ChatServer} {history : List (Answer RoomId)}
      (asked : Asked env s server history)
      (kept : (server'.tables.session s).recentMessagesByRoom =
        (server.tables.session s).recentMessagesByRoom)
      (later : server.output.readings ≤ server'.output.readings) : Asked env s server' history
  | call {server : ChatServer} {history : List (Answer RoomId)}
      (asked : Asked env s server history) :
      Asked env s (server.consumeMessageQuota env s).2
        (history ++ [⟨(server.tables.session s).activeRoomId,
          env.steadyNow server.output.readings, (server.consumeMessageQuota env s).1⟩])

section Call

variable {env : Env} {s : SessionId} {server : ChatServer} {history : List (Answer RoomId)}

/-- One call, told by the times its queue still holds. -/
theorem consumeMessageQuota_eq (env : Env) (server : ChatServer) (s : SessionId) :
    let roomId := (server.tables.session s).activeRoomId
    let queue := (server.tables.session s).recentMessagesByRoom
    let now := env.steadyNow server.output.readings
    let recent := (queue roomId).dropWhile fun time => now - time > rateLimitWindow
    (server.consumeMessageQuota env s).1 = decide (recent.length < RATE_LIMIT_MESSAGES) ∧
      ((server.consumeMessageQuota env s).2.tables.session s).recentMessagesByRoom =
        Function.update queue roomId
          (recent ++ if (server.consumeMessageQuota env s).1 then [now] else []) ∧
      (server.consumeMessageQuota env s).2.output.readings = server.output.readings + 1 := by
  intro roomId queue now recent
  refine ⟨rfl, ?_, rfl⟩
  have accepted : (server.consumeMessageQuota env s).1 =
      decide (recent.length < RATE_LIMIT_MESSAGES) := rfl
  rw [accepted]
  simp only [ChatServer.consumeMessageQuota, ChatServer.updateSession, ChatServer.onTables,
    ServerTables.updateSession, Function.update_self]
  by_cases room : recent.length < RATE_LIMIT_MESSAGES
  · simp only [room, decide_true, if_true]
    exact congrArg _ (if_pos room)
  · simp only [room, decide_false, Bool.false_eq_true, if_false, List.append_nil]
    exact congrArg _ (if_neg room)

/-- What is known after some calls. -/
structure Metered (env : Env) (s : SessionId) (server : ChatServer)
    (history : List (Answer RoomId)) : Prop where
  limited : Limited RATE_LIMIT_MESSAGES rateLimitWindow history
  timely : Chronological history
  kept : Kept rateLimitWindow history (server.tables.session s).recentMessagesByRoom
  past : ∀ answer ∈ history, answer.time ≤ env.steadyNow server.output.readings

theorem Metered.call (clock : Monotone env.steadyNow) (metered : Metered env s server history) :
    Metered env s (server.consumeMessageQuota env s).2
      (history ++ [⟨(server.tables.session s).activeRoomId,
        env.steadyNow server.output.readings, (server.consumeMessageQuota env s).1⟩]) := by
  obtain ⟨limited, timely, kept, past⟩ := metered
  obtain ⟨accepted, queue, readings⟩ := consumeMessageQuota_eq env server s
  have recent := kept (server.tables.session s).activeRoomId
    (env.steadyNow server.output.readings) past
  have next : env.steadyNow server.output.readings ≤
      env.steadyNow (server.consumeMessageQuota env s).2.output.readings :=
    clock (by omega)
  refine ⟨limited_snoc.mpr ⟨limited, ?_⟩, timely.snoc past, ?_, ?_⟩
  · rw [accepted, recent]
    simp
  · rw [queue, recent]
    exact kept.push timely past _
  · intro answer mem
    obtain mem | mem := List.mem_append.mp mem
    · exact (past answer mem).trans next
    · obtain rfl := List.mem_singleton.mp mem
      exact next

theorem Asked.metered (clock : Monotone env.steadyNow) (asked : Asked env s server history) :
    Metered env s server history := by
  induction asked with
  | fresh none =>
      refine ⟨?_, List.Pairwise.nil, ?_, fun _ mem => absurd mem List.not_mem_nil⟩
      · intro before answer after same
        simp at same
      · rw [none]
        exact kept_nil _
  | between _ kept later ih =>
      refine ⟨ih.limited, ih.timely, kept ▸ ih.kept, ?_⟩
      intro answer mem
      exact (ih.past answer mem).trans (clock later)
  | call _ ih => exact ih.call clock

end Call

/-- A call is accepted exactly when the session has had fewer accepted calls in the
room within the window than the limit. So no window holds more of them, and rejected
calls change no answer: a session that makes the same calls without one that is rejected
gets the same answers. -/
theorem asked_limited {env : Env} {s : SessionId} {server : ChatServer}
    {history : List (Answer RoomId)} (clock : Monotone env.steadyNow)
    (asked : Asked env s server history) :
    (∀ before answer after, history = before ++ answer :: after →
      (answer.accepted = true ↔
        (since before answer.kind (answer.time - rateLimitWindow)).length <
          RATE_LIMIT_MESSAGES)) ∧
      (∀ roomId start, ((since history roomId start).filter fun time =>
        time ≤ start + rateLimitWindow).length ≤ RATE_LIMIT_MESSAGES) ∧
      (∀ before rejected after (env' : Env) s' server' history',
        history = before ++ rejected :: after → rejected.accepted = false →
        Monotone env'.steadyNow → Asked env' s' server' history' →
        history'.map (fun answer => (answer.kind, answer.time)) =
          (before ++ after).map (fun answer => (answer.kind, answer.time)) →
        history' = before ++ after) := by
  obtain ⟨limited, timely, -, -⟩ := asked.metered clock
  refine ⟨limited, limited.window_le timely, ?_⟩
  intro before rejected after env' s' server' history' split no clock' asked' same
  subst split
  exact (limited.erase no).unique (asked'.metered clock').limited same

/-- Calls of a session that has gone to a room before each of them. -/
def quotaCalls (env : Env) (s : SessionId) (server : ChatServer) :
    List RoomId → ChatServer × List (Answer RoomId)
  | [] => (server, [])
  | roomId :: rooms =>
      let there := server.updateSession s fun session => { session with activeRoomId := roomId }
      let (accepted, asked) := there.consumeMessageQuota env s
      let (last, answers) := quotaCalls env s asked rooms
      (last, ⟨roomId, env.steadyNow there.output.readings, accepted⟩ :: answers)

theorem Asked.calls {env : Env} {s : SessionId} {server : ChatServer}
    {history : List (Answer RoomId)} (asked : Asked env s server history) (rooms : List RoomId) :
    Asked env s (quotaCalls env s server rooms).1
      (history ++ (quotaCalls env s server rooms).2) := by
  induction rooms generalizing server history with
  | nil => simpa [quotaCalls] using asked
  | cons roomId rooms ih =>
      have there : Asked env s (server.updateSession s fun session =>
          { session with activeRoomId := roomId }) history := by
        refine asked.between ?_ le_rfl
        simp [ChatServer.updateSession, ChatServer.onTables, ServerTables.updateSession]
      have active : ((server.updateSession s fun session =>
          { session with activeRoomId := roomId }).tables.session s).activeRoomId = roomId := by
        simp [ChatServer.updateSession, ChatServer.onTables, ServerTables.updateSession]
      have next := ih there.call
      rw [active] at next
      simpa [quotaCalls] using next

/-- A clock that stands at more than the window after 22 readings. -/
def lateClock : Env := { Env.plain with steadyNow := fun n => if n < 22 then n else n + 10 ^ 11 }

/-- A session asks 21 times in one room, once in another, and again in the first when the window
is over: the limit is reached at the 21st call, and all is forgotten at the last. -/
theorem asked_limited_visit :
    let answers := (quotaCalls lateClock 7 (ChatServer.start lateClock emptyStore)
      (List.replicate 21 1 ++ [2, 1])).2
    answers.map Answer.accepted = List.replicate 20 true ++ [false, true, true] ∧
      ¬ (since (answers.take 20) 1 (20 - rateLimitWindow)).length < RATE_LIMIT_MESSAGES ∧
      ∀ roomId start, ((since answers roomId start).filter fun time =>
        time ≤ start + rateLimitWindow).length ≤ RATE_LIMIT_MESSAGES := by
  intro answers
  have clock : Monotone lateClock.steadyNow := by
    intro a b order
    simp only [lateClock]
    split <;> split <;> omega
  have fresh : Asked lateClock 7 (ChatServer.start lateClock emptyStore) [] := .fresh rfl
  obtain ⟨answered, window, -⟩ := asked_limited clock
    (fresh.calls (List.replicate 21 1 ++ [2, 1]))
  refine ⟨by decide +kernel, fun below => ?_, window⟩
  have cut : [] ++ answers = answers.take 20 ++ ⟨1, 20, false⟩ :: answers.drop 21 := by
    decide +kernel
  have accepted := (answered _ _ _ cut).mpr below
  cases accepted

end Chatbox.Chat
