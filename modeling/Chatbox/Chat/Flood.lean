import Chatbox.Chat.Deeds
import Chatbox.Chat.Quota
import Chatbox.Chat.Membership
import Chatbox.Chat.StepChange

/-!
The message quota over whole runs of the server. Whatever else happens, the frames of a session
make one history of calls of its quota, and only an accepted call brings a line into a room in
the name of a session. So in no window a session gets more lines into a room than the limit.
-/

namespace Chatbox.Chat

open Text Protocol Storage SlidingWindow

/-- Whether a message of the session gets as far as its quota. -/
def reachesQuota (env : Env) (server : ChatServer) (s : SessionId) (message : ClientMessage) :
    Bool :=
  passesGates env server s && !(server.tables.session s).nickname.isEmpty && asksQuota message

/-- The session's call of its quota that an event brings about. -/
def asked (env : Env) (s : SessionId) (server : ChatServer) : Event → List (Answer RoomId)
  | .line t frame =>
      if t = s ∧ (decodeClientFrame frame).toOption.any (reachesQuota env server s) = true then
        [⟨(server.tables.session s).activeRoomId, env.steadyNow server.output.readings,
          (server.consumeMessageQuota env s).1⟩]
      else []
  | _ => []

/-- The session's calls over a run. -/
def askedIn (env : Env) (s : SessionId) : ChatServer → List Event → List (Answer RoomId)
  | _, [] => []
  | server, event :: events =>
      asked env s server event ++
        match step env server event with
        | none => []
        | some server' => askedIn env s server' events

instance : DecidablePred Marked := fun body =>
  inferInstanceAs (Decidable (ascii "[system] " <+: body ∨ ascii "[SERVER] " <+: body))

/-- Whether the effect is a line in a history that is not the server's own. -/
def Effect.spoken : Effect → Bool
  | .recorded _ line => !decide (Marked line)
  | _ => false

/-- Whether an event is a frame of the session that brings such a line about. -/
def utters (s : SessionId) (event : Event) (server server' : ChatServer) : Bool :=
  match event with
  | .line t _ => t == s &&
      (server'.output.trace.drop server.output.trace.length).any Effect.spoken
  | _ => false

/-- The rooms and the times at which the session's frames bring such lines about, by the clock as
the handler of the frame reads it. -/
def uttered (env : Env) (s : SessionId) : ChatServer → List Event → List (RoomId × Int)
  | _, [] => []
  | server, event :: events =>
      match step env server event with
      | none => []
      | some server' =>
          (if utters s event server server' then
            [((server.tables.session s).activeRoomId, env.steadyNow server.output.readings)]
          else []) ++ uttered env s server' events

theorem Usual.unspoken {e : Effect} (h : Usual e) : e.spoken = false := by
  cases e with
  | recorded roomId line =>
      have marked : Marked line := h
      simpa [Effect.spoken] using marked
  | _ => rfl

section Calls

variable {env : Env} {server server' : ChatServer} {s : SessionId} {event : Event}
variable {may : Holding → Prop} {P : Effect → Prop} {a b : ChatServer} {message : ClientMessage}

/-- Deeds that may not change a quota keep it. -/
theorem Deeds.quota (deeds : Deeds may P a b) (fixed : ¬ may (.quota s)) :
    (b.tables.session s).recentMessagesByRoom = (a.tables.session s).recentMessagesByRoom := by
  induction deeds with
  | refl => rfl
  | tail _ deed ih =>
      rw [← ih]
      cases deed with
      | tables change touches => exact (touches.quota s).resolve_left fixed
      | _ => rfl

theorem Deeds.readings (deeds : Deeds may P a b) : a.output.readings ≤ b.output.readings := by
  induction deeds with
  | refl => exact le_rfl
  | tail _ deed ih =>
      refine ih.trans ?_
      cases deed with
      | clock readings lastTimestamp later => exact later
      | deliver t message h =>
          refine le_of_eq ?_
          change _ = (ServerOutput.deliver _ t message).readings
          unfold ServerOutput.deliver
          cases encodeServerFrame message <;> rfl
      | _ => exact le_rfl

theorem reachesQuota_spec (asks : reachesQuota env server s message = true) :
    passesGates env server s = true ∧ (server.tables.session s).nickname ≠ [] ∧
      asksQuota message = true := by
  simpa [reachesQuota, and_assoc] using asks

/-- A frame that gets as far as the quota, in two parts: the call, and what follows it. -/
theorem onMessage_asks (asks : reachesQuota env server s message = true) :
    Deeds (fun _ => False) (fun _ => True)
      ((server.note (.received s message)).consumeMessageQuota env s).2
      (server.onMessage env s message) := by
  obtain ⟨passes, named, asks⟩ := reachesQuota_spec asks
  have named' : ¬ ((server.tables.session s).nickname.isEmpty = true) := by simpa using named
  have told {server : ChatServer} {message : ServerMessage} :
      Deeds (fun _ => False) (fun _ => True) server (server.deliver s message) :=
    ChatServer.deliver_deeds trivial
  cases message with
  | chat body =>
      rw [ChatServer.onMessage_passed passes ⟨by simp, by simp⟩]
      change Deeds _ _ _ (ite ((server.tables.session s).nickname.isEmpty = true) _ _)
      rw [if_neg named']
      refine .ite told (.ite told (ChatServer.nextReading_deeds.trans ?_))
      exact ChatServer.broadcastRoom_deeds (fun _ _ => trivial) trivial
  | whisper target body =>
      rw [ChatServer.onMessage_passed passes ⟨by simp, by simp⟩]
      change Deeds _ _ _ (ite ((server.tables.session s).nickname.isEmpty = true) _ _)
      rw [if_neg named']
      refine .ite told (.ite told ?_)
      exact ChatServer.sendPrivateInRoom_deeds.mono fun _ _ => trivial
  | _ => cases asks

/-- A frame that does not get as far as the quota leaves it alone and says nothing. -/
theorem onMessage_unasked (quiet : reachesQuota env server s message = false) :
    Deeds (fun held => held ≠ .quota s) (fun e => e.spoken = false)
      (server.note (.received s message)) (server.onMessage env s message) := by
  by_cases asks : asksQuota message = true
  · rcases server.onMessage_cases env s message with ⟨version, hello, -⟩ | ⟨-, -, same⟩ |
      ⟨-, password, auth, -⟩ | ⟨-, -, -, -, same⟩ | ⟨-, -, passes, same⟩
    · subst hello
      cases asks
    · rw [same]
      refine Deeds.mono (ChatServer.reject_deeds (by simp) ?_) fun _ => Usual.unspoken
      trivial
    · subst auth
      cases asks
    · rw [same]
      exact ChatServer.deliver_deeds rfl
    · have unnamed : (server.tables.session s).nickname.isEmpty = true := by
        simpa [reachesQuota, passes, asks] using quiet
      rw [same]
      cases message with
      | chat body =>
          change Deeds _ _ _ (ite ((server.tables.session s).nickname.isEmpty = true) _ _)
          rw [if_pos unnamed]
          exact ChatServer.deliver_deeds rfl
      | whisper target body =>
          change Deeds _ _ _ (ite ((server.tables.session s).nickname.isEmpty = true) _ _)
          rw [if_pos unnamed]
          exact ChatServer.deliver_deeds rfl
      | _ => cases asks
  · refine ChatServer.onMessage_deeds (by simp) (fun _ => Usual.unspoken) (by simp)
      (fun h => absurd h asks) (fun _ _ => rfl) fun body roomId line same => ?_
    subst same
    exact absurd rfl asks

/-- A frame whose call is refused says nothing. -/
theorem onMessage_refused (asks : reachesQuota env server s message = true)
    (refused : (server.consumeMessageQuota env s).1 = false) :
    Deeds (fun _ => True) (fun e => e.spoken = false) (server.note (.received s message))
      (server.onMessage env s message) := by
  obtain ⟨passes, named, asks⟩ := reachesQuota_spec asks
  cases message with
  | chat body =>
      rw [ChatServer.onMessage_passed passes ⟨by simp, by simp⟩]
      have slow : (server.note (.received s (.chat body))).onChat env s body =
          ((server.note (.received s (.chat body))).consumeMessageQuota env s).2.deliverText s
            ChatServer.slowDown := by
        have named' :
            ¬ ((server.note (.received s (.chat body))).tables.session s).nickname.isEmpty = true := by
          simpa using named
        have refused' : ((server.note (.received s (.chat body))).consumeMessageQuota env s).1 =
            false := refused
        simp only [ChatServer.onChat, if_neg named', refused']
        rfl
      change Deeds _ _ _ ((server.note (.received s (.chat body))).onChat env s body)
      rw [slow]
      exact (ChatServer.consumeMessageQuota_deeds trivial).trans (ChatServer.deliver_deeds rfl)
  | whisper target body =>
      rw [ChatServer.onMessage_passed passes ⟨by simp, by simp⟩]
      exact (ChatServer.onWhisper_deeds trivial).mono fun _ => Usual.unspoken
  | _ => cases asks

end Calls

section Steps

variable {env : Env} {server server' : ChatServer} {s : SessionId} {event : Event}
variable {history : List (Answer RoomId)}

theorem Asked.deeds {may : Holding → Prop} {P : Effect → Prop} (h : Asked env s server history)
    (deeds : Deeds may P server server') (fixed : ¬ may (.quota s)) : Asked env s server' history :=
  h.between (deeds.quota fixed) deeds.readings

/-- A step continues the history of the session's calls. -/
theorem Asked.step (h : Asked env s server history)
    (stepped : step env server event = some server') :
    Asked env s server' (history ++ asked env s server event) := by
  by_cases own : ∃ frame message, event = .line s frame ∧ decodeClientFrame frame = .ok message
  · obtain ⟨frame, message, rfl, decodes⟩ := own
    simp only [Chat.step, Option.ite_none_right_eq_some, Option.some.injEq] at stepped
    obtain ⟨-, rfl⟩ := stepped
    have handled : server.onLine env s frame = server.onMessage env s message := by
      simp [ChatServer.onLine, decodes]
    have noted : Asked env s (server.note (.received s message)) history := h.between rfl le_rfl
    rw [handled]
    cases reaches : reachesQuota env server s message with
    | true =>
        have call : asked env s server (.line s frame) =
            [⟨(server.tables.session s).activeRoomId, env.steadyNow server.output.readings,
              (server.consumeMessageQuota env s).1⟩] := by
          simp [asked, decodes, reaches, Except.toOption]
        rw [call]
        exact noted.call.deeds (onMessage_asks reaches) id
    | false =>
        have none : asked env s server (.line s frame) = [] := by
          simp [asked, decodes, reaches, Except.toOption]
        rw [none, List.append_nil]
        exact noted.deeds (onMessage_unasked reaches) (by simp)
  · have none : asked env s server event = [] := by
      cases event with
      | line t frame =>
          cases decodes : decodeClientFrame frame with
          | ok message =>
              refine if_neg fun here => own ⟨frame, message, by rw [here.1], decodes⟩
          | error e => simp [asked, decodes, Except.toOption]
      | _ => rfl
    rw [none, List.append_nil]
    obtain deeds | ⟨tables, -, readings⟩ := step_deeds_or stepped
    · refine h.deeds deeds fun touched => ?_
      cases event with
      | line t frame =>
          obtain same | ⟨message, decodes, same | ⟨same, -⟩⟩ := touched
          · cases same
          · cases same.1
          · cases same
            exact own ⟨frame, message, rfl, decodes⟩
      | _ => simp [Event.touches] at touched
    · exact h.between (by rw [tables]) readings.ge

theorem Asked.run {events : List Event} (h : Asked env s server history)
    (run : Run.run (Chat.step env) server events = some server') :
    Asked env s server' (history ++ askedIn env s server events) := by
  induction events generalizing server history with
  | nil =>
      obtain rfl : server = server' := Option.some.inj run
      simpa [askedIn] using h
  | cons event events ih =>
      obtain ⟨next, stepped, run⟩ := Run.run_cons.mp run
      have later := ih (h.step stepped) run
      rw [List.append_assoc] at later
      rw [askedIn, stepped]
      exact later

theorem utters_eq_false (h : Emits (fun e => e.spoken = false) server server') :
    utters s event server server' = false := by
  obtain ⟨new, grown, quiet⟩ := h
  cases event with
  | line t frame =>
      simp only [utters, grown, List.drop_left, Bool.and_eq_false_iff, List.any_eq_false]
      exact .inr fun e mem => by simp [quiet e mem]
  | _ => rfl

/-- A frame of the session that speaks has made an accepted call. -/
theorem step_utters (stepped : step env server event = some server')
    (h : utters s event server server' = true) : asked env s server event =
      [⟨(server.tables.session s).activeRoomId, env.steadyNow server.output.readings, true⟩] := by
  cases event with
  | line t frame =>
      obtain rfl : t = s := by simpa using (Bool.and_eq_true_iff.mp h).1
      have silent (quiet : Emits (fun e => e.spoken = false) server server') : False := by
        rw [utters_eq_false quiet] at h
        cases h
      simp only [step, Option.ite_none_right_eq_some, Option.some.injEq] at stepped
      obtain ⟨-, rfl⟩ := stepped
      cases decodes : decodeClientFrame frame with
      | error e =>
          have deeds := @onLine_deeds env server t frame
          refine (silent (deeds.emits.mono fun effect caused => ?_)).elim
          cases effect with
          | recorded roomId line =>
              obtain marked | said := caused
              · simpa [Effect.spoken] using marked
              · cases said with
                | chat _ _ body _ _ decodes' => simp [decodes] at decodes'
          | _ => rfl
      | ok message =>
          have handled : server.onLine env t frame = server.onMessage env t message := by
            simp [ChatServer.onLine, decodes]
          have quiet {may : Holding → Prop} (deeds : Deeds may (fun e => e.spoken = false)
              (server.note (.received t message)) (server.onMessage env t message)) : False := by
            have noted : Emits (fun e => e.spoken = false) server
                (server.note (.received t message)) := ChatServer.note_emits rfl
            refine silent (handled ▸ ?_)
            exact noted.trans deeds.emits
          cases reaches : reachesQuota env server t message with
          | false => exact (quiet (onMessage_unasked reaches)).elim
          | true =>
              cases accepted : (server.consumeMessageQuota env t).1 with
              | false => exact (quiet (onMessage_refused reaches accepted)).elim
              | true => simp [asked, decodes, reaches, accepted, Except.toOption]
  | _ => cases h

/-- What the frames of a session say is among its accepted calls. -/
theorem uttered_sublist (env : Env) (s : SessionId) (server : ChatServer) (events : List Event) :
    (uttered env s server events).Sublist
      (((askedIn env s server events).filter Answer.accepted).map fun answer =>
        (answer.kind, answer.time)) := by
  induction events generalizing server with
  | nil => exact .slnil
  | cons event events ih =>
      rw [uttered, askedIn]
      cases stepped : step env server event with
      | none => exact List.nil_sublist _
      | some server' =>
          simp only [List.filter_append, List.map_append]
          refine List.Sublist.append ?_ (ih server')
          cases speaks : utters s event server server' with
          | false => exact List.nil_sublist _
          | true => simp [step_utters stepped speaks]

/-- No window holds more lines of a session in a room than the limit, in any run of the server with
a clock that does not go back. -/
theorem run_uttered (env : Env) (stored : StoredState) (events : List Event) (server : ChatServer)
    (clock : Monotone env.steadyNow)
    (run : Run.run (step env) (ChatServer.start env stored) events = some server)
    (s : SessionId) (roomId : RoomId) (start : Int) :
    ((uttered env s (ChatServer.start env stored) events).filter fun said =>
      said.1 = roomId ∧ start ≤ said.2 ∧ said.2 ≤ start + rateLimitWindow).length ≤
        RATE_LIMIT_MESSAGES := by
  have fresh : Asked env s (ChatServer.start env stored) [] :=
    .fresh (by rw [(start_tables env stored).2.2.2])
  have metered := (fresh.run run).metered clock
  rw [List.nil_append] at metered
  have within := metered.limited.window_le metered.timely roomId start
  refine le_trans ?_ within
  rw [length_filter_since]
  exact ((uttered_sublist env s _ events).filter _).length_le

/-- A visitor that says something twice. -/
def chattyVisit : List Event :=
  visit 7 (ascii "ann") ++ [.line 7 (clientFrame (.chat (ascii "hi"))),
    .line 7 (clientFrame (.chat (ascii "anyone here?")))]

theorem run_uttered_ann :
    (uttered .plain 7 (ChatServer.start .plain emptyStore) chattyVisit).length = 2 ∧
      ((uttered .plain 7 (ChatServer.start .plain emptyStore) chattyVisit).filter fun said =>
        said.1 = DEFAULT_ROOM_ID ∧ 0 ≤ said.2 ∧ said.2 ≤ 0 + rateLimitWindow).length ≤
          RATE_LIMIT_MESSAGES := by
  have clock : Monotone Env.plain.steadyNow := by
    intro a b order
    exact Int.ofNat_le.mpr order
  obtain ⟨server, ran, -⟩ := exists_serverAfter chattyVisit (fun _ => True) (by decide +kernel)
  exact ⟨by decide +kernel,
    run_uttered .plain emptyStore chattyVisit server clock ran 7 DEFAULT_ROOM_ID 0⟩

end Steps

end Chatbox.Chat
