import Chatbox.Chat.Deeds
import Chatbox.Chat.Nicknames
import Chatbox.Chat.Removal

/-!
The ban list over a run: it is what the bans and unbans of the operators have made of the list
that the server started with. No session of `sessions_` bears a name on it, and nobody is
admitted under one.
-/

namespace Chatbox.Chat

open Text Protocol Storage ServerTables

/-- The nickname was on the list at the start or has been banned, and has not been unbanned
since. -/
def BarredBy (stored : StoredState) (nick : Bytes) (events : List Event) : Prop :=
  nick ∈ stored.bans ∧ Event.unbanUser nick ∉ events ∨
    ∃ before reason after, events = before ++ .banUser nick reason :: after ∧
      Event.unbanUser nick ∉ after

section BanList

variable {env : Env} {stored : StoredState} {server server' : ChatServer} {event : Event}
variable {events : List Event} {nick : Bytes}
variable {may : Holding → Prop} {P : Effect → Prop} {a b : ChatServer}

theorem BarredBy.snoc : BarredBy stored nick (events ++ [event]) ↔
    (∃ reason, event = .banUser nick reason) ∨
      BarredBy stored nick events ∧ event ≠ .unbanUser nick := by
  constructor
  · rintro (⟨listed, standing⟩ | ⟨before, reason, after, place, standing⟩)
    · rw [List.mem_append, List.mem_singleton, not_or] at standing
      exact .inr ⟨.inl ⟨listed, standing.1⟩, fun same => standing.2 same.symm⟩
    · cases List.eq_nil_or_concat after with
      | inl last =>
          subst last
          exact .inl ⟨reason, (List.concat_inj.mp (by simpa using place)).2⟩
      | inr more =>
          obtain ⟨front, last, rfl⟩ := more
          obtain ⟨rfl, rfl⟩ : events = before ++ .banUser nick reason :: front ∧ event = last :=
            List.concat_inj.mp (by simpa using place)
          rw [List.concat_eq_append, List.mem_append, List.mem_singleton, not_or] at standing
          exact .inr ⟨.inr ⟨before, reason, front, rfl, standing.1⟩,
            fun same => standing.2 same.symm⟩
  · have kept (h : Event.unbanUser nick ∉ events) (other : event ≠ .unbanUser nick) :
        Event.unbanUser nick ∉ events ++ [event] := by
      rw [List.mem_append, List.mem_singleton]
      rintro (early | same)
      · exact h early
      · exact other same.symm
    rintro (⟨reason, rfl⟩ | ⟨⟨listed, standing⟩ | ⟨before, reason, after, rfl, standing⟩, other⟩)
    · exact .inr ⟨events, reason, [], rfl, List.not_mem_nil⟩
    · exact .inl ⟨listed, kept standing other⟩
    · refine .inr ⟨before, reason, after ++ [event], by simp, ?_⟩
      rw [List.mem_append, List.mem_singleton]
      rintro (early | same)
      · exact standing early
      · exact other same.symm

/-- Deeds that may not change the ban list keep it. -/
theorem Deeds.bannedNicks (deeds : Deeds may P a b) (fixed : ¬ may .banList) :
    b.tables.bannedNicks = a.tables.bannedNicks := by
  induction deeds with
  | refl => rfl
  | tail _ deed ih =>
      rw [← ih]
      cases deed with
      | tables change touches => exact touches.banList.resolve_left fixed
      | _ => rfl

/-- Only the commands for it change the ban list. -/
theorem step_bannedNicks (h : step env server event = some server')
    (other : (∀ nick reason, event ≠ .banUser nick reason) ∧ ∀ nick, event ≠ .unbanUser nick) :
    server'.tables.bannedNicks = server.tables.bannedNicks := by
  obtain deeds | ⟨same, -, -⟩ := step_deeds_or h
  · refine deeds.bannedNicks ?_
    cases event with
    | banUser nick reason => exact absurd rfl (other.1 nick reason)
    | unbanUser nick => exact absurd rfl (other.2 nick)
    | _ => simp [Event.touches]
  · rw [same]

theorem dropSession_bannedNicks {tables : ServerTables} {s : SessionId} :
    (tables.dropSession s).bannedNicks = tables.bannedNicks := by
  unfold dropSession
  simp only
  split <;> rfl

theorem banUser_bannedNicks {reason : Bytes} : (server.banUser env nick reason).tables.bannedNicks =
    server.tables.bannedNicks.insert nick := by
  have roster := congrArg (fun tables => tables.bannedNicks)
    (@ChatServer.banUser_roster env server nick reason)
  refine roster.trans ?_
  cases server.tables.sessionNamed nick with
  | none => rfl
  | some target => exact dropSession_bannedNicks

theorem unbanUser_bannedNicks : (server.unbanUser env nick).1.tables.bannedNicks =
    server.tables.bannedNicks.erase nick := by
  have written (server : ChatServer) :
      (if env.config.hasStorage = true then server.store (.removeBan nick)
        else server.saveBans env).tables = server.tables := by
    split
    · rfl
    · exact ChatServer.saveBans_tables env server
  unfold ChatServer.unbanUser
  simp only
  rw [ChatServer.ite_tables (written _)]
  rfl

/-- What one step does to the ban list. -/
theorem step_banned (h : step env server event = some server') :
    nick ∈ server'.tables.bannedNicks ↔
      (∃ reason, event = .banUser nick reason) ∨
        nick ∈ server.tables.bannedNicks ∧ event ≠ .unbanUser nick := by
  cases event with
  | banUser other reason =>
      obtain rfl := Option.some.inj h
      rw [banUser_bannedNicks, OrderedMap.mem_insert]
      constructor
      · rintro (rfl | listed)
        · exact .inl ⟨reason, rfl⟩
        · exact .inr ⟨listed, fun same => by cases same⟩
      · rintro (⟨reason', same⟩ | ⟨listed, -⟩)
        · exact .inl (Event.banUser.inj same).1.symm
        · exact .inr listed
  | unbanUser other =>
      obtain rfl := Option.some.inj h
      rw [unbanUser_bannedNicks, OrderedMap.mem_erase]
      constructor
      · rintro ⟨different, listed⟩
        exact .inr ⟨listed, fun same => different (Event.unbanUser.inj same).symm⟩
      · rintro (⟨reason', same⟩ | ⟨listed, different⟩)
        · cases same
        · exact ⟨fun same => different (same ▸ rfl), listed⟩
  | _ =>
      rw [step_bannedNicks h ⟨by simp, by simp⟩]
      simp

theorem start_banned : nick ∈ (ChatServer.start env stored).tables.bannedNicks ↔
    nick ∈ stored.bans := by
  have listed (tables : ServerTables) (h : tables.bannedNicks =
      stored.bans.foldl (fun bans nickname => bans.insert nickname) ∅) :
      nick ∈ tables.bannedNicks ↔ nick ∈ stored.bans := by
    rw [h, OrderedMap.mem_foldl_insert]
    exact or_iff_left Std.ExtTreeSet.not_mem_empty
  unfold ChatServer.start
  simp only
  split
  · exact listed _ rfl
  · refine listed _ ?_
    rw [ChatServer.persistRoom_tables]
    rfl

end BanList

section Sessions

variable {env : Env} {stored : StoredState} {server server' : ChatServer} {event : Event}

/-- No session of `sessions_` bears a banned nickname. -/
def ServerTables.Unbanned (tables : ServerTables) : Prop :=
  ∀ s ∈ tables.sessions, (tables.session s).nickname ≠ [] →
    (tables.session s).nickname ∉ tables.bannedNicks

/-- A step leaves a session its nickname, or gives it one that is not on the list. -/
theorem step_nickname (h : step env server event = some server') (s : SessionId) :
    (server'.tables.session s).nickname = (server.tables.session s).nickname ∨
      (server'.tables.session s).nickname ∉ server.tables.bannedNicks := by
  rcases (step_progress h).session_cases s with ⟨same, -⟩ | ⟨-, version, -, same⟩ |
    ⟨-, -, same⟩ | ⟨nick, key, challenge, -, -, -, same⟩ |
    ⟨signatureHex, rest, -, -, checks, -, -, -, same⟩
  · exact .inl (ClientSession.credentials_eq.mp same).1
  · exact .inl (ClientSession.credentials_eq.mp same).1
  · exact .inl (ClientSession.credentials_eq.mp same).1
  · exact .inl (ClientSession.credentials_eq.mp same).1
  · obtain ⟨-, -, -, free, -⟩ := admitsSession_spec checks
    rw [(ClientSession.credentials_eq.mp same).1]
    refine .inr fun listed => ?_
    rw [isBanned, Std.ExtTreeSet.contains_iff_mem.mpr listed] at free
    cases free

/-- A session of `sessions_` that had a name before a step was there before it. -/
theorem step_listed (h : step env server event = some server')
    (unambiguous : server.tables.Unambiguous env) {s : SessionId}
    (named : (server.tables.session s).nickname ≠ []) (listed : s ∈ server'.tables.sessions) :
    s ∈ server.tables.sessions := by
  by_contra gone
  have begun : (server.tables.session s).readLoop ≠ .absent := fun absent =>
    named (unambiguous.early s (.inl absent)).1
  exact (step_removed h ⟨begun, gone⟩).2 listed

/-- After a ban no session of `sessions_` bears the nickname. -/
theorem banUser_unbanned {nick reason : Bytes} (unambiguous : server.tables.Unambiguous env)
    (held : server.tables.Unbanned) : (server.banUser env nick reason).tables.Unbanned := by
  have roster := @ChatServer.banUser_roster env server nick reason
  intro s listed named banned
  rw [banUser_bannedNicks, OrderedMap.mem_insert] at banned
  cases found : server.tables.sessionNamed nick with
  | none =>
      rw [found] at roster
      have sessions : (server.banUser env nick reason).tables.sessions = server.tables.sessions :=
        congrArg (fun tables => tables.sessions) roster
      have session : (server.banUser env nick reason).tables.session = server.tables.session :=
        congrArg (fun tables => tables.session) roster
      rw [sessions] at listed
      rw [session] at named banned
      obtain same | before := banned
      · have other := List.find?_eq_none.mp found s (Std.ExtTreeSet.mem_toList.mpr listed)
        exact other (beq_iff_eq.mpr same)
      · exact held s listed named before
  | some target =>
      rw [found] at roster
      have sessions : (server.banUser env nick reason).tables.sessions =
          server.tables.sessions.erase target :=
        (congrArg (fun tables => tables.sessions) roster).trans dropSession_sessions
      have name : ((server.banUser env nick reason).tables.session s).nickname =
          (server.tables.session s).nickname :=
        (congrArg (fun tables => (tables.session s).nickname) roster).trans
          (dropSession_kept (fun session => session.nickname) rfl)
      rw [sessions, OrderedMap.mem_erase] at listed
      rw [name] at named banned
      obtain ⟨other, listed⟩ := listed
      obtain same | before := banned
      · have bears : (server.tables.session target).nickname = nick := by
          simpa using List.find?_some found
        have present : target ∈ server.tables.sessions :=
          Std.ExtTreeSet.mem_toList.mp (List.mem_of_find?_eq_some found)
        exact other
          (unambiguous.distinct s listed target present named (same.trans bears.symm))
      · exact held s listed named before

theorem step_unbanned (h : step env server event = some server')
    (unambiguous : server.tables.Unambiguous env) (held : server.tables.Unbanned) :
    server'.tables.Unbanned := by
  by_cases ban : ∃ nick reason, event = .banUser nick reason
  · obtain ⟨nick, reason, rfl⟩ := ban
    obtain rfl := Option.some.inj h
    exact banUser_unbanned unambiguous held
  · intro s listed named banned
    have before : (server'.tables.session s).nickname ∈ server.tables.bannedNicks := by
      obtain ⟨reason, same⟩ | ⟨before, -⟩ := (step_banned h).mp banned
      · exact absurd ⟨_, reason, same⟩ ban
      · exact before
    obtain same | fresh := step_nickname h s
    · rw [same] at named before
      exact held s (step_listed h unambiguous named listed) named before
    · exact fresh before

theorem reachable_unbanned (h : Reachable env stored server) : server.tables.Unbanned := by
  have start : (ChatServer.start env stored).tables.Unbanned := by
    intro s listed
    rw [(start_tables env stored).2.2.1] at listed
    exact absurd listed Std.ExtTreeSet.not_mem_empty
  obtain ⟨events, run⟩ := h
  induction events using List.reverseRecOn generalizing server with
  | nil =>
      obtain rfl : ChatServer.start env stored = server := Option.some.inj run
      exact start
  | append_singleton events event ih =>
      obtain ⟨before, run, stepped⟩ := Run.run_snoc.mp run
      exact step_unbanned stepped (reachable_unambiguous ⟨events, run⟩) (ih run)

/-- The ban list after a run, by the bans and unbans of the run. -/
theorem run_bannedNicks {events : List Event} {nick : Bytes}
    (run : Run.run (step env) (ChatServer.start env stored) events = some server) :
    nick ∈ server.tables.bannedNicks ↔ BarredBy stored nick events := by
  induction events using List.reverseRecOn generalizing server with
  | nil =>
      obtain rfl : ChatServer.start env stored = server := Option.some.inj run
      rw [start_banned]
      simp [BarredBy]
  | append_singleton events event ih =>
      obtain ⟨before, run, stepped⟩ := Run.run_snoc.mp run
      rw [step_banned stepped, ih run, BarredBy.snoc]

/-- In every run the ban list is what the bans and unbans have made of the one at the start, no
session of `sessions_` bears a name on it, and no step gives a session such a name. -/
theorem run_barred (env : Env) (stored : StoredState) (events : List Event) (server : ChatServer)
    (run : Run.run (step env) (ChatServer.start env stored) events = some server) :
    (∀ nick, nick ∈ server.tables.bannedNicks ↔ BarredBy stored nick events) ∧
    (∀ s ∈ server.tables.sessions, (server.tables.session s).nickname ≠ [] →
      ¬ BarredBy stored (server.tables.session s).nickname events) ∧
    ∀ event server' s, step env server event = some server' →
      (server.tables.session s).nickname = [] → (server'.tables.session s).nickname ≠ [] →
      ¬ BarredBy stored (server'.tables.session s).nickname events := by
  refine ⟨fun nick => run_bannedNicks run, fun s listed named barred => ?_,
    fun event server' s stepped unnamed named barred => ?_⟩
  · exact reachable_unbanned ⟨events, run⟩ s listed named ((run_bannedNicks run).mpr barred)
  · obtain same | fresh := step_nickname stepped s
    · exact named (same.trans unnamed)
    · exact fresh ((run_bannedNicks run).mpr barred)

/-- A ban from an earlier run that is lifted, and a visitor that is banned. -/
def banEvening : List Event :=
  .unbanUser (ascii "bob") :: (visit 7 (ascii "ann") ++ [.banUser (ascii "ann") []])

theorem run_barred_evening : ∃ server,
    Run.run (step .plain) (ChatServer.start .plain { emptyStore with bans := [ascii "bob"] })
      banEvening = some server ∧
    ascii "ann" ∈ server.tables.bannedNicks ∧
    ∀ nick, nick ∈ server.tables.bannedNicks ↔
      BarredBy { emptyStore with bans := [ascii "bob"] } nick banEvening := by
  cases ran : Run.run (step .plain)
      (ChatServer.start .plain { emptyStore with bans := [ascii "bob"] }) banEvening with
  | none =>
      have runs : (Run.run (step .plain)
        (ChatServer.start .plain { emptyStore with bans := [ascii "bob"] }) banEvening).isSome =
          true := by decide +kernel
      rw [ran] at runs
      cases runs
  | some server =>
      have barred := (run_barred .plain _ banEvening server ran).1
      have last : BarredBy { emptyStore with bans := [ascii "bob"] } (ascii "ann") banEvening :=
        .inr ⟨.unbanUser (ascii "bob") :: visit 7 (ascii "ann"), [], [], rfl, List.not_mem_nil⟩
      exact ⟨server, rfl, (barred _).mpr last, barred⟩

end Sessions

end Chatbox.Chat
