import Chatbox.Chat.Admission

/-!
Whose nickname is whose: among the sessions of `sessions_` and the host each
nickname occurs once, and it belongs for ever to the key that was proven first.
-/

namespace Chatbox.Chat

open Text Protocol Storage

namespace ServerTables

/-- The nicknames of the sessions of `sessions_` are different from each other and
from the host's, and a session that has not begun to read has none. -/
structure Unambiguous (env : Env) (tables : ServerTables) : Prop where
  distinct : ∀ s ∈ tables.sessions, ∀ t ∈ tables.sessions, (tables.session s).nickname ≠ [] →
    (tables.session s).nickname = (tables.session t).nickname → s = t
  host : ∀ s, (tables.session s).nickname ≠ [] →
    (tables.session s).nickname ≠ env.config.localNickname
  early : ∀ s, (tables.session s).readLoop.Early →
    (tables.session s).nickname = [] ∧ (tables.session s).pendingNickname = []

variable {env : Env} {tables tables' : ServerTables} {s : SessionId}

theorem nickname_ne_of_not_taken {nick : Bytes} (h : tables.nicknameTaken env nick = false)
    (listed : s ∈ tables.sessions) : (tables.session s).nickname ≠ nick := by
  simp only [nicknameTaken, Bool.or_eq_false_iff, List.any_eq_false,
    Std.ExtTreeSet.mem_toList] at h
  intro same
  exact h.2 s listed (by simp [same])

/-- A nickname that is not taken is neither the host's nor a session's. -/
theorem nicknameTaken_eq_false {nick : Bytes} (named : nick ≠ [])
    (h : tables.nicknameTaken env nick = false) :
    nick ≠ env.config.localNickname ∧ ∀ s ∈ tables.sessions, (tables.session s).nickname ≠ nick := by
  refine ⟨?_, fun s => nickname_ne_of_not_taken h⟩
  rintro rfl
  simp only [nicknameTaken, Bool.or_eq_false_iff] at h
  have := h.1
  simp [named] at this

namespace Unambiguous

/-- Sessions may leave `sessions_`, and what is not a name may change. -/
theorem congr (h : tables.Unambiguous env)
    (hsessions : ∀ s, s ∈ tables'.sessions → s ∈ tables.sessions)
    (hname : ∀ s, (tables'.session s).nickname = (tables.session s).nickname)
    (hearly : ∀ s, (tables'.session s).readLoop.Early → (tables.session s).readLoop.Early ∧
        (tables'.session s).pendingNickname = (tables.session s).pendingNickname) :
    tables'.Unambiguous env := by
  refine ⟨fun s hs t ht => ?_, fun s => ?_, fun s hs => ?_⟩
  · rw [hname, hname]
    exact h.distinct s (hsessions s hs) t (hsessions t ht)
  · rw [hname]
    exact h.host s
  · obtain ⟨early, pending⟩ := hearly s hs
    rw [hname, pending]
    exact h.early s early

theorem accept (h : tables.Unambiguous env) (absent : (tables.session s).readLoop = .absent) :
    Unambiguous env ({ tables with sessions := tables.sessions.insert s }.updateSession s
      fun session => { session with readLoop := .handshake }) := by
  have unnamed := (h.early s (.inl absent)).1
  have name (t : SessionId) : (({ tables with sessions := tables.sessions.insert s }.updateSession
      s fun session => { session with readLoop := .handshake }).session t).nickname =
        (tables.session t).nickname := by
    rw [updateSession_session]
    split
    · next e =>
        subst e
        rfl
    · rfl
  refine ⟨fun t ht u hu => ?_, fun t => ?_, fun t ht => ?_⟩
  · rw [name, name]
    intro named same
    have old {v : SessionId} (hv : v ∈ tables.sessions.insert s)
        (hn : (tables.session v).nickname ≠ []) : v ∈ tables.sessions := by
      rcases OrderedMap.mem_insert.mp hv with rfl | hv
      · exact absurd unnamed hn
      · exact hv
    exact h.distinct t (old ht named) u (old hu (same ▸ named)) named same
  · rw [name]
    exact h.host t
  · rw [updateSession_session] at ht ⊢
    split
    · next e =>
        subst e
        exact h.early t (.inl absent)
    · next e =>
        rw [if_neg e] at ht
        exact h.early t ht

theorem admission (h : tables.Unambiguous env)
    (named : (tables.session s).pendingNickname ≠ [])
    (free : tables.nicknameTaken env (tables.session s).pendingNickname = false) :
    Unambiguous env (tables.updateSession s fun session =>
      { session with
        nickname := (tables.session s).pendingNickname
        pendingNickname := []
        pendingPublicKeyHex := []
        pendingChallenge := [] }) := by
  obtain ⟨notHost, fresh⟩ := nicknameTaken_eq_false named free
  refine ⟨fun t ht u hu hn same => ?_, fun t hn => ?_, fun t ht => ?_⟩
  · rw [updateSession_session] at hn same
    rw [updateSession_session] at same
    by_cases et : t = s
    · by_cases eu : u = s
      · rw [et, eu]
      · rw [if_pos et, if_neg eu] at same
        exact absurd same.symm (fresh u hu)
    · rw [if_neg et] at hn same
      by_cases eu : u = s
      · rw [if_pos eu] at same
        exact absurd same (fresh t ht)
      · rw [if_neg eu] at same
        exact h.distinct t ht u hu hn same
  · rw [updateSession_session] at hn ⊢
    split
    · exact notHost
    · next e =>
        rw [if_neg e] at hn
        exact h.host t hn
  · rw [updateSession_session] at ht ⊢
    by_cases e : t = s
    · rw [if_pos e] at ht
      exact absurd (h.early s ht).2 named
    · rw [if_neg e] at ht ⊢
      exact h.early t ht

end Unambiguous

end ServerTables

open ServerTables

theorem Change.unambiguous {env : Env} {mover : SessionId → Prop} {a b : ServerTables}
    (h : Change env mover a b) (ha : a.Unambiguous env) : b.Unambiguous env := by
  cases h with
  | touch s change keeps =>
      refine ha.congr (fun _ => id) (fun t => ?_) fun t ht => ?_
      · rw [updateSession_session]
        split
        · next e =>
            subst e
            exact (keeps _).nickname
        · rfl
      · rw [updateSession_session] at ht ⊢
        split at ht
        · next e =>
            subst e
            rw [if_pos rfl]
            exact ⟨(keeps _).readLoop ht ▸ ht, (keeps _).pendingNickname⟩
        · next e =>
            rw [if_neg e]
            exact ⟨ht, rfl⟩
  | accept s absent => exact ha.accept absent
  | identify s nick publicKeyHex challenge valid reading =>
      refine ha.congr (fun _ => id) (fun t => ?_) fun t ht => ?_
      · rw [updateSession_session]
        split
        · next e =>
            subst e
            rfl
        · rfl
      · rw [updateSession_session] at ht ⊢
        split at ht
        · next e =>
            subst e
            rw [if_pos rfl]
            exact absurd (reading ▸ ht) (by simp [ReadLoop.Early])
        · next e =>
            rw [if_neg e]
            exact ⟨ht, rfl⟩
  | admission s moves unnamed named free bound => exact ha.admission named free
  | place s roomId moves named present =>
      refine ha.congr (fun _ => id) (fun t => ?_) fun t ht => ?_
      · rw [placeSession_session]
        split
        · next e =>
            subst e
            rfl
        · rfl
      · rw [placeSession_session] at ht ⊢
        split at ht
        · next e =>
            subst e
            rw [if_pos rfl]
            exact ⟨ht, rfl⟩
        · next e =>
            rw [if_neg e]
            exact ⟨ht, rfl⟩
  | drop s stays =>
      refine ha.congr (fun t ht => ?_) (fun t => ?_) fun t ht => ?_
      · rw [dropSession_sessions] at ht
        exact (OrderedMap.mem_erase.mp ht).2
      · rw [dropSession_session]
        split
        · next e =>
            subst e
            rfl
        · rfl
      · rw [dropSession_session] at ht ⊢
        split at ht
        · next e =>
            subst e
            rw [if_pos rfl]
            exact ⟨ht, rfl⟩
        · next e =>
            rw [if_neg e]
            exact ⟨ht, rfl⟩
  | insertRoom | topic | host | bans | bind =>
      exact ha.congr (fun _ => id) (fun _ => rfl) fun _ ht => ⟨ht, rfl⟩

section Reachable

variable {env : Env} {stored : StoredState} {server : ChatServer}

theorem start_unambiguous (env : Env) (stored : StoredState) :
    (ChatServer.start env stored).tables.Unambiguous env := by
  obtain ⟨-, -, -, none⟩ := start_tables env stored
  constructor
  · rw [none]
    exact fun _ _ _ _ hn => absurd rfl hn
  · rw [none]
    exact fun _ hn => absurd rfl hn
  · rw [none]
    exact fun _ _ => ⟨rfl, rfl⟩

theorem reachable_unambiguous (h : Reachable env stored server) :
    server.tables.Unambiguous env := by
  have start : (ChatServer.start env stored).roster.Unambiguous env :=
    (start_unambiguous env stored).congr (fun _ => id) (fun _ => rfl) fun _ ht => ⟨ht, rfl⟩
  have roster := reachable_roster h (fun _ _ _ hc => hc.unambiguous) start
  exact roster.congr (fun _ => id) (fun _ => rfl) fun _ ht => ⟨ht, rfl⟩

/-- In every reachable state nicknames are valid, told apart, not the host's, and
bound to the key whose proof the session has presented; and no later step changes
or removes a binding. -/
theorem reachable_nicknames (env : Env) (stored : StoredState) (server : ChatServer)
    (h : Reachable env stored server) :
    (∀ s ∈ server.tables.sessions, ∀ t ∈ server.tables.sessions,
      (server.tables.session s).nickname ≠ [] →
      (server.tables.session s).nickname = (server.tables.session t).nickname → s = t) ∧
    (∀ s, (server.tables.session s).nickname ≠ [] →
      (server.tables.session s).nickname ≠ env.config.localNickname ∧
      isValidNickname (server.tables.session s).nickname = true ∧
      ∃ key, server.tables.identities[(server.tables.session s).nickname]? = some key ∧
        Presented env server.output.trace s (server.tables.session s).nickname key) ∧
    ∀ events later, Run.run (step env) server events = some later →
      ∀ nick key : Bytes, server.tables.identities[nick]? = some key →
        later.tables.identities[nick]? = some key := by
  have unambiguous := reachable_unambiguous h
  refine ⟨unambiguous.distinct, fun s named => ?_, fun events later hrun nick key bound => ?_⟩
  · exact ⟨unambiguous.host s named, ((reachable_consistent h).valid s).resolve_left named,
      (reachable_credited h).presented s named⟩
  · exact Run.run_invariant (fun _ _ _ hb hs => step_bound hs nick key hb) hrun bound

/-- Two visitors: each has its own nickname. -/
theorem reachable_nicknames_two :
    ∃ server, serverAfter (visit 7 (ascii "ann") ++ visit 8 (ascii "bob")) = some server ∧
      (server.tables.session 7).nickname = ascii "ann" ∧
      ∃ key, server.tables.identities[ascii "ann"]? = some key ∧
        Presented .plain server.output.trace 7 (ascii "ann") key := by
  obtain ⟨server, hserver, reachable, name⟩ :=
    exists_serverAfter (visit 7 (ascii "ann") ++ visit 8 (ascii "bob"))
      (fun server => (server.tables.session 7).nickname = ascii "ann") (by decide +kernel)
  have h := ((reachable_nicknames .plain emptyStore server reachable).2.1 7 (by
    rw [name]
    decide)).2.2
  rw [name] at h
  exact ⟨server, hserver, name, h⟩

end Reachable

end Chatbox.Chat
