import Chatbox.Chat.Quiet

/-!
What admits a session: the trace holds a HELLO, the password where there is one, and
a proof for the challenge that answered the session's last IDENTIFY.
-/

namespace Chatbox.Chat

open Text Protocol Storage

abbrev Trace := List Effect

/-- The session has sent a HELLO with the server's version. -/
def Greeted (trace : Trace) (s : SessionId) : Prop := .received s (.hello VERSION) ∈ trace

/-- The session has sent the password in an AUTH, and it was accepted. -/
def Authenticated (env : Env) (trace : Trace) (s : SessionId) : Prop :=
  [.received s (.authenticate env.config.password), .deliver s .authAccepted] <:+: trace

/-- The last IDENTIFY of the session, and the challenge that answered it. -/
def Challenged (trace : Trace) (s : SessionId) (nick key challenge : Bytes) : Prop :=
  ∃ before after, trace = before ++
      [.received s (.identify nick key), .deliver s (.challenge challenge)] ++ after ∧
    ∀ nick' key', .received s (.identify nick' key') ∉ after

/-- The session has answered such a challenge with a signature of the key. -/
def Presented (env : Env) (trace : Trace) (s : SessionId) (nick key : Bytes) : Prop :=
  ∃ challenge signatureHex before after,
    trace = before ++ .received s (.identityProof signatureHex) :: after ∧
    Challenged before s nick key challenge ∧
    env.verifyIdentitySignature key challenge signatureHex = true

/-- The challenges issued, each with the session it went to. -/
def issued (trace : Trace) : List (SessionId × Bytes) :=
  trace.filterMap fun
    | .deliver s (.challenge challenge) => some (s, challenge)
    | _ => none

/-- The challenges whose proofs have led to an admission. -/
def spent (trace : Trace) : List (SessionId × Bytes) :=
  trace.filterMap fun
    | .admitted s _ _ challenge => some (s, challenge)
    | _ => none

section Evidence

variable {env : Env} {trace new : Trace} {s : SessionId} {nick key challenge : Bytes}

theorem Greeted.append (h : Greeted trace s) : Greeted (trace ++ new) s :=
  List.mem_append_left new h

theorem Authenticated.append (h : Authenticated env trace s) :
    Authenticated env (trace ++ new) s :=
  h.trans (List.prefix_append trace new).isInfix

theorem Challenged.append (h : Challenged trace s nick key challenge)
    (last : ∀ nick' key', .received s (.identify nick' key') ∉ new) :
    Challenged (trace ++ new) s nick key challenge := by
  obtain ⟨before, after, rfl, hafter⟩ := h
  refine ⟨before, after ++ new, by simp, fun nick' key' hm => ?_⟩
  exact (List.mem_append.mp hm).elim (hafter nick' key') (last nick' key')

theorem Presented.append (h : Presented env trace s nick key) :
    Presented env (trace ++ new) s nick key := by
  obtain ⟨challenge, signatureHex, before, after, rfl, hchallenged, hverify⟩ := h
  exact ⟨challenge, signatureHex, before, after ++ new, by simp, hchallenged, hverify⟩

@[simp] theorem issued_append : issued (trace ++ new) = issued trace ++ issued new :=
  List.filterMap_append

@[simp] theorem spent_append : spent (trace ++ new) = spent trace ++ spent new :=
  List.filterMap_append

@[simp] theorem issued_received (message : ClientMessage) :
    issued [.received s message] = [] := rfl

@[simp] theorem spent_received (message : ClientMessage) : spent [.received s message] = [] := rfl

@[simp] theorem issued_challenge : issued [.deliver s (.challenge challenge)] = [(s, challenge)] :=
  rfl

@[simp] theorem issued_authAccepted : issued [.deliver s .authAccepted] = [] := rfl

@[simp] theorem spent_deliver (message : ServerMessage) : spent [.deliver s message] = [] := rfl

@[simp] theorem issued_admitted : issued [.admitted s nick key challenge] = [] := rfl

@[simp] theorem spent_admitted :
    spent [.admitted s nick key challenge] = [(s, challenge)] := rfl

theorem issued_routine (h : ∀ e ∈ new, Routine e) : issued new = [] := by
  refine List.filterMap_eq_nil_iff.mpr fun e he => ?_
  have routine := h e he
  split
  · exact absurd routine id
  · rfl

theorem spent_routine (h : ∀ e ∈ new, Routine e) : spent new = [] := by
  refine List.filterMap_eq_nil_iff.mpr fun e he => ?_
  have routine := h e he
  split
  · exact absurd routine id
  · rfl

end Evidence

theorem ClientSession.credentials_eq {a b : ClientSession} :
    a.credentials = b.credentials ↔ a.nickname = b.nickname ∧
      a.pendingNickname = b.pendingNickname ∧ a.pendingPublicKeyHex = b.pendingPublicKeyHex ∧
      a.pendingChallenge = b.pendingChallenge ∧ a.authenticated = b.authenticated ∧
      a.protocolNegotiated = b.protocolNegotiated := by
  simp [credentials]

namespace ChatServer

variable {server : ChatServer} {s : SessionId}

@[simp] theorem updateSession_tables (change : ClientSession → ClientSession) :
    (server.updateSession s change).tables = server.tables.updateSession s change := rfl

@[simp] theorem takeNickname_tables (nick : Bytes) :
    (server.takeNickname s nick).tables = server.tables.updateSession s fun session =>
      { session with
        nickname := nick
        pendingNickname := []
        pendingPublicKeyHex := []
        pendingChallenge := [] } := rfl

@[simp] theorem takeNickname_trace (nick : Bytes) :
    (server.takeNickname s nick).output.trace = server.output.trace := rfl

end ChatServer

theorem admitsSession_spec {env : Env} {server : ChatServer} {s : SessionId} {signatureHex : Bytes}
    (h : admitsSession env server s signatureHex = true) :
    let session := server.tables.session s
    session.nickname = [] ∧ session.pendingNickname ≠ [] ∧
      env.verifyIdentitySignature session.pendingPublicKeyHex session.pendingChallenge
        signatureHex = true ∧
      server.tables.isBanned session.pendingNickname = false ∧
      server.tables.nicknameTaken env session.pendingNickname = false := by
  simp only [admitsSession, Bool.and_eq_true, List.isEmpty_iff, Bool.not_eq_true'] at h
  simp_all

/-- A challenge is issued before it is spent, and a session has at most one that it
can still spend. -/
def Spendable (server : ChatServer) : Prop :=
  ∀ s challenge, (spent server.output.trace).count (s, challenge) +
      (if (server.tables.session s).pendingNickname ≠ [] ∧
        (server.tables.session s).pendingChallenge = challenge then 1 else 0) ≤
    (issued server.output.trace).count (s, challenge)

namespace Progress

variable {env : Env} {server server' : ChatServer}

open ServerTables

theorem stopped (h : Progress env server server') (s : SessionId)
    (hs : (server.tables.session s).readLoop = .stopped) :
    (server'.tables.session s).readLoop = .stopped := by
  cases h with
  | quiet quiet => exact quiet.stopped s hs
  | answer t message idle quiet => exact quiet.stopped s hs
  | greet t version first quiet | authenticate t password correct quiet
  | challenge t nick key challenge gates unnamed quiet =>
      refine quiet.stopped s ?_
      by_cases e : s = t
      · subst e
        simpa using hs
      · simpa [e] using hs
  | admission t signatureHex bound reading gates checks binding quiet key =>
      refine quiet.stopped s ?_
      have bound := binding.stopped s hs
      by_cases e : s = t
      · subst e
        simpa using bound
      · simpa [e] using bound

theorem grows (h : Progress env server server') :
    server.output.trace <+: server'.output.trace := by
  have later {middle : ChatServer} (hm : server.output.trace <+: middle.output.trace)
      (quiet : Quiet middle server') : server.output.trace <+: server'.output.trace := by
    obtain ⟨new, hnew, -⟩ := quiet.emits
    exact hm.trans ⟨new, hnew.symm⟩
  cases h with
  | quiet quiet => exact later (List.prefix_refl _) quiet
  | answer s message idle quiet | greet s version first quiet =>
      exact later (List.prefix_append _ _) quiet
  | authenticate s password correct quiet | challenge s nick key challenge gates unnamed quiet =>
      refine later ?_ quiet
      rw [ChatServer.deliver_trace, ChatServer.updateSession_trace, ChatServer.note_trace,
        List.append_assoc]
      exact List.prefix_append _ _
  | admission s signatureHex bound reading gates checks binding quiet key =>
      obtain ⟨old, hold, -⟩ := binding.emits
      refine later ?_ quiet
      rw [ChatServer.note_trace, ChatServer.takeNickname_trace, hold, ChatServer.note_trace,
        List.append_assoc, List.append_assoc]
      exact List.prefix_append _ _

/-- What a step means for one session, with what the trace then says about it. -/
theorem session_cases (h : Progress env server server') (s : SessionId) :
    let session := server.tables.session s
    let session' := server'.tables.session s
    let trace := server.output.trace
    let trace' := server'.output.trace
    let kept := passesGates env server s = true → session.nickname = [] →
      session'.readLoop ≠ .stopped → ∀ nick key challenge,
        Challenged trace s nick key challenge → Challenged trace' s nick key challenge
    session'.credentials = session.credentials ∧ kept ∨
    (session.protocolNegotiated = false ∧
      ∃ version, Effect.received s (.hello version) ∈ trace' ∧
        session'.credentials =
          { session with protocolNegotiated := version == VERSION }.credentials) ∨
    (Authenticated env trace' s ∧ kept ∧
      session'.credentials = { session with authenticated := true }.credentials) ∨
    (∃ nick key challenge, passesGates env server s = true ∧ session.nickname = [] ∧
      Challenged trace' s nick key challenge ∧
      session'.credentials =
        { session with
          pendingNickname := nick
          pendingPublicKeyHex := key
          pendingChallenge := challenge }.credentials) ∨
    ∃ signatureHex rest, session.readLoop = .reading ∧ passesGates env server s = true ∧
      admitsSession env server s signatureHex = true ∧
      trace' = trace ++ .received s (.identityProof signatureHex) :: rest ∧
      spent rest = [(s, session.pendingChallenge)] ∧
      server'.tables.identities[session.pendingNickname]? = some session.pendingPublicKeyHex ∧
      session'.credentials =
        { session with
          nickname := session.pendingNickname
          pendingNickname := []
          pendingPublicKeyHex := []
          pendingChallenge := [] }.credentials := by
  have persists {old new : Trace} {nick key challenge : Bytes}
      (h : Challenged server.output.trace s nick key challenge)
      (hold : ∀ nick key, .received s (.identify nick key) ∉ old)
      (hnew : ∀ e ∈ new, Routine e) :
      Challenged (server.output.trace ++ old ++ new) s nick key challenge :=
    (h.append hold).append fun _ _ hm => hnew _ hm
  cases h with
  | quiet quiet =>
      obtain ⟨new, htrace, routine⟩ := quiet.emits
      refine .inl ⟨quiet.credentials s, fun _ _ _ nick key challenge hc => ?_⟩
      rw [htrace]
      exact hc.append fun _ _ hm => routine _ hm
  | answer t message idle quiet =>
      obtain ⟨new, htrace, routine⟩ := quiet.emits
      refine .inl ⟨quiet.credentials s, fun gates unnamed going nick key challenge hc => ?_⟩
      rw [htrace]
      refine persists hc (fun nick' key' hm => ?_) routine
      obtain ⟨rfl, rfl⟩ := Effect.received.inj (List.mem_singleton.mp hm)
      rcases idle nick' key' rfl with closed | named | stopped
      · rw [gates] at closed
        cases closed
      · exact named unnamed
      · exact going stopped
  | greet t version first quiet =>
      obtain ⟨new, htrace, routine⟩ := quiet.emits
      have same := quiet.credentials s
      by_cases e : s = t
      · subst e
        refine .inr (.inl ⟨first, version, ?_, ?_⟩)
        · rw [htrace]
          simp
        · simpa using same
      · refine .inl ⟨?_, fun _ _ _ nick key challenge hc => ?_⟩
        · simpa [e] using same
        · rw [htrace]
          refine persists hc (fun nick' key' hm => ?_) routine
          cases List.mem_singleton.mp hm
  | authenticate t password correct quiet =>
      obtain ⟨new, htrace, routine⟩ := quiet.emits
      have same := quiet.credentials s
      have kept (nick key challenge : Bytes)
          (hc : Challenged server.output.trace s nick key challenge) :
          Challenged server'.output.trace s nick key challenge := by
        rw [htrace, ChatServer.deliver_trace, ChatServer.updateSession_trace,
          ChatServer.note_trace, List.append_assoc server.output.trace]
        refine persists hc (fun nick' key' hm => ?_) routine
        simp at hm
      by_cases e : s = t
      · subst e
        refine .inr (.inr (.inl ⟨⟨server.output.trace, new, ?_⟩, fun _ _ _ => kept, ?_⟩))
        · obtain rfl : password = env.config.password := by simpa [Env.checkPassword] using correct
          rw [htrace, ChatServer.deliver_trace, ChatServer.updateSession_trace,
            ChatServer.note_trace]
          simp
        · simpa using same
      · refine .inl ⟨?_, fun _ _ _ => kept⟩
        simpa [e] using same
  | challenge t nick key challenge gates unnamed quiet =>
      obtain ⟨new, htrace, routine⟩ := quiet.emits
      have same := quiet.credentials s
      rw [ChatServer.deliver_trace, ChatServer.updateSession_trace, ChatServer.note_trace,
        List.append_assoc server.output.trace] at htrace
      by_cases e : s = t
      · subst e
        refine .inr (.inr (.inr (.inl ⟨nick, key, challenge, gates, unnamed,
          ⟨server.output.trace, new, htrace, fun _ _ hm => routine _ hm⟩, ?_⟩)))
        simpa using same
      · refine .inl ⟨?_, fun _ _ _ nick' key' challenge' hc => ?_⟩
        · simpa [e] using same
        · rw [htrace]
          refine persists hc (fun nick'' key'' hm => ?_) routine
          simp [e] at hm
  | admission t signatureHex bound reading gates checks binding quiet key =>
      obtain ⟨old, hold, routine⟩ := binding.emits
      obtain ⟨new, htrace, routine'⟩ := quiet.emits
      rw [ChatServer.note_trace, ChatServer.takeNickname_trace, hold, ChatServer.note_trace]
        at htrace
      have same := quiet.credentials s
      have sameBound := binding.credentials s
      by_cases e : s = t
      · subst e
        refine .inr (.inr (.inr (.inr ⟨signatureHex,
          old ++ [.admitted s (server.tables.session s).pendingNickname
            (server.tables.session s).pendingPublicKeyHex
            (server.tables.session s).pendingChallenge] ++ new,
          reading, gates, checks, ?_, ?_, key, ?_⟩)))
        · rw [htrace]
          simp
        · rw [spent_append, spent_append, spent_routine routine, spent_routine routine',
            spent_admitted]
          rfl
        · rw [ClientSession.credentials_eq] at same sameBound ⊢
          simp_all
      · refine .inl ⟨?_, fun _ _ _ nick' key' challenge' hc => ?_⟩
        · refine Eq.trans ?_ sameBound
          simpa [e] using same
        · have before : ∀ nick key, Effect.received s (.identify nick key) ∉
              [Effect.received t (.identityProof signatureHex)] ++ old ++
                [.admitted t (server.tables.session t).pendingNickname
                  (server.tables.session t).pendingPublicKeyHex
                  (server.tables.session t).pendingChallenge] := by
            intro nick key hm
            simp only [List.mem_append, List.mem_singleton, reduceCtorEq, or_false] at hm
            rcases hm with hm | hm
            · cases hm
            · exact routine _ hm
          rw [htrace]
          have := persists hc before routine'
          simpa only [List.append_assoc] using this

theorem step_spendable (h : Progress env server server') (hold : Spendable server) :
    Spendable server' := by
  intro s challenge
  have hold := hold s challenge
  have after {middle : ChatServer} (quiet : Quiet middle server') :
      spent server'.output.trace = spent middle.output.trace ∧
        issued server'.output.trace = issued middle.output.trace ∧
        (server'.tables.session s).pendingNickname = (middle.tables.session s).pendingNickname ∧
        (server'.tables.session s).pendingChallenge =
          (middle.tables.session s).pendingChallenge := by
    obtain ⟨new, htrace, routine⟩ := quiet.emits
    obtain ⟨-, nickname, -, challenge, -, -⟩ :=
      ClientSession.credentials_eq.mp (quiet.credentials s)
    refine ⟨?_, ?_, nickname, challenge⟩
    · rw [htrace, spent_append, spent_routine routine, List.append_nil]
    · rw [htrace, issued_append, issued_routine routine, List.append_nil]
  cases h with
  | quiet quiet =>
      obtain ⟨hs, hi, hn, hc⟩ := after quiet
      rwa [hs, hi, hn, hc]
  | answer t message idle quiet =>
      obtain ⟨hs, hi, hn, hc⟩ := after quiet
      rw [hs, hi, hn, hc, ChatServer.note_trace, spent_append, issued_append, spent_received,
        issued_received, List.append_nil, List.append_nil]
      exact hold
  | greet t version first quiet =>
      obtain ⟨hs, hi, hn, hc⟩ := after quiet
      rw [hs, hi, hn, hc, ChatServer.updateSession_trace, ChatServer.note_trace, spent_append,
        issued_append]
      by_cases e : s = t
      · subst e
        simpa using hold
      · simpa [e] using hold
  | authenticate t password correct quiet =>
      obtain ⟨hs, hi, hn, hc⟩ := after quiet
      rw [hs, hi, hn, hc, ChatServer.deliver_trace, ChatServer.updateSession_trace,
        ChatServer.note_trace, spent_append, issued_append, spent_append, issued_append]
      by_cases e : s = t
      · subst e
        simpa using hold
      · simpa [e] using hold
  | challenge t nick key challenge' gates unnamed quiet =>
      obtain ⟨hs, hi, hn, hc⟩ := after quiet
      rw [hs, hi, hn, hc, ChatServer.deliver_trace, ChatServer.updateSession_trace,
        ChatServer.note_trace, spent_append, issued_append, spent_append, issued_append]
      have le := (Nat.le_add_right _ _).trans hold
      by_cases e : s = t
      · subst e
        by_cases ec : challenge' = challenge
        · subst ec
          simp only [spent_received, issued_received, spent_deliver, issued_challenge,
            List.append_nil, List.count_append, List.count_singleton_self]
          split
          · omega
          · omega
        · simpa [ec] using le
      · simpa [e, Ne.symm e] using hold
  | admission t signatureHex bound reading gates checks binding quiet key =>
      obtain ⟨hs, hi, hn, hc⟩ := after quiet
      obtain ⟨old, htrace, routine⟩ := binding.emits
      obtain ⟨-, nickname, -, challenge', -, -⟩ :=
        ClientSession.credentials_eq.mp (binding.credentials s)
      rw [hs, hi, hn, hc, ChatServer.note_trace, ChatServer.takeNickname_trace, htrace,
        ChatServer.note_trace, spent_append, issued_append, spent_append, issued_append,
        spent_append, issued_append, spent_routine routine, issued_routine routine]
      by_cases e : s = t
      · subst e
        have pending := (admitsSession_spec checks).2.1
        by_cases ec : (server.tables.session s).pendingChallenge = challenge
        · simpa [pending, ec] using hold
        · simpa [pending, ec] using hold
      · simpa [e, Ne.symm e, nickname, challenge'] using hold

end Progress

/-- The credentials of the sessions rest on what the trace holds. -/
structure Credited (env : Env) (server : ChatServer) : Prop where
  greeted : ∀ s, (server.tables.session s).protocolNegotiated = true →
    Greeted server.output.trace s
  authenticated : ∀ s, (server.tables.session s).authenticated = true →
    Authenticated env server.output.trace s
  pending : ∀ s, (server.tables.session s).pendingNickname ≠ [] →
    passesGates env server s = true ∧ (server.tables.session s).nickname = [] ∧
    ((server.tables.session s).readLoop ≠ .stopped →
      Challenged server.output.trace s (server.tables.session s).pendingNickname
        (server.tables.session s).pendingPublicKeyHex (server.tables.session s).pendingChallenge)
  presented : ∀ s, (server.tables.session s).nickname ≠ [] → ∃ key,
    server.tables.identities[(server.tables.session s).nickname]? = some key ∧
    Presented env server.output.trace s (server.tables.session s).nickname key

namespace Credited

variable {env : Env} {server server' : ChatServer}

theorem step_greeted (hc : Credited env server) (h : Progress env server server')
    (s : SessionId) (hn : (server'.tables.session s).protocolNegotiated = true) :
    Greeted server'.output.trace s := by
  have kept (h' : (server.tables.session s).protocolNegotiated = true) :
      Greeted server'.output.trace s := by
    obtain ⟨new, htrace⟩ := h.grows
    rw [← htrace]
    exact (hc.greeted s h').append
  rcases h.session_cases s with ⟨same, -⟩ | ⟨-, version, received, same⟩ | ⟨-, -, same⟩ |
    ⟨nick, key, challenge, -, -, -, same⟩ | ⟨signatureHex, rest, -, -, -, -, -, -, same⟩
  all_goals
    have hsame := (ClientSession.credentials_eq.mp same).2.2.2.2.2
    rw [hn] at hsame
  · exact kept hsame.symm
  · obtain rfl : version = VERSION := by simpa using hsame
    exact received
  · exact kept hsame.symm
  · exact kept hsame.symm
  · exact kept hsame.symm

theorem step_authenticated (hc : Credited env server) (h : Progress env server server')
    (s : SessionId) (ha : (server'.tables.session s).authenticated = true) :
    Authenticated env server'.output.trace s := by
  have kept (h' : (server.tables.session s).authenticated = true) :
      Authenticated env server'.output.trace s := by
    obtain ⟨new, htrace⟩ := h.grows
    rw [← htrace]
    exact (hc.authenticated s h').append
  rcases h.session_cases s with ⟨same, -⟩ | ⟨-, version, -, same⟩ | ⟨accepted, -, same⟩ |
    ⟨nick, key, challenge, -, -, -, same⟩ | ⟨signatureHex, rest, -, -, -, -, -, -, same⟩
  all_goals
    have hsame := (ClientSession.credentials_eq.mp same).2.2.2.2.1
    rw [ha] at hsame
  · exact kept hsame.symm
  · exact kept hsame.symm
  · exact accepted
  · exact kept hsame.symm
  · exact kept hsame.symm

theorem step_pending (hc : Credited env server) (h : Progress env server server')
    (s : SessionId) (hp : (server'.tables.session s).pendingNickname ≠ []) :
    passesGates env server' s = true ∧ (server'.tables.session s).nickname = [] ∧
      ((server'.tables.session s).readLoop ≠ .stopped →
        Challenged server'.output.trace s (server'.tables.session s).pendingNickname
          (server'.tables.session s).pendingPublicKeyHex
          (server'.tables.session s).pendingChallenge) := by
  have going (h' : (server'.tables.session s).readLoop ≠ .stopped) :
      (server.tables.session s).readLoop ≠ .stopped := fun hs => h' (h.stopped s hs)
  rcases h.session_cases s with ⟨same, kept⟩ | ⟨first, version, -, same⟩ | ⟨-, kept, same⟩ |
    ⟨nick, key, challenge, gates, unnamed, challenged, same⟩ |
    ⟨signatureHex, rest, -, -, -, -, -, -, same⟩
  all_goals
    obtain ⟨hname, hnick, hkey, hchallenge, hauth, hneg⟩ := ClientSession.credentials_eq.mp same
    rw [hnick] at hp
  · obtain ⟨gates, unnamed, challenged⟩ := hc.pending s hp
    rw [hnick, hkey, hchallenge, hname]
    refine ⟨?_, unnamed, fun h' => kept gates unnamed h' _ _ _ (challenged (going h'))⟩
    rw [← gates, passesGates, passesGates, hauth, hneg]
  · have gates := (hc.pending s hp).1
    rw [passesGates, first] at gates
    cases gates
  · obtain ⟨gates, unnamed, challenged⟩ := hc.pending s hp
    rw [hnick, hkey, hchallenge, hname]
    refine ⟨?_, unnamed, fun h' => kept gates unnamed h' _ _ _ (challenged (going h'))⟩
    rw [passesGates, Bool.and_eq_true] at gates
    simp [passesGates, hauth, hneg, gates.1]
  · rw [hnick, hkey, hchallenge, hname]
    refine ⟨?_, unnamed, fun _ => challenged⟩
    rw [← gates, passesGates, passesGates, hauth, hneg]
  · exact absurd rfl hp

theorem step_presented (hc : Credited env server) (h : Progress env server server')
    (bound : ∀ (nick key : Bytes), server.tables.identities[nick]? = some key →
      server'.tables.identities[nick]? = some key)
    (s : SessionId) (hn : (server'.tables.session s).nickname ≠ []) : ∃ key,
    server'.tables.identities[(server'.tables.session s).nickname]? = some key ∧
      Presented env server'.output.trace s (server'.tables.session s).nickname key := by
  have kept (h' : (server.tables.session s).nickname ≠ []) : ∃ key,
      server'.tables.identities[(server.tables.session s).nickname]? = some key ∧
        Presented env server'.output.trace s (server.tables.session s).nickname key := by
    obtain ⟨key, hkey, presented⟩ := hc.presented s h'
    obtain ⟨new, htrace⟩ := h.grows
    rw [← htrace]
    exact ⟨key, bound _ _ hkey, presented.append⟩
  rcases h.session_cases s with ⟨same, -⟩ | ⟨-, version, -, same⟩ | ⟨-, -, same⟩ |
    ⟨nick, key, challenge, -, -, -, same⟩ |
    ⟨signatureHex, rest, reading, gates, checks, htrace, -, hkey, same⟩
  all_goals
    have hname := (ClientSession.credentials_eq.mp same).1
    rw [hname] at hn ⊢
  · exact kept hn
  · exact kept hn
  · exact kept hn
  · exact kept hn
  · obtain ⟨-, hpending, hverify, -, -⟩ := admitsSession_spec checks
    have challenged := (hc.pending s hpending).2.2 (by rw [reading]; nofun)
    exact ⟨_, hkey, _, signatureHex, _, rest, htrace, challenged, hverify⟩

theorem step (hc : Credited env server) (h : Progress env server server')
    (bound : ∀ (nick key : Bytes), server.tables.identities[nick]? = some key →
      server'.tables.identities[nick]? = some key) : Credited env server' :=
  ⟨hc.step_greeted h, hc.step_authenticated h, hc.step_pending h, hc.step_presented h bound⟩

end Credited

section Reachable

variable {env : Env} {stored : StoredState} {server server' : ChatServer}

/-- A binding of a nickname to a key is never changed or removed. -/
theorem step_bound {event : Event} (h : step env server event = some server')
    (nick key : Bytes) (bound : server.tables.identities[nick]? = some key) :
    server'.tables.identities[nick]? = some key := by
  have keeps (a b : ServerTables) (hc : Change env (Mover env server event) a b)
      (ha : a.identities[nick]? = some key) : b.identities[nick]? = some key := by
    cases hc with
    | touch | accept | identify | admission | place | insertRoom | topic | host | bans => exact ha
    | drop s stays =>
        rw [ServerTables.dropSession_identities]
        exact ha
    | bind nick' key' unbound =>
        simp only [OrderedMap.getElem?_insert]
        split
        · next e =>
            subst e
            rw [unbound] at ha
            cases ha
        · exact ha
  exact (step_changes h).invariant keeps bound

theorem start_routine (env : Env) (stored : StoredState) :
    ∀ e ∈ (ChatServer.start env stored).output.trace, Routine e := by
  intro e he
  obtain ⟨write, rfl⟩ := ChatServer.start_stores env stored e he
  trivial

theorem start_credited (env : Env) (stored : StoredState) :
    Credited env (ChatServer.start env stored) := by
  have none := (start_tables env stored).2.2.2
  constructor
  all_goals
    rw [none]
    intro s hs
  · cases hs
  · cases hs
  · exact absurd rfl hs
  · exact absurd rfl hs

theorem reachable_credited (h : Reachable env stored server) : Credited env server := by
  obtain ⟨events, h⟩ := h
  exact Run.run_invariant (fun _ _ _ hc hs => hc.step (step_progress hs) (step_bound hs)) h
    (start_credited env stored)

theorem reachable_spent (h : Reachable env stored server) :
    (spent server.output.trace).Subperm (issued server.output.trace) := by
  obtain ⟨events, h⟩ := h
  have start : Spendable (ChatServer.start env stored) := by
    intro s challenge
    rw [spent_routine (start_routine env stored), (start_tables env stored).2.2.2]
    simp
  have all : Spendable server := Run.run_invariant
    (fun _ _ _ hold hstep => (step_progress hstep).step_spendable hold) h start
  refine List.subperm_ext_iff.mpr fun entry _ => ?_
  exact (Nat.le_add_right _ _).trans (all entry.1 entry.2)

/-- A session gets its nickname, and comes into a room for the first time, only
through a PROOF after a HELLO, after the password where there is one, and after an
IDENTIFY whose challenge the PROOF answers, with a nickname that is free and that
the key holds then; and a challenge serves for one admission only. -/
theorem reachable_admission (env : Env) (stored : StoredState) (server : ChatServer)
    (h : Reachable env stored server) :
    (∀ event server' s, step env server event = some server' →
      (server.tables.session s).nickname = [] →
      (server'.tables.session s).nickname ≠ [] ∨ (server'.tables.session s).activeRoomId ≠ 0 →
      ∃ signatureHex rest nick key challenge,
        server'.output.trace =
          server.output.trace ++ .received s (.identityProof signatureHex) :: rest ∧
        spent rest = [(s, challenge)] ∧
        Greeted server.output.trace s ∧
        (env.config.password = [] ∨ Authenticated env server.output.trace s) ∧
        Challenged server.output.trace s nick key challenge ∧
        env.verifyIdentitySignature key challenge signatureHex = true ∧
        (server'.tables.session s).nickname = nick ∧
        server.tables.isBanned nick = false ∧
        server.tables.nicknameTaken env nick = false ∧
        server'.tables.identities[nick]? = some key) ∧
    (spent server.output.trace).Subperm (issued server.output.trace) ∧
    (((issued server.output.trace).map Prod.snd).Nodup →
      ((spent server.output.trace).map Prod.snd).Nodup) := by
  have credited := reachable_credited h
  have subperm := reachable_spent h
  refine ⟨fun event server' s hstep unnamed admitted => ?_, subperm, fun fresh => ?_⟩
  · have named : (server'.tables.session s).nickname ≠ [] := by
      rcases admitted with named | inside
      · exact named
      · exact (step_consistent hstep (reachable_consistent h)).named s inside
    have unchanged (same : (server'.tables.session s).nickname =
        (server.tables.session s).nickname) : False := named (same.trans unnamed)
    rcases (step_progress hstep).session_cases s with ⟨same, -⟩ | ⟨-, version, -, same⟩ |
      ⟨-, -, same⟩ | ⟨nick, key, challenge, -, -, -, same⟩ |
      ⟨signatureHex, rest, reading, gates, checks, htrace, hspent, hkey, same⟩
    · exact (unchanged (ClientSession.credentials_eq.mp same).1).elim
    · exact (unchanged (ClientSession.credentials_eq.mp same).1).elim
    · exact (unchanged (ClientSession.credentials_eq.mp same).1).elim
    · exact (unchanged (ClientSession.credentials_eq.mp same).1).elim
    · obtain ⟨-, hpending, verified, banned, taken⟩ := admitsSession_spec checks
      have challenged := (credited.pending s hpending).2.2 (by rw [reading]; nofun)
      rw [passesGates, Bool.and_eq_true] at gates
      refine ⟨signatureHex, rest, _, _, _, htrace, hspent, credited.greeted s gates.1, ?_,
        challenged, verified, (ClientSession.credentials_eq.mp same).1, banned, taken, hkey⟩
      rcases Bool.or_eq_true_iff.mp gates.2 with nopassword | authenticated
      · exact .inl (by simpa [Env.hasPassword] using nopassword)
      · exact .inr (credited.authenticated s authenticated)
  · obtain ⟨l, hperm, hsub⟩ := subperm
    exact (hperm.map Prod.snd).nodup_iff.mp ((hsub.map Prod.snd).nodup fresh)

/-- The proof of a client that has been challenged. -/
theorem reachable_admission_ann :
    ∃ server server' signatureHex nick key challenge,
      serverAfter ((visit 7 (ascii "ann")).take 4) = some server ∧
      step .plain server (.line 7 (clientFrame (.identityProof (List.replicate 128 48)))) =
        some server' ∧
      Greeted server.output.trace 7 ∧ Challenged server.output.trace 7 nick key challenge ∧
      Env.plain.verifyIdentitySignature key challenge signatureHex = true ∧
      (server'.tables.session 7).nickname = nick ∧
      server'.tables.identities[nick]? = some key := by
  obtain ⟨server, hserver, reachable, unnamed, hproof⟩ :=
    exists_serverAfter ((visit 7 (ascii "ann")).take 4) (fun server =>
      (server.tables.session 7).nickname = [] ∧
      (step .plain server (.line 7 (clientFrame (.identityProof (List.replicate 128 48))))).any
        (fun server' => !(server'.tables.session 7).nickname.isEmpty) = true) (by decide +kernel)
  obtain ⟨server', hstep, named⟩ := (Option.any_eq_true _ _).mp hproof
  obtain ⟨signatureHex, rest, nick, key, challenge, -, -, greeted, -, challenged, verified, name,
      -, -, bound⟩ := (reachable_admission .plain emptyStore server reachable).1 _ server' 7 hstep
    unnamed (.inl (by simpa using named))
  exact ⟨server, server', signatureHex, nick, key, challenge, hserver, hstep, greeted, challenged,
    verified, name, bound⟩

end Reachable

end Chatbox.Chat
