import Chatbox.Chat.Session

/-!
Two spellings of one public key. Parsing, validation and the check of signatures read the
digits and do not mind whether a letter is a capital; the bindings hold the text of a key and
compare it as text.
-/

namespace Chatbox.Chat

open Text Protocol

section Spellings

theorem hexValue_toLower (c : UInt8) : hexValue (toLower c) = hexValue c :=
  @forall_byte (fun c => hexValue (toLower c) = hexValue c) (by decide +kernel) c

theorem hexToBytes_map_toLower (text : Bytes) : hexToBytes (text.map toLower) = hexToBytes text := by
  fun_induction hexToBytes text with
  | case1 high low rest ih =>
      rw [List.map_cons, List.map_cons, hexToBytes, hexValue_toLower, hexValue_toLower, ih]
  | case2 text short =>
      obtain _ | ⟨high, _ | ⟨low, rest⟩⟩ := text
      · rfl
      · rfl
      · exact absurd rfl (short high low rest)

/-- Two texts of 64 hexadecimal digits that differ in the case of their letters only. -/
structure SameKey (a b : Bytes) : Prop where
  left : isHexOfLen a cryptoSignPublicKeyBytes = true
  right : isHexOfLen b cryptoSignPublicKeyBytes = true
  letters : a.map toLower = b.map toLower

theorem SameKey.symm {a b : Bytes} (same : SameKey a b) : SameKey b a :=
  ⟨same.right, same.left, same.letters.symm⟩

theorem SameKey.trans {a b c : Bytes} (first : SameKey a b) (second : SameKey b c) : SameKey a c :=
  ⟨first.left, second.right, first.letters.trans second.letters⟩

theorem SameKey.bytes {a b : Bytes} (same : SameKey a b) : hexToBytes a = hexToBytes b := by
  rw [← hexToBytes_map_toLower a, same.letters, hexToBytes_map_toLower]

/-- A signature is checked against the bytes of the key. -/
theorem SameKey.verify {a b : Bytes} (same : SameKey a b) (env : Env)
    (challenge signatureHex : Bytes) : env.verifyIdentitySignature a challenge signatureHex =
      env.verifyIdentitySignature b challenge signatureHex := by
  simp only [Env.verifyIdentitySignature, same.left, same.right, same.bytes]

end Spellings

/-- The server without the text of the key that a session has to prove. -/
def ChatServer.forgetKey (server : ChatServer) (s : SessionId) : ChatServer :=
  server.updateSession s fun session => { session with pendingPublicKeyHex := [] }

/-- Nothing is decided otherwise for one key than for the other: whether the nickname is
available, whether it can be bound, what follows an IDENTIFY of the session, and whether a
proof is accepted. -/
structure DecidesAlike (env : Env) (server : ChatServer) (s : SessionId) (nick a b : Bytes) :
    Prop where
  available : server.tables.identityAvailableFor nick a =
    server.tables.identityAvailableFor nick b
  bind : (server.bindIdentity env nick a).2 = (server.bindIdentity env nick b).2
  identify : (server.onIdentify env s nick a).forgetKey s =
    (server.onIdentify env s nick b).forgetKey s
  verify : ∀ challenge signatureHex, env.verifyIdentitySignature a challenge signatureHex =
    env.verifyIdentitySignature b challenge signatureHex

/-- Only the bytes of the key decide: both spellings are decided alike, and where the nickname
is bound to the key, in whatever spelling, both are decided as that one is. -/
structure DecidesByKey (env : Env) (server : ChatServer) (s : SessionId) (nick a b : Bytes) :
    Prop where
  alike : DecidesAlike env server s nick a b
  holder : ∀ key, server.tables.identities[nick]? = some key → SameKey key a →
    DecidesAlike env server s nick key a ∧ DecidesAlike env server s nick key b

section Decisions

variable {env : Env} {server : ChatServer} {s : SessionId} {nick a b : Bytes}

/-- The nickname is not bound, or to a text that is neither of the two. -/
def BoundToNeither (server : ChatServer) (nick a b : Bytes) : Prop :=
  ∀ key, server.tables.identities[nick]? = some key → key ≠ a ∧ key ≠ b

theorem identityAvailableFor_same (same : SameKey a b) (neither : BoundToNeither server nick a b) :
    server.tables.identityAvailableFor nick a = server.tables.identityAvailableFor nick b := by
  simp only [ServerTables.identityAvailableFor, same.left, same.right]
  cases bound : server.tables.identities[nick]? with
  | none => rfl
  | some key =>
      obtain ⟨notLeft, notRight⟩ := neither key bound
      simp only [ne_eq, notLeft, notRight, not_false_eq_true, if_true]

theorem bindIdentity_same (neither : BoundToNeither server nick a b) :
    (server.bindIdentity env nick a).2 = (server.bindIdentity env nick b).2 := by
  unfold ChatServer.bindIdentity
  cases bound : server.tables.identities[nick]? with
  | none => rfl
  | some key =>
      obtain ⟨notLeft, notRight⟩ := neither key bound
      simp only [beq_eq_false_iff_ne.mpr notLeft, beq_eq_false_iff_ne.mpr notRight]

theorem updateSession_again (tables : ServerTables) (first second : ClientSession → ClientSession) :
    (tables.updateSession s first).updateSession s second =
      tables.updateSession s fun session => second (first session) := by
  simp only [ServerTables.updateSession, Function.update_self, Function.update_idem]

/-- Only the text to be proven tells two IDENTIFY messages apart that are answered alike. -/
theorem onIdentify_same (available : server.tables.identityAvailableFor nick a =
    server.tables.identityAvailableFor nick b) :
    (server.onIdentify env s nick a).forgetKey s =
      (server.onIdentify env s nick b).forgetKey s := by
  unfold ChatServer.onIdentify
  rw [available]
  split
  · rfl
  · split
    · rfl
    · split
      · rfl
      · split
        · rfl
        · simp only [ChatServer.forgetKey, ChatServer.updateSession, ChatServer.deliver,
            ChatServer.onTables, ChatServer.onOutput, updateSession_again]

theorem bindIdentity_answer {key : Bytes} (bound : server.tables.identities[nick]? = some key) :
    (server.bindIdentity env nick a).2 = (key == a) := by
  simp only [ChatServer.bindIdentity, bound]

theorem decidesAlike_refl (env : Env) (server : ChatServer) (s : SessionId) (nick key : Bytes) :
    DecidesAlike env server s nick key key := ⟨rfl, rfl, rfl, fun _ _ => rfl⟩

theorem decidesAlike_of_neither (same : SameKey a b) (neither : BoundToNeither server nick a b) :
    DecidesAlike env server s nick a b := by
  have available := identityAvailableFor_same same neither
  exact ⟨available, bindIdentity_same neither, onIdentify_same available, same.verify env⟩

/-- For a nickname that is bound, a spelling is only decided like the bound text if it is. -/
theorem DecidesAlike.bound {key : Bytes} (alike : DecidesAlike env server s nick key a)
    (bound : server.tables.identities[nick]? = some key) : key = a := by
  have answer := alike.bind
  rw [bindIdentity_answer bound, bindIdentity_answer bound, beq_self_eq_true] at answer
  exact eq_of_beq answer.symm

/-- The spelling of a key does not matter for a nickname that is not bound to this key; for one
that is, it has to be the text that it is bound to. -/
theorem decidesByKey_iff (same : SameKey a b) :
    DecidesByKey env server s nick a b ↔
      ∀ key, server.tables.identities[nick]? = some key → SameKey key a → key = a ∧ key = b := by
  constructor
  · intro decides key bound spelled
    obtain ⟨left, right⟩ := decides.holder key bound spelled
    exact ⟨left.bound bound, right.bound bound⟩
  · intro written
    refine ⟨?_, fun key bound spelled => ?_⟩
    · by_cases spelled : ∃ key, server.tables.identities[nick]? = some key ∧ SameKey key a
      · obtain ⟨key, bound, spelled⟩ := spelled
        obtain ⟨rfl, rfl⟩ := written key bound spelled
        exact decidesAlike_refl env server s nick key
      · refine decidesAlike_of_neither same fun key bound => ⟨?_, ?_⟩
        · rintro rfl
          exact spelled ⟨key, bound, same.trans same.symm⟩
        · rintro rfl
          exact spelled ⟨key, bound, same.symm⟩
    · obtain ⟨rfl, rfl⟩ := written key bound spelled
      exact ⟨decidesAlike_refl env server s nick key, decidesAlike_refl env server s nick key⟩

/-- Keys of one letter, small and capital. -/
theorem sameKey_letters : SameKey (List.replicate 64 97) (List.replicate 64 65) ∧
    SameKey (List.replicate 64 98) (List.replicate 64 66) :=
  ⟨⟨by decide +kernel, by decide +kernel, by decide +kernel⟩,
    ⟨by decide +kernel, by decide +kernel, by decide +kernel⟩⟩

/-- A client that has proven the key `aa…a` is `ann`. -/
theorem exists_annBound : ∃ server, Reachable .plain emptyStore server ∧
    server.tables.identities[ascii "ann"]? = some (List.replicate 64 97) ∧
      server.tables.identities[ascii "bob"]? = none := by
  obtain ⟨server, -, reachable, bound⟩ := exists_serverAfter
    [.accept 7, .handshake 7 true, .line 7 (clientFrame (.hello VERSION)),
      .line 7 (clientFrame (.identify (ascii "ann") (List.replicate 64 97))),
      .line 7 (clientFrame (.identityProof (List.replicate 128 48)))]
    (fun server => server.tables.identities[ascii "ann"]? = some (List.replicate 64 97) ∧
      server.tables.identities[ascii "bob"]? = none)
    (by decide +kernel)
  exact ⟨server, reachable, bound⟩

/-- Another key is refused as `ann` in both spellings, and the key of `ann` is taken as `bob` in
both; as `ann` it has to be written as it was. -/
theorem decidesByKey_bound : ∃ server, Reachable .plain emptyStore server ∧
    DecidesByKey .plain server 8 (ascii "ann") (List.replicate 64 98) (List.replicate 64 66) ∧
    DecidesByKey .plain server 8 (ascii "bob") (List.replicate 64 97) (List.replicate 64 65) ∧
    ¬ DecidesByKey .plain server 8 (ascii "ann") (List.replicate 64 65) (List.replicate 64 65) := by
  obtain ⟨server, reachable, ann, bob⟩ := exists_annBound
  have capital : SameKey (List.replicate 64 65) (List.replicate 64 65) :=
    sameKey_letters.1.symm.trans sameKey_letters.1
  refine ⟨server, reachable, (decidesByKey_iff sameKey_letters.2).mpr fun key bound spelled => ?_,
    (decidesByKey_iff sameKey_letters.1).mpr fun key bound _ => ?_, fun decides => ?_⟩
  · obtain rfl := Option.some.inj (ann.symm.trans bound)
    exact absurd spelled.letters (by decide +kernel)
  · rw [bob] at bound
    cases bound
  · have written := (decidesByKey_iff capital).mp decides _ ann sameKey_letters.1
    exact absurd written.1 (by decide +kernel)

/-- A client that has proven a key is refused when it writes the same key with capitals. -/
theorem decidesByKey_capitals :
    ¬ ∀ server s nick a b, Reachable .plain emptyStore server → SameKey a b →
      DecidesByKey .plain server s nick a b := by
  intro all
  obtain ⟨server, reachable, bound, -⟩ := exists_annBound
  have written := (all server 8 (ascii "ann") _ _ reachable sameKey_letters.1).alike.bound bound
  exact absurd written (by decide +kernel)

end Decisions

end Chatbox.Chat
