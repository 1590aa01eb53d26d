import Chatbox.Protocol.Client

/-!
The round trip of client messages. Eleven of the thirteen messages always come
back as they were built. A whisper or a kick request whose name contains `'|'`
comes back as another message when the part before the separator is a nickname
and the remainder still makes a text.
-/

namespace Chatbox.Protocol

open Text

section Fields

theorem splitFields_cons {a : Bytes} (h : pipe ∉ a) (b : Bytes) :
    splitFields (a ++ pipe :: b) = a :: splitFields b :=
  List.splitOn_append_cons_self_of_not_mem h b

theorem splitFields_single {a : Bytes} (h : pipe ∉ a) : splitFields a = [a] :=
  List.splitOn_eq_singleton h

theorem length_splitFields_pos (a : Bytes) : 0 < (splitFields a).length :=
  List.length_pos_iff.mpr (List.splitOn_ne_nil pipe a)

/-- One field means that there was no separator. -/
theorem splitFields_length_one {a : Bytes} (h : (splitFields a).length = 1) :
    pipe ∉ a := by
  intro hm
  obtain ⟨b, c, rfl, hb⟩ := exists_first_delimiter hm
  have := length_splitFields_pos c
  rw [splitFields_cons hb, List.length_cons] at h
  omega

/-- Two fields around a separator contain no other one. -/
theorem splitFields_length_two {a b : Bytes} (h : (splitFields (a ++ pipe :: b)).length = 2) :
    pipe ∉ a ∧ pipe ∉ b := by
  have ha : pipe ∉ a := by
    intro hm
    obtain ⟨c, d, rfl, hc⟩ := exists_first_delimiter hm
    rw [List.append_assoc, List.cons_append, splitFields_cons hc, List.length_cons] at h
    have one : (splitFields (d ++ pipe :: b)).length = 1 := by omega
    exact splitFields_length_one one (by simp)
  rw [splitFields_cons ha, List.length_cons] at h
  exact ⟨ha, splitFields_length_one (by omega)⟩

theorem restAfterCommand_cons {a : Bytes} (h : pipe ∉ a) (b : Bytes) :
    restAfterCommand (a ++ pipe :: b) = b := by
  simp [restAfterCommand, idxOf?_append_cons h]

theorem restAfterDelimiter_cons {a : Bytes} (h : pipe ∉ a) (b : Bytes) (n : Nat) :
    restAfterDelimiter (a ++ pipe :: b) (n + 1) = restAfterDelimiter b n := by
  simp [restAfterDelimiter, idxOf?_append_cons h]

theorem restAfterSecond_cons {a b : Bytes} (ha : pipe ∉ a) (hb : pipe ∉ b) (c : Bytes) :
    restAfterSecond (a ++ pipe :: (b ++ pipe :: c)) = c := by
  have h1 : (a ++ pipe :: (b ++ pipe :: c)).drop (a.length + 1) = b ++ pipe :: c := by simp
  have h2 : findFrom (a ++ pipe :: (b ++ pipe :: c)) pipe (a.length + 1) =
      some (b.length + (a.length + 1)) := by
    rw [findFrom, h1, idxOf?_append_cons hb]
    rfl
  simp only [restAfterSecond, idxOf?_append_cons ha, h2]
  rw [show b.length + (a.length + 1) + 1 = (a.length + 1) + (b.length + 1) by omega,
    ← List.drop_drop, h1]
  simp

end Fields

section Guards

/-- A guarded success passed its guard. -/
theorem guard_ok {α : Type} {c : Prop} [Decidable c] {error : Error} {detail : Bytes}
    {rest : Result α} {value : α} :
    (if c then failure error detail else rest) = .ok value ↔ ¬ c ∧ rest = .ok value := by
  split
  · next h => simp [failure, h]
  · next h => simp [h]

theorem parseHello_toDecimal {α : Type} {message : UInt32 → α} {word : Bytes}
    {version : UInt32} {value : α}
    (h : parseHello message [word, toDecimal version.toNat] = .ok value) :
    value = message version := by
  have bound := version.toNat_lt
  simp only [parseHello, List.length_cons, List.length_nil, Nat.reduceAdd, ne_eq,
    not_true_eq_false, if_false, List.getD_cons_succ, List.getD_cons_zero,
    fromChars_toDecimal bound, guard_ok] at h
  simpa using h.2.symm

end Guards

section Commands

variable (rest : Bytes)

theorem parseClient_hello :
    parseClientMessage (ascii "HELLO" ++ pipe :: rest) =
      parseHello .hello (ascii "HELLO" :: splitFields rest) := by
  have word : pipe ∉ ascii "HELLO" := by decide
  simp +decide [parseClientMessage, splitFields_cons word]

theorem parseClient_auth :
    parseClientMessage (ascii "AUTH" ++ pipe :: rest) =
      if rest.length > 63 || rest.any isCntrl then
        failure .invalidField
          (ascii "AUTH password is oversized or contains control characters")
      else .ok (.authenticate rest) := by
  have word : pipe ∉ ascii "AUTH" := by decide
  have enough : ¬ (splitFields rest).length + 1 < 2 := by
    have := length_splitFields_pos rest
    omega
  unfold parseClientMessage
  rw [splitFields_cons word, restAfterCommand_cons word]
  generalize splitFields rest = fields at *
  simp +decide [enough]

theorem parseClient_identify :
    parseClientMessage (ascii "IDENTIFY" ++ pipe :: rest) =
      if (splitFields rest).length ≠ 2 then
        failure .wrongFieldCount (ascii "IDENTIFY requires nickname and public key fields")
      else if !isValidNickname ((splitFields rest).getD 0 []) ||
          !isHex ((splitFields rest).getD 1 []) 64 then
        failure .invalidField
          (ascii "IDENTIFY contains an invalid nickname or public key")
      else .ok (.identify ((splitFields rest).getD 0 []) ((splitFields rest).getD 1 [])) := by
  have word : pipe ∉ ascii "IDENTIFY" := by decide
  simp +decide [parseClientMessage, splitFields_cons word]

theorem parseClient_proof :
    parseClientMessage (ascii "PROOF" ++ pipe :: rest) =
      if (splitFields rest).length ≠ 1 then
        failure .wrongFieldCount (ascii "PROOF requires one signature field")
      else if !isHex ((splitFields rest).getD 0 []) 128 then
        failure .invalidField (ascii "PROOF signature is invalid")
      else .ok (.identityProof ((splitFields rest).getD 0 [])) := by
  have word : pipe ∉ ascii "PROOF" := by decide
  simp +decide [parseClientMessage, splitFields_cons word]

theorem parseClient_create :
    parseClientMessage (ascii "CREATE" ++ pipe :: rest) =
      if (splitFields rest).length ≠ 1 then
        failure .wrongFieldCount (ascii "CREATE" ++ ascii " requires one room name")
      else if !isValidRoomName ((splitFields rest).getD 0 []) then
        failure .invalidField (ascii "CREATE" ++ ascii " contains an invalid room name")
      else .ok (.createRoom ((splitFields rest).getD 0 [])) := by
  have word : pipe ∉ ascii "CREATE" := by decide
  simp +decide [parseClientMessage, splitFields_cons word]

theorem parseClient_join :
    parseClientMessage (ascii "JOIN" ++ pipe :: rest) =
      if (splitFields rest).length ≠ 1 then
        failure .wrongFieldCount (ascii "JOIN" ++ ascii " requires one room name")
      else if !isValidRoomName ((splitFields rest).getD 0 []) then
        failure .invalidField (ascii "JOIN" ++ ascii " contains an invalid room name")
      else .ok (.joinRoom ((splitFields rest).getD 0 [])) := by
  have word : pipe ∉ ascii "JOIN" := by decide
  simp +decide [parseClientMessage, splitFields_cons word]

theorem parseClient_topic :
    parseClientMessage (ascii "TOPIC" ++ pipe :: rest) =
      if rest.isEmpty || !isValidRoomTopic rest then
        failure .invalidField
          (ascii "TOPIC text is empty, oversized, or contains control characters")
      else .ok (.topicRequest (some rest)) := by
  have word : pipe ∉ ascii "TOPIC" := by decide
  have several : splitFields rest ≠ [] := List.splitOn_ne_nil pipe rest
  unfold parseClientMessage
  rw [splitFields_cons word, restAfterCommand_cons word]
  generalize splitFields rest = fields at *
  simp +decide [several]

theorem parseClient_msg :
    parseClientMessage (ascii "MSG" ++ pipe :: rest) =
      if !isValidText rest MAX_CHAT_LENGTH then
        failure .invalidField
          (ascii "MSG body is empty, oversized, or contains control characters")
      else .ok (.chat rest) := by
  have word : pipe ∉ ascii "MSG" := by decide
  have enough : ¬ (splitFields rest).length + 1 < 2 := by
    have := length_splitFields_pos rest
    omega
  unfold parseClientMessage
  rw [splitFields_cons word, restAfterCommand_cons word]
  generalize splitFields rest = fields at *
  simp +decide [enough]

/-- The target ends at the first separator; the body keeps all the others. -/
theorem parseClient_whisper {target : Bytes} (h : pipe ∉ target) (body : Bytes) :
    parseClientMessage (ascii "WHISPER" ++ pipe :: (target ++ pipe :: body)) =
      if !isValidNickname target || !isValidText body MAX_CHAT_LENGTH then
        failure .invalidField (ascii "WHISPER contains an invalid target or body")
      else .ok (.whisper target body) := by
  have word : pipe ∉ ascii "WHISPER" := by decide
  have body_eq := restAfterSecond_cons word h body
  have enough : ¬ (splitFields body).length + 1 + 1 < 3 := by
    have := length_splitFields_pos body
    omega
  unfold parseClientMessage
  rw [splitFields_cons word, splitFields_cons h, body_eq]
  generalize splitFields body = fields at *
  simp +decide [enough]

theorem parseClient_kick {nickname : Bytes} (h : pipe ∉ nickname) (reason : Bytes) :
    parseClientMessage (ascii "KICK" ++ pipe :: (nickname ++ pipe :: reason)) =
      if !isValidNickname nickname then
        failure .invalidField (ascii "KICK requires a valid nickname")
      else if !reason.isEmpty && !isValidText reason MAX_CHAT_LENGTH then
        failure .invalidField
          (ascii "KICK reason is oversized or contains control characters")
      else .ok (.kickRequest nickname reason) := by
  have word : pipe ∉ ascii "KICK" := by decide
  have reason_eq : restAfterDelimiter
      (ascii "KICK" ++ pipe :: (nickname ++ pipe :: reason)) 2 = reason := by
    rw [restAfterDelimiter_cons word, restAfterDelimiter_cons h]
    rfl
  have pos := length_splitFields_pos reason
  have enough : ¬ (splitFields reason).length + 1 + 1 < 2 := by omega
  have more : (splitFields reason).length + 1 + 1 > 2 := by omega
  unfold parseClientMessage
  rw [splitFields_cons word, splitFields_cons h, reason_eq]
  generalize splitFields reason = fields at *
  simp +decide [enough, more]

end Commands

section RoundTrip

/-- A name and a text are read as another pair: the name has a separator, what
stands before the first one is a nickname, and what follows it, the text
included, is again a text. -/
def MisreadPair (name text : Bytes) : Prop :=
  ∃ before after, name = before ++ pipe :: after ∧ pipe ∉ before ∧
    isValidNickname before = true ∧
    isValidText (after ++ pipe :: text) MAX_CHAT_LENGTH = true

def MisreadTarget : ClientMessage → Prop
  | .whisper target body => MisreadPair target body
  | .kickRequest nickname reason => MisreadPair nickname reason
  | _ => False

/-- What the parser makes of a name and a text behind one of the two words. -/
theorem pair_or_misread (name text : Bytes) :
    pipe ∉ name ∨ ∃ before after, name = before ++ pipe :: after ∧ pipe ∉ before ∧
      name ++ pipe :: text = before ++ pipe :: (after ++ pipe :: text) := by
  by_cases hm : pipe ∈ name
  · obtain ⟨before, after, rfl, hb⟩ := exists_first_delimiter hm
    exact .inr ⟨before, after, rfl, hb, by simp⟩
  · exact .inl hm

/-- Whatever the parser accepts of a serialised message is that message, unless
its name is misread. -/
theorem parseClientMessage_serializeClient {m m' : ClientMessage}
    (h : parseClientMessage (serializeClient m) = .ok m') (hm : ¬ MisreadTarget m) :
    m' = m := by
  cases m with
  | hello version =>
      have digits : pipe ∉ toDecimal version.toNat := not_mem_toDecimal rfl
      change parseClientMessage (ascii "HELLO" ++ pipe :: toDecimal version.toNat) = _ at h
      rw [parseClient_hello, splitFields_single digits] at h
      exact parseHello_toDecimal h
  | authenticate password =>
      change parseClientMessage (ascii "AUTH" ++ pipe :: password) = _ at h
      rw [parseClient_auth, guard_ok] at h
      exact (Except.ok.inj h.2).symm
  | identify nickname publicKeyHex =>
      have shape : serializeClient (.identify nickname publicKeyHex) =
          ascii "IDENTIFY" ++ pipe :: (nickname ++ pipe :: publicKeyHex) := by
        simp [serializeClient, ascii, pipe]
      rw [shape, parseClient_identify, guard_ok, guard_ok, ne_eq, not_not] at h
      obtain ⟨two, -, h⟩ := h
      obtain ⟨hn, hk⟩ := splitFields_length_two two
      rw [splitFields_cons hn, splitFields_single hk] at h
      exact (Except.ok.inj h).symm
  | identityProof signatureHex =>
      change parseClientMessage (ascii "PROOF" ++ pipe :: signatureHex) = _ at h
      rw [parseClient_proof, guard_ok, guard_ok, ne_eq, not_not] at h
      obtain ⟨one, -, h⟩ := h
      rw [splitFields_single (splitFields_length_one one)] at h
      exact (Except.ok.inj h).symm
  | leave | disconnect | listRooms =>
      revert h
      simp +decide [parseClientMessage, eq_comm]
  | createRoom name =>
      change parseClientMessage (ascii "CREATE" ++ pipe :: name) = _ at h
      rw [parseClient_create, guard_ok, guard_ok, ne_eq, not_not] at h
      obtain ⟨one, -, h⟩ := h
      rw [splitFields_single (splitFields_length_one one)] at h
      exact (Except.ok.inj h).symm
  | joinRoom name =>
      change parseClientMessage (ascii "JOIN" ++ pipe :: name) = _ at h
      rw [parseClient_join, guard_ok, guard_ok, ne_eq, not_not] at h
      obtain ⟨one, -, h⟩ := h
      rw [splitFields_single (splitFields_length_one one)] at h
      exact (Except.ok.inj h).symm
  | topicRequest topic =>
      cases topic with
      | none =>
          revert h
          simp +decide [parseClientMessage, eq_comm]
      | some topic =>
          change parseClientMessage (ascii "TOPIC" ++ pipe :: topic) = _ at h
          rw [parseClient_topic, guard_ok] at h
          exact (Except.ok.inj h.2).symm
  | chat body =>
      change parseClientMessage (ascii "MSG" ++ pipe :: body) = _ at h
      rw [parseClient_msg, guard_ok] at h
      exact (Except.ok.inj h.2).symm
  | whisper target body =>
      have shape : serializeClient (.whisper target body) =
          ascii "WHISPER" ++ pipe :: (target ++ pipe :: body) := by
        simp [serializeClient, ascii, pipe]
      rw [shape] at h
      rcases pair_or_misread target body with ht | ⟨before, after, ht, hb, heq⟩
      · rw [parseClient_whisper ht, guard_ok] at h
        exact (Except.ok.inj h.2).symm
      · rw [heq, parseClient_whisper hb, guard_ok] at h
        have valid := h.1
        simp only [Bool.or_eq_true, Bool.not_eq_true', not_or, Bool.not_eq_false] at valid
        exact absurd ⟨before, after, ht, hb, valid.1, valid.2⟩ hm
  | kickRequest nickname reason =>
      have shape : serializeClient (.kickRequest nickname reason) =
          ascii "KICK" ++ pipe :: (nickname ++ pipe :: reason) := by
        simp [serializeClient, ascii, pipe]
      rw [shape] at h
      rcases pair_or_misread nickname reason with ht | ⟨before, after, ht, hb, heq⟩
      · rw [parseClient_kick ht, guard_ok, guard_ok] at h
        exact (Except.ok.inj h.2.2).symm
      · rw [heq, parseClient_kick hb, guard_ok, guard_ok] at h
        have name := h.1
        have text := h.2.1
        simp only [Bool.not_eq_true', Bool.not_eq_false] at name
        have nonempty : (after ++ pipe :: reason).isEmpty = false := by simp
        simp only [nonempty, Bool.not_false, Bool.true_and, Bool.not_eq_true',
          Bool.not_eq_false] at text
        exact absurd ⟨before, after, ht, hb, name, text⟩ hm

/-- A misread message is accepted by the encoder's own check, as another one. -/
theorem parseClientMessage_misread {m : ClientMessage} (hm : MisreadTarget m) :
    ∃ m', parseClientMessage (serializeClient m) = .ok m' ∧ m' ≠ m ∧
      serializeClient m ≠ [] ∧ (serializeClient m).length ≤ maxPayloadLength := by
  have limit : maxPayloadLength = 3069 := rfl
  have chat : MAX_CHAT_LENGTH = 1000 := rfl
  cases m with
  | whisper target body =>
      obtain ⟨before, after, rfl, hb, hn, ht⟩ := hm
      have shape : serializeClient (.whisper (before ++ pipe :: after) body) =
          ascii "WHISPER" ++ pipe :: (before ++ pipe :: (after ++ pipe :: body)) := by
        simp [serializeClient, ascii, pipe]
      refine ⟨.whisper before (after ++ pipe :: body), ?_, ?_, ?_, ?_⟩
      · rw [shape, parseClient_whisper hb]
        simp [hn, ht]
      · intro e
        have : before = before ++ pipe :: after := (ClientMessage.whisper.inj e).1
        simp at this
      · simp [shape, ascii]
      · have h1 := isValidNickname_length hn
        have h2 := (isValidText_iff.mp ht).2.1
        have h3 : (ascii "WHISPER").length = 7 := rfl
        rw [shape, List.length_append, List.length_cons, List.length_append, List.length_cons]
        omega
  | kickRequest nickname reason =>
      obtain ⟨before, after, rfl, hb, hn, ht⟩ := hm
      have shape : serializeClient (.kickRequest (before ++ pipe :: after) reason) =
          ascii "KICK" ++ pipe :: (before ++ pipe :: (after ++ pipe :: reason)) := by
        simp [serializeClient, ascii, pipe]
      refine ⟨.kickRequest before (after ++ pipe :: reason), ?_, ?_, ?_, ?_⟩
      · rw [shape, parseClient_kick hb]
        simp [hn, ht]
      · intro e
        have : before = before ++ pipe :: after := (ClientMessage.kickRequest.inj e).1
        simp at this
      · simp [shape, ascii]
      · have h1 := isValidNickname_length hn
        have h2 := (isValidText_iff.mp ht).2.1
        have h3 : (ascii "KICK").length = 4 := rfl
        rw [shape, List.length_append, List.length_cons, List.length_append, List.length_cons]
        omega
  | _ => exact hm.elim

theorem decodeMessageFrame_encodeFrame {α : Type} {payload frame : Bytes}
    (h : encodeFrame payload = .ok frame) (parser : Bytes → Result α) :
    decodeMessageFrame frame parser = parser payload := by
  obtain ⟨hne, hlen, rfl⟩ := encodeFrame_ok_iff.mp h
  have ending : [newline] ∈ lineEndings := by simp [lineEndings]
  simp only [decodeMessageFrame, decodeFrame_encodeBlocks hne hlen ending]

theorem encodeClientFrame_ok_iff {m : ClientMessage} {frame : Bytes} :
    encodeClientFrame m = .ok frame ↔
      (∃ m', parseClientMessage (serializeClient m) = .ok m') ∧
        encodeFrame (serializeClient m) = .ok frame := by
  unfold encodeClientFrame
  cases hp : parseClientMessage (serializeClient m) with
  | error e => simp only [hp, failure, reduceCtorEq, exists_false, false_and]
  | ok m' => simp only [hp, Except.ok.injEq, exists_eq', true_and]

/-- Encoding and decoding a client message gives the message back exactly when
its name is not misread. -/
theorem encodeClientFrame_roundTrip_iff (m : ClientMessage) :
    (∀ frame, encodeClientFrame m = .ok frame → decodeClientFrame frame = .ok m) ↔
      ¬ MisreadTarget m := by
  refine ⟨fun all hm => ?_, fun hm frame h => ?_⟩
  · obtain ⟨m', hp, hne, nonempty, hlen⟩ := parseClientMessage_misread hm
    have he := encodeFrame_ok_iff.mpr ⟨nonempty, hlen, rfl⟩
    have decoded := all _ (encodeClientFrame_ok_iff.mpr ⟨⟨m', hp⟩, he⟩)
    rw [decodeClientFrame, decodeMessageFrame_encodeFrame he, hp] at decoded
    exact hne (Except.ok.inj decoded)
  · obtain ⟨⟨m', hp⟩, he⟩ := encodeClientFrame_ok_iff.mp h
    rw [decodeClientFrame, decodeMessageFrame_encodeFrame he, hp,
      parseClientMessage_serializeClient hp hm]

/-- A whisper to `a|b` arrives as a whisper to `a`. -/
theorem encodeClientFrame_whisper_misread :
    ¬ ∀ m frame, encodeClientFrame m = .ok frame → decodeClientFrame frame = .ok m := by
  intro all
  have h := all (.whisper (ascii "a|b") (ascii "c")) (ascii "V0hJU1BFUnxhfGJ8Yw==\n")
    (by decide +kernel)
  revert h
  decide +kernel

end RoundTrip

end Chatbox.Protocol
