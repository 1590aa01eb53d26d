import Mathlib.Data.List.TakeWhile
import Chatbox.Protocol.ClientCodec

/-!
The language of client payloads. `ClientLine` lists the shapes a payload may have,
each with the message it stands for; the parser accepts exactly these shapes. A
serialised message has one of them, so what was received can be sent again.
-/

namespace Chatbox.Protocol

open Text

/-- A decimal numeral, any number of leading zeros included. -/
def IsNumeral (text : Bytes) (value : Nat) : Prop :=
  text ≠ [] ∧ (∀ c ∈ text, isDigit c = true) ∧ decimalValue text = value

inductive ClientLine : Bytes → ClientMessage → Prop where
  | hello {digits : Bytes} : IsNumeral digits VERSION.toNat →
      ClientLine (ascii "HELLO" ++ pipe :: digits) (.hello VERSION)
  | authenticate {password : Bytes} : password.length ≤ 63 →
      (∀ c ∈ password, isCntrl c = false) →
      ClientLine (ascii "AUTH" ++ pipe :: password) (.authenticate password)
  | identify {nickname publicKeyHex : Bytes} : isValidNickname nickname = true →
      isHex publicKeyHex 64 = true →
      ClientLine (ascii "IDENTIFY" ++ pipe :: (nickname ++ pipe :: publicKeyHex))
        (.identify nickname publicKeyHex)
  | identityProof {signatureHex : Bytes} : isHex signatureHex 128 = true →
      ClientLine (ascii "PROOF" ++ pipe :: signatureHex) (.identityProof signatureHex)
  | leave : ClientLine (ascii "LEAVE") .leave
  | disconnect : ClientLine (ascii "DISCONNECT") .disconnect
  | listRooms : ClientLine (ascii "ROOMS") .listRooms
  | createRoom {name : Bytes} : isValidRoomName name = true →
      ClientLine (ascii "CREATE" ++ pipe :: name) (.createRoom name)
  | joinRoom {name : Bytes} : isValidRoomName name = true →
      ClientLine (ascii "JOIN" ++ pipe :: name) (.joinRoom name)
  | topicQuestion : ClientLine (ascii "TOPIC") (.topicRequest none)
  | topicRequest {topic : Bytes} : topic ≠ [] → isValidRoomTopic topic = true →
      ClientLine (ascii "TOPIC" ++ pipe :: topic) (.topicRequest (some topic))
  | chat {body : Bytes} : isValidText body MAX_CHAT_LENGTH = true →
      ClientLine (ascii "MSG" ++ pipe :: body) (.chat body)
  | whisper {target body : Bytes} : isValidNickname target = true →
      isValidText body MAX_CHAT_LENGTH = true →
      ClientLine (ascii "WHISPER" ++ pipe :: (target ++ pipe :: body)) (.whisper target body)
  | kickAlone {nickname : Bytes} : isValidNickname nickname = true →
      ClientLine (ascii "KICK" ++ pipe :: nickname) (.kickRequest nickname [])
  | kickRequest {nickname reason : Bytes} : isValidNickname nickname = true →
      (reason = [] ∨ isValidText reason MAX_CHAT_LENGTH = true) →
      ClientLine (ascii "KICK" ++ pipe :: (nickname ++ pipe :: reason))
        (.kickRequest nickname reason)

/-- The words a client payload may begin with. -/
def clientWords : List Bytes :=
  [ascii "HELLO", ascii "AUTH", ascii "IDENTIFY", ascii "PROOF", ascii "LEAVE",
    ascii "DISCONNECT", ascii "ROOMS", ascii "CREATE", ascii "JOIN", ascii "TOPIC",
    ascii "MSG", ascii "WHISPER", ascii "KICK"]

section Numerals

theorem toDecimal_isNumeral (n : Nat) : IsNumeral (toDecimal n) n :=
  ⟨toDecimal_ne_nil n, fun _ => toDecimal_isDigit, decimalValue_toDecimal n⟩

/-- Reading to the end of the text is reading a numeral that fits. -/
theorem fromChars_eq_some_nil_iff {width value : Nat} {text : Bytes} :
    fromChars width text = some (value, []) ↔ IsNumeral text value ∧ value < 2 ^ width := by
  simp only [fromChars, IsNumeral]
  constructor
  · intro h
    split at h
    · cases h
    · next some =>
        split at h
        · next fits =>
            obtain ⟨rfl, rest⟩ := Prod.mk.inj (Option.some.inj h)
            have all : ∀ c ∈ text, isDigit c = true := List.dropWhile_eq_nil_iff.mp rest
            have whole : text.takeWhile isDigit = text := List.takeWhile_eq_self_iff.mpr all
            rw [whole] at some fits ⊢
            exact ⟨⟨some, all, rfl⟩, fits⟩
        · cases h
  · rintro ⟨⟨some, all, rfl⟩, fits⟩
    have whole : text.takeWhile isDigit = text := List.takeWhile_eq_self_iff.mpr all
    have rest : text.dropWhile isDigit = [] := List.dropWhile_eq_nil_iff.mpr all
    simp only [whole, rest, some, if_false, fits, if_true]

theorem parseHello_ok_iff {α : Type} {message : UInt32 → α} {fields : List Bytes} {value : α} :
    parseHello message fields = .ok value ↔
      fields.length = 2 ∧ IsNumeral (fields.getD 1 []) VERSION.toNat ∧
        value = message VERSION := by
  unfold parseHello
  rw [guard_ok, ne_eq, not_not]
  refine and_congr_right fun _ => ?_
  constructor
  · intro h
    split at h
    · next version read =>
        rw [guard_ok, ne_eq, not_not] at h
        obtain ⟨known, same⟩ := h
        obtain ⟨numeral, fits⟩ := fromChars_eq_some_nil_iff.mp read
        have value_eq : version = VERSION.toNat := by
          rw [← known, UInt32.toNat_ofNat_of_lt' fits]
        rw [known] at same
        exact ⟨value_eq ▸ numeral, (Except.ok.inj same).symm⟩
    · cases h
  · rintro ⟨numeral, rfl⟩
    have read := fromChars_eq_some_nil_iff.mpr ⟨numeral, VERSION.toNat_lt⟩
    simp only [read]
    rfl

end Numerals

section Words

theorem splitFields_length_two_exists {a : Bytes} (h : (splitFields a).length = 2) :
    ∃ b c, a = b ++ pipe :: c ∧ pipe ∉ b ∧ pipe ∉ c := by
  have hm : pipe ∈ a := by
    apply Decidable.by_contra
    intro none
    rw [splitFields_single none] at h
    cases h
  obtain ⟨b, c, rfl, -⟩ := exists_first_delimiter hm
  exact ⟨b, c, rfl, splitFields_length_two h⟩

theorem command_mem_clientWords {payload : Bytes} {message : ClientMessage}
    (h : parseClientMessage payload = .ok message) :
    (splitFields payload).headD [] ∈ clientWords := by
  apply Decidable.by_contra
  intro unknown
  simp only [clientWords, List.mem_cons, List.not_mem_nil, or_false, not_or] at unknown
  simp only [parseClientMessage, unknown, or_self, if_false, failure] at h
  split at h <;> cases h

/-- A payload without a separator is its word. -/
theorem ClientLine.of_word {payload : Bytes} {message : ClientMessage} (alone : pipe ∉ payload)
    (h : parseClientMessage payload = .ok message) : ClientLine payload message := by
  have word := command_mem_clientWords h
  simp only [splitFields_single alone, List.headD_cons, clientWords, List.mem_cons,
    List.not_mem_nil, or_false] at word
  rcases word with rfl | rfl | rfl | rfl | rfl | rfl | rfl | rfl | rfl | rfl | rfl | rfl | rfl
  all_goals
    simp +decide [parseClientMessage, parseHello, failure] at h
  all_goals
    subst h
    constructor

/-- One field behind the word. -/
theorem splitFields_one {rest : Bytes} (h : (splitFields rest).length = 1) :
    pipe ∉ rest ∧ (splitFields rest).getD 0 [] = rest := by
  have alone := splitFields_length_one h
  exact ⟨alone, by rw [splitFields_single alone]; rfl⟩

theorem parseClient_whisper_alone {target : Bytes} (h : pipe ∉ target) :
    parseClientMessage (ascii "WHISPER" ++ pipe :: target) =
      failure .wrongFieldCount (ascii "WHISPER requires target and body fields") := by
  have word : pipe ∉ ascii "WHISPER" := by decide
  simp +decide [parseClientMessage, splitFields_cons word, splitFields_single h]

theorem parseClient_kick_alone {nickname : Bytes} (h : pipe ∉ nickname) :
    parseClientMessage (ascii "KICK" ++ pipe :: nickname) =
      if !isValidNickname nickname then
        failure .invalidField (ascii "KICK requires a valid nickname")
      else .ok (.kickRequest nickname []) := by
  have word : pipe ∉ ascii "KICK" := by decide
  simp +decide [parseClientMessage, splitFields_cons word, splitFields_single h]

/-- The three words that take no fields. -/
theorem parseClient_bare {word : Bytes} (rest : Bytes) {message : ClientMessage}
    (h : word = ascii "LEAVE" ∨ word = ascii "DISCONNECT" ∨ word = ascii "ROOMS") :
    parseClientMessage (word ++ pipe :: rest) ≠ .ok message := by
  have several : splitFields rest ≠ [] := List.splitOn_ne_nil pipe rest
  rcases h with rfl | rfl | rfl
  · have noPipe : pipe ∉ ascii "LEAVE" := by decide
    simp +decide [parseClientMessage, splitFields_cons noPipe, several, failure]
  · have noPipe : pipe ∉ ascii "DISCONNECT" := by decide
    simp +decide [parseClientMessage, splitFields_cons noPipe, several, failure]
  · have noPipe : pipe ∉ ascii "ROOMS" := by decide
    simp +decide [parseClientMessage, splitFields_cons noPipe, several, failure]

theorem ClientLine.of_fields {word rest : Bytes} {message : ClientMessage}
    (first : pipe ∉ word) (h : parseClientMessage (word ++ pipe :: rest) = .ok message) :
    ClientLine (word ++ pipe :: rest) message := by
  have known := command_mem_clientWords h
  simp only [splitFields_cons first, List.headD_cons, clientWords, List.mem_cons,
    List.not_mem_nil, or_false] at known
  rcases known with rfl | rfl | rfl | rfl | bare | bare | bare | rfl | rfl | rfl | rfl | rfl | rfl
  · -- HELLO
    rw [parseClient_hello, parseHello_ok_iff] at h
    obtain ⟨two, numeral, rfl⟩ := h
    obtain ⟨-, only⟩ := splitFields_one (Nat.succ.inj two)
    rw [List.getD_cons_succ, only] at numeral
    exact .hello numeral
  · -- AUTH
    rw [parseClient_auth, guard_ok] at h
    obtain ⟨fits, h⟩ := h
    obtain rfl := Except.ok.inj h
    simp only [Bool.or_eq_true, decide_eq_true_eq, List.any_eq_true, not_or, not_exists,
      not_and, Bool.not_eq_true] at fits
    exact .authenticate (by omega) fits.2
  · -- IDENTIFY
    rw [parseClient_identify, guard_ok, guard_ok, ne_eq, not_not] at h
    obtain ⟨two, valid, h⟩ := h
    obtain ⟨nickname, publicKeyHex, rfl, hn, hk⟩ := splitFields_length_two_exists two
    rw [splitFields_cons hn, splitFields_single hk] at valid h
    obtain rfl := Except.ok.inj h
    simp only [List.getD_cons_zero, List.getD_cons_succ, Bool.or_eq_true, Bool.not_eq_true',
      not_or, Bool.not_eq_false] at valid
    exact .identify valid.1 valid.2
  · -- PROOF
    rw [parseClient_proof, guard_ok, guard_ok, ne_eq, not_not] at h
    obtain ⟨one, valid, h⟩ := h
    rw [(splitFields_one one).2] at valid h
    obtain rfl := Except.ok.inj h
    exact .identityProof (by simpa using valid)
  · exact absurd h (parseClient_bare rest (.inl bare))
  · exact absurd h (parseClient_bare rest (.inr (.inl bare)))
  · exact absurd h (parseClient_bare rest (.inr (.inr bare)))
  · -- CREATE
    rw [parseClient_create, guard_ok, guard_ok, ne_eq, not_not] at h
    obtain ⟨one, valid, h⟩ := h
    rw [(splitFields_one one).2] at valid h
    obtain rfl := Except.ok.inj h
    exact .createRoom (by simpa using valid)
  · -- JOIN
    rw [parseClient_join, guard_ok, guard_ok, ne_eq, not_not] at h
    obtain ⟨one, valid, h⟩ := h
    rw [(splitFields_one one).2] at valid h
    obtain rfl := Except.ok.inj h
    exact .joinRoom (by simpa using valid)
  · -- TOPIC
    rw [parseClient_topic, guard_ok] at h
    obtain ⟨valid, h⟩ := h
    obtain rfl := Except.ok.inj h
    simp only [Bool.or_eq_true, List.isEmpty_iff, Bool.not_eq_true', not_or,
      Bool.not_eq_false] at valid
    exact .topicRequest valid.1 valid.2
  · -- MSG
    rw [parseClient_msg, guard_ok] at h
    obtain ⟨valid, h⟩ := h
    obtain rfl := Except.ok.inj h
    exact .chat (by simpa using valid)
  · -- WHISPER
    by_cases more : pipe ∈ rest
    · obtain ⟨target, body, rfl, ht⟩ := exists_first_delimiter more
      rw [parseClient_whisper ht, guard_ok] at h
      obtain ⟨valid, h⟩ := h
      obtain rfl := Except.ok.inj h
      simp only [Bool.or_eq_true, Bool.not_eq_true', not_or, Bool.not_eq_false] at valid
      exact .whisper valid.1 valid.2
    · rw [parseClient_whisper_alone more] at h
      cases h
  · -- KICK
    by_cases more : pipe ∈ rest
    · obtain ⟨nickname, reason, rfl, hn⟩ := exists_first_delimiter more
      rw [parseClient_kick hn, guard_ok, guard_ok] at h
      obtain ⟨name, text, h⟩ := h
      obtain rfl := Except.ok.inj h
      simp only [Bool.not_eq_true', Bool.not_eq_false] at name
      simp only [Bool.and_eq_true, Bool.not_eq_true', not_and, Bool.not_eq_false] at text
      refine .kickRequest name ?_
      by_cases empty : reason = []
      · exact .inl empty
      · exact .inr (text (by simpa using empty))
    · rw [parseClient_kick_alone more, guard_ok] at h
      obtain ⟨name, h⟩ := h
      obtain rfl := Except.ok.inj h
      exact .kickAlone (by simpa using name)

end Words

section Language

theorem ClientLine.parse {payload : Bytes} {message : ClientMessage}
    (h : ClientLine payload message) : parseClientMessage payload = .ok message := by
  cases h with
  | hello numeral =>
      have digits : pipe ∉ _ := fun hm => absurd (numeral.2.1 pipe hm) (by decide)
      rw [parseClient_hello, splitFields_single digits]
      exact parseHello_ok_iff.mpr ⟨rfl, numeral, rfl⟩
  | authenticate fits plain =>
      rw [parseClient_auth, guard_ok]
      refine ⟨?_, rfl⟩
      simp only [Bool.or_eq_true, decide_eq_true_eq, List.any_eq_true, not_or, not_exists,
        not_and, Bool.not_eq_true]
      exact ⟨by omega, plain⟩
  | identify name key =>
      rw [parseClient_identify, splitFields_cons (isValidNickname_pipe name),
        splitFields_single (isHex_pipe key)]
      simp [name, key]
  | identityProof signature =>
      rw [parseClient_proof, splitFields_single (isHex_pipe signature)]
      simp [signature]
  | leave | disconnect | listRooms | topicQuestion => decide
  | createRoom name =>
      rw [parseClient_create, splitFields_single (isValidRoomName_separators name).1]
      simp [name]
  | joinRoom name =>
      rw [parseClient_join, splitFields_single (isValidRoomName_separators name).1]
      simp [name]
  | topicRequest some valid =>
      rw [parseClient_topic, guard_ok]
      exact ⟨by simp [some, valid], rfl⟩
  | chat valid =>
      rw [parseClient_msg, guard_ok]
      exact ⟨by simp [valid], rfl⟩
  | whisper name valid =>
      rw [parseClient_whisper (isValidNickname_pipe name), guard_ok]
      exact ⟨by simp [name, valid], rfl⟩
  | kickAlone name =>
      rw [parseClient_kick_alone (isValidNickname_pipe name), guard_ok]
      exact ⟨by simp [name], rfl⟩
  | kickRequest name reason =>
      rw [parseClient_kick (isValidNickname_pipe name), guard_ok, guard_ok]
      refine ⟨by simp [name], ?_, rfl⟩
      cases reason with
      | inl empty => simp [empty]
      | inr valid => simp [valid]

theorem ClientLine.of_parse {payload : Bytes} {message : ClientMessage}
    (h : parseClientMessage payload = .ok message) : ClientLine payload message := by
  by_cases more : pipe ∈ payload
  · obtain ⟨word, rest, rfl, first⟩ := exists_first_delimiter more
    exact .of_fields first h
  · exact .of_word more h

/-- The parser accepts a payload as a message exactly when the payload is one of
the listed shapes of that message. -/
theorem parseClientMessage_ok_iff (payload : Bytes) (message : ClientMessage) :
    parseClientMessage payload = .ok message ↔ ClientLine payload message :=
  ⟨ClientLine.of_parse, ClientLine.parse⟩

theorem decodeClientFrame_ok {frame : Bytes} {message : ClientMessage}
    (h : decodeClientFrame frame = .ok message) : ∃ payload, ClientLine payload message := by
  simp only [decodeClientFrame, decodeMessageFrame] at h
  split at h
  · cases h
  · next payload _ => exact ⟨payload, .of_parse h⟩

/-- The serialiser writes one of the shapes of any message that has one. -/
theorem ClientLine.serialize {payload : Bytes} {message : ClientMessage}
    (h : ClientLine payload message) : ClientLine (serializeClient message) message := by
  cases h with
  | hello numeral => exact .hello (toDecimal_isNumeral _)
  | authenticate fits plain => exact .authenticate fits plain
  | identify name key => simpa [serializeClient, ascii, pipe] using ClientLine.identify name key
  | identityProof signature => exact .identityProof signature
  | leave => exact .leave
  | disconnect => exact .disconnect
  | listRooms => exact .listRooms
  | createRoom name => exact .createRoom name
  | joinRoom name => exact .joinRoom name
  | topicQuestion => exact .topicQuestion
  | topicRequest some valid => exact .topicRequest some valid
  | chat valid => exact .chat valid
  | whisper name valid => simpa [serializeClient, ascii, pipe] using ClientLine.whisper name valid
  | kickAlone name =>
      simpa [serializeClient, ascii, pipe] using ClientLine.kickRequest name (.inl rfl)
  | kickRequest name reason =>
      simpa [serializeClient, ascii, pipe] using ClientLine.kickRequest name reason

theorem parseClientMessage_again {payload : Bytes} {message : ClientMessage}
    (h : parseClientMessage payload = .ok message) :
    parseClientMessage (serializeClient message) = .ok message :=
  (ClientLine.of_parse h).serialize.parse

end Language

end Chatbox.Protocol
