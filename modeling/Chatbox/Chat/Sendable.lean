import Chatbox.Chat.UserLists

/-!
The texts the server puts together, and the messages it puts them into. Every part of
a text is bounded and has no control characters but the tab, so that the whole is a
valid text that fits into a frame in whatever message it is sent.
-/

namespace Chatbox.Chat

open Text Protocol Storage

/-- The encoder accepts the message, so that it is not dropped. -/
def Encodable (message : ServerMessage) : Prop :=
  ∃ frame, encodeServerFrame message = .ok frame

def MAX_LINE_LENGTH : Nat := 2048

/-- A text as the server composes it. -/
def Line (text : Bytes) : Prop := isValidText text MAX_LINE_LENGTH = true

/-- A part of such a text. -/
structure Part (limit : Nat) (text : Bytes) : Prop where
  length : text.length ≤ limit
  printable : ∀ ch ∈ text, isCntrl ch = false ∨ ch = 9

namespace Part

variable {limit limit' : Nat} {text text' nick name topic body : Bytes}

theorem append (h : Part limit text) (h' : Part limit' text') :
    Part (limit + limit') (text ++ text') := by
  refine ⟨?_, fun ch hm => ?_⟩
  · rw [List.length_append]
    exact Nat.add_le_add h.length h'.length
  · exact (List.mem_append.mp hm).elim (h.printable ch) (h'.printable ch)

theorem nil : Part limit [] := ⟨Nat.zero_le _, fun _ h => absurd h List.not_mem_nil⟩

theorem literal (h : text.all (fun ch => !isCntrl ch || ch == 9) = true) :
    Part text.length text := by
  refine ⟨Nat.le_refl _, fun ch hm => ?_⟩
  simpa using List.all_eq_true.mp h ch hm

theorem line (h : Part limit text) (some : text ≠ []) (bound : limit ≤ MAX_LINE_LENGTH) :
    Line text :=
  isValidText_iff.mpr ⟨some, h.length.trans bound, h.printable⟩

theorem nickname (h : nick = [] ∨ isValidNickname nick = true) : Part 31 nick := by
  rcases h with rfl | h
  · exact nil
  · have valid := isValidNickname_iff.mp h
    exact ⟨valid.2.1, fun ch hm => .inl (valid.2.2 ch hm).1⟩

theorem roomName (h : isValidRoomName name = true) : Part MAX_ROOM_NAME_LENGTH name := by
  have valid := isValidRoomName_iff.mp h
  have plain (ch : UInt8) : isAlnum ch = true ∨ ch = 45 ∨ ch = 95 → isCntrl ch = false :=
    @forall_byte (fun ch => isAlnum ch = true ∨ ch = 45 ∨ ch = 95 → isCntrl ch = false)
      (by decide +kernel) ch
  exact ⟨valid.2.1, fun ch hm => .inl (plain ch (valid.2.2 ch hm))⟩

theorem roomTopic (h : isValidRoomTopic topic = true) : Part MAX_ROOM_TOPIC_LENGTH topic := by
  refine ⟨isValidRoomTopic_length h, fun ch hm => .inl ?_⟩
  unfold isValidRoomTopic at h
  split at h
  · cases h
  · simpa using List.all_eq_true.mp h ch hm

theorem validText (h : body = [] ∨ isValidText body limit = true) : Part limit body := by
  rcases h with rfl | h
  · exact nil
  · have valid := isValidText_iff.mp h
    exact ⟨valid.2.1, valid.2.2⟩

theorem twoDigits {n : Nat} (h : n < 100) : Part 2 (twoDigits n) := by
  have digit : ∀ d < 10, isCntrl (UInt8.ofNat (48 + d)) = false := by decide
  refine ⟨Nat.le_refl 2, fun ch hm => .inl ?_⟩
  simp only [Chat.twoDigits, List.mem_cons, List.not_mem_nil, or_false] at hm
  rcases hm with rfl | rfl
  · exact digit _ (by omega)
  · exact digit _ (by omega)

theorem timestamp (env : Env) (reading : Nat) : Part 8 (env.timestamp reading) := by
  unfold Env.timestamp
  have hour := (env.localTime reading).1.isLt
  have minute := (env.localTime reading).2.1.isLt
  have second := (env.localTime reading).2.2.isLt
  have colon : Part 1 (ascii ":") := @literal (ascii ":") (by decide)
  exact ((((twoDigits (by omega)).append colon).append (twoDigits (by omega))).append
    colon).append (twoDigits (by omega))

end Part

section Lines

variable {env : Env} {nick target name topic reason body : Bytes}

theorem line_left (hn : Part 31 nick) :
    Line (ascii "[system] " ++ nick ++ ascii " left") :=
  (((Part.literal (by decide)).append hn).append (Part.literal (by decide))).line (by simp [ascii])
    (by decide)

theorem line_leftFor (hn : Part 31 nick) (hr : isValidRoomName name = true) :
    Line (ascii "[system] " ++ nick ++ ascii " left for #" ++ name) :=
  ((((Part.literal (by decide)).append hn).append (Part.literal (by decide))).append
    (.roomName hr)).line (by simp [ascii]) (by decide)

theorem line_joined (hn : Part 31 nick) (hr : isValidRoomName name = true) :
    Line (ascii "[system] " ++ nick ++ ascii " joined #" ++ name) :=
  ((((Part.literal (by decide)).append hn).append (Part.literal (by decide))).append
    (.roomName hr)).line (by simp [ascii]) (by decide)

theorem line_recent (hr : isValidRoomName name = true) :
    Line (ascii "[system] Recent messages in #" ++ name ++ ascii ":") :=
  (((Part.literal (by decide)).append (.roomName hr)).append (Part.literal (by decide))).line
    (by simp [ascii]) (by decide)

theorem line_kicked (hn : Part 31 nick) (hr : Part MAX_CHAT_LENGTH reason) :
    Line (ascii "[system] " ++ nick ++ ascii " was kicked" ++
      (if reason.isEmpty then [] else ascii ": " ++ reason)) := by
  have tail : Part (2 + MAX_CHAT_LENGTH) (if reason.isEmpty then [] else ascii ": " ++ reason) := by
    split
    · exact .nil
    · exact (@Part.literal (ascii ": ") (by decide)).append hr
  exact ((((Part.literal (by decide)).append hn).append (Part.literal (by decide))).append
    tail).line (by simp [ascii]) (by decide)

theorem line_topic (hn : Part 31 nick) (ht : isValidRoomTopic topic = true) :
    Line (ascii "[system] " ++ nick ++ ascii " changed the topic to: " ++ topic) :=
  ((((Part.literal (by decide)).append hn).append (Part.literal (by decide))).append
    (.roomTopic ht)).line (by simp [ascii]) (by decide)

theorem line_chat (reading : Nat) (hn : Part 31 nick) (hb : Part MAX_CHAT_LENGTH body) :
    Line (ascii "[" ++ env.timestamp reading ++ ascii "] " ++ nick ++ ascii ": " ++ body) :=
  ((((((Part.literal (by decide)).append (.timestamp env reading)).append
    (Part.literal (by decide))).append hn).append (Part.literal (by decide))).append hb).line
      (by simp [ascii]) (by decide)

theorem line_whisper (reading : Nat) (hn : Part 31 nick) (ht : Part 31 target)
    (hb : Part MAX_CHAT_LENGTH body) :
    Line (ascii "[PRIVATE " ++ env.timestamp reading ++ ascii "] " ++ nick ++ ascii " -> " ++
      target ++ ascii ": " ++ body) :=
  ((((((((Part.literal (by decide)).append (.timestamp env reading)).append
    (Part.literal (by decide))).append hn).append (Part.literal (by decide))).append ht).append
      (Part.literal (by decide))).append hb).line (by simp [ascii]) (by decide)

theorem line_notHere (ht : Part 31 target) :
    Line (ascii "[system] User '" ++ target ++ ascii "' is not in this room") :=
  (((Part.literal (by decide)).append ht).append (Part.literal (by decide))).line (by simp [ascii])
    (by decide)

end Lines

section Messages

variable {roomId : RoomId} {name topic body nick reason : Bytes}

theorem encodable_of {message : ServerMessage} (valid : message.Valid)
    (fits : (serializeServer message).length ≤ maxPayloadLength) : Encodable message := by
  obtain ⟨frame, he, -⟩ := (encodeServerFrame_decodes_iff message).mpr ⟨valid, fits⟩
  exact ⟨frame, he⟩

/-- A line is valid, and short, in every message that takes one. -/
theorem Line.valid (h : Line body) : isValidText body MAX_FRAME_LENGTH = true ∧
    body.length ≤ MAX_LINE_LENGTH := by
  obtain ⟨some, length, plain⟩ := isValidText_iff.mp h
  exact ⟨isValidText_iff.mpr ⟨some, length.trans (by decide), plain⟩, length⟩

theorem encodable_text (h : Line body) : Encodable (.text body) := by
  obtain ⟨valid, length⟩ := h.valid
  refine encodable_of valid ?_
  have word : (ascii "TEXT|").length = 5 := rfl
  have limit : maxPayloadLength = 3069 := rfl
  simp only [serializeServer, List.length_append, MAX_LINE_LENGTH] at length ⊢
  omega

theorem encodable_serverError (h : Line reason) : Encodable (.serverError reason) := by
  obtain ⟨valid, length⟩ := h.valid
  refine encodable_of valid ?_
  have word : (ascii "ERROR|").length = 6 := rfl
  have limit : maxPayloadLength = 3069 := rfl
  simp only [serializeServer, List.length_append, MAX_LINE_LENGTH] at length ⊢
  omega

theorem encodable_joinRejected (h : Line reason) : Encodable (.joinRejected reason) := by
  obtain ⟨valid, length⟩ := h.valid
  refine encodable_of valid ?_
  have word : (ascii "JOIN_FAIL|").length = 10 := rfl
  have limit : maxPayloadLength = 3069 := rfl
  simp only [serializeServer, List.length_append, MAX_LINE_LENGTH] at length ⊢
  omega

theorem encodable_roomText (known : roomId ≠ 0) (h : Line body) :
    Encodable (.roomText roomId body) := by
  obtain ⟨valid, length⟩ := h.valid
  refine encodable_of ⟨known, valid⟩ ?_
  have word : (ascii "ROOM_TEXT|").length = 10 := rfl
  have bar : (ascii "|").length = 1 := rfl
  have digits := length_roomId_le roomId
  have limit : maxPayloadLength = 3069 := rfl
  simp only [serializeServer, List.length_append, MAX_LINE_LENGTH] at length ⊢
  omega

theorem encodable_roomTopic (known : roomId ≠ 0) (ht : isValidRoomTopic topic = true) :
    Encodable (.roomTopic roomId topic) := by
  refine encodable_of ⟨known, ht⟩ ?_
  have word : (ascii "TOPIC|").length = 6 := rfl
  have bar : (ascii "|").length = 1 := rfl
  have digits := length_roomId_le roomId
  have length := isValidRoomTopic_length ht
  have limit : maxPayloadLength = 3069 := rfl
  simp only [serializeServer, List.length_append, MAX_ROOM_TOPIC_LENGTH] at length ⊢
  omega

theorem encodable_roomJoined (known : roomId ≠ 0) (hr : isValidRoomName name = true)
    (ht : isValidRoomTopic topic = true) : Encodable (.roomJoined roomId name topic) := by
  refine encodable_of ⟨known, hr, ht⟩ ?_
  have word : (ascii "ROOM|").length = 5 := rfl
  have bar : (ascii "|").length = 1 := rfl
  have digits := length_roomId_le roomId
  have nameLength := (isValidRoomName_iff.mp hr).2.1
  have length := isValidRoomTopic_length ht
  have limit : maxPayloadLength = 3069 := rfl
  simp only [serializeServer, List.length_append, MAX_ROOM_TOPIC_LENGTH,
    MAX_ROOM_NAME_LENGTH] at length nameLength ⊢
  omega

theorem encodable_kick (hn : isValidNickname nick = true)
    (hr : reason = [] ∨ isValidText reason MAX_CHAT_LENGTH = true) :
    Encodable (.kick nick reason) := by
  refine encodable_of ⟨hn, hr⟩ ?_
  have word : (ascii "KICK|").length = 5 := rfl
  have bar : (ascii "|").length = 1 := rfl
  have nickLength := isValidNickname_length hn
  have length := (Part.validText hr).length
  have limit : maxPayloadLength = 3069 := rfl
  simp only [serializeServer, List.length_append, MAX_CHAT_LENGTH] at length ⊢
  omega

/-- The list of rooms is bounded by the number of rooms there may be. -/
theorem encodable_roomList {rooms : List RoomSummary} (count : rooms.length ≤ MAX_ROOMS)
    (h : ∀ room ∈ rooms, room.id ≠ 0 ∧ isValidRoomName room.name = true) :
    Encodable (.roomList rooms) := by
  refine encodable_of ⟨count, h⟩ ?_
  have each : ∀ length ∈ (rooms.map serializeRoomSummary).map (fun part => part.length + 1),
      length ≤ 75 := by
    intro length hl
    obtain ⟨part, hp, rfl⟩ := List.mem_map.mp hl
    obtain ⟨room, hr, rfl⟩ := List.mem_map.mp hp
    have id := length_roomId_le room.id
    have users := length_roomId_le room.userCount
    have name := (isValidRoomName_iff.mp (h room hr).2).2.1
    simp only [serializeRoomSummary_eq, List.length_append, List.length_cons,
      MAX_ROOM_NAME_LENGTH] at name ⊢
    omega
  have total := List.sum_le_card_nsmul _ 75 each
  simp only [List.length_map, smul_eq_mul, MAX_ROOMS] at total count
  have word : (ascii "ROOMS|").length = 6 := rfl
  have limit : maxPayloadLength = 3069 := rfl
  simp only [serializeServer, List.length_append]
  cases rooms with
  | nil =>
      simp only [List.map_nil, List.intercalate_nil, List.length_nil]
      omega
  | cons room rest =>
      have := @length_intercalate semicolon ((room :: rest).map serializeRoomSummary)
        (List.cons_ne_nil _ _)
      omega

theorem isHex_bytesToHex (data : Bytes) : isHex (bytesToHex data) (2 * data.length) = true := by
  have hex := isHexOfLen_bytesToHex data
  rwa [isHexOfLen, Nat.mul_comm] at hex

theorem encodable_challenge (env : Env) (reading : Nat) :
    Encodable (.challenge (env.randomHex reading IDENTITY_CHALLENGE_BYTES)) := by
  have hex := isHex_bytesToHex (env.randomBytes reading IDENTITY_CHALLENGE_BYTES)
  rw [env.randomBytes_length] at hex
  refine encodable_of hex ?_
  have length := isHex_length hex
  have bytes : IDENTITY_CHALLENGE_BYTES = 32 := rfl
  have word : (ascii "CHALLENGE|").length = 10 := rfl
  have limit : maxPayloadLength = 3069 := rfl
  simp only [serializeServer, List.length_append, Env.randomHex]
  omega

theorem encodable_identityAccepted {publicKeyHex : Bytes}
    (h : isHexOfLen publicKeyHex cryptoSignPublicKeyBytes = true) :
    Encodable (.identityAccepted (identityFingerprint publicKeyHex)) := by
  simp only [isHexOfLen, Bool.and_eq_true, beq_iff_eq, cryptoSignPublicKeyBytes,
    List.all_eq_true] at h
  have long : ¬ publicKeyHex.length ≤ 16 := by omega
  have length : (publicKeyHex.take 16).length = 16 := by
    rw [List.length_take]
    omega
  rw [identityFingerprint, if_neg long]
  refine encodable_of ?_ ?_
  · simp only [ServerMessage.Valid, isHex, length, beq_self_eq_true, Bool.true_and,
      List.all_eq_true]
    exact fun ch hm => h.2 ch (List.mem_of_mem_take hm)
  · have word : (ascii "IDENTITY_OK|").length = 12 := rfl
    have limit : maxPayloadLength = 3069 := rfl
    simp only [serializeServer, List.length_append, length]
    omega

/-- The messages that are a word. -/
theorem encodable_word {message : ServerMessage} (h : message = .authRequired ∨
    message = .authAccepted ∨ message = .authRejected ∨ message = .joinAccepted ∨
    message = .banned ∨ message = .nicknameTaken ∨ message = .hello VERSION) :
    Encodable message := by
  rcases h with rfl | rfl | rfl | rfl | rfl | rfl | rfl
  all_goals exact encodable_of (by trivial) (by decide)

end Messages

end Chatbox.Chat
