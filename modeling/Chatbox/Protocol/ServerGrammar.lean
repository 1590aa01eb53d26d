import Chatbox.Protocol.ClientGrammar
import Chatbox.Protocol.ServerCodec

/-!
What the parser of server messages guarantees and what it needs. A message is
`Valid` when every field passes the check the parser makes of it. Whatever is
parsed is valid, and a valid message is parsed back from its serialised form, so
a message can be encoded exactly when it is valid and short enough.
-/

namespace Chatbox.Protocol

open Text

namespace ServerMessage

/-- The checks of the parser, field by field. -/
def Valid : ServerMessage → Prop
  | .hello version => version = VERSION
  | .challenge challengeHex => isHex challengeHex 64 = true
  | .identityAccepted fingerprint => isHex fingerprint 16 = true
  | .joinRejected reason => isValidText reason MAX_FRAME_LENGTH = true
  | .kick nickname reason =>
      isValidNickname nickname = true ∧
        (reason = [] ∨ isValidText reason MAX_CHAT_LENGTH = true)
  | .userList roomId nicknames =>
      roomId ≠ 0 ∧ ∀ nickname ∈ nicknames, isValidNickname nickname = true
  | .roomList rooms =>
      rooms.length ≤ MAX_ROOMS ∧
        ∀ room ∈ rooms, room.id ≠ 0 ∧ isValidRoomName room.name = true
  | .roomJoined id name topic =>
      id ≠ 0 ∧ isValidRoomName name = true ∧ isValidRoomTopic topic = true
  | .roomTopic roomId topic => roomId ≠ 0 ∧ isValidRoomTopic topic = true
  | .roomText roomId body => roomId ≠ 0 ∧ isValidText body MAX_FRAME_LENGTH = true
  | .text body => isValidText body MAX_FRAME_LENGTH = true
  | .serverError reason => isValidText reason MAX_FRAME_LENGTH = true
  | .authRequired | .authAccepted | .authRejected | .joinAccepted | .banned
  | .nicknameTaken => True

end ServerMessage

section Loops

theorem forall_mem_append_single {α : Type} {P : α → Prop} {xs : List α} {x : α}
    (hxs : ∀ y ∈ xs, P y) (hx : P x) : ∀ y ∈ xs ++ [x], P y := by
  intro y hy
  rcases List.mem_append.mp hy with hy | hy
  · exact hxs y hy
  · exact List.mem_singleton.mp hy ▸ hx

theorem parseUserNames_valid {remaining : Bytes} {before nicknames : List Bytes}
    (hb : ∀ nickname ∈ before, isValidNickname nickname = true)
    (h : parseUserNames remaining before = .ok nicknames) :
    ∀ nickname ∈ nicknames, isValidNickname nickname = true := by
  fun_induction parseUserNames remaining before with
  | case1 before => exact Except.ok.inj h ▸ hb
  | case2 remaining before some delimiter nickname bad => cases h
  | case3 remaining before some delimiter nickname good last =>
      have name : isValidNickname nickname = true := by simpa using good
      exact Except.ok.inj h ▸ forall_mem_append_single hb name
  | case4 remaining before some delimiter nickname good position found ih =>
      have name : isValidNickname nickname = true := by simpa using good
      exact ih (forall_mem_append_single hb name) h

theorem parseRoomEntry_valid {entry : Bytes} {room : RoomSummary}
    (h : parseRoomEntry entry = .ok room) :
    room.id ≠ 0 ∧ isValidRoomName room.name = true := by
  unfold parseRoomEntry at h
  split at h
  · cases h
  · split at h
    · cases h
    · dsimp only at h
      split at h
      · rw [guard_ok] at h
        obtain ⟨valid, h⟩ := h
        obtain rfl := Except.ok.inj h
        simpa [not_or] using valid
      · cases h

theorem parseRoomEntries_valid {remaining : Bytes} {before rooms : List RoomSummary}
    (hlen : before.length ≤ MAX_ROOMS)
    (hb : ∀ room ∈ before, room.id ≠ 0 ∧ isValidRoomName room.name = true)
    (h : parseRoomEntries remaining before = .ok rooms) :
    (ServerMessage.roomList rooms).Valid := by
  fun_induction parseRoomEntries remaining before with
  | case1 before => exact Except.ok.inj h ▸ ⟨hlen, hb⟩
  | case2 remaining before some delimiter e bad => cases h
  | case3 remaining before some delimiter room good more tooMany => cases h
  | case4 remaining before some delimiter room good more fits last =>
      have all := forall_mem_append_single hb (parseRoomEntry_valid good)
      exact Except.ok.inj h ▸ ⟨Nat.le_of_not_lt fits, all⟩
  | case5 remaining before some delimiter room good more fits position found ih =>
      have all := forall_mem_append_single hb (parseRoomEntry_valid good)
      exact ih (Nat.le_of_not_lt fits) all h

/-- A list of valid entries that is not too long is taken apart to its end. -/
theorem parseRoomEntries_intercalate_valid {rooms before : List RoomSummary}
    (hlen : before.length + rooms.length ≤ MAX_ROOMS)
    (h : ∀ room ∈ rooms, room.id ≠ 0 ∧ isValidRoomName room.name = true) :
    parseRoomEntries ([semicolon].intercalate (rooms.map serializeRoomSummary)) before =
      .ok (before ++ rooms) := by
  induction rooms generalizing before with
  | nil =>
      rw [parseRoomEntries]
      simp [List.intercalate]
  | cons room rest ih =>
      obtain ⟨hid, hname⟩ := h room List.mem_cons_self
      have hrest := fun other hm => h other (List.mem_cons_of_mem room hm)
      simp only [List.length_cons] at hlen
      have next : (before ++ [room]).length + rest.length ≤ MAX_ROOMS := by
        simp only [List.length_append, List.length_singleton]
        omega
      rw [parseRoomEntries_cons hname, if_neg hid, if_neg (by omega), ih next hrest,
        List.append_assoc, List.singleton_append]

end Loops

section Guarantee

theorem parseServerMessage_valid {payload : Bytes} {message : ServerMessage}
    (h : parseServerMessage payload = .ok message) : message.Valid := by
  unfold parseServerMessage at h
  rw [guard_ok] at h
  replace h := h.2
  generalize splitFields payload = fields at h
  dsimp only at h
  generalize fields.headD [] = command at h
  by_cases hello : command = ascii "HELLO"
  · rw [if_pos hello] at h
    obtain ⟨-, -, rfl⟩ := parseHello_ok_iff.mp h
    rfl
  rw [if_neg hello] at h
  by_cases bare : command = ascii "AUTH_REQUIRED" ∨ command = ascii "AUTH_OK" ∨
      command = ascii "AUTH_FAIL" ∨ command = ascii "JOIN_OK" ∨
      command = ascii "BANNED" ∨ command = ascii "NICK_TAKEN"
  · rw [if_pos bare, guard_ok] at h
    obtain rfl := Except.ok.inj h.2
    unfold parseWord
    repeat' split
    all_goals trivial
  rw [if_neg bare] at h
  by_cases challenge : command = ascii "CHALLENGE"
  · rw [if_pos challenge, guard_ok] at h
    obtain ⟨valid, h⟩ := h
    obtain rfl := Except.ok.inj h
    simp only [Bool.or_eq_true, Bool.not_eq_true', not_or, Bool.not_eq_false] at valid
    exact valid.2
  rw [if_neg challenge] at h
  by_cases identity : command = ascii "IDENTITY_OK"
  · rw [if_pos identity, guard_ok] at h
    obtain ⟨valid, h⟩ := h
    obtain rfl := Except.ok.inj h
    simp only [Bool.or_eq_true, Bool.not_eq_true', not_or, Bool.not_eq_false] at valid
    exact valid.2
  rw [if_neg identity] at h
  by_cases users : command = ascii "USERS"
  · rw [if_pos users, guard_ok] at h
    replace h := h.2
    split at h
    · cases h
    · next roomId _ =>
        rw [guard_ok, guard_ok] at h
        obtain ⟨known, -, h⟩ := h
        cases names : parseUserNames (fields.getD 2 []) [] with
        | error e =>
            rw [names] at h
            cases h
        | ok nicknames =>
            rw [names] at h
            obtain rfl := Except.ok.inj h
            exact ⟨known, parseUserNames_valid (fun _ hm => absurd hm List.not_mem_nil) names⟩
  rw [if_neg users] at h
  by_cases rooms : command = ascii "ROOMS"
  · rw [if_pos rooms, guard_ok] at h
    replace h := h.2
    cases entries : parseRoomEntries (fields.getD 1 []) [] with
    | error e =>
        rw [entries] at h
        cases h
    | ok rooms =>
        rw [entries] at h
        obtain rfl := Except.ok.inj h
        exact parseRoomEntries_valid (Nat.zero_le _)
          (fun _ hm => absurd hm List.not_mem_nil) entries
  rw [if_neg rooms] at h
  by_cases room : command = ascii "ROOM"
  · rw [if_pos room, guard_ok] at h
    replace h := h.2
    split at h
    · cases h
    · rw [guard_ok] at h
      obtain ⟨valid, h⟩ := h
      obtain rfl := Except.ok.inj h
      simpa [not_or, ServerMessage.Valid, and_assoc] using valid
  rw [if_neg room] at h
  by_cases topic : command = ascii "TOPIC"
  · rw [if_pos topic, guard_ok] at h
    replace h := h.2
    split at h
    · cases h
    · rw [guard_ok] at h
      obtain ⟨valid, h⟩ := h
      obtain rfl := Except.ok.inj h
      simpa [not_or, ServerMessage.Valid] using valid
  rw [if_neg topic] at h
  by_cases roomText : command = ascii "ROOM_TEXT"
  · rw [if_pos roomText, guard_ok] at h
    replace h := h.2
    split at h
    · cases h
    · rw [guard_ok] at h
      obtain ⟨valid, h⟩ := h
      obtain rfl := Except.ok.inj h
      simpa [not_or, ServerMessage.Valid] using valid
  rw [if_neg roomText] at h
  by_cases kick : command = ascii "KICK"
  · rw [if_pos kick, guard_ok] at h
    obtain ⟨valid, h⟩ := h
    rw [guard_ok] at h
    obtain ⟨text, h⟩ := h
    obtain rfl := Except.ok.inj h
    simp only [Bool.or_eq_true, Bool.not_eq_true', not_or, Bool.not_eq_false] at valid
    refine ⟨valid.2, ?_⟩
    simp only [Bool.and_eq_true, Bool.not_eq_true', not_and, Bool.not_eq_false] at text
    by_cases empty : (if fields.length > 2 then restAfterSecond payload else []) = []
    · exact .inl empty
    · exact .inr (text (by simpa using empty))
  rw [if_neg kick] at h
  by_cases texts : command = ascii "JOIN_FAIL" ∨ command = ascii "TEXT" ∨
      command = ascii "ERROR"
  · rw [if_pos texts, guard_ok] at h
    replace h := h.2
    rw [guard_ok] at h
    obtain ⟨valid, h⟩ := h
    simp only [Bool.not_eq_true', Bool.not_eq_false] at valid
    repeat' split at h
    all_goals
      obtain rfl := Except.ok.inj h
      exact valid
  · rw [if_neg texts] at h
    cases h

end Guarantee

section Encoding

theorem getLast?_intercalate_ne {c : UInt8} {names : List Bytes} (h : ∀ name ∈ names, c ∉ name)
    (nonempty : ∀ name ∈ names, name ≠ []) : ([c].intercalate names).getLast? ≠ some c := by
  induction names with
  | nil => simp [List.intercalate]
  | cons x rest ih =>
      have hx := h x List.mem_cons_self
      have hrest := ih (fun name hm => h name (List.mem_cons_of_mem x hm))
        (fun name hm => nonempty name (List.mem_cons_of_mem x hm))
      cases rest with
      | nil =>
          rw [intercalate_single]
          exact fun last => hx (List.mem_of_getLast? last)
      | cons y rest =>
          have more : [c].intercalate (y :: rest) ≠ [] := by
            have hy : y ≠ [] := nonempty y (List.mem_cons_of_mem x List.mem_cons_self)
            cases rest with
            | nil => rwa [intercalate_single]
            | cons z rest =>
                rw [intercalate_cons_cons]
                simp
          rw [intercalate_cons_cons, List.getLast?_append, List.getLast?_cons,
            List.getLast?_eq_some_getLast more, Option.getD_some, Option.some_or,
            ← List.getLast?_eq_some_getLast more]
          exact hrest

/-- A valid message is parsed back from what the serialiser makes of it. -/
theorem ServerMessage.Valid.parse {m : ServerMessage} (h : m.Valid) :
    parseServerMessage (serializeServer m) = .ok m := by
  cases m with
  | hello version =>
      obtain rfl := h
      decide
  | authRequired | authAccepted | authRejected | joinAccepted | banned | nicknameTaken => decide
  | challenge challengeHex =>
      change parseServerMessage (ascii "CHALLENGE" ++ pipe :: challengeHex) = _
      rw [parseServer_challenge, splitFields_single (isHex_pipe h)]
      simp [show isHex challengeHex 64 = true from h]
  | identityAccepted fingerprint =>
      change parseServerMessage (ascii "IDENTITY_OK" ++ pipe :: fingerprint) = _
      rw [parseServer_identity, splitFields_single (isHex_pipe h)]
      simp [show isHex fingerprint 16 = true from h]
  | joinRejected reason =>
      change parseServerMessage (ascii "JOIN_FAIL" ++ pipe :: reason) = _
      rw [parseServer_body _ (by simp), show isValidText reason MAX_FRAME_LENGTH = true from h]
      simp
  | kick nickname reason =>
      have shape : serializeServer (.kick nickname reason) =
          ascii "KICK" ++ pipe :: (nickname ++ pipe :: reason) := by
        simp [serializeServer, ascii, pipe]
      rw [shape, parseServer_kick _ (isValidNickname_pipe h.1), guard_ok, guard_ok]
      refine ⟨by simp [h.1], ?_, rfl⟩
      cases h.2 with
      | inl empty => simp [empty]
      | inr valid => simp [valid]
  | userList roomId nicknames =>
      have shape : serializeServer (.userList roomId nicknames) =
          ascii "USERS" ++ pipe ::
            (toDecimal roomId.toNat ++ pipe :: [comma].intercalate nicknames) := by
        simp [serializeServer, ascii, pipe]
      have noPipe : pipe ∉ [comma].intercalate nicknames :=
        not_mem_intercalate (by decide) fun nickname hm =>
          isValidNickname_pipe (h.2 nickname hm)
      have ending : ([comma].intercalate nicknames).getLast? ≠ some comma :=
        getLast?_intercalate_ne (fun name hm => isValidNickname_comma (h.2 name hm))
          fun name hm => isValidNickname_ne_nil (h.2 name hm)
      rw [shape, parseServer_users _ _ noPipe, if_neg h.1, if_neg ending,
        parseUserNames_intercalate h.2]
      rfl
  | roomList rooms =>
      have shape : serializeServer (.roomList rooms) =
          ascii "ROOMS" ++ pipe :: [semicolon].intercalate (rooms.map serializeRoomSummary) := by
        simp [serializeServer, ascii, pipe]
      have noPipe : pipe ∉ [semicolon].intercalate (rooms.map serializeRoomSummary) := by
        refine not_mem_intercalate (by decide) fun part hm => ?_
        obtain ⟨room, hroom, rfl⟩ := List.mem_map.mp hm
        exact serializeRoomSummary_not_mem rfl (by decide)
          (isValidRoomName_separators (h.2 room hroom).2).1
      have loop := @parseRoomEntries_intercalate_valid rooms [] (by simpa using h.1) h.2
      rw [shape, parseServer_rooms _ noPipe, loop]
      rfl
  | roomJoined id name topic =>
      have shape : serializeServer (.roomJoined id name topic) =
          ascii "ROOM" ++ pipe :: (toDecimal id.toNat ++ pipe :: (name ++ pipe :: topic)) := by
        simp [serializeServer, ascii, pipe]
      rw [shape, parseServer_room _ _ (isValidRoomName_separators h.2.1).1, guard_ok]
      exact ⟨by simp [h.1, h.2.1, h.2.2], rfl⟩
  | roomTopic roomId topic =>
      have shape : serializeServer (.roomTopic roomId topic) =
          ascii "TOPIC" ++ pipe :: (toDecimal roomId.toNat ++ pipe :: topic) := by
        simp [serializeServer, ascii, pipe]
      rw [shape, parseServer_topic, guard_ok]
      exact ⟨by simp [h.1, h.2], rfl⟩
  | roomText roomId body =>
      have shape : serializeServer (.roomText roomId body) =
          ascii "ROOM_TEXT" ++ pipe :: (toDecimal roomId.toNat ++ pipe :: body) := by
        simp [serializeServer, ascii, pipe]
      rw [shape, parseServer_roomText, guard_ok]
      exact ⟨by simp [h.1, h.2], rfl⟩
  | text body =>
      change parseServerMessage (ascii "TEXT" ++ pipe :: body) = _
      rw [parseServer_body _ (by simp), show isValidText body MAX_FRAME_LENGTH = true from h]
      simp +decide
  | serverError reason =>
      change parseServerMessage (ascii "ERROR" ++ pipe :: reason) = _
      rw [parseServer_body _ (by simp), show isValidText reason MAX_FRAME_LENGTH = true from h]
      simp +decide

theorem serializeServer_ne_nil (m : ServerMessage) : serializeServer m ≠ [] := by
  cases m <;> simp [serializeServer, ascii]

/-- A message reaches the other side in a frame exactly when it is valid and its
payload is not longer than a frame can carry. -/
theorem encodeServerFrame_decodes_iff (m : ServerMessage) :
    (∃ frame, encodeServerFrame m = .ok frame ∧ decodeServerFrame frame = .ok m) ↔
      m.Valid ∧ (serializeServer m).length ≤ maxPayloadLength := by
  constructor
  · rintro ⟨frame, he, hd⟩
    obtain ⟨-, he⟩ := encodeServerFrame_ok he
    rw [decodeServerFrame, decodeMessageFrame_encodeFrame he] at hd
    exact ⟨parseServerMessage_valid hd, (encodeFrame_ok_iff.mp he).2.1⟩
  · rintro ⟨valid, fits⟩
    have he : encodeFrame (serializeServer m) =
        .ok (encodeBlocks (serializeServer m) ++ [newline]) :=
      encodeFrame_ok_iff.mpr ⟨serializeServer_ne_nil m, fits, rfl⟩
    refine ⟨encodeBlocks (serializeServer m) ++ [newline], ?_, ?_⟩
    · simp only [encodeServerFrame, valid.parse, he]
    · rw [decodeServerFrame, decodeMessageFrame_encodeFrame he, valid.parse]

end Encoding

section Again

/-- A payload that parses, in either direction, and what the serialiser makes of
its message are two spellings of one message. -/
theorem parse_serialize_parse :
    (∀ payload message, parseClientMessage payload = .ok message →
      parseClientMessage (serializeClient message) = .ok message) ∧
    (∀ payload message, parseServerMessage payload = .ok message →
      parseServerMessage (serializeServer message) = .ok message) :=
  ⟨fun _ _ h => parseClientMessage_again h, fun _ _ h => (parseServerMessage_valid h).parse⟩

/-- `KICK|alice` is sent again as `KICK|alice|`, and the room number loses its zero. -/
theorem parse_serialize_parse_spellings :
    parseClientMessage (serializeClient (.kickRequest (ascii "alice") [])) =
        .ok (.kickRequest (ascii "alice") []) ∧
      parseServerMessage (serializeServer (.roomList [⟨1, ascii "Lobby", 2⟩])) =
        .ok (.roomList [⟨1, ascii "Lobby", 2⟩]) := by
  refine ⟨parse_serialize_parse.1 (ascii "KICK|alice") _ ?_,
    parse_serialize_parse.2 (ascii "ROOMS|01,Lobby,2;") _ ?_⟩
  · decide
  · decide +kernel

end Again

end Chatbox.Protocol
