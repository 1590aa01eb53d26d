import Chatbox.Protocol.ClientCodec
import Chatbox.Protocol.Server

/-!
The round trip of server messages. The two list loops undo the two loops of the
serialiser as long as names contain none of the separators.
-/

namespace Chatbox.Protocol

open Text

section Lists

theorem parseUnsigned_toDecimal (value : UInt64) :
    parseUnsigned (toDecimal value.toNat) = some value := by
  simp [parseUnsigned, fromChars_toDecimal value.toNat_lt]

theorem upTo_none (text : Bytes) : upTo text none = text := rfl

theorem upTo_append (a b : Bytes) : upTo (a ++ b) (some a.length) = a := by
  simp [upTo]

theorem intercalate_cons_cons (c : UInt8) (x y : Bytes) (rest : List Bytes) :
    [c].intercalate (x :: y :: rest) = x ++ c :: [c].intercalate (y :: rest) := by
  simp [List.intercalate, List.intersperse]

theorem intercalate_single (c : UInt8) (x : Bytes) : [c].intercalate [x] = x := by
  simp [List.intercalate]

/-- A separator that occurs in no part and is not the joint does not occur. -/
theorem not_mem_intercalate {c d : UInt8} (hcd : c ≠ d) {parts : List Bytes}
    (h : ∀ part ∈ parts, c ∉ part) : c ∉ [d].intercalate parts := by
  induction parts with
  | nil => simp [List.intercalate]
  | cons x rest ih =>
      have hx := h x (by simp)
      have hrest := ih fun part hm => h part (by simp [hm])
      cases rest with
      | nil => rwa [intercalate_single]
      | cons y rest =>
          rw [intercalate_cons_cons]
          simp [hx, hcd, hrest]

theorem parseUserNames_intercalate {nicknames : List Bytes}
    (h : ∀ nickname ∈ nicknames, isValidNickname nickname = true) (before : List Bytes) :
    parseUserNames ([comma].intercalate nicknames) before = .ok (before ++ nicknames) := by
  induction nicknames generalizing before with
  | nil =>
      rw [parseUserNames]
      simp [List.intercalate]
  | cons x rest ih =>
      have hx := h x (by simp)
      have hrest := fun before => ih (fun nickname hm => h nickname (by simp [hm])) before
      have xComma := isValidNickname_comma hx
      have xNonempty := isValidNickname_ne_nil hx
      rw [parseUserNames]
      cases rest with
      | nil =>
          simp only [intercalate_single, xNonempty, dite_false, upTo_none, hx,
            Bool.not_true, Bool.false_eq_true, if_false, idxOf?_eq_none xComma]
      | cons y rest =>
          have nonempty : x ++ comma :: [comma].intercalate (y :: rest) ≠ [] := by simp
          simp only [intercalate_cons_cons, nonempty, dite_false, upTo_append, hx,
            Bool.not_true, Bool.false_eq_true, if_false, idxOf?_append_cons xComma]
          rw [← List.drop_drop, List.drop_left, List.drop_one, List.tail_cons, hrest]
          simp

theorem serializeRoomSummary_eq (room : RoomSummary) :
    serializeRoomSummary room = toDecimal room.id.toNat ++ comma :: (room.name ++ comma ::
      toDecimal room.userCount.toNat) := by
  simp [serializeRoomSummary, ascii, comma]

theorem serializeRoomSummary_not_mem {c : UInt8} (hc : isDigit c = false) (hcomma : c ≠ comma)
    {room : RoomSummary} (h : c ∉ room.name) : c ∉ serializeRoomSummary room := by
  simp [serializeRoomSummary_eq, not_mem_toDecimal hc, hcomma, h]

theorem parseRoomEntry_serialize {room : RoomSummary}
    (hname : isValidRoomName room.name = true) :
    parseRoomEntry (serializeRoomSummary room) =
      if room.id = 0 then failure .invalidField (ascii "ROOMS contains invalid room data")
      else .ok room := by
  obtain ⟨id, name, userCount⟩ := room
  have digits : comma ∉ toDecimal id.toNat := not_mem_toDecimal rfl
  have noComma := (isValidRoomName_separators hname).2.1
  rw [serializeRoomSummary_eq]
  simp only at hname noComma ⊢
  generalize hentry : toDecimal id.toNat ++ comma :: (name ++ comma ::
    toDecimal userCount.toNat) = entry
  have first : entry.idxOf? comma = some (toDecimal id.toNat).length := by
    rw [← hentry, idxOf?_append_cons digits]
  have after : entry.drop ((toDecimal id.toNat).length + 1) =
      name ++ comma :: toDecimal userCount.toNat := by
    rw [← hentry]
    simp
  have second : findFrom entry comma ((toDecimal id.toNat).length + 1) =
      some (name.length + ((toDecimal id.toNat).length + 1)) := by
    rw [findFrom, after, idxOf?_append_cons noComma]
    rfl
  have count : entry.drop (name.length + ((toDecimal id.toNat).length + 1) + 1) =
      toDecimal userCount.toNat := by
    rw [show name.length + ((toDecimal id.toNat).length + 1) + 1 =
      (toDecimal id.toNat).length + 1 + (name.length + 1) by omega, ← List.drop_drop, after]
    simp
  have number : entry.take (toDecimal id.toNat).length = toDecimal id.toNat := by
    rw [← hentry]
    simp
  have width : name.length + ((toDecimal id.toNat).length + 1) -
      (toDecimal id.toNat).length - 1 = name.length := by omega
  simp only [parseRoomEntry, first, second, after, count, number, width,
    parseUnsigned_toDecimal, List.take_left, hname, Bool.not_true, Bool.or_false,
    decide_eq_true_eq]

/-- The loop takes the first of the serialised entries and goes on with the others. -/
theorem parseRoomEntries_cons {room : RoomSummary} (h : isValidRoomName room.name = true)
    (rest before : List RoomSummary) :
    parseRoomEntries ([semicolon].intercalate ((room :: rest).map serializeRoomSummary)) before =
      if room.id = 0 then failure .invalidField (ascii "ROOMS contains invalid room data")
      else if (before ++ [room]).length > MAX_ROOMS then
        failure .invalidField (ascii "ROOMS contains too many rooms")
      else parseRoomEntries ([semicolon].intercalate (rest.map serializeRoomSummary))
        (before ++ [room]) := by
  have entry : semicolon ∉ serializeRoomSummary room :=
    serializeRoomSummary_not_mem rfl (by decide) (isValidRoomName_separators h).2.2
  have nonempty : serializeRoomSummary room ≠ [] := by simp [serializeRoomSummary_eq]
  rw [parseRoomEntries]
  by_cases hid : room.id = 0
  · cases rest with
    | nil =>
        simp only [List.map_cons, List.map_nil, intercalate_single, nonempty, dite_false, upTo_none,
          parseRoomEntry_serialize h, idxOf?_eq_none entry, hid, if_true]
        rfl
    | cons next rest =>
        have more : serializeRoomSummary room ++ semicolon ::
            [semicolon].intercalate (serializeRoomSummary next :: rest.map serializeRoomSummary) ≠
              [] := by simp
        simp only [List.map_cons, intercalate_cons_cons, more, dite_false, upTo_append,
          parseRoomEntry_serialize h, idxOf?_append_cons entry, hid, if_true]
        rfl
  · cases rest with
    | nil =>
        have last : parseRoomEntries ([semicolon].intercalate []) (before ++ [room]) =
            .ok (before ++ [room]) := by
          rw [parseRoomEntries]
          simp [List.intercalate]
        simp only [List.map_cons, List.map_nil, intercalate_single, nonempty, dite_false, upTo_none,
          parseRoomEntry_serialize h, idxOf?_eq_none entry, hid, if_false, last]
    | cons next rest =>
        have more : serializeRoomSummary room ++ semicolon ::
            [semicolon].intercalate (serializeRoomSummary next :: rest.map serializeRoomSummary) ≠
              [] := by simp
        simp only [List.map_cons, intercalate_cons_cons, more, dite_false, upTo_append,
          parseRoomEntry_serialize h, idxOf?_append_cons entry, hid, if_false]
        rw [← List.drop_drop, List.drop_left, List.drop_one, List.tail_cons]

/-- What the loop over ROOMS accepts of a serialised list is that list. -/
theorem parseRoomEntries_intercalate {rooms result : List RoomSummary}
    (h : ∀ room ∈ rooms, isValidRoomName room.name = true) {before : List RoomSummary}
    (hr : parseRoomEntries ([semicolon].intercalate (rooms.map serializeRoomSummary)) before =
      .ok result) :
    result = before ++ rooms := by
  induction rooms generalizing before with
  | nil =>
      rw [parseRoomEntries] at hr
      simpa [List.intercalate, eq_comm] using hr
  | cons room rest ih =>
      rw [parseRoomEntries_cons (h room List.mem_cons_self), guard_ok, guard_ok] at hr
      have taken := ih (fun other hm => h other (List.mem_cons_of_mem room hm)) hr.2.2
      simpa using taken

end Lists

section Commands

variable (rest : Bytes)

theorem parseServer_hello :
    parseServerMessage (ascii "HELLO" ++ pipe :: rest) =
      parseHello .hello (ascii "HELLO" :: splitFields rest) := by
  have word : pipe ∉ ascii "HELLO" := by decide
  simp +decide [parseServerMessage, splitFields_cons word]

theorem parseServer_challenge :
    parseServerMessage (ascii "CHALLENGE" ++ pipe :: rest) =
      if (splitFields rest).length ≠ 1 || !isHex ((splitFields rest).getD 0 []) 64 then
        failure .invalidField
          (ascii "CHALLENGE must contain 32 bytes of hexadecimal data")
      else .ok (.challenge ((splitFields rest).getD 0 [])) := by
  have word : pipe ∉ ascii "CHALLENGE" := by decide
  simp +decide [parseServerMessage, splitFields_cons word]

theorem parseServer_identity :
    parseServerMessage (ascii "IDENTITY_OK" ++ pipe :: rest) =
      if (splitFields rest).length ≠ 1 || !isHex ((splitFields rest).getD 0 []) 16 then
        failure .invalidField (ascii "IDENTITY_OK fingerprint is invalid")
      else .ok (.identityAccepted ((splitFields rest).getD 0 [])) := by
  have word : pipe ∉ ascii "IDENTITY_OK" := by decide
  simp +decide [parseServerMessage, splitFields_cons word]

theorem parseServer_users (roomId : RoomId) (h : pipe ∉ rest) :
    parseServerMessage (ascii "USERS" ++ pipe :: (toDecimal roomId.toNat ++ pipe :: rest)) =
      if roomId = 0 then failure .invalidField (ascii "USERS contains an invalid room ID")
      else if rest.getLast? = some comma then
        failure .invalidField (ascii "USERS contains an empty nickname")
      else (parseUserNames rest []).map (.userList roomId) := by
  have word : pipe ∉ ascii "USERS" := by decide
  have digits : pipe ∉ toDecimal roomId.toNat := not_mem_toDecimal rfl
  unfold parseServerMessage
  rw [splitFields_cons word, splitFields_cons digits, splitFields_single h]
  cases hn : parseUserNames rest [] with
  | error e => simp +decide [parseUnsigned_toDecimal, hn, Except.map]
  | ok nicknames => simp +decide [parseUnsigned_toDecimal, hn, Except.map]

theorem parseServer_rooms (h : pipe ∉ rest) :
    parseServerMessage (ascii "ROOMS" ++ pipe :: rest) =
      (parseRoomEntries rest []).map .roomList := by
  have word : pipe ∉ ascii "ROOMS" := by decide
  unfold parseServerMessage
  rw [splitFields_cons word, splitFields_single h]
  cases hr : parseRoomEntries rest [] with
  | error e => simp +decide [hr, Except.map]
  | ok rooms => simp +decide [hr, Except.map]

theorem parseServer_room (id : RoomId) {name : Bytes} (h : pipe ∉ name) :
    parseServerMessage
        (ascii "ROOM" ++ pipe :: (toDecimal id.toNat ++ pipe :: (name ++ pipe :: rest))) =
      if id = 0 || !isValidRoomName name || !isValidRoomTopic rest then
        failure .invalidField (ascii "ROOM contains invalid room data")
      else .ok (.roomJoined id name rest) := by
  have word : pipe ∉ ascii "ROOM" := by decide
  have digits : pipe ∉ toDecimal id.toNat := not_mem_toDecimal rfl
  have topic : restAfterDelimiter
      (ascii "ROOM" ++ pipe :: (toDecimal id.toNat ++ pipe :: (name ++ pipe :: rest))) 3 =
        rest := by
    rw [restAfterDelimiter_cons word, restAfterDelimiter_cons digits, restAfterDelimiter_cons h]
    rfl
  have enough : ¬ (splitFields rest).length + 1 + 1 + 1 < 4 := by
    have := length_splitFields_pos rest
    omega
  unfold parseServerMessage
  rw [splitFields_cons word, splitFields_cons digits, splitFields_cons h, topic]
  generalize splitFields rest = fields at *
  simp +decide [parseUnsigned_toDecimal, enough]

theorem parseServer_topic (id : RoomId) :
    parseServerMessage (ascii "TOPIC" ++ pipe :: (toDecimal id.toNat ++ pipe :: rest)) =
      if id = 0 || !isValidRoomTopic rest then
        failure .invalidField (ascii "TOPIC contains invalid room data")
      else .ok (.roomTopic id rest) := by
  have word : pipe ∉ ascii "TOPIC" := by decide
  have digits : pipe ∉ toDecimal id.toNat := not_mem_toDecimal rfl
  have topic : restAfterDelimiter
      (ascii "TOPIC" ++ pipe :: (toDecimal id.toNat ++ pipe :: rest)) 2 = rest := by
    rw [restAfterDelimiter_cons word, restAfterDelimiter_cons digits]
    rfl
  have enough : ¬ (splitFields rest).length + 1 + 1 < 3 := by
    have := length_splitFields_pos rest
    omega
  unfold parseServerMessage
  rw [splitFields_cons word, splitFields_cons digits, topic]
  generalize splitFields rest = fields at *
  simp +decide [parseUnsigned_toDecimal, enough]

theorem parseServer_roomText (id : RoomId) :
    parseServerMessage (ascii "ROOM_TEXT" ++ pipe :: (toDecimal id.toNat ++ pipe :: rest)) =
      if id = 0 || !isValidText rest MAX_FRAME_LENGTH then
        failure .invalidField (ascii "ROOM_TEXT contains invalid room data")
      else .ok (.roomText id rest) := by
  have word : pipe ∉ ascii "ROOM_TEXT" := by decide
  have digits : pipe ∉ toDecimal id.toNat := not_mem_toDecimal rfl
  have body : restAfterDelimiter
      (ascii "ROOM_TEXT" ++ pipe :: (toDecimal id.toNat ++ pipe :: rest)) 2 = rest := by
    rw [restAfterDelimiter_cons word, restAfterDelimiter_cons digits]
    rfl
  have enough : ¬ (splitFields rest).length + 1 + 1 < 3 := by
    have := length_splitFields_pos rest
    omega
  unfold parseServerMessage
  rw [splitFields_cons word, splitFields_cons digits, body]
  generalize splitFields rest = fields at *
  simp +decide [parseUnsigned_toDecimal, enough]

theorem parseServer_kick {nickname : Bytes} (h : pipe ∉ nickname) :
    parseServerMessage (ascii "KICK" ++ pipe :: (nickname ++ pipe :: rest)) =
      if !isValidNickname nickname then
        failure .invalidField (ascii "KICK requires a valid nickname")
      else if !rest.isEmpty && !isValidText rest MAX_CHAT_LENGTH then
        failure .invalidField
          (ascii "KICK reason is oversized or contains control characters")
      else .ok (.kick nickname rest) := by
  have word : pipe ∉ ascii "KICK" := by decide
  have reason := restAfterSecond_cons word h rest
  have pos := length_splitFields_pos rest
  have enough : ¬ (splitFields rest).length + 1 + 1 < 2 := by omega
  have more : (splitFields rest).length + 1 + 1 > 2 := by omega
  unfold parseServerMessage
  rw [splitFields_cons word, splitFields_cons h, reason]
  generalize splitFields rest = fields at *
  simp +decide [enough, more]

/-- The three messages that are a word and a text. -/
theorem parseServer_body {word : Bytes}
    (h : word = ascii "JOIN_FAIL" ∨ word = ascii "TEXT" ∨ word = ascii "ERROR") :
    parseServerMessage (word ++ pipe :: rest) =
      if !isValidText rest MAX_FRAME_LENGTH then
        failure .invalidField
          (word ++ ascii " text is empty, oversized, or contains control characters")
      else if word = ascii "JOIN_FAIL" then .ok (.joinRejected rest)
      else if word = ascii "TEXT" then .ok (.text rest)
      else .ok (.serverError rest) := by
  have noPipe : pipe ∉ word := by
    rcases h with rfl | rfl | rfl <;> decide
  have enough : ¬ (splitFields rest).length + 1 < 2 := by
    have := length_splitFields_pos rest
    omega
  unfold parseServerMessage
  rw [splitFields_cons noPipe, restAfterCommand_cons noPipe]
  generalize splitFields rest = fields at *
  rcases h with rfl | rfl | rfl <;> simp +decide [enough]

end Commands

section RoundTrip

/-- What the server guarantees of the names it sends. -/
def NamesValid : ServerMessage → Prop
  | .kick nickname _ => isValidNickname nickname = true
  | .userList _ nicknames => ∀ nickname ∈ nicknames, isValidNickname nickname = true
  | .roomList rooms => ∀ room ∈ rooms, isValidRoomName room.name = true
  | .roomJoined _ name _ => isValidRoomName name = true
  | _ => True

theorem parseServerMessage_serializeServer {m m' : ServerMessage} (hv : NamesValid m)
    (h : parseServerMessage (serializeServer m) = .ok m') : m' = m := by
  cases m with
  | hello version =>
      have digits : pipe ∉ toDecimal version.toNat := not_mem_toDecimal rfl
      change parseServerMessage (ascii "HELLO" ++ pipe :: toDecimal version.toNat) = _ at h
      rw [parseServer_hello, splitFields_single digits] at h
      exact parseHello_toDecimal h
  | authRequired | authAccepted | authRejected | joinAccepted | banned | nicknameTaken =>
      revert h
      simp +decide [parseServerMessage, parseWord, eq_comm]
  | challenge challengeHex =>
      change parseServerMessage (ascii "CHALLENGE" ++ pipe :: challengeHex) = _ at h
      rw [parseServer_challenge, guard_ok] at h
      obtain ⟨guard, h⟩ := h
      simp only [Bool.or_eq_true, decide_eq_true_eq, ne_eq, not_or, not_not] at guard
      rw [splitFields_single (splitFields_length_one guard.1)] at h
      exact (Except.ok.inj h).symm
  | identityAccepted fingerprint =>
      change parseServerMessage (ascii "IDENTITY_OK" ++ pipe :: fingerprint) = _ at h
      rw [parseServer_identity, guard_ok] at h
      obtain ⟨guard, h⟩ := h
      simp only [Bool.or_eq_true, decide_eq_true_eq, ne_eq, not_or, not_not] at guard
      rw [splitFields_single (splitFields_length_one guard.1)] at h
      exact (Except.ok.inj h).symm
  | joinRejected reason =>
      change parseServerMessage (ascii "JOIN_FAIL" ++ pipe :: reason) = _ at h
      rw [parseServer_body _ (by simp), guard_ok] at h
      simpa +decide [eq_comm] using h.2
  | kick nickname reason =>
      have shape : serializeServer (.kick nickname reason) =
          ascii "KICK" ++ pipe :: (nickname ++ pipe :: reason) := by
        simp [serializeServer, ascii, pipe]
      rw [shape, parseServer_kick _ (isValidNickname_pipe hv), guard_ok, guard_ok] at h
      exact (Except.ok.inj h.2.2).symm
  | userList roomId nicknames =>
      have shape : serializeServer (.userList roomId nicknames) =
          ascii "USERS" ++ pipe ::
            (toDecimal roomId.toNat ++ pipe :: [comma].intercalate nicknames) := by
        simp [serializeServer, ascii, pipe]
      have noPipe : pipe ∉ [comma].intercalate nicknames :=
        not_mem_intercalate (by decide) fun nickname hm => isValidNickname_pipe (hv nickname hm)
      rw [shape, parseServer_users _ _ noPipe, guard_ok, guard_ok,
        parseUserNames_intercalate hv] at h
      exact (Except.ok.inj h.2.2).symm
  | roomList rooms =>
      have shape : serializeServer (.roomList rooms) =
          ascii "ROOMS" ++ pipe :: [semicolon].intercalate (rooms.map serializeRoomSummary) := by
        simp [serializeServer, ascii, pipe]
      have noPipe : pipe ∉ [semicolon].intercalate (rooms.map serializeRoomSummary) := by
        refine not_mem_intercalate (by decide) fun part hm => ?_
        obtain ⟨room, hroom, rfl⟩ := List.mem_map.mp hm
        exact serializeRoomSummary_not_mem rfl (by decide)
          (isValidRoomName_separators (hv room hroom)).1
      rw [shape, parseServer_rooms _ noPipe] at h
      cases hr : parseRoomEntries ([semicolon].intercalate (rooms.map serializeRoomSummary))
          [] with
      | error e =>
          rw [hr] at h
          cases h
      | ok result =>
          rw [hr] at h
          have := parseRoomEntries_intercalate hv hr
          rw [← Except.ok.inj h, this, List.nil_append]
  | roomJoined id name topic =>
      have shape : serializeServer (.roomJoined id name topic) =
          ascii "ROOM" ++ pipe :: (toDecimal id.toNat ++ pipe :: (name ++ pipe :: topic)) := by
        simp [serializeServer, ascii, pipe]
      rw [shape, parseServer_room _ _ (isValidRoomName_separators hv).1, guard_ok] at h
      exact (Except.ok.inj h.2).symm
  | roomTopic roomId topic =>
      have shape : serializeServer (.roomTopic roomId topic) =
          ascii "TOPIC" ++ pipe :: (toDecimal roomId.toNat ++ pipe :: topic) := by
        simp [serializeServer, ascii, pipe]
      rw [shape, parseServer_topic, guard_ok] at h
      exact (Except.ok.inj h.2).symm
  | roomText roomId body =>
      have shape : serializeServer (.roomText roomId body) =
          ascii "ROOM_TEXT" ++ pipe :: (toDecimal roomId.toNat ++ pipe :: body) := by
        simp [serializeServer, ascii, pipe]
      rw [shape, parseServer_roomText, guard_ok] at h
      exact (Except.ok.inj h.2).symm
  | text body =>
      change parseServerMessage (ascii "TEXT" ++ pipe :: body) = _ at h
      rw [parseServer_body _ (by simp), guard_ok] at h
      simpa +decide [eq_comm] using h.2
  | serverError reason =>
      change parseServerMessage (ascii "ERROR" ++ pipe :: reason) = _ at h
      rw [parseServer_body _ (by simp), guard_ok] at h
      simpa +decide [eq_comm] using h.2

theorem encodeServerFrame_ok {m : ServerMessage} {frame : Bytes}
    (h : encodeServerFrame m = .ok frame) :
    (∃ m', parseServerMessage (serializeServer m) = .ok m') ∧
      encodeFrame (serializeServer m) = .ok frame := by
  unfold encodeServerFrame at h
  cases hp : parseServerMessage (serializeServer m) with
  | error e => simp only [hp, failure, reduceCtorEq] at h
  | ok m' =>
      simp only [hp] at h
      exact ⟨⟨m', rfl⟩, h⟩

/-- A server message with valid names comes back from its frame unchanged. -/
theorem decodeServerFrame_encodeServerFrame (m : ServerMessage) (frame : Bytes)
    (hv : NamesValid m) (h : encodeServerFrame m = .ok frame) :
    decodeServerFrame frame = .ok m := by
  obtain ⟨⟨m', hp⟩, he⟩ := encodeServerFrame_ok h
  rw [decodeServerFrame, decodeMessageFrame_encodeFrame he, hp,
    parseServerMessage_serializeServer hv hp]

/-- `ROOM|2|games|Play | nicely` -/
theorem decodeServerFrame_encodeServerFrame_topic :
    decodeServerFrame (ascii "Uk9PTXwyfGdhbWVzfFBsYXkgfCBuaWNlbHk=\n") =
      .ok (.roomJoined 2 (ascii "games") (ascii "Play | nicely")) :=
  decodeServerFrame_encodeServerFrame _ _
    (show isValidRoomName (ascii "games") = true by decide) (by decide +kernel)

end RoundTrip

end Chatbox.Protocol
