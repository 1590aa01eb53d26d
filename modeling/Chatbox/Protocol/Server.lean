import Chatbox.Protocol.Client

/-!
Server messages on the wire. The lists of users and rooms are one field each,
with separators of their own and a hand-written loop to take them apart.
-/

namespace Chatbox.Protocol

open Text

def serializeRoomSummary (room : RoomSummary) : Bytes :=
  toDecimal room.id.toNat ++ ascii "," ++ room.name ++ ascii "," ++
    toDecimal room.userCount.toNat

def serializeServer : ServerMessage → Bytes
  | .hello version => ascii "HELLO|" ++ toDecimal version.toNat
  | .authRequired => ascii "AUTH_REQUIRED"
  | .authAccepted => ascii "AUTH_OK"
  | .authRejected => ascii "AUTH_FAIL"
  | .challenge challengeHex => ascii "CHALLENGE|" ++ challengeHex
  | .identityAccepted fingerprint => ascii "IDENTITY_OK|" ++ fingerprint
  | .joinAccepted => ascii "JOIN_OK"
  | .banned => ascii "BANNED"
  | .nicknameTaken => ascii "NICK_TAKEN"
  | .joinRejected reason => ascii "JOIN_FAIL|" ++ reason
  | .kick nickname reason => ascii "KICK|" ++ nickname ++ ascii "|" ++ reason
  | .userList roomId nicknames =>
      ascii "USERS|" ++ toDecimal roomId.toNat ++ ascii "|" ++
        [comma].intercalate nicknames
  | .roomList rooms =>
      ascii "ROOMS|" ++ [semicolon].intercalate (rooms.map serializeRoomSummary)
  | .roomJoined id name topic =>
      ascii "ROOM|" ++ toDecimal id.toNat ++ ascii "|" ++ name ++ ascii "|" ++ topic
  | .roomTopic roomId topic =>
      ascii "TOPIC|" ++ toDecimal roomId.toNat ++ ascii "|" ++ topic
  | .roomText roomId body =>
      ascii "ROOM_TEXT|" ++ toDecimal roomId.toNat ++ ascii "|" ++ body
  | .text body => ascii "TEXT|" ++ body
  | .serverError reason => ascii "ERROR|" ++ reason

def parseUnsigned (text : Bytes) : Option UInt64 :=
  match fromChars 64 text with
  | some (value, []) => some value.toUInt64
  | _ => none

/-- `text.substr(0, position)`, the whole text when there is no position. -/
def upTo (text : Bytes) : Option Nat → Bytes
  | none => text
  | some position => text.take position

/-- The loop over the names of USERS; `remaining` is the field from `start`. -/
def parseUserNames (remaining : Bytes) (nicknames : List Bytes) : Result (List Bytes) :=
  if _ : remaining = [] then .ok nicknames
  else
    let delimiter := remaining.idxOf? comma
    let nickname := upTo remaining delimiter
    if !isValidNickname nickname then
      failure .invalidField (ascii "USERS contains an invalid nickname")
    else
      match delimiter with
      | none => .ok (nicknames ++ [nickname])
      | some position =>
          parseUserNames (remaining.drop (position + 1)) (nicknames ++ [nickname])
termination_by remaining.length
decreasing_by
  have := List.length_pos_iff.mpr ‹remaining ≠ []›
  simp only [List.length_drop]
  omega

def parseRoomEntry (entry : Bytes) : Result RoomSummary :=
  match entry.idxOf? comma with
  | none => failure .invalidField (ascii "ROOMS contains a malformed entry")
  | some firstComma =>
      match findFrom entry comma (firstComma + 1) with
      | none => failure .invalidField (ascii "ROOMS contains a malformed entry")
      | some secondComma =>
          let name := (entry.drop (firstComma + 1)).take (secondComma - firstComma - 1)
          match parseUnsigned (entry.take firstComma),
              parseUnsigned (entry.drop (secondComma + 1)) with
          | some id, some count =>
              if id = 0 || !isValidRoomName name then
                failure .invalidField (ascii "ROOMS contains invalid room data")
              else .ok { id, name, userCount := count }
          | _, _ => failure .invalidField (ascii "ROOMS contains invalid room data")

/-- The loop over the entries of ROOMS. A separator at the end is not noticed:
the loop stops where nothing is left. -/
def parseRoomEntries (remaining : Bytes) (rooms : List RoomSummary) :
    Result (List RoomSummary) :=
  if _ : remaining = [] then .ok rooms
  else
    let delimiter := remaining.idxOf? semicolon
    match parseRoomEntry (upTo remaining delimiter) with
    | .error e => .error e
    | .ok room =>
        let rooms := rooms ++ [room]
        if rooms.length > MAX_ROOMS then
          failure .invalidField (ascii "ROOMS contains too many rooms")
        else
          match delimiter with
          | none => .ok rooms
          | some position => parseRoomEntries (remaining.drop (position + 1)) rooms
termination_by remaining.length
decreasing_by
  have := List.length_pos_iff.mpr ‹remaining ≠ []›
  simp only [List.length_drop]
  omega

/-- The answers that consist of their word alone. -/
def parseWord (command : Bytes) : ServerMessage :=
  if command = ascii "AUTH_REQUIRED" then .authRequired
  else if command = ascii "AUTH_OK" then .authAccepted
  else if command = ascii "AUTH_FAIL" then .authRejected
  else if command = ascii "JOIN_OK" then .joinAccepted
  else if command = ascii "BANNED" then .banned
  else .nicknameTaken

def parseServerMessage (payload : Bytes) : Result ServerMessage :=
  if payload.isEmpty then
    failure .emptyPayload (ascii "Server message is empty")
  else
    let fields := splitFields payload
    let command := fields.headD []
    if command = ascii "HELLO" then parseHello .hello fields
    else if command = ascii "AUTH_REQUIRED" ∨ command = ascii "AUTH_OK" ∨
        command = ascii "AUTH_FAIL" ∨ command = ascii "JOIN_OK" ∨
        command = ascii "BANNED" ∨ command = ascii "NICK_TAKEN" then
      if fields.length ≠ 1 then
        failure .wrongFieldCount (command ++ ascii " does not accept fields")
      else .ok (parseWord command)
    else if command = ascii "CHALLENGE" then
      if fields.length ≠ 2 || !isHex (fields.getD 1 []) 64 then
        failure .invalidField
          (ascii "CHALLENGE must contain 32 bytes of hexadecimal data")
      else .ok (.challenge (fields.getD 1 []))
    else if command = ascii "IDENTITY_OK" then
      if fields.length ≠ 2 || !isHex (fields.getD 1 []) 16 then
        failure .invalidField (ascii "IDENTITY_OK fingerprint is invalid")
      else .ok (.identityAccepted (fields.getD 1 []))
    else if command = ascii "USERS" then
      if fields.length ≠ 3 then
        failure .wrongFieldCount (ascii "USERS requires room and list fields")
      else
        match parseUnsigned (fields.getD 1 []) with
        | none => failure .invalidField (ascii "USERS contains an invalid room ID")
        | some roomId =>
            if roomId = 0 then
              failure .invalidField (ascii "USERS contains an invalid room ID")
            else if (fields.getD 2 []).getLast? = some comma then
              failure .invalidField (ascii "USERS contains an empty nickname")
            else
              match parseUserNames (fields.getD 2 []) [] with
              | .error e => .error e
              | .ok nicknames => .ok (.userList roomId nicknames)
    else if command = ascii "ROOMS" then
      if fields.length ≠ 2 then
        failure .wrongFieldCount (ascii "ROOMS requires one list field")
      else
        match parseRoomEntries (fields.getD 1 []) [] with
        | .error e => .error e
        | .ok rooms => .ok (.roomList rooms)
    else if command = ascii "ROOM" then
      if fields.length < 4 then
        failure .wrongFieldCount (ascii "ROOM requires ID, name, and topic fields")
      else
        let topic := restAfterDelimiter payload 3
        match parseUnsigned (fields.getD 1 []) with
        | none => failure .invalidField (ascii "ROOM contains invalid room data")
        | some id =>
            if id = 0 || !isValidRoomName (fields.getD 2 []) || !isValidRoomTopic topic then
              failure .invalidField (ascii "ROOM contains invalid room data")
            else .ok (.roomJoined id (fields.getD 2 []) topic)
    else if command = ascii "TOPIC" then
      if fields.length < 3 then
        failure .wrongFieldCount (ascii "TOPIC requires room and topic fields")
      else
        let topic := restAfterDelimiter payload 2
        match parseUnsigned (fields.getD 1 []) with
        | none => failure .invalidField (ascii "TOPIC contains invalid room data")
        | some id =>
            if id = 0 || !isValidRoomTopic topic then
              failure .invalidField (ascii "TOPIC contains invalid room data")
            else .ok (.roomTopic id topic)
    else if command = ascii "ROOM_TEXT" then
      if fields.length < 3 then
        failure .wrongFieldCount (ascii "ROOM_TEXT requires room and text fields")
      else
        let body := restAfterDelimiter payload 2
        match parseUnsigned (fields.getD 1 []) with
        | none => failure .invalidField (ascii "ROOM_TEXT contains invalid room data")
        | some id =>
            if id = 0 || !isValidText body MAX_FRAME_LENGTH then
              failure .invalidField (ascii "ROOM_TEXT contains invalid room data")
            else .ok (.roomText id body)
    else if command = ascii "KICK" then
      if fields.length < 2 || !isValidNickname (fields.getD 1 []) then
        failure .invalidField (ascii "KICK requires a valid nickname")
      else
        let reason := if fields.length > 2 then restAfterSecond payload else []
        if !reason.isEmpty && !isValidText reason MAX_CHAT_LENGTH then
          failure .invalidField
            (ascii "KICK reason is oversized or contains control characters")
        else .ok (.kick (fields.getD 1 []) reason)
    else if command = ascii "JOIN_FAIL" ∨ command = ascii "TEXT" ∨
        command = ascii "ERROR" then
      if fields.length < 2 then
        failure .wrongFieldCount (command ++ ascii " requires a text field")
      else
        let body := restAfterCommand payload
        if !isValidText body MAX_FRAME_LENGTH then
          failure .invalidField
            (command ++ ascii " text is empty, oversized, or contains control characters")
        else if command = ascii "JOIN_FAIL" then .ok (.joinRejected body)
        else if command = ascii "TEXT" then .ok (.text body)
        else .ok (.serverError body)
    else failure .unknownMessage (ascii "Unknown server message type: " ++ command)

def encodeServerFrame (message : ServerMessage) : Result Bytes :=
  let payload := serializeServer message
  match parseServerMessage payload with
  | .error e => failure e.error e.detail
  | .ok _ => encodeFrame payload

def decodeServerFrame (frame : Bytes) : Result ServerMessage :=
  decodeMessageFrame frame parseServerMessage

end Chatbox.Protocol
