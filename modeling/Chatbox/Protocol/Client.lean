import Chatbox.Protocol.FrameCodec

/-!
Client messages on the wire. A payload is a command word and fields separated
by `'|'`; in some commands the last field is the whole rest of the line, so
fields before it must not contain the separator. The encoder checks its output
by parsing it, which does not notice when the parse is another message.
-/

namespace Chatbox.Protocol

open Text

def splitFields (payload : Bytes) : List Bytes := payload.splitOn pipe

/-- The text after the given number of separators. -/
def restAfterDelimiter (payload : Bytes) : Nat → Bytes
  | 0 => payload
  | n + 1 =>
      match payload.idxOf? pipe with
      | none => []
      | some position => restAfterDelimiter (payload.drop (position + 1)) n

def restAfterCommand (payload : Bytes) : Bytes :=
  match payload.idxOf? pipe with
  | none => []
  | some delimiter => payload.drop (delimiter + 1)

/-- `payload.substr(payload.find('|', payload.find('|') + 1) + 1)`, as the
callers use it: with at least two separators in the payload. -/
def restAfterSecond (payload : Bytes) : Bytes :=
  match payload.idxOf? pipe with
  | none => payload
  | some first =>
      match findFrom payload pipe (first + 1) with
      | none => payload
      | some second => payload.drop (second + 1)

def serializeClient : ClientMessage → Bytes
  | .hello version => ascii "HELLO|" ++ toDecimal version.toNat
  | .authenticate password => ascii "AUTH|" ++ password
  | .identify nickname publicKeyHex =>
      ascii "IDENTIFY|" ++ nickname ++ ascii "|" ++ publicKeyHex
  | .identityProof signatureHex => ascii "PROOF|" ++ signatureHex
  | .leave => ascii "LEAVE"
  | .disconnect => ascii "DISCONNECT"
  | .listRooms => ascii "ROOMS"
  | .createRoom name => ascii "CREATE|" ++ name
  | .joinRoom name => ascii "JOIN|" ++ name
  | .topicRequest (some topic) => ascii "TOPIC|" ++ topic
  | .topicRequest none => ascii "TOPIC"
  | .chat body => ascii "MSG|" ++ body
  | .whisper target body => ascii "WHISPER|" ++ target ++ ascii "|" ++ body
  | .kickRequest nickname reason => ascii "KICK|" ++ nickname ++ ascii "|" ++ reason

/-- The HELLO branch, the same in both parsers. -/
def parseHello {α : Type} (message : UInt32 → α) (fields : List Bytes) : Result α :=
  if fields.length ≠ 2 then
    failure .wrongFieldCount (ascii "HELLO requires one version field")
  else
    match fromChars 32 (fields.getD 1 []) with
    | some (version, []) =>
        if version.toUInt32 ≠ VERSION then
          failure .unsupportedVersion
            (ascii "Protocol version " ++ toDecimal version ++ ascii " is unsupported")
        else .ok (message version.toUInt32)
    | _ => failure .invalidField (ascii "HELLO version must be an integer")

def parseClientMessage (payload : Bytes) : Result ClientMessage :=
  if payload.isEmpty then
    failure .emptyPayload (ascii "Client message is empty")
  else
    let fields := splitFields payload
    let command := fields.headD []
    if command = ascii "HELLO" then parseHello .hello fields
    else if command = ascii "AUTH" then
      if fields.length < 2 then
        failure .wrongFieldCount (ascii "AUTH requires a password field")
      else
        let password := restAfterCommand payload
        if password.length > 63 || password.any isCntrl then
          failure .invalidField
            (ascii "AUTH password is oversized or contains control characters")
        else .ok (.authenticate password)
    else if command = ascii "IDENTIFY" then
      if fields.length ≠ 3 then
        failure .wrongFieldCount (ascii "IDENTIFY requires nickname and public key fields")
      else if !isValidNickname (fields.getD 1 []) || !isHex (fields.getD 2 []) 64 then
        failure .invalidField
          (ascii "IDENTIFY contains an invalid nickname or public key")
      else .ok (.identify (fields.getD 1 []) (fields.getD 2 []))
    else if command = ascii "PROOF" then
      if fields.length ≠ 2 then
        failure .wrongFieldCount (ascii "PROOF requires one signature field")
      else if !isHex (fields.getD 1 []) 128 then
        failure .invalidField (ascii "PROOF signature is invalid")
      else .ok (.identityProof (fields.getD 1 []))
    else if command = ascii "LEAVE" then
      if fields.length ≠ 1 then
        failure .wrongFieldCount (ascii "LEAVE does not accept fields")
      else .ok .leave
    else if command = ascii "DISCONNECT" ∨ command = ascii "ROOMS" then
      if fields.length ≠ 1 then
        failure .wrongFieldCount (command ++ ascii " does not accept fields")
      else if command = ascii "DISCONNECT" then .ok .disconnect
      else .ok .listRooms
    else if command = ascii "CREATE" ∨ command = ascii "JOIN" then
      if fields.length ≠ 2 then
        failure .wrongFieldCount (command ++ ascii " requires one room name")
      else if !isValidRoomName (fields.getD 1 []) then
        failure .invalidField (command ++ ascii " contains an invalid room name")
      else if command = ascii "CREATE" then .ok (.createRoom (fields.getD 1 []))
      else .ok (.joinRoom (fields.getD 1 []))
    else if command = ascii "TOPIC" then
      if fields.length = 1 then .ok (.topicRequest none)
      else
        let topic := restAfterCommand payload
        if topic.isEmpty || !isValidRoomTopic topic then
          failure .invalidField
            (ascii "TOPIC text is empty, oversized, or contains control characters")
        else .ok (.topicRequest (some topic))
    else if command = ascii "MSG" then
      if fields.length < 2 then
        failure .wrongFieldCount (ascii "MSG requires a body field")
      else
        let body := restAfterCommand payload
        if !isValidText body MAX_CHAT_LENGTH then
          failure .invalidField
            (ascii "MSG body is empty, oversized, or contains control characters")
        else .ok (.chat body)
    else if command = ascii "WHISPER" then
      if fields.length < 3 then
        failure .wrongFieldCount (ascii "WHISPER requires target and body fields")
      else
        let body := restAfterSecond payload
        if !isValidNickname (fields.getD 1 []) || !isValidText body MAX_CHAT_LENGTH then
          failure .invalidField (ascii "WHISPER contains an invalid target or body")
        else .ok (.whisper (fields.getD 1 []) body)
    else if command = ascii "KICK" then
      if fields.length < 2 || !isValidNickname (fields.getD 1 []) then
        failure .invalidField (ascii "KICK requires a valid nickname")
      else
        let reason := if fields.length > 2 then restAfterDelimiter payload 2 else []
        if !reason.isEmpty && !isValidText reason MAX_CHAT_LENGTH then
          failure .invalidField
            (ascii "KICK reason is oversized or contains control characters")
        else .ok (.kickRequest (fields.getD 1 []) reason)
    else failure .unknownMessage (ascii "Unknown client message type: " ++ command)

/-- `decode_message_frame` -/
def decodeMessageFrame {α : Type} (frame : Bytes) (parser : Bytes → Result α) : Result α :=
  match decodeFrame frame with
  | .error e => failure e.error e.detail
  | .ok payload => parser payload

def encodeClientFrame (message : ClientMessage) : Result Bytes :=
  let payload := serializeClient message
  match parseClientMessage payload with
  | .error e => failure e.error e.detail
  | .ok _ => encodeFrame payload

def decodeClientFrame (frame : Bytes) : Result ClientMessage :=
  decodeMessageFrame frame parseClientMessage

end Chatbox.Protocol
