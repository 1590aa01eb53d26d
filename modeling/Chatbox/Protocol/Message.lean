import Chatbox.Lib.Text

/-!
The data of the wire protocol: limits, errors, the two message variants and the
validity rules of their fields. `Result` keeps the error and the detail text of
a failed call, since both are shown to the other side.
-/

namespace Chatbox.Protocol

open Text

def VERSION : UInt32 := 3
def MAX_FRAME_LENGTH : Nat := 4096
def MAX_WIRE_LINE_LENGTH : Nat := MAX_FRAME_LENGTH
def MAX_CHAT_LENGTH : Nat := 1000
def HOST_MAX_LEN : Nat := 63
def MAX_ROOM_NAME_LENGTH : Nat := 32
def MAX_ROOM_TOPIC_LENGTH : Nat := 200
def MAX_ROOMS : Nat := 32

abbrev RoomId := UInt64

inductive Error where
  | emptyFrame
  | frameTooLarge
  | invalidBase64
  | emptyPayload
  | unknownMessage
  | wrongFieldCount
  | invalidField
  | unsupportedVersion
deriving DecidableEq, Repr

structure Failure where
  error : Error
  detail : Bytes
deriving DecidableEq, Repr

abbrev Result := Except Failure

def failure {α : Type} (error : Error) (detail : Bytes) : Result α :=
  .error { error, detail }

inductive ClientMessage where
  | hello (version : UInt32)
  | authenticate (password : Bytes)
  | identify (nickname publicKeyHex : Bytes)
  | identityProof (signatureHex : Bytes)
  | leave
  | disconnect
  | listRooms
  | createRoom (name : Bytes)
  | joinRoom (name : Bytes)
  | topicRequest (topic : Option Bytes)
  | chat (body : Bytes)
  | whisper (target body : Bytes)
  | kickRequest (nickname reason : Bytes)
deriving DecidableEq, Repr

structure RoomSummary where
  id : RoomId
  name : Bytes
  userCount : UInt64
deriving DecidableEq, Repr

inductive ServerMessage where
  | hello (version : UInt32)
  | authRequired
  | authAccepted
  | authRejected
  | challenge (challengeHex : Bytes)
  | identityAccepted (fingerprint : Bytes)
  | joinAccepted
  | banned
  | nicknameTaken
  | joinRejected (reason : Bytes)
  | kick (nickname reason : Bytes)
  | userList (roomId : RoomId) (nicknames : List Bytes)
  | roomList (rooms : List RoomSummary)
  | roomJoined (id : RoomId) (name topic : Bytes)
  | roomTopic (roomId : RoomId) (topic : Bytes)
  | roomText (roomId : RoomId) (body : Bytes)
  | text (body : Bytes)
  | serverError (reason : Bytes)
deriving DecidableEq, Repr

/-- `'|'` -/
def pipe : UInt8 := 124

/-- `','` -/
def comma : UInt8 := 44

/-- `';'` -/
def semicolon : UInt8 := 59

def isValidNickname (nickname : Bytes) : Bool :=
  if nickname.isEmpty || nickname.length > 31 then false
  else nickname.all fun ch => !(isCntrl ch || isSpace ch || ch == pipe || ch == comma)

def isValidText (text : Bytes) (maxLength : Nat) : Bool :=
  if text.isEmpty || text.length > maxLength then false
  else text.all fun ch => !(isCntrl ch && ch != 9)

def isHex (text : Bytes) (length : Nat) : Bool :=
  text.length == length && text.all isXDigit

def isValidRoomName (name : Bytes) : Bool :=
  if name.isEmpty || name.length > MAX_ROOM_NAME_LENGTH then false
  else name.all fun ch => isAlnum ch || ch == 45 || ch == 95

def isValidRoomTopic (topic : Bytes) : Bool :=
  if topic.length > MAX_ROOM_TOPIC_LENGTH then false
  else topic.all fun ch => !isCntrl ch

section Validity

/-- The shape the validity rules share: a non-empty bounded string all of whose
bytes pass a test. -/
theorem guarded_all_iff {text : Bytes} {limit : Nat} {p : UInt8 → Bool} :
    (if text.isEmpty || text.length > limit then false else text.all p) = true ↔
      text ≠ [] ∧ text.length ≤ limit ∧ ∀ ch ∈ text, p ch = true := by
  split
  · next h =>
      simp only [Bool.or_eq_true, List.isEmpty_iff, decide_eq_true_eq] at h
      simp only [Bool.false_eq_true, false_iff, not_and]
      intro hne hlen
      rcases h with h | h
      · exact absurd h hne
      · omega
  · next h =>
      simp only [Bool.or_eq_true, List.isEmpty_iff, decide_eq_true_eq, not_or] at h
      have hlen : text.length ≤ limit := by omega
      simp [h.1, hlen]

theorem isValidNickname_iff {nickname : Bytes} :
    isValidNickname nickname = true ↔
      nickname ≠ [] ∧ nickname.length ≤ 31 ∧
        ∀ ch ∈ nickname, isCntrl ch = false ∧ isSpace ch = false ∧ ch ≠ pipe ∧ ch ≠ comma := by
  unfold isValidNickname
  rw [guarded_all_iff]
  simp [and_assoc]

theorem isValidNickname_ne_nil {nickname : Bytes} (h : isValidNickname nickname = true) :
    nickname ≠ [] := (isValidNickname_iff.mp h).1

theorem isValidNickname_length {nickname : Bytes} (h : isValidNickname nickname = true) :
    nickname.length ≤ 31 := (isValidNickname_iff.mp h).2.1

theorem isValidNickname_pipe {nickname : Bytes} (h : isValidNickname nickname = true) :
    pipe ∉ nickname := fun hm => ((isValidNickname_iff.mp h).2.2 pipe hm).2.2.1 rfl

theorem isValidNickname_comma {nickname : Bytes} (h : isValidNickname nickname = true) :
    comma ∉ nickname := fun hm => ((isValidNickname_iff.mp h).2.2 comma hm).2.2.2 rfl

theorem isValidText_iff {text : Bytes} {maxLength : Nat} :
    isValidText text maxLength = true ↔
      text ≠ [] ∧ text.length ≤ maxLength ∧ ∀ ch ∈ text, isCntrl ch = false ∨ ch = 9 := by
  unfold isValidText
  rw [guarded_all_iff]
  simp

theorem isHex_length {text : Bytes} {length : Nat} (h : isHex text length = true) :
    text.length = length := by
  simp only [isHex, Bool.and_eq_true, beq_iff_eq] at h
  exact h.1

theorem isXDigit_ne_pipe {ch : UInt8} (h : isXDigit ch = true) : ch ≠ pipe := by
  rintro rfl
  revert h
  decide

theorem isHex_pipe {text : Bytes} {length : Nat} (h : isHex text length = true) :
    pipe ∉ text := by
  simp only [isHex, Bool.and_eq_true, List.all_eq_true] at h
  exact fun hm => isXDigit_ne_pipe (h.2 pipe hm) rfl

theorem isValidRoomName_iff {name : Bytes} :
    isValidRoomName name = true ↔
      name ≠ [] ∧ name.length ≤ MAX_ROOM_NAME_LENGTH ∧
        ∀ ch ∈ name, isAlnum ch = true ∨ ch = 45 ∨ ch = 95 := by
  unfold isValidRoomName
  rw [guarded_all_iff]
  simp [or_assoc]

/-- None of the three separators can occur in a room name. -/
theorem isValidRoomName_separators {name : Bytes} (h : isValidRoomName name = true) :
    pipe ∉ name ∧ comma ∉ name ∧ semicolon ∉ name := by
  have hall := (isValidRoomName_iff.mp h).2.2
  refine ⟨fun hm => ?_, fun hm => ?_, fun hm => ?_⟩
  · exact absurd (hall _ hm) (by decide)
  · exact absurd (hall _ hm) (by decide)
  · exact absurd (hall _ hm) (by decide)

theorem isValidRoomTopic_length {topic : Bytes} (h : isValidRoomTopic topic = true) :
    topic.length ≤ MAX_ROOM_TOPIC_LENGTH := by
  unfold isValidRoomTopic at h
  split at h
  · cases h
  · omega

end Validity

end Chatbox.Protocol
