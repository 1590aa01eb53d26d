import Chatbox.Protocol.Message

/-!
The frame layer: a payload is Base64 text on one line. Encoder and decoder are
the two loops of the source over blocks of three bytes and groups of four
characters, with the size limit each of them computes for itself.
-/

namespace Chatbox.Protocol

open Text

def BASE64_CHARS : Bytes :=
  ascii "ABCDEFGHIJKLMNOPQRSTUVWXYZabcdefghijklmnopqrstuvwxyz0123456789+/"

/-- `BASE64_CHARS[n & 0x3f]` -/
def base64Char (n : Nat) : UInt8 := BASE64_CHARS.getD (n &&& 0x3f) 0

def base64Value (ch : UInt8) : Int :=
  if isUpper ch then ch.toNat - 65
  else if isLower ch then ch.toNat - 97 + 26
  else if isDigit ch then ch.toNat - 48 + 52
  else if ch = 43 then 62
  else if ch = 47 then 63
  else -1

/-- `'='` -/
def padding : UInt8 := 61

/-- `'\n'` -/
def newline : UInt8 := 10

/-- `'\r'` -/
def carriageReturn : UInt8 := 13

/-- One turn of the encoder's loop; `second` and `third` are missing when fewer
than two or three bytes remain. -/
def encodeBlock (first : UInt8) (second third : Option UInt8) : Bytes :=
  let block := (first.toNat <<< 16) ||| ((second.elim 0 UInt8.toNat) <<< 8) |||
    (third.elim 0 UInt8.toNat)
  [base64Char (block >>> 18),
    base64Char (block >>> 12),
    if second.isSome then base64Char (block >>> 6) else padding,
    if third.isSome then base64Char block else padding]

def encodeBlocks : Bytes → Bytes
  | [] => []
  | [a] => encodeBlock a none none
  | [a, b] => encodeBlock a (some b) none
  | a :: b :: c :: rest => encodeBlock a (some b) (some c) ++ encodeBlocks rest

def maxPayloadLength : Nat := ((MAX_FRAME_LENGTH - 1) / 4) * 3

def encodeFrame (payload : Bytes) : Result Bytes :=
  if payload.isEmpty then
    failure .emptyPayload (ascii "Cannot encode an empty payload")
  else if payload.length > maxPayloadLength then
    failure .frameTooLarge
      (ascii "Encoded frame exceeds " ++ toDecimal MAX_FRAME_LENGTH ++ ascii " bytes")
  else
    let output := encodeBlocks payload ++ [newline]
    if output.length > MAX_FRAME_LENGTH then
      failure .frameTooLarge
        (ascii "Encoded frame exceeds " ++ toDecimal MAX_FRAME_LENGTH ++ ascii " bytes")
    else .ok output

/-- `static_cast<char>((v0 << 2) | (v1 >> 4))`; the cast keeps the low eight bits. -/
def firstByte (v0 v1 : Nat) : UInt8 := UInt8.ofNat ((v0 <<< 2) ||| (v1 >>> 4))

/-- `static_cast<char>((v1 << 4) | (v2 >> 2))` -/
def secondByte (v1 v2 : Nat) : UInt8 := UInt8.ofNat ((v1 <<< 4) ||| (v2 >>> 2))

/-- `static_cast<char>((v2 << 6) | v3)` -/
def thirdByte (v2 v3 : Nat) : UInt8 := UInt8.ofNat ((v2 <<< 6) ||| v3)

/-- One turn of the decoder's loop. -/
def decodeGroup (c0 c1 c2 c3 : UInt8) (finalGroup : Bool) : Result Bytes :=
  let v0 := base64Value c0
  let v1 := base64Value c1
  let pad2 := c2 == padding
  let pad3 := c3 == padding
  let v2 := if pad2 then 0 else base64Value c2
  let v3 := if pad3 then 0 else base64Value c3
  if v0 < 0 ∨ v1 < 0 ∨ v2 < 0 ∨ v3 < 0 ∨
      (pad2 && !pad3) ∨ ((pad2 || pad3) && !finalGroup) then
    failure .invalidBase64 (ascii "Frame contains invalid Base64 padding or characters")
  else if (pad2 ∧ v1.toNat &&& 0x0f ≠ 0) ∨ (pad3 ∧ !pad2 ∧ v2.toNat &&& 0x03 ≠ 0) then
    failure .invalidBase64 (ascii "Frame uses non-canonical Base64 padding bits")
  else
    .ok (firstByte v0.toNat v1.toNat ::
      if pad2 then []
      else secondByte v1.toNat v2.toNat ::
        if pad3 then [] else [thirdByte v2.toNat v3.toNat])

/-- The decoder's loop over a text whose length is divisible by four. -/
def decodeGroups : Bytes → Result Bytes
  | c0 :: c1 :: c2 :: c3 :: rest => do
      let group ← decodeGroup c0 c1 c2 c3 rest.isEmpty
      let output ← decodeGroups rest
      return group ++ output
  | _ => .ok []

/-- The two `remove_suffix` steps at the head of `decode_frame`. -/
def stripLineEnding (frame : Bytes) : Bytes :=
  let frame := if frame.getLast? = some newline then frame.dropLast else frame
  if frame.getLast? = some carriageReturn then frame.dropLast else frame

def decodeFrame (frame : Bytes) : Result Bytes :=
  let frame := stripLineEnding frame
  if frame.isEmpty then
    failure .emptyFrame (ascii "Frame is empty")
  else if frame.length + 1 > MAX_FRAME_LENGTH then
    failure .frameTooLarge
      (ascii "Frame exceeds " ++ toDecimal MAX_FRAME_LENGTH ++ ascii " bytes")
  else if frame.length % 4 ≠ 0 then
    failure .invalidBase64 (ascii "Base64 length must be divisible by four")
  else do
    let output ← decodeGroups frame
    if output.isEmpty then failure .emptyPayload (ascii "Decoded payload is empty")
    else return output

end Chatbox.Protocol
