import Chatbox.Lib.Text
import Mathlib.Data.Fin.Basic

/-!
What a server is given and cannot change: its configuration, the clocks, the
random source and the signature check of the crypto library. Each reading of a
clock or of the random source has its own number, so that nothing is assumed of
how two readings are related.
-/

namespace Chatbox.Chat

open Text

def RATE_LIMIT_MESSAGES : Nat := 20
def RATE_LIMIT_WINDOW_SECONDS : Int := 60
def IDENTITY_CHALLENGE_BYTES : Nat := 32
def cryptoSignPublicKeyBytes : Nat := 32
def cryptoSignBytes : Nat := 64

structure Config where
  password : Bytes := []
  localNickname : Bytes := []
  hasStorage : Bool := false
  historyLimit : Nat := 100
  bansFile : Bytes := []
  identitiesFile : Bytes := ascii "identities.txt"
deriving DecidableEq, Repr

structure Env where
  config : Config
  randomBytes : Nat → Nat → Bytes
  randomBytes_length : ∀ reading bytes, (randomBytes reading bytes).length = bytes
  /-- Nanoseconds of the steady clock. -/
  steadyNow : Nat → Int
  /-- Microseconds of the system clock. -/
  systemNow : Nat → Int
  /-- Hour, minute and second of the local time. -/
  localTime : Nat → Fin 24 × Fin 60 × Fin 61
  /-- Signature, message, public key. -/
  verifyDetached : Bytes → Bytes → Bytes → Bool

def hexDigit (value : Nat) : UInt8 :=
  if value < 10 then UInt8.ofNat (48 + value) else UInt8.ofNat (87 + value)

def bytesToHex (data : Bytes) : Bytes :=
  data.flatMap fun c => [hexDigit (c.toNat / 16), hexDigit (c.toNat % 16)]

def hexValue (c : UInt8) : Nat :=
  if isDigit c then c.toNat - 48
  else if isUpper c then c.toNat - 55
  else c.toNat - 87

/-- `hex_to_bytes` on text of hexadecimal digits of even length. -/
def hexToBytes : Bytes → Bytes
  | high :: low :: rest => UInt8.ofNat (hexValue high * 16 + hexValue low) :: hexToBytes rest
  | _ => []

def isHexOfLen (text : Bytes) (bytes : Nat) : Bool :=
  text.length == bytes * 2 && text.all isXDigit

section Hex

theorem hexValue_hexDigit {value : Nat} (h : value < 16) : hexValue (hexDigit value) = value := by
  have all : ∀ value < 16, hexValue (hexDigit value) = value := by decide
  exact all value h

theorem hexToBytes_bytesToHex (data : Bytes) : hexToBytes (bytesToHex data) = data := by
  induction data with
  | nil => rfl
  | cons c data ih =>
      have small := c.toNat_lt
      have high := @hexValue_hexDigit (c.toNat / 16) (by omega)
      have low := @hexValue_hexDigit (c.toNat % 16) (by omega)
      have whole : c.toNat / 16 * 16 + c.toNat % 16 = c.toNat := by omega
      change hexToBytes (hexDigit (c.toNat / 16) :: hexDigit (c.toNat % 16) :: bytesToHex data) = _
      rw [hexToBytes, ih, high, low, whole, UInt8.ofNat_toNat]

theorem isXDigit_hexDigit {value : Nat} (h : value < 16) : isXDigit (hexDigit value) = true := by
  have all : ∀ value < 16, isXDigit (hexDigit value) = true := by decide
  exact all value h

theorem isHexOfLen_bytesToHex (data : Bytes) : isHexOfLen (bytesToHex data) data.length = true := by
  have digit (c : UInt8) : isXDigit (hexDigit (c.toNat / 16)) = true ∧
      isXDigit (hexDigit (c.toNat % 16)) = true := by
    have := c.toNat_lt
    exact ⟨isXDigit_hexDigit (by omega), isXDigit_hexDigit (by omega)⟩
  induction data with
  | nil => rfl
  | cons c data ih =>
      simp only [isHexOfLen, bytesToHex, Bool.and_eq_true, beq_iff_eq] at ih ⊢
      rw [List.flatMap_cons, List.length_append, ih.1, List.all_append, ih.2]
      refine ⟨?_, ?_⟩
      · simp only [List.length_cons, List.length_nil]
        omega
      · simp [digit c]

theorem length_hexToBytes {text : Bytes} {bytes : Nat} (h : text.length = bytes * 2) :
    (hexToBytes text).length = bytes := by
  induction bytes generalizing text with
  | zero => rw [List.length_eq_zero_iff.mp (by omega : text.length = 0)]; rfl
  | succ bytes ih =>
      match text, h with
      | high :: low :: rest, h =>
          simp only [List.length_cons] at h
          rw [hexToBytes, List.length_cons, ih (by omega)]
      | [_], h => simp only [List.length_cons, List.length_nil] at h; omega
      | [], h => simp only [List.length_nil] at h; omega

end Hex

def twoDigits (n : Nat) : Bytes := [UInt8.ofNat (48 + n / 10), UInt8.ofNat (48 + n % 10)]

namespace Env

variable (env : Env)

/-- `std::max<std::size_t>(1, history_limit)` -/
def historyLimit : Nat := max 1 env.config.historyLimit

def hasPassword : Bool := !env.config.password.isEmpty

def checkPassword (password : Bytes) : Bool := password == env.config.password

def randomHex (reading bytes : Nat) : Bytes := bytesToHex (env.randomBytes reading bytes)

/-- `strftime` with `"%H:%M:%S"` -/
def timestamp (reading : Nat) : Bytes :=
  let (hour, minute, second) := env.localTime reading
  twoDigits hour ++ ascii ":" ++ twoDigits minute ++ ascii ":" ++ twoDigits second

def currentUnixSeconds (reading : Nat) : Int := (env.systemNow reading).tdiv 1000000

def verifyIdentitySignature (publicKeyHex challenge signatureHex : Bytes) : Bool :=
  if !isHexOfLen publicKeyHex cryptoSignPublicKeyBytes ||
      !isHexOfLen signatureHex cryptoSignBytes then false
  else env.verifyDetached (hexToBytes signatureHex) challenge (hexToBytes publicKeyHex)

end Env

def identityFingerprint (publicKeyHex : Bytes) : Bytes :=
  if publicKeyHex.length ≤ 16 then publicKeyHex else publicKeyHex.take 16

end Chatbox.Chat
