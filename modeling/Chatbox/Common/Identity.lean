import Chatbox.Chat.Environment

/-!
The file with a user's identity key. It is read, looked for in the former place, or made
anew and written over whatever is there; so an existing file is spared only when it can
be read as an identity, or cannot be opened for writing.
-/

namespace Chatbox.Common

open Text Chat

def cryptoSignSecretKeyBytes : Nat := 64

/-- An identity with the text of its public key. -/
structure ClientIdentity where
  publicKey : Bytes
  secretKey : Bytes
  publicKeyHex : Bytes
  hex : isHexOfLen publicKeyHex cryptoSignPublicKeyBytes = true
  decoded : hexToBytes publicKeyHex = publicKey
  secret : secretKey.length = cryptoSignSecretKeyBytes
deriving DecidableEq

/-- What `crypto_sign_keypair` makes. -/
structure KeyPair where
  publicKey : Bytes
  secretKey : Bytes
  public_length : publicKey.length = cryptoSignPublicKeyBytes
  secret_length : secretKey.length = cryptoSignSecretKeyBytes

/-- The files, and whether they can be opened for reading. -/
structure Disk where
  files : Bytes → Option Bytes
  readable : Bytes → Bool

/-- How far `save_identity_file` gets. The number is the bytes that reach the file before
the stream fails. -/
inductive SaveOutcome where
  | createDirectoriesFails
  | openFails
  | writeFails (bytes : Nat)
  | written
deriving DecidableEq, Repr

def hexFromText (text : Bytes) : Bytes := bytesToHex text

/-- The name of the file, and the whole of the former path. -/
def legacyPath (nick : Bytes) : Bytes :=
  ascii "chatbox_identity_" ++ hexFromText nick ++ ascii ".key"

/-- `fs::path::operator/` with a name. -/
def inDirectory (directory name : Bytes) : Bytes :=
  if directory.isEmpty || directory.getLast? == some 47 then directory ++ name
  else directory ++ 47 :: name

def identityFileForNickname (dataDirectory nick : Bytes) : Bytes :=
  inDirectory dataDirectory (legacyPath nick)

/-- The checks of `load_identity_file` on the first two lines. -/
def parseIdentity (content : Bytes) : Option ClientIdentity :=
  let publicHex := (lines content).getD 0 []
  let secretHex := (lines content).getD 1 []
  if h : isHexOfLen publicHex cryptoSignPublicKeyBytes = true ∧
      isHexOfLen secretHex cryptoSignSecretKeyBytes = true then
    some {
      publicKey := hexToBytes publicHex
      secretKey := hexToBytes secretHex
      publicKeyHex := publicHex
      hex := h.1
      decoded := rfl
      secret := length_hexToBytes (beq_iff_eq.mp (Bool.and_eq_true _ _ ▸ h.2).1) }
  else none

def loadIdentityFile (disk : Disk) (path : Bytes) : Option ClientIdentity :=
  if disk.readable path then (disk.files path).bind parseIdentity else none

def identityText (identity : ClientIdentity) : Bytes :=
  identity.publicKeyHex ++ 10 :: (bytesToHex identity.secretKey ++ [10])

/-- The file is opened with `std::ios::trunc`. The modes of the file and its directory are
left out. -/
def saveIdentityFile (outcome : SaveOutcome) (disk : Disk) (path : Bytes)
    (identity : ClientIdentity) : Disk × Bool :=
  match outcome with
  | .createDirectoriesFails | .openFails => (disk, false)
  | .writeFails bytes =>
      ({ disk with
        files := Function.update disk.files path (some ((identityText identity).take bytes)) }, false)
  | .written =>
      ({ disk with files := Function.update disk.files path (some (identityText identity)) }, true)

def generateIdentity (keyPair : KeyPair) : ClientIdentity where
  publicKey := keyPair.publicKey
  secretKey := keyPair.secretKey
  publicKeyHex := bytesToHex keyPair.publicKey
  hex := keyPair.public_length ▸ isHexOfLen_bytesToHex keyPair.publicKey
  decoded := hexToBytes_bytesToHex keyPair.publicKey
  secret := keyPair.secret_length

structure Loaded where
  disk : Disk
  identity : ClientIdentity
  created : Bool
  returned : Bool

def loadOrCreateIdentity (outcome : SaveOutcome) (keyPair : KeyPair) (dataDirectory : Bytes)
    (disk : Disk) (nick : Bytes) : Loaded :=
  let path := identityFileForNickname dataDirectory nick
  match loadIdentityFile disk path with
  | some identity => { disk, identity, created := false, returned := true }
  | none =>
      match (if legacyPath nick ≠ path then loadIdentityFile disk (legacyPath nick) else none) with
      | some identity =>
          let (disk, returned) := saveIdentityFile outcome disk path identity
          { disk, identity, created := false, returned }
      | none =>
          let identity := generateIdentity keyPair
          let (disk, returned) := saveIdentityFile outcome disk path identity
          { disk, identity, created := true, returned }

section Files

theorem newline_not_mem_hex {text : Bytes} {bytes : Nat} (hex : isHexOfLen text bytes = true) :
    10 ∉ text := by
  intro mem
  have digit := List.all_eq_true.mp ((Bool.and_eq_true _ _).mp hex).2 10 mem
  exact absurd digit (by decide)

theorem parseIdentity_eq {content : Bytes} (identity : ClientIdentity)
    (first : (lines content).getD 0 [] = identity.publicKeyHex)
    (second : (lines content).getD 1 [] = bytesToHex identity.secretKey) :
    parseIdentity content = some identity := by
  have secretHex := isHexOfLen_bytesToHex identity.secretKey
  rw [identity.secret] at secretHex
  rw [parseIdentity, dif_pos ⟨first ▸ identity.hex, second ▸ secretHex⟩, Option.some.injEq]
  obtain ⟨publicKey, secretKey, publicKeyHex, hex, decoded, secret⟩ := identity
  simp only [first, second, decoded, hexToBytes_bytesToHex]

/-- A file that has been written in full holds the identity. -/
theorem parseIdentity_identityText (identity : ClientIdentity) :
    parseIdentity (identityText identity) = some identity := by
  have secretHex := isHexOfLen_bytesToHex identity.secretKey
  have text : lines (identityText identity) =
      [identity.publicKeyHex, bytesToHex identity.secretKey] := by
    rw [identityText, lines, split_item (newline_not_mem_hex identity.hex),
      split_item (newline_not_mem_hex secretHex), split]
  refine parseIdentity_eq identity ?_ ?_
  · rw [text]
    rfl
  · rw [text]
    rfl

end Files

section Keeping

variable (outcome : SaveOutcome) (keyPair : KeyPair) (dataDirectory : Bytes) (disk : Disk)
  (nick : Bytes)

/-- The identity that is saved where the file does not load. -/
def otherIdentity : ClientIdentity :=
  let path := identityFileForNickname dataDirectory nick
  (if legacyPath nick ≠ path then loadIdentityFile disk (legacyPath nick) else none).getD
    (generateIdentity keyPair)

/-- A call loads the file, or saves the other identity over it. -/
theorem loadOrCreateIdentity_cases :
    let path := identityFileForNickname dataDirectory nick
    let result := loadOrCreateIdentity outcome keyPair dataDirectory disk nick
    (∃ identity, loadIdentityFile disk path = some identity ∧ result.identity = identity ∧
      result.disk = disk ∧ result.returned = true) ∨
    (loadIdentityFile disk path = none ∧
      result.identity = otherIdentity keyPair dataDirectory disk nick ∧
      (result.disk, result.returned) = saveIdentityFile outcome disk path
        (otherIdentity keyPair dataDirectory disk nick)) := by
  intro path result
  cases loaded : loadIdentityFile disk path with
  | some identity =>
      refine .inl ⟨identity, rfl, ?_⟩
      simp only [result, loadOrCreateIdentity, path] at loaded ⊢
      simp [loaded]
  | none =>
      refine .inr ⟨rfl, ?_⟩
      cases legacy : if legacyPath nick ≠ path then loadIdentityFile disk (legacyPath nick)
          else none with
      | some identity =>
          simp only [result, loadOrCreateIdentity, otherIdentity, path] at loaded legacy ⊢
          simp [loaded, legacy]
      | none =>
          simp only [result, loadOrCreateIdentity, otherIdentity, path] at loaded legacy ⊢
          simp [loaded, legacy]

theorem loadOrCreateIdentity_of_load {path : Bytes} {identity : ClientIdentity}
    (own : path = identityFileForNickname dataDirectory nick)
    (loaded : loadIdentityFile disk path = some identity) :
    loadOrCreateIdentity outcome keyPair dataDirectory disk nick =
      { disk, identity, created := false, returned := true } := by
  subst own
  simp only [loadOrCreateIdentity, loaded]

/-- What a call returns with is in the file, and the next call loads it. -/
theorem loadOrCreateIdentity_again (outcome' : SaveOutcome) (keyPair' : KeyPair)
    (readable : disk.readable (identityFileForNickname dataDirectory nick) = true)
    (returned : (loadOrCreateIdentity outcome keyPair dataDirectory disk nick).returned = true) :
    let result := loadOrCreateIdentity outcome keyPair dataDirectory disk nick
    loadOrCreateIdentity outcome' keyPair' dataDirectory result.disk nick =
      { result with created := false } := by
  intro result
  obtain ⟨identity, loaded, own, same, returns⟩ | ⟨-, chosen, saved⟩ :=
    loadOrCreateIdentity_cases outcome keyPair dataDirectory disk nick
  · have again : loadIdentityFile result.disk (identityFileForNickname dataDirectory nick) =
        some identity := by rw [same, loaded]
    rw [loadOrCreateIdentity_of_load outcome' keyPair' dataDirectory result.disk nick rfl again,
      ← own, ← returns]
  · have wrote : outcome = .written := by
      cases outcome with
      | written => rfl
      | createDirectoriesFails | openFails | writeFails _ =>
          exact absurd returned (by simp [(Prod.mk.inj saved).2])
    subst wrote
    obtain ⟨same, returns⟩ := Prod.mk.inj saved
    have again : loadIdentityFile result.disk (identityFileForNickname dataDirectory nick) =
        some result.identity := by
      rw [loadIdentityFile, same, if_pos readable]
      dsimp only
      rw [Function.update_self, Option.bind_some, parseIdentity_identityText]
      exact congrArg some chosen.symm
    rw [loadOrCreateIdentity_of_load outcome' keyPair' dataDirectory result.disk nick rfl again,
      ← returned]

/-- Saving leaves what was there: the stream fails when it has written just the old bytes, or a
file that could not be read had this identity already. -/
def SaveOutcome.Repeats (outcome : SaveOutcome) (identity : ClientIdentity) (old : Bytes) : Prop :=
  match outcome with
  | .writeFails bytes => (identityText identity).take bytes = old
  | .written => parseIdentity old = some identity
  | .createDirectoriesFails | .openFails => False

/-- An existing file is spared exactly when it can be read as an identity, when it is not
opened for writing, or when what is written happens to be what was there. -/
theorem loadOrCreateIdentity_spares_iff {old : Bytes}
    (present : disk.files (identityFileForNickname dataDirectory nick) = some old) :
    let path := identityFileForNickname dataDirectory nick
    let result := loadOrCreateIdentity outcome keyPair dataDirectory disk nick
    let other := otherIdentity keyPair dataDirectory disk nick
    (result.returned = true ∧ parseIdentity old = some result.identity) ∨
        result.disk.files path = some old ↔
      (disk.readable path = true ∧ (parseIdentity old).isSome = true) ∨
        outcome = .createDirectoriesFails ∨ outcome = .openFails ∨ outcome.Repeats other old := by
  intro path result other
  obtain ⟨identity, loaded, own, same, -⟩ | ⟨unloaded, chosen, saved⟩ :=
    loadOrCreateIdentity_cases outcome keyPair dataDirectory disk nick
  · have kept : result.disk.files path = some old := (congrArg (·.files path) same).trans present
    have readable : disk.readable path = true ∧ (parseIdentity old).isSome = true := by
      simp only [loadIdentityFile, Option.ite_none_right_eq_some, present, Option.bind_some] at loaded
      exact ⟨loaded.1, by simp [loaded.2]⟩
    exact iff_of_true (.inr kept) (.inl readable)
  · have unreadable : ¬ (disk.readable path = true ∧ (parseIdentity old).isSome = true) := by
      rintro ⟨readable, parses⟩
      have silent : parseIdentity old = none := by
        rwa [loadIdentityFile, if_pos readable, present, Option.bind_some] at unloaded
      rw [silent] at parses
      cases parses
    simp only [unreadable, false_or]
    cases outcome with
    | createDirectoriesFails | openFails =>
        obtain ⟨same, -⟩ := Prod.mk.inj saved
        exact iff_of_true (.inr ((congrArg (·.files path) same).trans present)) (by simp)
    | writeFails bytes =>
        obtain ⟨same, failed⟩ := Prod.mk.inj saved
        have content : result.disk.files path = some ((identityText other).take bytes) :=
          (congrArg (·.files path) same).trans (Function.update_self _ _ _)
        simp [content, result, failed, SaveOutcome.Repeats]
    | written =>
        obtain ⟨same, returned⟩ := Prod.mk.inj saved
        have content : result.disk.files path = some (identityText other) :=
          (congrArg (·.files path) same).trans (Function.update_self _ _ _)
        have chosen : result.identity = other := chosen
        rw [content, chosen]
        constructor
        · rintro (⟨-, holds⟩ | unchanged)
          · exact .inr (.inr holds)
          · obtain rfl := Option.some.inj unchanged
            exact .inr (.inr (parseIdentity_identityText other))
        · rintro (none | none | holds)
          · cases none
          · cases none
          · exact .inl ⟨returned, holds⟩

def zeroKeyPair : KeyPair where
  publicKey := List.replicate 32 0
  secretKey := List.replicate 64 0
  public_length := rfl
  secret_length := rfl

/-- The same files everywhere, which can all be read. -/
def diskOf (content : Bytes) : Disk where
  files := fun _ => some content
  readable := fun _ => true

theorem loadOrCreateIdentity_spares_iff_valid :
    let old : Bytes := List.replicate 64 97 ++ 10 :: List.replicate 128 98 ++ [10]
    let result := loadOrCreateIdentity .written zeroKeyPair (ascii ".") (diskOf old) (ascii "ann")
    (result.returned = true ∧ parseIdentity old = some result.identity) ∨
      result.disk.files (identityFileForNickname (ascii ".") (ascii "ann")) = some old := by
  intro old result
  have present : (diskOf old).files (identityFileForNickname (ascii ".") (ascii "ann")) =
      some old := rfl
  have holds : (parseIdentity old).isSome = true := by decide +kernel
  have spares := loadOrCreateIdentity_spares_iff .written zeroKeyPair (ascii ".") (diskOf old)
    (ascii "ann") present
  have readable : (diskOf old).readable (identityFileForNickname (ascii ".") (ascii "ann")) =
      true := rfl
  have sparing := spares.mpr (.inl ⟨readable, holds⟩)
  clear_value old
  exact sparing

/-- The line ends of another system make the file unreadable, and it is written over. -/
theorem loadOrCreateIdentity_replaces : ¬ ∀ outcome keyPair dataDirectory disk nick old,
    disk.files (identityFileForNickname dataDirectory nick) = some old →
      let result := loadOrCreateIdentity outcome keyPair dataDirectory disk nick
      (result.returned = true ∧ parseIdentity old = some result.identity) ∨
        result.disk.files (identityFileForNickname dataDirectory nick) = some old := by
  intro spares
  let old : Bytes := List.replicate 64 97 ++ [13, 10] ++ List.replicate 128 98 ++ [13, 10]
  obtain ⟨-, holds⟩ | kept := spares .written zeroKeyPair (ascii ".") (diskOf old) (ascii "ann") old
    rfl
  · have silent : parseIdentity old = none := by decide +kernel
    rw [silent] at holds
    cases holds
  · have replaced : (loadOrCreateIdentity .written zeroKeyPair (ascii ".") (diskOf old)
        (ascii "ann")).disk.files (identityFileForNickname (ascii ".") (ascii "ann")) ≠ some old := by
      decide +kernel
    exact replaced kept

end Keeping

end Chatbox.Common
