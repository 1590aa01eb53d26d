import Chatbox.Network.TrustStore

/-!
The decision on a server's certificate: the pin, the trusted fingerprints with those
of the old store merged in, OpenSSL's own verdict, the question to the user and trust
on first use. The store is locked twice, before the decision and after it; what
others do to the files in between is arbitrary.
-/

namespace Chatbox.Network

open Text

def X509_V_OK : Int := 0

/-- A certificate as OpenSSL answers for it. There is no digest when computing it
fails. -/
structure X509 where
  sha256 : Option Bytes
  checkIp : Bytes → Bool
  checkHost : Bytes → Bool

/-- A connection after the handshake. -/
structure Ssl where
  peerCertificate : Option X509
  verifyResult : Int
  verifyErrorString : Bytes

structure ClientConfig where
  expectedFingerprint : Bytes := []
  trustStorePath : Bytes
  trustOnFirstUse : Bool := true
  confirmCertificate : Option (Bytes → Bytes → Bytes → Bool) := none

/-- What a call of `verify_peer` meets outside of its arguments: how its two writes
go, and what others do to the files between its two locked regions. -/
structure Surroundings where
  defaultTrustStorePath : Bytes
  mergeWrite : WriteOutcome := .replaced
  saveWrite : WriteOutcome := .replaced
  meanwhile : FileSystem → FileSystem := id

inductive Verdict where
  | verified (notice : Bytes)
  | refused (error : Bytes)
  | threw
deriving DecidableEq, Repr

def upperHexDigit (value : Nat) : UInt8 :=
  if value < 10 then UInt8.ofNat (48 + value) else UInt8.ofNat (55 + value)

def certificateMatchesHost (certificate : X509) (host : Bytes) : Bool :=
  if host.isEmpty then false
  else if certificate.checkIp host then true
  else certificate.checkHost host

def Ssl.peerSha256Fingerprint (handle : Ssl) : Bytes :=
  match handle.peerCertificate.bind fun certificate => certificate.sha256 with
  | none => []
  | some digest =>
      digest.flatMap fun c => [upperHexDigit (c.toNat / 16), upperHexDigit (c.toNat % 16)]

def legacyTrustStorePath : Bytes := ascii "trusted_fingerprints.txt"

namespace Surroundings

variable (surroundings : Surroundings) (config : ClientConfig)

def mergesLegacy : Bool :=
  config.trustStorePath == surroundings.defaultTrustStorePath &&
    config.trustStorePath ≠ legacyTrustStorePath

end Surroundings

/-- `for (const auto& entry : legacy) changed |= entries.insert(entry).second` -/
def insertLegacy (entries legacy : TrustEntries) : TrustEntries × Bool :=
  legacy.toList.foldl
    (fun merged entry =>
      (merged.1.insertIfNew entry.1 entry.2, merged.2 || !merged.1.contains entry.1))
    (entries, false)

/-- The first locked region: the entries, or the verdict it returns with. -/
def mergeTrust (surroundings : Surroundings) (config : ClientConfig) (files : FileSystem) :
    FileSystem × Except Verdict TrustEntries :=
  let entries := readTrustStore files config.trustStorePath
  if surroundings.mergesLegacy config then
    let merged := insertLegacy entries (readTrustStore files legacyTrustStorePath)
    if merged.2 then
      match writeTrustStore surroundings.mergeWrite files config.trustStorePath merged.1 with
      | (files, .written) => (files, .ok merged.1)
      | (files, .failed error) => (files, .error (.refused error))
      | (files, .threw) => (files, .error .threw)
    else (files, .ok merged.1)
  else (files, .ok entries)

/-- From the pin to the end of the decision; nothing when the fingerprint is to be
saved. -/
def reviewCertificate (handle : Ssl) (config : ClientConfig) (key fingerprint previous : Bytes)
    (hostMatches : Bool) : Option Verdict :=
  let expected := normalizeFingerprint config.expectedFingerprint
  if !config.expectedFingerprint.isEmpty && (expected.isEmpty || expected ≠ fingerprint) then
    some (.refused (ascii "TLS certificate fingerprint mismatch for " ++ key ++
      ascii "; expected " ++ config.expectedFingerprint ++ ascii " but received " ++ fingerprint))
  else
    let changed := !previous.isEmpty && previous ≠ fingerprint
    if !changed && (previous == fingerprint || !config.expectedFingerprint.isEmpty ||
        (handle.verifyResult == X509_V_OK && hostMatches)) then
      some (.verified (ascii "Verified TLS certificate SHA-256 " ++ fingerprint))
    else
      match config.confirmCertificate with
      | some confirmCertificate =>
          if !confirmCertificate key fingerprint previous then
            some (.refused (ascii "TLS certificate rejected for " ++ key ++ ascii "; received " ++
              fingerprint))
          else none
      | none =>
          if changed then
            some (.refused (ascii "BLOCKED: TLS certificate for " ++ key ++
              ascii " changed. Previously trusted " ++ previous ++ ascii ", received " ++
              fingerprint ++ ascii ". Review with the host before resetting trust."))
          else if !config.trustOnFirstUse || config.trustStorePath.isEmpty then
            some (.refused (ascii "TLS certificate validation failed for " ++ key ++ ascii ": " ++
              handle.verifyErrorString ++ ascii (". Verify the hostname, configure a trusted CA" ++
                " or compare the SHA-256 fingerprint: ") ++ fingerprint))
          else none

/-- The second locked region. -/
def saveTrust (surroundings : Surroundings) (config : ClientConfig)
    (key fingerprint previous : Bytes) (files : FileSystem) : FileSystem × Verdict :=
  let entries := readTrustStore files config.trustStorePath
  let recheck := match entries[key]? with
    | none => true
    | some trusted => !(trusted ≠ previous && trusted ≠ fingerprint)
  if !recheck then
    (files, .refused (ascii "Trust changed during review. Retry the connection."))
  else
    match writeTrustStore surroundings.saveWrite files config.trustStorePath
        (entries.insert key fingerprint) with
    | (files, .written) =>
        (files, .verified (ascii "Saved trusted TLS certificate: " ++ fingerprint))
    | (files, .failed error) => (files, .refused error)
    | (files, .threw) => (files, .threw)

def verifyPeer (surroundings : Surroundings) (handle : Ssl) (host : Bytes) (port : UInt16)
    (config : ClientConfig) (files : FileSystem) : FileSystem × Verdict :=
  match handle.peerCertificate with
  | none => (files, .refused (ascii "TLS server did not present a certificate"))
  | some certificate =>
      let fingerprint := handle.peerSha256Fingerprint
      let hostMatches := certificateMatchesHost certificate host
      if fingerprint.isEmpty then
        (files, .refused (ascii "Could not calculate the TLS certificate SHA-256 fingerprint"))
      else
        let key := addressKey host port
        match mergeTrust surroundings config files with
        | (files, .error verdict) => (files, verdict)
        | (files, .ok entries) =>
            let previous := entries[key]?.getD []
            match reviewCertificate handle config key fingerprint previous hostMatches with
            | some verdict => (files, verdict)
            | none =>
                saveTrust surroundings config key fingerprint previous
                  (surroundings.meanwhile files)

/-- The trusted fingerprints as a connection sees them: those of the store, and those
of the old store for addresses the store says nothing about. -/
def trustedEntries (surroundings : Surroundings) (config : ClientConfig) (files : FileSystem) :
    TrustEntries :=
  let entries := readTrustStore files config.trustStorePath
  if surroundings.mergesLegacy config then
    (insertLegacy entries (readTrustStore files legacyTrustStorePath)).1
  else entries

/-- The user is asked about exactly these fingerprints and accepts. -/
def ClientConfig.Confirms (config : ClientConfig) (key fingerprint previous : Bytes) : Prop :=
  ∃ confirmCertificate, config.confirmCertificate = some confirmCertificate ∧
    confirmCertificate key fingerprint previous = true

section Merge

theorem insertLegacy_entries (entries legacy : TrustEntries) :
    (insertLegacy entries legacy).1 =
      legacy.toList.foldl (fun merged entry => merged.insertIfNew entry.1 entry.2) entries := by
  have each (listed : List (Bytes × Bytes)) (merged : TrustEntries × Bool) :
      (listed.foldl
        (fun merged entry =>
          (merged.1.insertIfNew entry.1 entry.2, merged.2 || !merged.1.contains entry.1))
        merged).1 =
        listed.foldl (fun merged entry => merged.insertIfNew entry.1 entry.2) merged.1 := by
    induction listed generalizing merged with
    | nil => rfl
    | cons entry listed ih => exact ih _
  exact each legacy.toList (entries, false)

theorem insertLegacy_getElem? (entries legacy : TrustEntries) (address : Bytes) :
    (insertLegacy entries legacy).1[address]? = entries[address]?.or legacy[address]? := by
  rw [insertLegacy_entries, OrderedMap.getElem?_insertNew]

theorem insertLegacy_again (entries legacy : TrustEntries) :
    (insertLegacy (insertLegacy entries legacy).1 legacy).1 = (insertLegacy entries legacy).1 := by
  refine Std.ExtTreeMap.ext_getElem? fun address => ?_
  rw [insertLegacy_getElem?, insertLegacy_getElem?]
  cases entries[address]? <;> simp

theorem insertLegacy_readable {entries legacy : TrustEntries} (readable : Readable entries)
    (legacyReadable : Readable legacy) : Readable (insertLegacy entries legacy).1 := by
  intro address fingerprint h
  rw [insertLegacy_getElem?] at h
  cases found : entries[address]? with
  | some trusted =>
      obtain rfl : trusted = fingerprint := by simpa [found] using h
      exact readable address trusted found
  | none => exact legacyReadable address fingerprint (by simpa [found] using h)

theorem trustedEntries_readable (surroundings : Surroundings) (config : ClientConfig)
    (files : FileSystem) : Readable (trustedEntries surroundings config files) := by
  rw [trustedEntries]
  split
  · exact insertLegacy_readable (readTrustStore_readable files config.trustStorePath)
      (readTrustStore_readable files legacyTrustStorePath)
  · exact readTrustStore_readable files config.trustStorePath

end Merge

section Files

theorem path_ne_temporaryPath (path : Bytes) : path ≠ temporaryPath path := by
  intro same
  have length := congrArg List.length same
  simp [temporaryPath, ascii] at length

theorem legacyTrustStorePath_ne_temporaryPath (path : Bytes) :
    legacyTrustStorePath ≠ temporaryPath path := by
  intro same
  have last := congrArg List.getLast? same
  have suffix : (ascii ".tmp").getLast? = some 112 := by decide
  have legacy : legacyTrustStorePath.getLast? = some 116 := by decide
  rw [temporaryPath, List.getLast?_append, suffix, legacy] at last
  cases last

theorem readTrustStore_congr {files files' : FileSystem} {path : Bytes}
    (same : files' path = files path) : readTrustStore files' path = readTrustStore files path := by
  simp only [readTrustStore, same]

/-- The two stores decide what is trusted. -/
theorem trustedEntries_congr {surroundings : Surroundings} {config : ClientConfig}
    {files files' : FileSystem}
    (store : files' config.trustStorePath = files config.trustStorePath)
    (legacy : files' legacyTrustStorePath = files legacyTrustStorePath) :
    trustedEntries surroundings config files' = trustedEntries surroundings config files := by
  simp only [trustedEntries, readTrustStore_congr store, readTrustStore_congr legacy]

/-- A write that does not succeed leaves everything but the temporary file. -/
theorem writeTrustStore_failed {outcome : WriteOutcome} {files files' : FileSystem} {path : Bytes}
    {entries : TrustEntries} {result : WriteResult}
    (h : writeTrustStore outcome files path entries = (files', result)) (failed : result ≠ .written)
    {other : Bytes} (apart : other ≠ temporaryPath path) : files' other = files other := by
  cases outcome with
  | createDirectoriesThrows | openFails =>
      obtain ⟨rfl, -⟩ := Prod.mk.inj h
      rfl
  | writeFails _ | closeFails _ | renameFails _ =>
      obtain ⟨rfl, -⟩ := Prod.mk.inj h
      exact Function.update_of_ne apart _ _
  | replaced =>
      obtain ⟨-, rfl⟩ := Prod.mk.inj h
      exact absurd rfl failed

/-- The store is replaced as a whole or not at all. -/
theorem writeTrustStore_kept {outcome : WriteOutcome} {files files' : FileSystem} {path : Bytes}
    {entries : TrustEntries} {result : WriteResult}
    (h : writeTrustStore outcome files path entries = (files', result))
    (failed : result ≠ .written) : files' path = files path :=
  writeTrustStore_failed h failed (path_ne_temporaryPath path)

theorem writeTrustStore_unwritten (surroundings : Surroundings) (config : ClientConfig)
    {outcome : WriteOutcome} {files files' : FileSystem} {entries : TrustEntries}
    {result : WriteResult}
    (h : writeTrustStore outcome files config.trustStorePath entries = (files', result))
    (failed : result ≠ .written) :
    trustedEntries surroundings config files' = trustedEntries surroundings config files :=
  trustedEntries_congr (writeTrustStore_kept h failed)
    (writeTrustStore_failed h failed (legacyTrustStorePath_ne_temporaryPath _))

theorem writeTrustStore_replaced {outcome : WriteOutcome} {files files' : FileSystem}
    {path : Bytes} {entries : TrustEntries}
    (h : writeTrustStore outcome files path entries = (files', .written)) :
    outcome = .replaced := by
  cases outcome with
  | replaced => rfl
  | createDirectoriesThrows | openFails | writeFails _ | closeFails _ | renameFails _ =>
      cases (Prod.mk.inj h).2

theorem writeTrustStore_written {outcome : WriteOutcome} {files files' : FileSystem}
    {path : Bytes} {entries : TrustEntries}
    (h : writeTrustStore outcome files path entries = (files', .written)) :
    files' path = some (trustText entries) ∧
      ∀ other, other ≠ path → other ≠ temporaryPath path → files' other = files other := by
  obtain rfl := writeTrustStore_replaced h
  obtain ⟨rfl, -⟩ := Prod.mk.inj h
  refine ⟨Function.update_self _ _ _, ?_⟩
  intro other hpath htemporary
  rw [Function.update_of_ne hpath, Function.update_of_ne htemporary]

end Files

section Regions

variable {surroundings : Surroundings} {config : ClientConfig} {files files' : FileSystem}

/-- The ways in which the first region goes: it writes the merged entries, it fails to, or
there is nothing to write. -/
theorem mergeTrust_cases {merged : Except Verdict TrustEntries}
    (h : mergeTrust surroundings config files = (files', merged)) :
    (surroundings.mergesLegacy config = true ∧
      writeTrustStore surroundings.mergeWrite files config.trustStorePath
        (trustedEntries surroundings config files) = (files', .written) ∧
      merged = .ok (trustedEntries surroundings config files)) ∨
    (∃ result verdict, writeTrustStore surroundings.mergeWrite files config.trustStorePath
        (trustedEntries surroundings config files) = (files', result) ∧ result ≠ .written ∧
      merged = .error verdict ∧ ∀ notice, verdict ≠ .verified notice) ∨
    (files' = files ∧ merged = .ok (trustedEntries surroundings config files)) := by
  rw [mergeTrust] at h
  by_cases merges : surroundings.mergesLegacy config = true
  · have trusted : trustedEntries surroundings config files =
        (insertLegacy (readTrustStore files config.trustStorePath)
          (readTrustStore files legacyTrustStorePath)).1 := by
      rw [trustedEntries, if_pos merges]
    simp only [if_pos merges, ← trusted] at h
    split at h
    · split at h
      · next written =>
          obtain ⟨rfl, rfl⟩ := Prod.mk.inj h
          exact .inl ⟨merges, written, rfl⟩
      · next written =>
          obtain ⟨rfl, rfl⟩ := Prod.mk.inj h
          exact .inr (.inl ⟨_, _, written, nofun, rfl, nofun⟩)
      · next written =>
          obtain ⟨rfl, rfl⟩ := Prod.mk.inj h
          exact .inr (.inl ⟨_, _, written, nofun, rfl, nofun⟩)
    · obtain ⟨rfl, rfl⟩ := Prod.mk.inj h
      exact .inr (.inr ⟨rfl, rfl⟩)
  · obtain ⟨rfl, rfl⟩ := Prod.mk.inj ((if_neg merges).symm.trans h)
    exact .inr (.inr ⟨rfl, by rw [trustedEntries, if_neg merges]⟩)

/-- The first region changes no trusted fingerprint, and the entries it goes on with are
the trusted ones. -/
theorem mergeTrust_spec {merged : Except Verdict TrustEntries}
    (h : mergeTrust surroundings config files = (files', merged)) :
    trustedEntries surroundings config files' = trustedEntries surroundings config files ∧
      (∀ entries, merged = .ok entries → entries = trustedEntries surroundings config files) ∧
        ∀ notice, merged ≠ .error (.verified notice) := by
  obtain ⟨merges, written, rfl⟩ | ⟨result, verdict, unwritten, failed, rfl, refused⟩ | ⟨rfl, rfl⟩ :=
    mergeTrust_cases h
  · refine ⟨?_, fun entries ok => (Except.ok.inj ok).symm, nofun⟩
    have path : legacyTrustStorePath ≠ config.trustStorePath := by
      simp only [Surroundings.mergesLegacy, Bool.and_eq_true, decide_eq_true_eq] at merges
      exact fun same => merges.2 same.symm
    have trusted : trustedEntries surroundings config files =
        (insertLegacy (readTrustStore files config.trustStorePath)
          (readTrustStore files legacyTrustStorePath)).1 := by
      rw [trustedEntries, if_pos merges]
    obtain ⟨content, others⟩ := writeTrustStore_written written
    have readable := trustedEntries_readable surroundings config files
    have store := readTrustStore_trustText readable content
    have legacy := readTrustStore_congr
      (others legacyTrustStorePath path (legacyTrustStorePath_ne_temporaryPath _))
    rw [trustedEntries, if_pos merges, store, legacy, trusted, insertLegacy_again]
  · refine ⟨writeTrustStore_unwritten surroundings config unwritten failed, nofun, ?_⟩
    intro notice same
    exact refused notice (Except.error.inj same)
  · exact ⟨rfl, fun entries ok => (Except.ok.inj ok).symm, nofun⟩

/-- The ways in which the second region goes: it writes the entry, it fails to, or
somebody else has written another one. -/
theorem saveTrust_cases {key fingerprint previous : Bytes} {verdict : Verdict}
    (h : saveTrust surroundings config key fingerprint previous files = (files', verdict)) :
    (writeTrustStore surroundings.saveWrite files config.trustStorePath
        ((readTrustStore files config.trustStorePath).insert key fingerprint) = (files', .written) ∧
      ∃ notice, verdict = .verified notice) ∨
    (∃ result, writeTrustStore surroundings.saveWrite files config.trustStorePath
        ((readTrustStore files config.trustStorePath).insert key fingerprint) = (files', result) ∧
      result ≠ .written ∧ ∀ notice, verdict ≠ .verified notice) ∨
    (files' = files ∧ ∀ notice, verdict ≠ .verified notice) := by
  rw [saveTrust] at h
  generalize recheck : (match (readTrustStore files config.trustStorePath)[key]? with
    | none => true
    | some trusted => !(decide (trusted ≠ previous) && decide (trusted ≠ fingerprint))) = ok at h
  cases ok with
  | false =>
      obtain ⟨rfl, rfl⟩ := Prod.mk.inj h
      exact .inr (.inr ⟨rfl, nofun⟩)
  | true =>
      simp only [Bool.not_true, Bool.false_eq_true, if_false] at h
      split at h
      · next written =>
          obtain ⟨rfl, rfl⟩ := Prod.mk.inj h
          exact .inl ⟨written, _, rfl⟩
      · next written =>
          obtain ⟨rfl, rfl⟩ := Prod.mk.inj h
          exact .inr (.inl ⟨_, written, nofun, nofun⟩)
      · next written =>
          obtain ⟨rfl, rfl⟩ := Prod.mk.inj h
          exact .inr (.inl ⟨_, written, nofun, nofun⟩)

/-- Refusing in the second region changes no trusted fingerprint. -/
theorem saveTrust_refused {key fingerprint previous error : Bytes}
    (h : saveTrust surroundings config key fingerprint previous files = (files', .refused error)) :
    trustedEntries surroundings config files' = trustedEntries surroundings config files := by
  obtain ⟨-, notice, verified⟩ | ⟨result, unwritten, failed, -⟩ | ⟨rfl, -⟩ := saveTrust_cases h
  · cases verified
  · exact writeTrustStore_unwritten surroundings config unwritten failed
  · rfl

end Regions

section Decision

/-- What the certificate is accepted for when `previous` is the fingerprint trusted
before, or empty. -/
structure Accepts (handle : Ssl) (config : ClientConfig) (key fingerprint previous : Bytes)
    (hostMatches : Bool) : Prop where
  pin : config.expectedFingerprint ≠ [] →
    normalizeFingerprint config.expectedFingerprint = fingerprint
  replaced : previous ≠ [] → previous ≠ fingerprint → config.Confirms key fingerprint previous
  reason : previous = [] ∨ previous = fingerprint →
    previous = fingerprint ∨ config.expectedFingerprint ≠ [] ∨
      (handle.verifyResult = X509_V_OK ∧ hostMatches = true) ∨
        config.Confirms key fingerprint previous ∨
          (config.trustOnFirstUse = true ∧ config.trustStorePath ≠ [])

theorem reviewCertificate_accepts {handle : Ssl} {config : ClientConfig}
    {key fingerprint previous : Bytes} {hostMatches : Bool}
    (h : ∀ error,
      reviewCertificate handle config key fingerprint previous hostMatches ≠
        some (.refused error)) :
    Accepts handle config key fingerprint previous hostMatches := by
  rw [reviewCertificate] at h
  dsimp only at h
  split at h
  · exact absurd rfl (h _)
  · next pinned =>
      have pin : config.expectedFingerprint ≠ [] →
          normalizeFingerprint config.expectedFingerprint = fingerprint := by
        intro set
        by_contra other
        apply pinned
        simp [set, other]
      split at h
      · next known =>
          simp only [Bool.and_eq_true, Bool.not_eq_true', Bool.and_eq_false_iff,
            List.isEmpty_eq_false_iff, decide_eq_false_iff_not, not_not, Bool.or_eq_true,
            beq_iff_eq] at known
          obtain ⟨same, reason⟩ := known
          refine ⟨pin, ?_, ?_⟩
          · intro set other
            obtain unset | equal := same
            · simp [set] at unset
            · exact absurd equal other
          · intro _
            obtain (trusted | expected) | valid := reason
            · exact .inl trusted
            · exact .inr (.inl expected)
            · exact .inr (.inr (.inl valid))
      · split at h
        · next confirmCertificate asked =>
            split at h
            · exact absurd rfl (h _)
            · next accepted =>
                have confirmed : config.Confirms key fingerprint previous :=
                  ⟨confirmCertificate, asked, by simpa using accepted⟩
                exact ⟨pin, fun _ _ => confirmed, fun _ => .inr (.inr (.inr (.inl confirmed)))⟩
        · split at h
          · exact absurd rfl (h _)
          · next unchanged =>
              split at h
              · exact absurd rfl (h _)
              · next first =>
                  simp only [Bool.or_eq_true, Bool.not_eq_true', List.isEmpty_iff, not_or,
                    Bool.not_eq_false] at first
                  refine ⟨pin, ?_, fun _ => .inr (.inr (.inr (.inr first)))⟩
                  intro set other
                  exact absurd (by simp [set, other]) unchanged

/-- What a connection is accepted for when `trusted` is the entry of its address: it
meets the pin, the user has agreed to this very replacement of another fingerprint, and
a fingerprint that replaces none is known, pinned, valid, confirmed or the first. -/
structure Justified (handle : Ssl) (host : Bytes) (config : ClientConfig) (key : Bytes)
    (trusted : Option Bytes) : Prop where
  pin : config.expectedFingerprint ≠ [] →
    normalizeFingerprint config.expectedFingerprint = handle.peerSha256Fingerprint
  replaced : ∀ previous, trusted = some previous → previous ≠ handle.peerSha256Fingerprint →
    config.Confirms key handle.peerSha256Fingerprint previous
  reason : (∀ previous, trusted = some previous → previous = handle.peerSha256Fingerprint) →
    trusted = some handle.peerSha256Fingerprint ∨
      (config.expectedFingerprint ≠ [] ∧
        normalizeFingerprint config.expectedFingerprint = handle.peerSha256Fingerprint) ∨
      (handle.verifyResult = X509_V_OK ∧ ∃ certificate,
        handle.peerCertificate = some certificate ∧
          certificateMatchesHost certificate host = true) ∨
      config.Confirms key handle.peerSha256Fingerprint (trusted.getD []) ∨
      (config.trustOnFirstUse = true ∧ config.trustStorePath ≠ [])

theorem Accepts.justified {handle : Ssl} {host : Bytes} {config : ClientConfig} {key : Bytes}
    {trusted : Option Bytes} {certificate : X509}
    (accepts : Accepts handle config key handle.peerSha256Fingerprint (trusted.getD [])
      (certificateMatchesHost certificate host))
    (presented : handle.peerCertificate = some certificate)
    (nonempty : handle.peerSha256Fingerprint ≠ [])
    (full : ∀ previous, trusted = some previous → previous ≠ []) :
    Justified handle host config key trusted := by
  obtain ⟨pin, replaced, reason⟩ := accepts
  refine ⟨pin, ?_, ?_⟩
  · intro previous found other
    rw [found] at replaced
    exact replaced (full previous found) other
  · intro kept
    have unreplaced : trusted.getD [] = [] ∨ trusted.getD [] = handle.peerSha256Fingerprint := by
      cases found : trusted with
      | none => exact .inl rfl
      | some previous => exact .inr (kept previous found)
    obtain known | expected | ⟨valid, matching⟩ | confirmed | first := reason unreplaced
    · cases found : trusted with
      | none =>
          rw [found] at known
          exact absurd known.symm nonempty
      | some previous => exact .inl (congrArg some (kept previous found))
    · exact .inr (.inl ⟨expected, pin expected⟩)
    · exact .inr (.inr (.inl ⟨valid, certificate, presented, matching⟩))
    · exact .inr (.inr (.inr (.inl confirmed)))
    · exact .inr (.inr (.inr (.inr first)))

/-- No certificate is accepted against the pin, against a fingerprint trusted before
without the user's consent to exactly this replacement, or for no reason at all. A
refusal changes nothing that is trusted for the address, unless somebody else does. -/
theorem verifyPeer_trust (surroundings : Surroundings) (handle : Ssl) (host : Bytes)
    (port : UInt16) (config : ClientConfig) (files : FileSystem) :
    let key := addressKey host port
    let trusted := (trustedEntries surroundings config files)[key]?
    let result := verifyPeer surroundings handle host port config files
    (∀ notice, result.2 = .verified notice → Justified handle host config key trusted) ∧
      (∀ error, result.2 = .refused error →
        (∀ files, (trustedEntries surroundings config (surroundings.meanwhile files))[key]? =
          (trustedEntries surroundings config files)[key]?) →
        (trustedEntries surroundings config result.1)[key]? = trusted) := by
  intro key trusted result
  have call : verifyPeer surroundings handle host port config files = result := rfl
  clear_value result
  rw [verifyPeer] at call
  cases presented : handle.peerCertificate with
  | none =>
      simp only [presented] at call
      subst call
      exact ⟨nofun, fun _ _ _ => rfl⟩
  | some certificate =>
      simp only [presented] at call
      split at call
      · subst call
        exact ⟨nofun, fun _ _ _ => rfl⟩
      · next computed =>
          have nonempty : handle.peerSha256Fingerprint ≠ [] := by simpa using computed
          have full : ∀ previous, trusted = some previous → previous ≠ [] := by
            intro previous found
            exact (trustedEntries_readable surroundings config files key previous found).2.1
          generalize region : mergeTrust surroundings config files = first at call
          obtain ⟨merged, verdict | entries⟩ := first
          · obtain ⟨same, -, refused⟩ := mergeTrust_spec region
            subst call
            refine ⟨?_, fun _ _ _ => by rw [same]⟩
            intro notice verified
            exact absurd (congrArg Except.error verified) (refused notice)
          · obtain ⟨same, known, -⟩ := mergeTrust_spec region
            obtain rfl := known entries rfl
            dsimp only at call
            split at call
            · next verdict reviewed =>
                subst call
                refine ⟨?_, fun _ _ _ => by rw [same]⟩
                intro notice verified
                obtain rfl : verdict = .verified notice := verified
                have accepts := reviewCertificate_accepts fun error => by
                  rw [reviewed]
                  nofun
                exact accepts.justified presented nonempty full
            · next reviewed =>
                have accepts := reviewCertificate_accepts fun error => by
                  rw [reviewed]
                  nofun
                refine ⟨fun _ _ => accepts.justified presented nonempty full, ?_⟩
                intro error refused others
                have saved := saveTrust_refused (call.trans (Prod.ext rfl refused))
                rw [saved, others, same]

end Decision

end Chatbox.Network
