import Chatbox.Lib.Run
import Chatbox.Network.Tls

/-!
What a call does to the entries of other addresses, and what becomes of a removal. Each
call reads, changes and writes the whole file; every other entry comes back from it. A
connection on the default path takes the entries of the old store over first, and so
brings back an address that was forgotten there.
-/

namespace Chatbox.Network

open Text

/-- `forget_certificate`, which throws when the result is not `written`. -/
def forgetCertificate (outcome : WriteOutcome) (host : Bytes) (port : UInt16) (path : Bytes)
    (files : FileSystem) : FileSystem × WriteResult :=
  writeTrustStore outcome files path
    ((readTrustStore files path).erase (addressKey host port))

section Reading

/-- Reading the text makes no entry for the address. -/
def Silent (address text : Bytes) : Prop :=
  ((lines text).foldl readEntry ∅)[address]? = none

instance (address text : Bytes) : Decidable (Silent address text) :=
  inferInstanceAs (Decidable (_ = none))

variable {address : Bytes} {entries : TrustEntries}

/-- A line sets the entry of its own address, whatever there was before. -/
theorem readEntry_getElem? (entries : TrustEntries) (line address : Bytes) :
    (readEntry entries line)[address]? = (readEntry ∅ line)[address]?.or entries[address]? := by
  unfold readEntry
  split
  · simp
  · simp only
    split
    · simp only [OrderedMap.getElem?_insert]
      split <;> simp
    · simp

theorem foldl_readEntry_getElem? (text : List Bytes) (entries : TrustEntries) (address : Bytes) :
    (text.foldl readEntry entries)[address]? =
      (text.foldl readEntry ∅)[address]?.or entries[address]? := by
  induction text generalizing entries with
  | nil => simp
  | cons line text ih =>
      rw [List.foldl_cons, List.foldl_cons, ih, ih (readEntry ∅ line), readEntry_getElem? entries,
        Option.or_assoc]

/-- An entry that fits a line is set by it, and no other. -/
theorem foldl_trustLine {entry : Bytes × Bytes} (key : entry.1 ≠ [] ∧ bar ∉ entry.1 ∧ 10 ∉ entry.1)
    (full : entry.2 ≠ []) (normal : normalizeFingerprint entry.2 = entry.2)
    (entries : TrustEntries) (address : Bytes) :
    ((lines (trustLine entry ++ [10])).foldl readEntry entries)[address]? =
      if entry.1 = address then some entry.2 else entries[address]? := by
  have fingerprint := newline_not_mem_normalizeFingerprint entry.2
  rw [normal] at fingerprint
  have line : 10 ∉ trustLine entry := by simp [trustLine, bar, key.2.2, fingerprint]
  rw [lines, split_item line, split, List.foldl_cons, List.foldl_nil,
    readEntry_trustLine entries ⟨key.1, key.2.1⟩ full normal, OrderedMap.getElem?_insert]

theorem foldl_silent {text : Bytes} (silent : Silent address text) (entries : TrustEntries) :
    ((lines text).foldl readEntry entries)[address]? = entries[address]? := by
  rw [foldl_readEntry_getElem?, show ((lines text).foldl readEntry ∅)[address]? = none from silent,
    Option.none_or]

/-- The written entries read back as far as each line does. -/
theorem readTrustStore_getElem? {files : FileSystem} {path : Bytes}
    (content : files path = some (trustText entries))
    (each : ∀ entry ∈ entries.toList, ∀ before : TrustEntries,
      ((lines (trustLine entry ++ [10])).foldl readEntry before)[address]? =
        if entry.1 = address then some entry.2 else before[address]?) :
    (readTrustStore files path)[address]? = entries[address]? := by
  have listed (items : List (Bytes × Bytes)) (before before' : TrustEntries)
      (each : ∀ entry ∈ items, ∀ before : TrustEntries,
        ((lines (trustLine entry ++ [10])).foldl readEntry before)[address]? =
          if entry.1 = address then some entry.2 else before[address]?)
      (same : before[address]? = before'[address]?) :
      ((lines (items.flatMap fun entry => trustLine entry ++ [10])).foldl readEntry
        before)[address]? =
          (items.foldl (fun entries entry => entries.insert entry.1 entry.2) before')[address]? := by
    induction items generalizing before before' with
    | nil => exact same
    | cons entry items ih =>
        rw [List.flatMap_cons, List.append_assoc, List.singleton_append, lines, split_append_end,
          List.foldl_append, List.foldl_cons]
        refine ih _ _ (fun other mem => each other (List.mem_cons_of_mem _ mem)) ?_
        rw [each entry List.mem_cons_self, OrderedMap.getElem?_insert, same]
  have all := listed entries.toList ∅ ∅ each rfl
  rw [OrderedMap.ofList_toList] at all
  rw [← all]
  simp only [readTrustStore, content, trustText]

/-- One more line, silent of the address, changes nothing for it. -/
theorem readTrustStore_insert {files : FileSystem} {path key fingerprint : Bytes}
    (readable : Readable entries)
    (content : files path = some (trustText (entries.insert key fingerprint)))
    (other : key ≠ address) (silent : Silent address (trustLine (key, fingerprint) ++ [10])) :
    (readTrustStore files path)[address]? = entries[address]? := by
  rw [readTrustStore_getElem? content, OrderedMap.getElem?_insert, if_neg other]
  intro entry mem before
  have found := Std.ExtTreeMap.mem_toList_iff_getElem?_eq_some.mp mem
  rw [OrderedMap.getElem?_insert] at found
  split at found
  · next same =>
      obtain rfl : (key, fingerprint) = entry := Prod.ext same (Option.some.inj found)
      rw [foldl_silent silent, if_neg other]
  · obtain ⟨fits, full, normal⟩ := readable entry.1 entry.2 found
    exact foldl_trustLine fits full normal before address

/-- The line of an address without bars and line ends is silent of every other. -/
theorem silent_trustLine {key fingerprint : Bytes} (plain : bar ∉ key ∧ 10 ∉ key)
    (hex : 10 ∉ fingerprint) (other : key ≠ address) :
    Silent address (trustLine (key, fingerprint) ++ [10]) := by
  have line : 10 ∉ trustLine (key, fingerprint) := by simp [trustLine, bar, plain.2, hex]
  have separator : (trustLine (key, fingerprint)).idxOf? bar = some key.length :=
    idxOf?_append_cons plain.1 fingerprint
  have before : (trustLine (key, fingerprint)).take key.length = key := by simp [trustLine]
  rw [Silent, lines, split_item line, split, List.foldl_cons, List.foldl_nil]
  simp only [readEntry, separator, before]
  split
  · rw [OrderedMap.getElem?_insert, if_neg other]
    simp
  · simp

theorem newline_not_mem_peerSha256Fingerprint (handle : Ssl) :
    10 ∉ handle.peerSha256Fingerprint := by
  have digit : ∀ value < 16, upperHexDigit value ≠ 10 := by decide
  unfold Ssl.peerSha256Fingerprint
  split
  · exact List.not_mem_nil
  · intro mem
    obtain ⟨c, -, hc⟩ := List.mem_flatMap.mp mem
    have small := c.toNat_lt
    simp only [List.mem_cons, List.not_mem_nil, or_false] at hc
    obtain high | low := hc
    · exact digit _ (by omega) high.symm
    · exact digit _ (by omega) low.symm

end Reading

section Writing

variable {surroundings : Surroundings} {config : ClientConfig} {files files' : FileSystem}
  {path : Bytes}

/-- A removal takes out the one entry, or leaves the file as it is. -/
theorem forgetCertificate_spec {outcome : WriteOutcome} {host : Bytes} {port : UInt16}
    {result : WriteResult}
    (h : forgetCertificate outcome host port path files = (files', result)) :
    (result = .written ∧
      readTrustStore files' path = (readTrustStore files path).erase (addressKey host port)) ∨
    (result ≠ .written ∧ files' path = files path) := by
  have readable : Readable ((readTrustStore files path).erase (addressKey host port)) := by
    intro address fingerprint found
    rw [Std.ExtTreeMap.getElem?_erase] at found
    split at found
    · cases found
    · exact readTrustStore_readable files path address fingerprint found
  by_cases written : result = .written
  · subst written
    exact .inl ⟨rfl, readTrustStore_trustText readable (writeTrustStore_written h).1⟩
  · exact .inr ⟨written, writeTrustStore_kept h written⟩

/-- What the first region leaves in the store. -/
theorem mergeTrust_store {merged : Except Verdict TrustEntries}
    (h : mergeTrust surroundings config files = (files', merged)) :
    files' config.trustStorePath = files config.trustStorePath ∨
      (surroundings.mergesLegacy config = true ∧ surroundings.mergeWrite = .replaced ∧
        readTrustStore files' config.trustStorePath =
          (insertLegacy (readTrustStore files config.trustStorePath)
            (readTrustStore files legacyTrustStorePath)).1 ∧
        ∃ entries, merged = .ok entries) := by
  obtain ⟨merges, written, rfl⟩ | ⟨result, verdict, unwritten, failed, -⟩ | ⟨rfl, -⟩ :=
    mergeTrust_cases h
  · have readable := trustedEntries_readable surroundings config files
    have store := readTrustStore_trustText readable (writeTrustStore_written written).1
    rw [trustedEntries, if_pos merges] at store
    exact .inr ⟨merges, writeTrustStore_replaced written, store, _, rfl⟩
  · exact .inl (writeTrustStore_kept unwritten failed)
  · exact .inl rfl

/-- What the second region leaves in the store. -/
theorem saveTrust_store {key fingerprint previous : Bytes} {verdict : Verdict}
    (h : saveTrust surroundings config key fingerprint previous files = (files', verdict)) :
    (files' config.trustStorePath = files config.trustStorePath ∧
      ∀ notice, verdict ≠ .verified notice) ∨
    (files' config.trustStorePath = some (trustText
      ((readTrustStore files config.trustStorePath).insert key fingerprint)) ∧
      surroundings.saveWrite = .replaced ∧ ∃ notice, verdict = .verified notice) := by
  obtain ⟨written, verified⟩ | ⟨result, unwritten, failed, refused⟩ | ⟨rfl, refused⟩ :=
    saveTrust_cases h
  · exact .inr ⟨(writeTrustStore_written written).1, writeTrustStore_replaced written, verified⟩
  · exact .inl ⟨writeTrustStore_kept unwritten failed, refused⟩
  · exact .inl ⟨rfl, refused⟩

/-- A connection without a certificate, or without a fingerprint of it, ends at once. -/
def Ssl.presents (handle : Ssl) : Bool :=
  handle.peerCertificate.isSome && !handle.peerSha256Fingerprint.isEmpty

/-- The certificate is to be saved: nobody knows it, it meets the pin, and the user or
trust on first use accepts it. -/
def decidesToSave (surroundings : Surroundings) (handle : Ssl) (host : Bytes) (port : UInt16)
    (config : ClientConfig) (files : FileSystem) : Bool :=
  handle.peerCertificate.any fun certificate =>
    (reviewCertificate handle config (addressKey host port) handle.peerSha256Fingerprint
      ((trustedEntries surroundings config files)[addressKey host port]?.getD [])
      (certificateMatchesHost certificate host)).isNone

/-- A call ends before the first region, after it, or with the second. -/
theorem verifyPeer_regions (surroundings : Surroundings) (handle : Ssl) (host : Bytes)
    (port : UInt16) (config : ClientConfig) (files : FileSystem) :
    (verifyPeer surroundings handle host port config files).1 = files ∨
      (handle.presents = true ∧ (verifyPeer surroundings handle host port config files).1 =
        (mergeTrust surroundings config files).1) ∨
      (handle.presents = true ∧
        decidesToSave surroundings handle host port config files = true ∧
        ∃ previous, verifyPeer surroundings handle host port config files =
          saveTrust surroundings config (addressKey host port) handle.peerSha256Fingerprint previous
            (surroundings.meanwhile (mergeTrust surroundings config files).1)) := by
  generalize call : verifyPeer surroundings handle host port config files = result
  rw [verifyPeer] at call
  cases presented : handle.peerCertificate with
  | none =>
      simp only [presented] at call
      exact .inl (call ▸ rfl)
  | some certificate =>
      simp only [presented] at call
      split at call
      · exact .inl (call ▸ rfl)
      · next computed =>
          have presents : handle.presents = true := by
            simp [Ssl.presents, presented, computed]
          have known := @mergeTrust_spec surroundings config files
          simp only [decidesToSave, presented]
          generalize region : mergeTrust surroundings config files = first at call known ⊢
          obtain ⟨merged, verdict | entries⟩ := first
          · exact .inr (.inl ⟨presents, call ▸ rfl⟩)
          · obtain rfl := (known rfl).2.1 entries rfl
            dsimp only at call
            split at call
            · exact .inr (.inl ⟨presents, call ▸ rfl⟩)
            · next reviewed =>
                exact .inr (.inr ⟨presents, by simp [reviewed], _, call.symm⟩)

end Writing

section Frame

variable {surroundings : Surroundings} {config : ClientConfig} {files : FileSystem}
  {address : Bytes}

theorem mergeTrust_getElem? (surroundings : Surroundings) (config : ClientConfig)
    (files : FileSystem) (address : Bytes) :
    (readTrustStore (mergeTrust surroundings config files).1 config.trustStorePath)[address]? =
        (readTrustStore files config.trustStorePath)[address]? ∨
      (surroundings.mergesLegacy config = true ∧ surroundings.mergeWrite = .replaced ∧
        (readTrustStore files config.trustStorePath)[address]? = none ∧
        (readTrustStore (mergeTrust surroundings config files).1 config.trustStorePath)[address]? =
          (readTrustStore files legacyTrustStorePath)[address]?) := by
  generalize region : mergeTrust surroundings config files = result
  obtain ⟨files', merged⟩ := result
  obtain same | ⟨merges, replaced, store, -⟩ := mergeTrust_store region
  · exact .inl (by rw [readTrustStore_congr same])
  · rw [store, insertLegacy_getElem?]
    cases before : (readTrustStore files config.trustStorePath)[address]? with
    | none => exact .inr ⟨merges, replaced, rfl, by simp⟩
    | some trusted => exact .inl (by simp)

theorem saveTrust_getElem? {key fingerprint previous : Bytes} (other : key ≠ address)
    (silent : Silent address (trustLine (key, fingerprint) ++ [10])) :
    (readTrustStore (saveTrust surroundings config key fingerprint previous files).1
        config.trustStorePath)[address]? =
      (readTrustStore files config.trustStorePath)[address]? := by
  generalize region : saveTrust surroundings config key fingerprint previous files = result
  obtain ⟨files', verdict⟩ := result
  obtain ⟨same, -⟩ | ⟨content, -⟩ := saveTrust_store region
  · rw [readTrustStore_congr same]
  · exact readTrustStore_insert (readTrustStore_readable files config.trustStorePath) content other
      silent

/-- A call for one address leaves what is trusted for every other as it is, but for
what the old store knows of an address that the store does not; and the file is left
alone by a write that fails. -/
theorem trustStore_frame (files : FileSystem) (host : Bytes) (port : UInt16)
    (plain : bar ∉ addressKey host port ∧ 10 ∉ addressKey host port) :
    (∀ outcome path address, addressKey host port ≠ address →
      (readTrustStore (forgetCertificate outcome host port path files).1 path)[address]? =
        (readTrustStore files path)[address]?) ∧
    (∀ surroundings handle config address, addressKey host port ≠ address →
      (∀ files, (readTrustStore (surroundings.meanwhile files) config.trustStorePath)[address]? =
        (readTrustStore files config.trustStorePath)[address]?) →
      let before := (readTrustStore files config.trustStorePath)[address]?
      let after := (readTrustStore (verifyPeer surroundings handle host port config files).1
        config.trustStorePath)[address]?
      after = before ∨ (surroundings.mergesLegacy config = true ∧ before = none ∧
        after = (readTrustStore files legacyTrustStorePath)[address]?)) ∧
    (∀ outcome path, (forgetCertificate outcome host port path files).2 ≠ .written →
      (forgetCertificate outcome host port path files).1 path = files path) ∧
    (∀ surroundings config, (∀ entries, (mergeTrust surroundings config files).2 ≠ .ok entries) →
      (mergeTrust surroundings config files).1 config.trustStorePath =
        files config.trustStorePath) ∧
    (∀ surroundings config fingerprint previous, (∀ notice,
        (saveTrust surroundings config (addressKey host port) fingerprint previous files).2 ≠
          .verified notice) →
      (saveTrust surroundings config (addressKey host port) fingerprint previous files).1
          config.trustStorePath = files config.trustStorePath) := by
  refine ⟨?_, ?_, ?_, ?_, ?_⟩
  · intro outcome path address other
    obtain ⟨-, store⟩ | ⟨-, same⟩ := forgetCertificate_spec
      (Prod.mk.eta (p := forgetCertificate outcome host port path files)).symm
    · rw [store, Std.ExtTreeMap.getElem?_erase, if_neg (by simpa using other)]
    · rw [readTrustStore_congr same]
  · intro surroundings handle config address other others before after
    have merged := (mergeTrust_getElem? surroundings config files address).imp_right
      (And.imp_right And.right)
    obtain same | ⟨-, same⟩ | ⟨-, -, previous, saved⟩ :=
      verifyPeer_regions surroundings handle host port config files
    · exact .inl (by simp only [after, same, before])
    · simp only [after, same]
      exact merged
    · have silent := silent_trustLine plain (newline_not_mem_peerSha256Fingerprint handle) other
      simp only [after, saved, saveTrust_getElem? other silent, others]
      exact merged
  · intro outcome path failed
    obtain ⟨written, -⟩ | ⟨-, same⟩ := forgetCertificate_spec
      (Prod.mk.eta (p := forgetCertificate outcome host port path files)).symm
    · exact absurd written failed
    · exact same
  · intro surroundings config failed
    obtain same | ⟨-, -, -, entries, merged⟩ := mergeTrust_store
      (Prod.mk.eta (p := mergeTrust surroundings config files)).symm
    · exact same
    · exact absurd merged (failed entries)
  · intro surroundings config fingerprint previous failed
    obtain ⟨same, -⟩ | ⟨-, -, notice, verified⟩ := saveTrust_store
      (Prod.mk.eta (p := saveTrust surroundings config (addressKey host port) fingerprint
        previous files)).symm
    · exact same
    · exact absurd verified (failed notice)

/-- A store with a line that is no entry and two spellings of fingerprints, and an old
store that knows one address more. -/
def storedFiles : FileSystem := fun path =>
  if path = ascii "trusted" then
    some (ascii "# trusted servers\nlocalhost:7777|" ++ List.replicate 64 65 ++
      ascii "\nexample.org:7777|" ++ (List.replicate 32 (ascii "bb:")).flatten ++ [10])
  else if path = legacyTrustStorePath then
    some (ascii "old.example:7777|" ++ List.replicate 64 67)
  else none

/-- A certificate that OpenSSL does not vouch for. -/
def selfSigned (byte : UInt8) : Ssl where
  peerCertificate := some
    { sha256 := some (List.replicate 32 byte)
      checkIp := fun _ => false
      checkHost := fun _ => false }
  verifyResult := 18
  verifyErrorString := ascii "self-signed certificate"

/-- A removal and a first connection leave the entry of another address, the connection takes
one over from the old store, and a removal that cannot replace the file leaves it. -/
theorem trustStore_frame_stored :
    let path := ascii "trusted"
    let connected := (verifyPeer { defaultTrustStorePath := path } (selfSigned 0xDD)
      (ascii "localhost") 7778 { trustStorePath := path } storedFiles).1
    (readTrustStore (forgetCertificate .replaced (ascii "localhost") 7778 path storedFiles).1
        path)[ascii "example.org:7777"]? = some (List.replicate 64 66) ∧
      (readTrustStore connected path)[ascii "example.org:7777"]? =
        some (List.replicate 64 66) ∧
      (readTrustStore connected path)[ascii "old.example:7777"]? =
        some (List.replicate 64 67) ∧
      (forgetCertificate (.renameFails (ascii "Access is denied")) (ascii "localhost") 7778 path
        storedFiles).1 path = storedFiles path := by
  intro path connected
  have plain : bar ∉ addressKey (ascii "localhost") 7778 ∧
      10 ∉ addressKey (ascii "localhost") 7778 := by decide +kernel
  obtain ⟨removal, connection, failure, -⟩ :=
    trustStore_frame storedFiles (ascii "localhost") 7778 plain
  have others := connection { defaultTrustStorePath := path } (selfSigned 0xDD)
    { trustStorePath := path }
  refine ⟨?_, ?_, ?_, failure (.renameFails (ascii "Access is denied")) path (by decide)⟩
  · rw [removal .replaced path _ (by decide +kernel)]
    decide +kernel
  · obtain kept | ⟨-, absent, -⟩ := others (ascii "example.org:7777") (by decide +kernel)
      fun _ => rfl
    · exact kept.trans (by decide +kernel)
    · exact absurd absent (by decide +kernel)
  · obtain kept | ⟨-, -, taken⟩ := others (ascii "old.example:7777") (by decide +kernel)
      fun _ => rfl
    · exact absurd kept (by decide +kernel)
    · exact taken.trans (by decide +kernel)

end Frame

section Removal

/-- A call on a trust store. -/
inductive TrustCall where
  | verify (mergeWrite saveWrite : WriteOutcome) (handle : Ssl) (host : Bytes) (port : UInt16)
      (config : ClientConfig)
  | forget (outcome : WriteOutcome) (host : Bytes) (port : UInt16)

/-- The calls come one after the other. -/
def surroundingsOf (defaultPath : Bytes) (mergeWrite saveWrite : WriteOutcome) : Surroundings where
  defaultTrustStorePath := defaultPath
  mergeWrite
  saveWrite

/-- One call on the store at the path. -/
def callStore (defaultPath path : Bytes) (files : FileSystem) : TrustCall → Option FileSystem
  | .verify mergeWrite saveWrite handle host port config =>
      if config.trustStorePath = path then
        some (verifyPeer (surroundingsOf defaultPath mergeWrite saveWrite) handle host port config
          files).1
      else none
  | .forget outcome host port => some (forgetCertificate outcome host port path files).1

def Verdict.accepts : Verdict → Bool
  | .verified _ => true
  | .refused _ | .threw => false

/-- The call accepts no certificate for the address, it takes no entry for the address over
from the old store, and what it saves for another address makes no entry for this one. -/
def Sparing (defaultPath address : Bytes) (files : FileSystem) : TrustCall → Prop
  | .verify mergeWrite saveWrite handle host port config =>
      let surroundings := surroundingsOf defaultPath mergeWrite saveWrite
      (handle.presents = true → surroundings.mergesLegacy config = true → mergeWrite = .replaced →
        (readTrustStore files legacyTrustStorePath)[address]? = none) ∧
      (addressKey host port = address →
        (verifyPeer surroundings handle host port config files).2.accepts = false) ∧
      (addressKey host port ≠ address → handle.presents = true →
        decidesToSave surroundings handle host port config files = true → saveWrite = .replaced →
        Silent address (trustLine (addressKey host port, handle.peerSha256Fingerprint) ++ [10]))
  | .forget _ _ _ => True

instance (defaultPath address : Bytes) (files : FileSystem) (call : TrustCall) :
    Decidable (Sparing defaultPath address files call) :=
  match call with
  | .verify .. => inferInstanceAs (Decidable (_ ∧ _ ∧ _))
  | .forget .. => isTrue trivial

variable {defaultPath path address : Bytes} {files files' : FileSystem}

theorem callStore_unknown {call : TrustCall}
    (unknown : (readTrustStore files path)[address]? = none)
    (sparing : Sparing defaultPath address files call)
    (h : callStore defaultPath path files call = some files') :
    (readTrustStore files' path)[address]? = none := by
  cases call with
  | forget outcome host port =>
      obtain rfl := Option.some.inj h
      obtain ⟨-, store⟩ | ⟨-, same⟩ := forgetCertificate_spec
        (Prod.mk.eta (p := forgetCertificate outcome host port path files)).symm
      · rw [store, Std.ExtTreeMap.getElem?_erase, unknown, ite_self]
      · rwa [readTrustStore_congr same]
  | verify mergeWrite saveWrite handle host port config =>
      simp only [callStore, Option.ite_none_right_eq_some] at h
      obtain ⟨rfl, h⟩ := h
      obtain rfl := Option.some.inj h
      obtain ⟨legacy, refused, silent⟩ := sparing
      have merged (presents : handle.presents = true) :
          (readTrustStore (mergeTrust (surroundingsOf defaultPath mergeWrite saveWrite)
            config files).1 config.trustStorePath)[address]? = none := by
        obtain same | ⟨merges, replaced, -, same⟩ := mergeTrust_getElem?
          (surroundingsOf defaultPath mergeWrite saveWrite) config files address
        · exact same.trans unknown
        · exact same.trans (legacy presents merges replaced)
      obtain same | ⟨presents, same⟩ | ⟨presents, decides, previous, saved⟩ := verifyPeer_regions
        (surroundingsOf defaultPath mergeWrite saveWrite) handle host port config files
      · rw [same]
        exact unknown
      · rw [same]
        exact merged presents
      · obtain ⟨same, -⟩ | ⟨content, replaced, notice, verified⟩ := saveTrust_store
          (saved.symm.trans (Prod.mk.eta (p := verifyPeer _ handle host port config files)).symm)
        · rw [readTrustStore_congr same]
          exact merged presents
        · by_cases own : addressKey host port = address
          · have refused := refused own
            rw [verified] at refused
            cases refused
          · rw [readTrustStore_insert (readTrustStore_readable _ config.trustStorePath) content own
              (silent own presents decides replaced)]
            exact merged presents

/-- After a removal no call knows the address until a certificate is accepted for it
again, unless the old store has it: the next call finds no fingerprint exactly when it
does not take over the old store or there is none for the address in it. -/
theorem run_forgotten {outcome : WriteOutcome} {host : Bytes} {port : UInt16}
    {forgotten after : FileSystem} {calls : List TrustCall}
    (forgot : forgetCertificate outcome host port path files = (forgotten, .written))
    (run : Run.run (callStore defaultPath path) forgotten calls = some after)
    (sparing : Run.Always (callStore defaultPath path)
      (Sparing defaultPath (addressKey host port)) forgotten calls)
    {surroundings : Surroundings} {config : ClientConfig} {merged : FileSystem}
    {entries : TrustEntries} (onPath : config.trustStorePath = path)
    (found : mergeTrust surroundings config after = (merged, .ok entries)) :
    entries[addressKey host port]?.getD [] = [] ↔
      (surroundings.mergesLegacy config = true →
        (readTrustStore after legacyTrustStorePath)[addressKey host port]? = none) := by
  have removed : (readTrustStore forgotten path)[addressKey host port]? = none := by
    obtain ⟨-, store⟩ | ⟨failed, -⟩ := forgetCertificate_spec forgot
    · rw [store, Std.ExtTreeMap.getElem?_erase_self]
    · exact absurd rfl failed
  have unknown : (readTrustStore after path)[addressKey host port]? = none :=
    Run.run_invariant_of (fun _ _ _ unknown sparing stepped =>
      callStore_unknown unknown sparing stepped) sparing run removed
  obtain rfl := (mergeTrust_spec found).2.1 entries rfl
  subst onPath
  have full (fingerprint : Bytes) (trusted : (trustedEntries surroundings config after)[addressKey
      host port]? = some fingerprint) : fingerprint ≠ [] :=
    (trustedEntries_readable surroundings config after _ fingerprint trusted).2.1
  have empty : (trustedEntries surroundings config after)[addressKey host port]?.getD [] = [] ↔
      (trustedEntries surroundings config after)[addressKey host port]? = none := by
    cases trusted : (trustedEntries surroundings config after)[addressKey host port]? with
    | none => simp
    | some fingerprint => simpa using full fingerprint trusted
  rw [empty, trustedEntries]
  split
  · next merges => simp [merges, insertLegacy_getElem?, unknown]
  · next merges => simp [merges, unknown]

/-- Another server is met for the first time, the forgotten one is refused, and a removal
cannot open the file. -/
def laterCalls : List TrustCall :=
  [.verify .replaced .replaced (selfSigned 0xDD) (ascii "new.example") 7777
      { trustStorePath := ascii "trusted" },
    .verify .replaced .replaced (selfSigned 0xAA) (ascii "localhost") 7777
      { trustStorePath := ascii "trusted", trustOnFirstUse := false },
    .forget .openFails (ascii "example.org") 7777]

def laterFiles : FileSystem :=
  (Run.run (callStore (ascii "trusted") (ascii "trusted"))
    (forgetCertificate .replaced (ascii "localhost") 7777 (ascii "trusted") storedFiles).1
    laterCalls).getD storedFiles

theorem run_forgotten_later :
    let key := addressKey (ascii "localhost") 7777
    (readTrustStore storedFiles (ascii "trusted"))[key]? = some (List.replicate 64 65) ∧
    ∃ merged entries, mergeTrust { defaultTrustStorePath := ascii "trusted" }
        { trustStorePath := ascii "trusted" } laterFiles = (merged, .ok entries) ∧
      entries.toList.map Prod.fst =
        [ascii "example.org:7777", ascii "new.example:7777", ascii "old.example:7777"] ∧
      entries[key]?.getD [] = [] := by
  intro key
  generalize forgot : forgetCertificate .replaced (ascii "localhost") 7777 (ascii "trusted")
    storedFiles = result
  obtain ⟨forgotten, outcome⟩ := result
  obtain rfl : .written = outcome := congrArg Prod.snd forgot
  have known : (readTrustStore storedFiles (ascii "trusted"))[key]? =
      some (List.replicate 64 65) := by decide +kernel
  have run : Run.run (callStore (ascii "trusted") (ascii "trusted")) forgotten laterCalls =
      some laterFiles := by
    rw [laterFiles, forgot]
    rfl
  have sparing : Run.Always (callStore (ascii "trusted") (ascii "trusted"))
      (Sparing (ascii "trusted") key) forgotten laterCalls := by
    rw [show forgotten = _ from (congrArg Prod.fst forgot).symm]
    decide +kernel
  have through : (mergeTrust { defaultTrustStorePath := ascii "trusted" }
      { trustStorePath := ascii "trusted" } laterFiles).2.toOption.isSome = true := by
    decide +kernel
  generalize region : mergeTrust { defaultTrustStorePath := ascii "trusted" }
    { trustStorePath := ascii "trusted" } laterFiles = first at through ⊢
  obtain ⟨merged, verdict | entries⟩ := first
  · cases through
  · refine ⟨known, merged, entries, rfl, ?_, ?_⟩
    · rw [(mergeTrust_spec region).2.1 entries rfl]
      decide +kernel
    · exact (run_forgotten forgot run sparing rfl region).mpr (by decide +kernel)

/-- The removal is written, and the next connection takes the entry from the old store. -/
theorem run_forgotten_returns : ¬ ∀ (path host : Bytes) (port : UInt16) (outcome : WriteOutcome)
    (files forgotten : FileSystem),
    forgetCertificate outcome host port path files = (forgotten, .written) →
    ∀ (surroundings : Surroundings) (config : ClientConfig) (merged : FileSystem)
      (entries : TrustEntries), config.trustStorePath = path →
      mergeTrust surroundings config forgotten = (merged, .ok entries) →
      entries[addressKey host port]?.getD [] = [] := by
  intro forgets
  let key := addressKey (ascii "localhost") 7777
  let fingerprint : Bytes := List.replicate 64 65
  let old : TrustEntries := Std.ExtTreeMap.insert ∅ key fingerprint
  let files : FileSystem := fun path =>
    if path = legacyTrustStorePath then some (trustText old) else none
  let surroundings : Surroundings := { defaultTrustStorePath := ascii "trusted" }
  let config : ClientConfig := { trustStorePath := ascii "trusted" }
  have readable : Readable old := by
    intro address trusted found
    rw [OrderedMap.getElem?_insert] at found
    split at found
    · next same =>
        obtain rfl := Option.some.inj found
        subst same
        decide +kernel
    · simp at found
  generalize forgot : forgetCertificate .replaced (ascii "localhost") 7777 (ascii "trusted") files =
    result
  obtain ⟨forgotten, outcome⟩ := result
  obtain rfl : .written = outcome := congrArg Prod.snd forgot
  have legacy : forgotten legacyTrustStorePath = some (trustText old) := by
    rw [(writeTrustStore_written forgot).2 legacyTrustStorePath (by decide +kernel)
      (legacyTrustStorePath_ne_temporaryPath _)]
    rfl
  generalize region : mergeTrust surroundings config forgotten = first
  obtain ⟨merged, verdict | entries⟩ := first
  · have merges : surroundings.mergesLegacy config = true := by decide +kernel
    simp only [mergeTrust, if_pos merges, writeTrustStore] at region
    split at region <;> cases region
  · have unknown := forgets _ _ _ _ _ _ forgot surroundings config merged entries rfl region
    obtain rfl := (mergeTrust_spec region).2.1 entries rfl
    have removed : (readTrustStore forgotten (ascii "trusted"))[key]? = none := by
      obtain ⟨-, store⟩ | ⟨failed, -⟩ := forgetCertificate_spec forgot
      · rw [store, Std.ExtTreeMap.getElem?_erase_self]
      · exact absurd rfl failed
    rw [trustedEntries, if_pos (by decide +kernel), insertLegacy_getElem?, removed,
      readTrustStore_trustText readable legacy, Option.none_or, OrderedMap.getElem?_insert,
      if_pos rfl] at unknown
    cases unknown

end Removal

end Chatbox.Network
