import Chatbox.Lib.OrderedMap
import Chatbox.Lib.Text

/-!
The file of trusted certificates: a line for each address with the fingerprint
after the first bar. It is replaced as a whole, through a temporary file beside it,
and reads back as the entries that were written when each of them fits a line.
-/

namespace Chatbox.Network

open Text

/-- The files that can be read, by path. -/
abbrev FileSystem := Bytes → Option Bytes

abbrev TrustEntries := Std.ExtTreeMap Bytes Bytes

def SHA256_DIGEST_LENGTH : Nat := 32

def bar : UInt8 := 124

def addressKey (host : Bytes) (port : UInt16) : Bytes := host ++ ascii ":" ++ toDecimal port.toNat

/-- The loop of `normalize_fingerprint`: nothing when it meets a character that does
not belong in a fingerprint. -/
def normalizedDigits : Bytes → Option Bytes
  | [] => some []
  | ch :: rest =>
      if isXDigit ch then (normalizedDigits rest).map fun digits => toUpper ch :: digits
      else if ch ≠ 58 && ch ≠ 45 && !isSpace ch then none
      else normalizedDigits rest

def normalizeFingerprint (fingerprint : Bytes) : Bytes :=
  match normalizedDigits fingerprint with
  | none => []
  | some normalized => if normalized.length ≠ SHA256_DIGEST_LENGTH * 2 then [] else normalized

/-- The body of the loop of `read_trust_store`. -/
def readEntry (entries : TrustEntries) (line : Bytes) : TrustEntries :=
  match line.idxOf? bar with
  | none => entries
  | some separator =>
      let address := line.take separator
      let fingerprint := normalizeFingerprint (line.drop (separator + 1))
      if !address.isEmpty && !fingerprint.isEmpty then entries.insert address fingerprint
      else entries

def readTrustStore (files : FileSystem) (path : Bytes) : TrustEntries :=
  match files path with
  | none => ∅
  | some content => (lines content).foldl readEntry ∅

/-- How far `write_trust_store` gets. The numbers are the bytes that reach the
temporary file before the stream fails. -/
inductive WriteOutcome where
  | createDirectoriesThrows
  | openFails
  | writeFails (bytes : Nat)
  | closeFails (bytes : Nat)
  | renameFails (message : Bytes)
  | replaced
deriving DecidableEq, Repr

inductive WriteResult where
  | written
  | failed (error : Bytes)
  | threw
deriving DecidableEq, Repr

def trustLine (entry : Bytes × Bytes) : Bytes := entry.1 ++ bar :: entry.2

def trustText (entries : TrustEntries) : Bytes :=
  entries.toList.flatMap fun entry => trustLine entry ++ [10]

def temporaryPath (path : Bytes) : Bytes := path ++ ascii ".tmp"

def writeTrustStore (outcome : WriteOutcome) (files : FileSystem) (path : Bytes)
    (entries : TrustEntries) : FileSystem × WriteResult :=
  let text := trustText entries
  let temporary := temporaryPath path
  match outcome with
  | .createDirectoriesThrows => (files, .threw)
  | .openFails =>
      (files, .failed (ascii "Could not write TLS trust store '" ++ path ++ ascii "'"))
  | .writeFails bytes =>
      (Function.update files temporary (some (text.take bytes)),
        .failed (ascii "Could not finish writing TLS trust store '" ++ path ++ ascii "'"))
  | .closeFails bytes =>
      (Function.update files temporary (some (text.take bytes)),
        .failed (ascii "Could not close TLS trust store"))
  | .renameFails message =>
      (Function.update files temporary (some text),
        .failed (ascii "Could not replace TLS trust store: " ++ message))
  | .replaced =>
      (Function.update (Function.update files temporary none) path (some text), .written)

section Fingerprint

theorem isXDigit_toUpper {c : UInt8} (h : isXDigit c = true) : isXDigit (toUpper c) = true :=
  forall_byte (P := fun c => isXDigit c = true → isXDigit (toUpper c) = true)
    (by decide +kernel) c h

theorem toUpper_toUpper (c : UInt8) : toUpper (toUpper c) = toUpper c :=
  forall_byte (P := fun c => toUpper (toUpper c) = toUpper c) (by decide +kernel) c

theorem normalizedDigits_digit {text digits : Bytes} (h : normalizedDigits text = some digits) :
    ∀ c ∈ digits, isXDigit c = true ∧ toUpper c = c := by
  induction text generalizing digits with
  | nil =>
      obtain rfl : [] = digits := by simpa [normalizedDigits] using h
      simp
  | cons ch text ih =>
      rw [normalizedDigits] at h
      split at h
      · next digit =>
          obtain ⟨rest, hrest, rfl⟩ := Option.map_eq_some_iff.mp h
          intro c hc
          obtain rfl | hc := List.mem_cons.mp hc
          · exact ⟨isXDigit_toUpper digit, toUpper_toUpper ch⟩
          · exact ih hrest c hc
      · split at h
        · cases h
        · exact ih h

theorem normalizedDigits_of_digits {digits : Bytes}
    (h : ∀ c ∈ digits, isXDigit c = true ∧ toUpper c = c) :
    normalizedDigits digits = some digits := by
  induction digits with
  | nil => rfl
  | cons c digits ih =>
      obtain ⟨digit, upper⟩ := h c List.mem_cons_self
      have rest := ih fun c' hc' => h c' (List.mem_cons_of_mem c hc')
      rw [normalizedDigits, if_pos digit, rest, Option.map_some, upper]

/-- What normalizing leaves over is made of digits that stay as they are. -/
theorem normalizeFingerprint_digit (fingerprint : Bytes) :
    ∀ c ∈ normalizeFingerprint fingerprint, isXDigit c = true ∧ toUpper c = c := by
  intro c hc
  rw [normalizeFingerprint] at hc
  split at hc
  · cases hc
  · next normalized =>
      split at hc
      · cases hc
      · exact normalizedDigits_digit normalized c hc

theorem normalizeFingerprint_length (fingerprint : Bytes)
    (h : normalizeFingerprint fingerprint ≠ []) :
    (normalizeFingerprint fingerprint).length = SHA256_DIGEST_LENGTH * 2 := by
  rw [normalizeFingerprint] at h ⊢
  cases digits : normalizedDigits fingerprint with
  | none => simp [digits] at h
  | some normalized =>
      simp only [digits] at h ⊢
      split at h
      · exact absurd rfl h
      · next length =>
          rw [if_neg length]
          exact not_not.mp length

theorem normalizeFingerprint_idem (fingerprint : Bytes) :
    normalizeFingerprint (normalizeFingerprint fingerprint) = normalizeFingerprint fingerprint := by
  by_cases h : normalizeFingerprint fingerprint = []
  · rw [h]
    rfl
  · have digits := normalizedDigits_of_digits (normalizeFingerprint_digit fingerprint)
    have length := normalizeFingerprint_length fingerprint h
    rw [normalizeFingerprint, digits]
    simp [length]

theorem newline_not_mem_normalizeFingerprint (fingerprint : Bytes) :
    10 ∉ normalizeFingerprint fingerprint := by
  intro h
  have digit := (normalizeFingerprint_digit fingerprint 10 h).1
  revert digit
  decide

end Fingerprint

section ReadBack

/-- Every entry is what reading a line can yield. -/
def Readable (entries : TrustEntries) : Prop :=
  ∀ address fingerprint, entries[address]? = some fingerprint →
    (address ≠ [] ∧ bar ∉ address ∧ 10 ∉ address) ∧
      fingerprint ≠ [] ∧ normalizeFingerprint fingerprint = fingerprint

theorem readable_empty : Readable ∅ := by
  intro address fingerprint h
  simp at h

theorem readEntry_readable {entries : TrustEntries} {line : Bytes} (readable : Readable entries)
    (line_end : 10 ∉ line) : Readable (readEntry entries line) := by
  rw [readEntry]
  split
  · exact readable
  · next separator found =>
      dsimp only
      split
      · next full =>
          simp only [Bool.and_eq_true, Bool.not_eq_true', List.isEmpty_eq_false_iff] at full
          intro address fingerprint h
          rw [OrderedMap.getElem?_insert] at h
          split at h
          · next same =>
              obtain rfl := Option.some.inj h
              subst same
              refine ⟨⟨full.1, ?_, ?_⟩, full.2, normalizeFingerprint_idem _⟩
              · exact not_mem_take_of_idxOf? found
              · exact fun mem => line_end (List.mem_of_mem_take mem)
          · exact readable address fingerprint h
      · exact readable

theorem foldl_readEntry_readable {entries : TrustEntries} {text : List Bytes}
    (readable : Readable entries) (line_ends : ∀ line ∈ text, 10 ∉ line) :
    Readable (text.foldl readEntry entries) := by
  induction text generalizing entries with
  | nil => exact readable
  | cons line text ih =>
      exact ih (readEntry_readable readable (line_ends line List.mem_cons_self))
        fun other hother => line_ends other (List.mem_cons_of_mem line hother)

theorem readTrustStore_readable (files : FileSystem) (path : Bytes) :
    Readable (readTrustStore files path) := by
  rw [readTrustStore]
  split
  · exact readable_empty
  · exact foldl_readEntry_readable readable_empty fun line => not_mem_of_mem_split

theorem readEntry_trustLine {address fingerprint : Bytes} (entries : TrustEntries)
    (key : address ≠ [] ∧ bar ∉ address) (full : fingerprint ≠ [])
    (normal : normalizeFingerprint fingerprint = fingerprint) :
    readEntry entries (trustLine (address, fingerprint)) = entries.insert address fingerprint := by
  have separator : (trustLine (address, fingerprint)).idxOf? bar = some address.length :=
    idxOf?_append_cons key.2 fingerprint
  have before : (trustLine (address, fingerprint)).take address.length = address := by
    simp [trustLine]
  have after : (trustLine (address, fingerprint)).drop (address.length + 1) = fingerprint := by
    simp [trustLine, List.drop_append]
  simp only [readEntry, separator, before, after, normal]
  simp [key.1, full]

theorem foldl_readEntry_trustLine {listed : List (Bytes × Bytes)} (entries : TrustEntries)
    (readable : ∀ entry ∈ listed, (entry.1 ≠ [] ∧ bar ∉ entry.1 ∧ 10 ∉ entry.1) ∧
      entry.2 ≠ [] ∧ normalizeFingerprint entry.2 = entry.2) :
    (listed.map trustLine).foldl readEntry entries =
      listed.foldl (fun entries entry => entries.insert entry.1 entry.2) entries := by
  induction listed generalizing entries with
  | nil => rfl
  | cons entry listed ih =>
      obtain ⟨⟨nonempty, noBar, -⟩, full, normal⟩ := readable entry List.mem_cons_self
      rw [List.map_cons, List.foldl_cons, List.foldl_cons,
        readEntry_trustLine entries ⟨nonempty, noBar⟩ full normal]
      exact ih _ fun other hother => readable other (List.mem_cons_of_mem entry hother)

/-- A file that holds the text of readable entries reads back as these entries. -/
theorem readTrustStore_trustText {files : FileSystem} {path : Bytes} {entries : TrustEntries}
    (readable : Readable entries) (content : files path = some (trustText entries)) :
    readTrustStore files path = entries := by
  have each : ∀ entry ∈ entries.toList, (entry.1 ≠ [] ∧ bar ∉ entry.1 ∧ 10 ∉ entry.1) ∧
      entry.2 ≠ [] ∧ normalizeFingerprint entry.2 = entry.2 := by
    intro entry mem
    exact readable entry.1 entry.2 (Std.ExtTreeMap.mem_toList_iff_getElem?_eq_some.mp mem)
  have line_ends : ∀ entry ∈ entries.toList, 10 ∉ trustLine entry := by
    intro entry mem
    obtain ⟨⟨-, -, address⟩, -, normal⟩ := each entry mem
    have fingerprint := newline_not_mem_normalizeFingerprint entry.2
    rw [normal] at fingerprint
    simp [trustLine, bar, address, fingerprint]
  have written : lines (trustText entries) = entries.toList.map trustLine :=
    split_flatMap trustLine entries.toList line_ends
  simp only [readTrustStore, content, written]
  rw [foldl_readEntry_trustLine ∅ each, OrderedMap.ofList_toList]

end ReadBack

end Chatbox.Network
