import Chatbox.Network.TrustStore
import Chatbox.Protocol.Message

/-!
Invites: how to reach a server, and what its certificate is, in one line of text. An
invite is checked before its fingerprint is normalised, when it is made as well as when
it is read.
-/

namespace Chatbox.Network

open Text Protocol

structure Invite where
  host : Bytes
  port : UInt16 := 7777
  tls : Bool := true
  passwordRequired : Bool := false
  fingerprint : Bytes := []
deriving DecidableEq, Repr

/-- The characters that `find_first_not_of` passes over. -/
def isHostChar (c : UInt8) : Bool :=
  isAlnum c || c == 46 || c == 45 || c == 58 || c == 95 || c == 37

def validate (invite : Invite) : Except Bytes Unit :=
  if invite.host.isEmpty || HOST_MAX_LEN < invite.host.length || invite.port == 0 ||
      !invite.host.all isHostChar then
    .error (ascii "Invite contains an invalid address or port.")
  else if !invite.fingerprint.isEmpty &&
      (!invite.tls || (normalizeFingerprint invite.fingerprint).isEmpty) then
    .error (ascii "Invite contains an invalid TLS fingerprint.")
  else .ok ()

def inviteFlag (flag : Bool) : Bytes := if flag then ascii "1" else ascii "0"

def makeInvite (invite : Invite) : Except Bytes Bytes :=
  (validate invite).map fun _ =>
    ascii "chatbox:1" ++ bar :: (invite.host ++ bar :: (toDecimal invite.port.toNat ++
      bar :: (inviteFlag invite.tls ++ bar :: (inviteFlag invite.passwordRequired ++
        bar :: normalizeFingerprint invite.fingerprint))))

/-- The loop over the text, with what has been passed since `start`. -/
def inviteFields (field : Bytes) : Bytes → List Bytes
  | [] => [field]
  | c :: rest =>
      if c = bar then field :: inviteFields [] rest else inviteFields (field ++ [c]) rest

/-- The last two lines of `parse_invite`. -/
def checkInvite (invite : Invite) : Except Bytes Invite :=
  (validate invite).map fun _ =>
    { invite with fingerprint := normalizeFingerprint invite.fingerprint }

def parseInvite (text : Bytes) : Except Bytes Invite :=
  match inviteFields [] text with
  | [version, host, port, tls, password, fingerprint] =>
      if version ≠ ascii "chatbox:1" then
        .error (ascii "Malformed or unsupported invite version.")
      else
        match fromChars 16 port with
        | some (port, []) =>
            if (tls ≠ ascii "0" ∧ tls ≠ ascii "1") ∨
                (password ≠ ascii "0" ∧ password ≠ ascii "1") then
              .error (ascii "Invalid invite settings.")
            else
              checkInvite {
                host
                port := UInt16.ofNat port
                tls := tls == ascii "1"
                passwordRequired := password == ascii "1"
                fingerprint }
        | _ => .error (ascii "Invalid invite settings.")
  | _ => .error (ascii "Malformed or unsupported invite version.")

section Fingerprint

/-- What may stand between the digits of a fingerprint. -/
def isSeparator (c : UInt8) : Bool := c == 58 || c == 45 || isSpace c

/-- The fingerprint without its separators. -/
def withoutSeparators (fingerprint : Bytes) : Bytes := fingerprint.filter fun c => !isSeparator c

/-- The digits of a SHA-256 digest, separators aside. -/
def IsFingerprint (fingerprint : Bytes) : Prop :=
  (withoutSeparators fingerprint).length = 64 ∧
    ∀ c ∈ withoutSeparators fingerprint, isXDigit c = true

theorem isSeparator_of_isXDigit {c : UInt8} (h : isXDigit c = true) : isSeparator c = false :=
  forall_byte (P := fun c => isXDigit c = true → isSeparator c = false) (by decide +kernel) c h

theorem normalizedDigits_eq (text : Bytes) : normalizedDigits text =
    if (withoutSeparators text).all isXDigit then some ((withoutSeparators text).map toUpper)
    else none := by
  induction text with
  | nil => rfl
  | cons c text ih =>
      rw [normalizedDigits]
      by_cases digit : isXDigit c = true
      · have kept : withoutSeparators (c :: text) = c :: withoutSeparators text :=
          List.filter_cons_of_pos (by simp [isSeparator_of_isXDigit digit])
        rw [if_pos digit, ih, kept, List.all_cons, digit, Bool.true_and]
        split <;> rfl
      · rw [if_neg digit]
        by_cases separator : isSeparator c = true
        · have dropped : withoutSeparators (c :: text) = withoutSeparators text :=
            List.filter_cons_of_neg (by simp [separator])
          rw [dropped, if_neg, ih]
          simp only [isSeparator, Bool.or_eq_true, beq_iff_eq] at separator
          simp only [Bool.and_eq_true, decide_eq_true_eq, Bool.not_eq_true']
          rintro ⟨⟨colon, dash⟩, space⟩
          simp [colon, dash, space] at separator
        · have kept : withoutSeparators (c :: text) = c :: withoutSeparators text :=
            List.filter_cons_of_pos (by simpa using separator)
          simp only [isSeparator, Bool.or_eq_true, beq_iff_eq, not_or] at separator
          rw [if_pos (by simpa using separator), kept, List.all_cons, Bool.eq_false_iff.mpr digit,
            Bool.false_and]
          rfl

theorem normalizeFingerprint_ne_nil (fingerprint : Bytes) :
    normalizeFingerprint fingerprint ≠ [] ↔ IsFingerprint fingerprint := by
  rw [normalizeFingerprint, normalizedDigits_eq, IsFingerprint, SHA256_DIGEST_LENGTH]
  by_cases digits : (withoutSeparators fingerprint).all isXDigit = true
  · rw [if_pos digits, ← List.all_eq_true]
    simp only [List.length_map, digits, and_true]
    split
    · next wrong => exact iff_of_false (fun h => h rfl) wrong
    · next length =>
        have length := not_not.mp length
        refine iff_of_true (fun none => ?_) length
        rw [List.map_eq_nil_iff] at none
        rw [none] at length
        cases length
  · rw [if_neg digits, ← List.all_eq_true]
    exact iff_of_false (fun h => h rfl) fun h => digits h.2

end Fingerprint

section RoundTrip

variable {invite : Invite}

structure Invite.Acceptable (invite : Invite) : Prop where
  host : 1 ≤ invite.host.length ∧ invite.host.length ≤ 63 ∧
    ∀ c ∈ invite.host, isHostChar c = true
  port : invite.port ≠ 0
  fingerprint : invite.fingerprint ≠ [] → invite.tls = true ∧ IsFingerprint invite.fingerprint

theorem validate_ok_iff : validate invite = .ok () ↔ invite.Acceptable := by
  have host : (invite.host.isEmpty || HOST_MAX_LEN < invite.host.length || invite.port == 0 ||
      !invite.host.all isHostChar) = false ↔ (1 ≤ invite.host.length ∧ invite.host.length ≤ 63 ∧
        ∀ c ∈ invite.host, isHostChar c = true) ∧ invite.port ≠ 0 := by
    simp only [Bool.or_eq_false_iff, List.isEmpty_eq_false_iff, ← List.length_pos_iff,
      decide_eq_false_iff_not, not_lt, beq_eq_false_iff_ne, Bool.not_eq_false', List.all_eq_true,
      Nat.succ_le_iff, show HOST_MAX_LEN = 63 from rfl]
    tauto
  have pin : (!invite.fingerprint.isEmpty &&
      (!invite.tls || (normalizeFingerprint invite.fingerprint).isEmpty)) = false ↔
      (invite.fingerprint ≠ [] → invite.tls = true ∧ IsFingerprint invite.fingerprint) := by
    rw [← normalizeFingerprint_ne_nil]
    cases invite.fingerprint with
    | nil => simp
    | cons c rest => simp
  constructor
  · intro h
    rw [validate] at h
    split at h
    · cases h
    · next good =>
        split at h
        · cases h
        · next fine =>
            have address := host.mp (Bool.eq_false_iff.mpr good)
            exact ⟨address.1, address.2, pin.mp (Bool.eq_false_iff.mpr fine)⟩
  · intro h
    rw [validate, host.mpr ⟨h.host, h.port⟩, pin.mpr h.fingerprint]
    rfl

theorem makeInvite_ok {text : Bytes} (h : makeInvite invite = .ok text) :
    invite.Acceptable ∧
      text = ascii "chatbox:1" ++ bar :: (invite.host ++ bar :: (toDecimal invite.port.toNat ++
        bar :: (inviteFlag invite.tls ++ bar :: (inviteFlag invite.passwordRequired ++
          bar :: normalizeFingerprint invite.fingerprint)))) := by
  rw [makeInvite] at h
  cases valid : validate invite with
  | error message => simp [valid, Except.map] at h
  | ok _ =>
      rw [valid] at h
      exact ⟨validate_ok_iff.mp valid, (Except.ok.inj h).symm⟩

theorem makeInvite_accepts : (∃ text, makeInvite invite = .ok text) ↔ invite.Acceptable := by
  constructor
  · rintro ⟨text, h⟩
    exact (makeInvite_ok h).1
  · intro h
    rw [makeInvite, validate_ok_iff.mpr h]
    exact ⟨_, rfl⟩

theorem inviteFields_append {field part : Bytes} (plain : bar ∉ part) (rest : Bytes) :
    inviteFields field (part ++ bar :: rest) = (field ++ part) :: inviteFields [] rest := by
  induction part generalizing field with
  | nil => simp [inviteFields]
  | cons c part ih =>
      simp only [List.mem_cons, not_or] at plain
      rw [List.cons_append, inviteFields, if_neg (Ne.symm plain.1), ih plain.2]
      simp

theorem inviteFields_last {field part : Bytes} (plain : bar ∉ part) :
    inviteFields field part = [field ++ part] := by
  induction part generalizing field with
  | nil => simp [inviteFields]
  | cons c part ih =>
      simp only [List.mem_cons, not_or] at plain
      rw [inviteFields, if_neg (Ne.symm plain.1), ih plain.2]
      simp

theorem inviteFlag_plain (flag : Bool) : bar ∉ inviteFlag flag := by
  cases flag <;> decide

theorem inviteFlag_eq (flag : Bool) : (inviteFlag flag == ascii "1") = flag := by
  cases flag <;> rfl

theorem inviteFlag_cases (flag : Bool) :
    ¬ (inviteFlag flag ≠ ascii "0" ∧ inviteFlag flag ≠ ascii "1") := by
  cases flag <;> decide

/-- The invite as it is read back. -/
def Invite.normalized (invite : Invite) : Invite :=
  { invite with fingerprint := normalizeFingerprint invite.fingerprint }

theorem Invite.Acceptable.normalized (h : invite.Acceptable) : invite.normalized.Acceptable where
  host := h.host
  port := h.port
  fingerprint some_ := by
    refine ⟨(h.fingerprint fun none => some_ ?_).1, ?_⟩
    · rw [Invite.normalized, none]
      rfl
    · rw [← normalizeFingerprint_ne_nil, Invite.normalized, normalizeFingerprint_idem]
      exact some_

theorem Invite.normalized_normalized (invite : Invite) :
    invite.normalized.normalized = invite.normalized := by
  rw [Invite.normalized, Invite.normalized, normalizeFingerprint_idem]

theorem checkInvite_normalized (h : invite.Acceptable) :
    checkInvite invite = .ok invite.normalized := by
  rw [checkInvite, validate_ok_iff.mpr h]
  rfl

theorem checkInvite_ok {read : Invite} (h : checkInvite read = .ok invite) :
    read.Acceptable ∧ invite = read.normalized := by
  rw [checkInvite] at h
  cases valid : validate read with
  | error message => simp [valid, Except.map] at h
  | ok _ =>
      rw [valid] at h
      exact ⟨validate_ok_iff.mp valid, (Except.ok.inj h).symm⟩

theorem parseInvite_makeInvite {text : Bytes} (h : makeInvite invite = .ok text) :
    parseInvite text = .ok invite.normalized := by
  obtain ⟨valid, rfl⟩ := makeInvite_ok h
  have host : bar ∉ invite.host := fun mem => by
    have := valid.host.2.2 bar mem
    revert this
    decide
  have pin : bar ∉ normalizeFingerprint invite.fingerprint := fun mem => by
    have := (normalizeFingerprint_digit _ bar mem).1
    revert this
    decide
  have number : fromChars 16 (toDecimal invite.port.toNat) = some (invite.port.toNat, []) :=
    fromChars_toDecimal invite.port.toNat_lt
  have same : UInt16.ofNat invite.port.toNat = invite.port := UInt16.ofNat_toNat
  rw [parseInvite, inviteFields_append (by decide), inviteFields_append host,
    inviteFields_append (not_mem_toDecimal (by decide)), inviteFields_append (inviteFlag_plain _),
    inviteFields_append (inviteFlag_plain _), inviteFields_last pin]
  simp only [List.nil_append, ne_eq, not_true_eq_false, if_false, number, same, inviteFlag_eq]
  rw [if_neg (not_or.mpr ⟨inviteFlag_cases _, inviteFlag_cases _⟩)]
  have checked := checkInvite_normalized valid.normalized
  rwa [Invite.normalized_normalized] at checked

theorem parseInvite_ok {text : Bytes} (h : parseInvite text = .ok invite) :
    ∃ read : Invite, read.Acceptable ∧ invite = read.normalized := by
  unfold parseInvite at h
  split at h
  · split at h
    · cases h
    · split at h
      · split at h
        · cases h
        · exact ⟨_, checkInvite_ok h⟩
      · cases h
  · cases h

/-- What is made of an invite reads back as that invite with its fingerprint normalised;
exactly the acceptable invites can be made; and whatever can be read can be made and read
again without a change. -/
theorem invite_roundTrip :
    (∀ invite text, makeInvite invite = .ok text → parseInvite text =
      .ok { invite with fingerprint := normalizeFingerprint invite.fingerprint }) ∧
    (∀ invite, (∃ text, makeInvite invite = .ok text) ↔ invite.Acceptable) ∧
    (∀ text invite, parseInvite text = .ok invite →
      ∃ again, makeInvite invite = .ok again ∧ parseInvite again = .ok invite) := by
  refine ⟨fun invite text h => parseInvite_makeInvite h, fun invite => makeInvite_accepts,
    fun text invite h => ?_⟩
  obtain ⟨read, valid, rfl⟩ := parseInvite_ok h
  obtain ⟨again, made⟩ := makeInvite_accepts.mpr valid.normalized
  refine ⟨again, made, ?_⟩
  rw [parseInvite_makeInvite made, Invite.normalized_normalized]

/-- A lower-case fingerprint with colons, as it is often printed. -/
example : (makeInvite {
    host := ascii "localhost"
    fingerprint := ascii "ab:" ++ List.replicate 62 99 }).toOption =
    some (ascii "chatbox:1|localhost|7777|1|0|AB" ++ List.replicate 62 67) := by decide +kernel

end RoundTrip

end Chatbox.Network
