import Chatbox.Chat.Sendable
import Chatbox.Protocol.ClientGrammar

/-!
The answer to a line that does not decode. The detail texts of the frame layer and of
the parser are short and plain, but for one: what is said of an unknown command repeats
the command, whose bytes and length the sender chooses.
-/

namespace Chatbox.Chat

open Text Protocol

/-- The error texts of a parser are short and plain. -/
def Brief {α : Type} (result : Result α) : Prop := ∀ e, result = .error e → Part 100 e.detail

theorem Part.mono {limit limit' : Nat} {text : Bytes} (h : Part limit text)
    (bound : limit ≤ limit') : Part limit' text := ⟨h.length.trans bound, h.printable⟩

theorem Part.toDecimal {n k : Nat} (pos : 0 < k) (h : n < 10 ^ k) : Part k (toDecimal n) := by
  have plain (ch : UInt8) : isDigit ch = true → isCntrl ch = false :=
    @forall_byte (fun ch => isDigit ch = true → isCntrl ch = false) (by decide +kernel) ch
  exact ⟨length_toDecimal_le pos h, fun ch mem => .inl (plain ch (toDecimal_isDigit mem))⟩

namespace Brief

variable {α β : Type}

theorem ok (value : α) : Brief (.ok value) := nofun

theorem failure {error : Error} {detail : Bytes} (h : Part 100 detail) :
    Brief (Protocol.failure error detail : Result α) := by
  intro e failed
  cases failed
  exact h

theorem literal {error : Error} {detail : Bytes}
    (h : (detail.all (fun ch => !isCntrl ch || ch == 9) && decide (detail.length ≤ 100)) = true) :
    Brief (Protocol.failure error detail : Result α) := by
  simp only [Bool.and_eq_true, decide_eq_true_eq] at h
  exact failure ((Part.literal h.1).mono h.2)

theorem ite {p : Prop} [Decidable p] {a b : Result α} (ha : p → Brief a) (hb : ¬ p → Brief b) :
    Brief (if p then a else b) := by
  split
  · next h => exact ha h
  · next h => exact hb h

theorem bind {a : Result α} {f : α → Result β} (ha : Brief a) (hf : ∀ value, Brief (f value)) :
    Brief (a >>= f) := by
  intro e failed
  cases a with
  | error e' =>
      obtain rfl : e' = e := Except.error.inj failed
      exact ha e' rfl
  | ok value => exact hf value e failed

end Brief

section Frames

theorem decodeGroup_brief (c0 c1 c2 c3 : UInt8) (finalGroup : Bool) :
    Brief (decodeGroup c0 c1 c2 c3 finalGroup) := by
  unfold decodeGroup
  refine .ite (fun _ => .literal (by decide)) fun _ => ?_
  exact .ite (fun _ => .literal (by decide)) fun _ => .ok _

theorem decodeGroups_brief (text : Bytes) : Brief (decodeGroups text) := by
  induction text using decodeGroups.induct with
  | case1 c0 c1 c2 c3 rest ih =>
      rw [decodeGroups]
      exact (decodeGroup_brief c0 c1 c2 c3 _).bind fun group => ih.bind fun output => .ok _
  | case2 text other =>
      rw [decodeGroups]
      · exact .ok _
      · exact other

theorem decodeFrame_brief (frame : Bytes) : Brief (decodeFrame frame) := by
  unfold decodeFrame
  refine .ite (fun _ => .literal (by decide)) fun _ => ?_
  refine .ite (fun _ => ?_) fun _ => ?_
  · have digits : Part 4 (toDecimal MAX_FRAME_LENGTH) := .toDecimal (by decide) (by decide)
    exact .failure ((((Part.literal (by decide)).append digits).append
      (Part.literal (by decide))).mono (by decide))
  · refine .ite (fun _ => .literal (by decide)) fun _ => ?_
    refine (decodeGroups_brief _).bind fun output => ?_
    exact .ite (fun _ => .literal (by decide)) fun _ => .ok _

end Frames

section Messages

/-- The text before the first bar. -/
def commandOf (payload : Bytes) : Bytes := (splitFields payload).headD []

theorem parseHello_brief {α : Type} (message : UInt32 → α) (fields : List Bytes) :
    Brief (parseHello message fields) := by
  unfold parseHello
  refine .ite (fun _ => .literal (by decide)) fun _ => ?_
  split
  · next version read =>
      have fits := (fromChars_eq_some_nil_iff.mp read).2
      have digits : Part 10 (toDecimal version) := .toDecimal (by decide) (by omega)
      exact .ite (fun _ => .failure ((((Part.literal (by decide)).append digits).append
        (Part.literal (by decide))).mono (by decide))) fun _ => .ok _
  · exact .literal (by decide)

/-- A command that is known is refused in the parser's own words. -/
theorem parseClientMessage_brief {payload : Bytes} (known : commandOf payload ∈ clientWords) :
    Brief (parseClientMessage payload) := by
  unfold parseClientMessage
  refine .ite (fun _ => .literal (by decide)) fun _ => ?_
  refine .ite (fun _ => parseHello_brief _ _) fun hello => ?_
  refine .ite (fun _ => ?_) fun auth => ?_
  · refine .ite (fun _ => .literal (by decide)) fun _ => ?_
    exact .ite (fun _ => .literal (by decide)) fun _ => .ok _
  refine .ite (fun _ => ?_) fun identify => ?_
  · refine .ite (fun _ => .literal (by decide)) fun _ => ?_
    exact .ite (fun _ => .literal (by decide)) fun _ => .ok _
  refine .ite (fun _ => ?_) fun proof => ?_
  · refine .ite (fun _ => .literal (by decide)) fun _ => ?_
    exact .ite (fun _ => .literal (by decide)) fun _ => .ok _
  refine .ite (fun _ => ?_) fun leave => ?_
  · exact .ite (fun _ => .literal (by decide)) fun _ => .ok _
  refine .ite (fun word => ?_) fun bare => ?_
  · refine .ite (fun _ => ?_) fun _ => .ite (fun _ => .ok _) fun _ => .ok _
    obtain same | same := word
    · exact same ▸ .literal (by decide)
    · exact same ▸ .literal (by decide)
  refine .ite (fun word => ?_) fun room => ?_
  · refine .ite (fun _ => ?_) fun _ => .ite (fun _ => ?_) fun _ =>
      .ite (fun _ => .ok _) fun _ => .ok _
    · obtain same | same := word
      · exact same ▸ .literal (by decide)
      · exact same ▸ .literal (by decide)
    · obtain same | same := word
      · exact same ▸ .literal (by decide)
      · exact same ▸ .literal (by decide)
  refine .ite (fun _ => ?_) fun topic => ?_
  · exact .ite (fun _ => .ok _) fun _ => .ite (fun _ => .literal (by decide)) fun _ => .ok _
  refine .ite (fun _ => ?_) fun chat => ?_
  · refine .ite (fun _ => .literal (by decide)) fun _ => ?_
    exact .ite (fun _ => .literal (by decide)) fun _ => .ok _
  refine .ite (fun _ => ?_) fun whisper => ?_
  · refine .ite (fun _ => .literal (by decide)) fun _ => ?_
    exact .ite (fun _ => .literal (by decide)) fun _ => .ok _
  refine .ite (fun _ => ?_) fun kick => ?_
  · refine .ite (fun _ => .literal (by decide)) fun _ => ?_
    exact .ite (fun _ => .literal (by decide)) fun _ => .ok _
  simp only [not_or] at bare room
  simp only [clientWords, commandOf, List.mem_cons, List.not_mem_nil, hello, auth,
    identify, proof, leave, bare, room, topic, chat, whisper, kick, or_self] at known

/-- An unknown command is repeated in the error text. -/
theorem parseClientMessage_unknown {payload : Bytes} (some : payload ≠ [])
    (unknown : commandOf payload ∉ clientWords) : parseClientMessage payload =
      .error ⟨.unknownMessage, ascii "Unknown client message type: " ++ commandOf payload⟩ := by
  have nonempty : payload.isEmpty = false := by simpa using some
  simp only [clientWords, commandOf, List.mem_cons, List.not_mem_nil, or_false, not_or] at unknown
  simp only [parseClientMessage, nonempty, Bool.false_eq_true, if_false, unknown, or_self]
  rfl

end Messages

section Answers

theorem encodable_serverError_iff {reason : Bytes} : Encodable (.serverError reason) ↔
    isValidText reason MAX_FRAME_LENGTH = true ∧ 6 + reason.length ≤ maxPayloadLength := by
  have word : (ascii "ERROR|").length = 6 := rfl
  have payload : (serializeServer (.serverError reason)).length = 6 + reason.length := by
    rw [serializeServer, List.length_append, word]
  constructor
  · rintro ⟨frame, encoded⟩
    have decoded := decodeServerFrame_encodeServerFrame (.serverError reason) frame trivial encoded
    obtain ⟨valid, fits⟩ := (encodeServerFrame_decodes_iff _).mp ⟨frame, encoded, decoded⟩
    exact ⟨valid, payload ▸ fits⟩
  · rintro ⟨valid, fits⟩
    exact encodable_of valid (payload ▸ fits)

/-- What is left of a frame for the command in the answer. -/
def MAX_REPEATED_LENGTH : Nat := 3012

theorem encodable_invalidFrame {detail : Bytes} {error : Error} {limit : Nat}
    (h : Part limit detail) (bound : limit ≤ 29 + MAX_REPEATED_LENGTH) :
    Encodable (ChatServer.invalidFrame ⟨error, detail⟩) := by
  have opening : Part 22 (ascii "Invalid client frame: ") :=
    @Part.literal (ascii "Invalid client frame: ") (by decide)
  have whole := opening.append h
  have repeated : MAX_REPEATED_LENGTH = 3012 := rfl
  have frame : MAX_FRAME_LENGTH = 4096 := rfl
  have limits : maxPayloadLength = 3069 := rfl
  have length : (ascii "Invalid client frame: " ++ (⟨error, detail⟩ : Failure).detail).length ≤
      22 + limit := whole.length
  refine encodable_serverError_iff.mpr
    ⟨isValidText_iff.mpr ⟨by simp [ascii], ?_, whole.printable⟩, ?_⟩
  · omega
  · omega

/-- Who sends a line that does not decode is told so, unless the line holds an unknown
command that has control characters or is too long to be repeated. -/
theorem invalidFrame_encodable_iff {line : Bytes} {e : Failure}
    (rejected : decodeClientFrame line = .error e) :
    Encodable (ChatServer.invalidFrame e) ↔ ∀ payload, decodeFrame line = .ok payload →
      commandOf payload ∈ clientWords ∨ Part MAX_REPEATED_LENGTH (commandOf payload) := by
  rw [decodeClientFrame, decodeMessageFrame] at rejected
  cases decoded : decodeFrame line with
  | error e' =>
      simp only [decoded] at rejected
      cases rejected
      have brief := decodeFrame_brief line e' decoded
      exact ⟨by simp, fun _ => encodable_invalidFrame brief (by decide)⟩
  | ok payload =>
      simp only [decoded] at rejected
      have some : payload ≠ [] := (decodeFrame_ok decoded).1
      by_cases known : commandOf payload ∈ clientWords
      · have brief := parseClientMessage_brief known e rejected
        refine ⟨fun _ payload' same => ?_, fun _ => encodable_invalidFrame brief (by decide)⟩
        exact .inl (Except.ok.inj same ▸ known)
      · rw [parseClientMessage_unknown some known] at rejected
        obtain rfl := Except.error.inj rejected
        have unknown : Part 29 (ascii "Unknown client message type: ") :=
          @Part.literal (ascii "Unknown client message type: ") (by decide)
        constructor
        · intro encodable payload' same
          obtain rfl := Except.ok.inj same
          obtain ⟨valid, fits⟩ := encodable_serverError_iff.mp encodable
          have printable := (isValidText_iff.mp valid).2.2
          refine .inr ⟨?_, fun ch mem => printable ch ?_⟩
          · have opening : (ascii "Invalid client frame: ").length = 22 := rfl
            have middle : (ascii "Unknown client message type: ").length = 29 := rfl
            have limit : maxPayloadLength = 3069 := rfl
            have repeated : MAX_REPEATED_LENGTH = 3012 := rfl
            simp only [List.length_append] at fits
            omega
          · simp [mem]
        · intro repeats
          obtain known' | repeated := repeats payload rfl
          · exact absurd known' known
          · exact encodable_invalidFrame (unknown.append repeated) (le_refl _)

/-- The command of `DANCE|now` is repeated in the answer, and the byte 1 cannot be. -/
theorem invalidFrame_encodable_iff_dance :
    Encodable (ChatServer.invalidFrame
      ⟨.unknownMessage, ascii "Unknown client message type: " ++ ascii "DANCE"⟩) ∧
    ¬ Encodable (ChatServer.invalidFrame
      ⟨.unknownMessage, ascii "Unknown client message type: " ++ [1]⟩) := by
  have dance : decodeFrame (encodeBlocks (ascii "DANCE|now")) = .ok (ascii "DANCE|now") := by
    decide +kernel
  have one : decodeFrame (ascii "AQ==") = .ok [1] := by decide +kernel
  constructor
  · refine (@invalidFrame_encodable_iff (encodeBlocks (ascii "DANCE|now")) _
      (by decide +kernel)).mpr fun payload decoded => .inr ?_
    obtain rfl := Except.ok.inj (dance.symm.trans decoded)
    exact (@Part.literal (commandOf (ascii "DANCE|now")) (by decide)).mono (by decide)
  · intro encodable
    have fits := (@invalidFrame_encodable_iff (ascii "AQ==") _ (by decide +kernel)).mp encodable
      [1] one
    obtain known | repeated := fits
    · exact absurd known (by decide)
    · obtain plain | tab := repeated.printable 1 (by decide)
      · exact absurd plain (by decide)
      · exact absurd tab (by decide)

/-- `AQ==`, the byte 1. -/
theorem invalidFrame_unanswered : ¬ ∀ (line : Bytes) (e : Failure),
    decodeClientFrame line = .error e → Encodable (ChatServer.invalidFrame e) := by
  intro answered
  have rejected : decodeClientFrame (ascii "AQ==") =
      .error ⟨.unknownMessage, ascii "Unknown client message type: " ++ [1]⟩ := by decide +kernel
  obtain ⟨frame, encoded⟩ := answered _ _ rejected
  have dropped : (encodeServerFrame (ChatServer.invalidFrame
      ⟨.unknownMessage, ascii "Unknown client message type: " ++ [1]⟩)).toOption = none := by
    decide +kernel
  rw [encoded] at dropped
  cases dropped

end Answers

end Chatbox.Chat
