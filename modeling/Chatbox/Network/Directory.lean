import Chatbox.Network.ServerBrowser

/-!
What a directory and its clients make of each other's lines. Whatever has been
registered can be listed, each entry as it is kept, as long as the answer is short
enough for the client to take; and a listing is withdrawn by its key, unless it was
registered without a name.
-/

namespace Chatbox.Network

open Text Protocol

/-- A field without control characters and bars. -/
structure Field (limit : Nat) (text : Bytes) : Prop where
  length : text.length ≤ limit
  plain : ∀ ch ∈ text, isCntrl ch = false ∧ ch ≠ fieldBar

namespace Field

variable {limit limit' : Nat} {text : Bytes}

theorem noBar (h : Field limit text) : fieldBar ∉ text := fun hm => (h.plain _ hm).2 rfl

theorem sanitize (text : Bytes) (limit : Nat) : Field limit (sanitizeBrowserField text limit) := by
  refine ⟨List.length_take_le _ _, fun ch hm => ?_⟩
  have kept := (List.mem_filter.mp (List.mem_of_mem_take hm)).2
  simpa using kept

theorem sanitize_eq (h : Field limit text) : sanitizeBrowserField text limit = text := by
  have all : text.filter (fun ch => !(isCntrl ch || ch == fieldBar)) = text := by
    rw [List.filter_eq_self]
    intro ch hm
    simpa using h.plain ch hm
  rw [sanitizeBrowserField, all, List.take_of_length_le h.length]

end Field

section Lines

theorem fields_cons (part : Bytes) {parts : List Bytes} (more : parts ≠ []) :
    fields (part :: parts) = part ++ fieldBar :: fields parts := by
  cases parts with
  | nil => exact absurd rfl more
  | cons next parts => simp [fields]

/-- Fields come back, up to an empty one at the end. -/
theorem split_fields {front : List Bytes} {last : Bytes} (plain : ∀ part ∈ front, fieldBar ∉ part)
    (plainLast : fieldBar ∉ last) :
    split fieldBar (fields (front ++ [last])) = if last = [] then front else front ++ [last] := by
  induction front with
  | nil =>
      have alone : fields ([] ++ [last]) = last := by simp [fields]
      rw [alone]
      split
      · next empty => rw [empty]; rfl
      · next some => exact split_last plainLast some
  | cons part front ih =>
      rw [List.cons_append, fields_cons part (by simp),
        split_item (plain part List.mem_cons_self),
        ih fun other mem => plain other (List.mem_cons_of_mem part mem)]
      split
      · rfl
      · rfl

theorem split_fields_some {front : List Bytes} {last : Bytes}
    (plain : ∀ part ∈ front, fieldBar ∉ part) (plainLast : fieldBar ∉ last) (some : last ≠ []) :
    split fieldBar (fields (front ++ [last])) = front ++ [last] := by
  rw [split_fields plain plainLast, if_neg some]

theorem length_fields (parts : List Bytes) :
    (fields parts).length ≤ (parts.map fun part => part.length + 1).sum := by
  induction parts with
  | nil => simp [fields]
  | cons part parts ih =>
      cases parts with
      | nil => simp [fields]
      | cons next parts =>
          rw [fields_cons part (List.cons_ne_nil _ _)]
          simp only [List.length_append, List.length_cons, List.map_cons, List.sum_cons] at ih ⊢
          omega

theorem fieldBar_not_mem_toDecimal (n : Nat) : fieldBar ∉ toDecimal n :=
  not_mem_toDecimal (by decide)

theorem fieldBar_not_mem_toDecimalInt (n : Int) : fieldBar ∉ toDecimalInt n :=
  not_mem_toDecimalInt (by decide) (by decide)

theorem fieldBar_not_mem_flagField (flag : Bool) : fieldBar ∉ flagField flag := by
  cases flag <;> decide

theorem flagField_eq (flag : Bool) : (flagField flag == ascii "1") = flag := by
  cases flag <;> decide

theorem parseU16Field_toDecimal (port : UInt16) :
    parseU16Field (toDecimal port.toNat) = some port := by
  have small := port.toNat_lt
  rw [parseU16Field, stoi_toDecimal (by omega)]
  simp only
  rw [if_neg (by omega)]
  simp

theorem countField_toDecimalInt {n : Int} (h : 0 ≤ n ∧ n ≤ 2147483647) :
    countField (toDecimalInt n) = n := by
  obtain ⟨m, rfl⟩ := Int.eq_ofNat_of_zero_le h.1
  rw [countField, toDecimalInt_natCast, stoi_toDecimal (by omega)]
  exact max_eq_right h.1

theorem countField_bounds (text : Bytes) : 0 ≤ countField text ∧ countField text ≤ 2147483647 := by
  unfold countField
  split
  · decide
  · next value consumed h =>
      have := stoi_bounds h
      omega

end Lines

section Wire

/-- The frame of a response that can be sent. -/
def Sendable (response : Bytes) : Prop := response ≠ [] ∧ response.length ≤ maxPayloadLength

instance (response : Bytes) : Decidable (Sendable response) := inferInstanceAs (Decidable (_ ∧ _))

def wireOf (responses : List Bytes) : Bytes :=
  responses.flatMap fun response => (encodeFrame response).toOption.getD []

variable {response : Bytes} {responses : List Bytes}

theorem wireOf_cons (h : Sendable response) :
    wireOf (response :: responses) =
      encodeBlocks response ++ newline :: wireOf responses := by
  rw [wireOf, List.flatMap_cons, encodeFrame_ok_iff.mpr ⟨h.1, h.2, rfl⟩]
  simp [wireOf, Except.toOption]

theorem newline_not_mem (response : Bytes) : newline ∉ encodeBlocks response :=
  fun hm => (encodeBlocks_no_lineEnding hm).1 rfl

theorem takeWhile_line {line rest : Bytes} (h : newline ∉ line) :
    (line ++ newline :: rest).takeWhile (· ≠ newline) = line := by
  rw [List.takeWhile_append_of_pos]
  · simp
  · intro ch hm
    simpa using fun e : ch = newline => h (e ▸ hm)

theorem dropWhile_line {line rest : Bytes} (h : newline ∉ line) :
    (line ++ newline :: rest).dropWhile (· ≠ newline) = newline :: rest := by
  rw [List.dropWhile_append_of_pos]
  · simp
  · intro ch hm
    simpa using fun e : ch = newline => h (e ▸ hm)

theorem decodeFrame_line (h : Sendable response) :
    decodeFrame (encodeBlocks response) = .ok response := by
  have bare := @decodeFrame_encodeBlocks response [] h.1 h.2 (by simp [lineEndings])
  rwa [List.append_nil] at bare

/-- The client takes the responses in their order, as many as there is room for. -/
theorem readResponses_wireOf {last : Bytes} (sendable : ∀ response ∈ responses, Sendable response)
    (more : ∀ response ∈ responses, endsResponses response = false) (lastSendable : Sendable last)
    (ends : endsResponses last = true) (room : Nat) :
    readResponses room (wireOf (responses ++ [last])) = .ok ((responses ++ [last]).take room) := by
  induction responses generalizing room with
  | nil =>
      cases room with
      | zero => rfl
      | succ room =>
          have first := newline_not_mem last
          rw [List.nil_append, wireOf_cons lastSendable, readResponses, if_pos (by simp),
            takeWhile_line first, decodeFrame_line lastSendable]
          simp [ends]
  | cons response responses ih =>
      cases room with
      | zero => rfl
      | succ room =>
          have first := newline_not_mem response
          have own := sendable response List.mem_cons_self
          rw [List.cons_append, wireOf_cons own, readResponses, if_pos (by simp),
            takeWhile_line first, dropWhile_line first, decodeFrame_line own]
          simp only [more response List.mem_cons_self, Bool.false_eq_true, if_false, List.drop_one,
            List.tail_cons]
          rw [ih (fun other mem => sendable other (List.mem_cons_of_mem _ mem))
            (fun other mem => more other (List.mem_cons_of_mem _ mem))]
          rfl

theorem readRequest_line {directory : Directory} {now staleNow : TimePoint} {request : Bytes}
    (h : Sendable request) :
    directory.readRequest now staleNow (encodeBlocks request) =
      (wireOf (directory.processRequest now staleNow request).1,
        (directory.processRequest now staleNow request).2) := by
  simp only [Directory.readRequest, decodeFrame_line h]
  rfl

/-- A request that can be sent arrives. -/
theorem sendRequest_eq {directory : Directory} {now staleNow : TimePoint} {request last : Bytes}
    (h : Sendable request)
    (answer : (directory.processRequest now staleNow request).1 = responses ++ [last])
    (sendable : ∀ response ∈ responses, Sendable response)
    (more : ∀ response ∈ responses, endsResponses response = false) (lastSendable : Sendable last)
    (ends : endsResponses last = true) :
    sendRequest directory now staleNow request =
      (.ok ((responses ++ [last]).take MAX_RESPONSES),
        (directory.processRequest now staleNow request).2) := by
  have payload : encodeFrame request = .ok (encodeBlocks request ++ [newline]) :=
    encodeFrame_ok_iff.mpr ⟨h.1, h.2, rfl⟩
  have served := @readRequest_line directory now staleNow request h
  rw [answer] at served
  have taken := readResponses_wireOf sendable more lastSendable ends MAX_RESPONSES
  have some : (responses ++ [last]).take MAX_RESPONSES ≠ [] := by simp [MAX_RESPONSES]
  simp only [sendRequest, payload, takeWhile_line (newline_not_mem request), served, taken]

end Wire

section Requests

variable {directory : Directory} {now staleNow : TimePoint} {entry : BrowserEntry}

/-- The entry that registering `entry` makes. -/
def listingOf (now : TimePoint) (entry : BrowserEntry) : BrowserEntry :=
  let name := sanitizeBrowserField entry.name BROWSER_NAME_MAX_LEN
  { name := if name.isEmpty then ascii "chatbox room" else name
    host := sanitizeBrowserField entry.host HOST_MAX_LEN
    port := entry.port
    hasPassword := entry.hasPassword
    users := countField (toDecimalInt (max 0 entry.users))
    usesTls := entry.usesTls
    updatedAt := now }

def BrowserEntry.key (entry : BrowserEntry) : Bytes :=
  browserEntryKey entry.host entry.port entry.name

theorem sanitize_sanitize (text : Bytes) (limit : Nat) :
    sanitizeBrowserField (sanitizeBrowserField text limit) limit =
      sanitizeBrowserField text limit :=
  (Field.sanitize text limit).sanitize_eq

theorem split_registerRequest (entry : BrowserEntry) :
    split fieldBar (registerRequest entry) =
      [ascii "REGISTER", sanitizeBrowserField entry.name BROWSER_NAME_MAX_LEN,
        sanitizeBrowserField entry.host HOST_MAX_LEN, toDecimal entry.port.toNat,
        flagField entry.hasPassword, toDecimalInt (max 0 entry.users),
        flagField entry.usesTls] := by
  refine @split_fields_some [_, _, _, _, _, _] _ ?_ (fieldBar_not_mem_flagField _) ?_
  · simp only [List.forall_mem_cons]
    exact ⟨by decide, (Field.sanitize _ _).noBar, (Field.sanitize _ _).noBar,
      fieldBar_not_mem_toDecimal _, fieldBar_not_mem_flagField _, fieldBar_not_mem_toDecimalInt _,
      fun _ none => absurd none List.not_mem_nil⟩
  · cases entry.usesTls <;> decide

/-- Without a name the request ends in a bar, and that makes no field of it. -/
theorem split_unregisterRequest (entry : BrowserEntry) :
    split fieldBar (unregisterRequest entry) =
      let front := [ascii "UNREGISTER", sanitizeBrowserField entry.host HOST_MAX_LEN,
        toDecimal entry.port.toNat]
      let name := sanitizeBrowserField entry.name BROWSER_NAME_MAX_LEN
      if name = [] then front else front ++ [name] := by
  refine @split_fields [_, _, _] _ ?_ (Field.sanitize _ _).noBar
  simp only [List.forall_mem_cons]
  exact ⟨by decide, (Field.sanitize _ _).noBar, fieldBar_not_mem_toDecimal _,
    fun _ none => absurd none List.not_mem_nil⟩

theorem processRequest_register (directory : Directory) (now staleNow : TimePoint)
    (entry : BrowserEntry) : directory.processRequest now staleNow (registerRequest entry) =
      if sanitizeBrowserField entry.host HOST_MAX_LEN = [] then
        ([ascii "ERROR|Invalid host or port"], directory)
      else ([ascii "OK"],
        (directory.removeStale staleNow).insert (listingOf now entry).key (listingOf now entry)) := by
  simp only [Directory.processRequest, split_registerRequest, List.head?_cons, if_true]
  simp only [Directory.register, List.length_cons, List.length_nil, List.getD_cons_succ,
    List.getD_cons_zero, sanitize_sanitize, flagField_eq, List.isEmpty_iff]
  rw [if_neg (by decide)]
  by_cases host : sanitizeBrowserField entry.host HOST_MAX_LEN = []
  · rw [if_pos host, if_pos host]
  · rw [if_neg host, if_neg host, parseU16Field_toDecimal]
    simp only [BrowserEntry.key, listingOf, List.isEmpty_iff]

theorem processRequest_unregister (directory : Directory) (now staleNow : TimePoint)
    (entry : BrowserEntry) : directory.processRequest now staleNow (unregisterRequest entry) =
      if sanitizeBrowserField entry.name BROWSER_NAME_MAX_LEN = [] then
        ([ascii "ERROR|UNREGISTER requires host, port, name"], directory)
      else ([ascii "OK"], directory.erase (listingOf now entry).key) := by
  have other : ascii "UNREGISTER" ≠ ascii "REGISTER" := by decide
  by_cases name : sanitizeBrowserField entry.name BROWSER_NAME_MAX_LEN = []
  · simp only [Directory.processRequest, split_unregisterRequest, if_pos name, List.head?_cons,
      if_neg other, if_true]
    rfl
  · simp only [Directory.processRequest, split_unregisterRequest, if_neg name, List.cons_append,
      List.head?_cons, if_neg other, if_true]
    simp only [Directory.unregister, List.nil_append, List.length_cons, List.length_nil,
      List.getD_cons_succ, List.getD_cons_zero, sanitize_sanitize, parseU16Field_toDecimal]
    rw [if_neg (by decide)]
    simp only [BrowserEntry.key, listingOf, List.isEmpty_iff, if_neg name]

theorem sendRequest_one {request response : Bytes} {after : Directory} (h : Sendable request)
    (answer : directory.processRequest now staleNow request = ([response], after))
    (sendable : Sendable response) (ends : endsResponses response = true) :
    sendRequest directory now staleNow request = (.ok [response], after) := by
  have sent := @sendRequest_eq [] directory now staleNow request response h (by rw [answer]; rfl)
    (fun _ none => absurd none List.not_mem_nil) (fun _ none => absurd none List.not_mem_nil)
    sendable ends
  rw [sent, answer]
  rfl

theorem registerServer_ok_iff : (registerServer directory now staleNow entry).1 = .ok () ↔
    Sendable (registerRequest entry) ∧ sanitizeBrowserField entry.host HOST_MAX_LEN ≠ [] := by
  by_cases sendable : Sendable (registerRequest entry)
  · have answer := processRequest_register directory now staleNow entry
    by_cases host : sanitizeBrowserField entry.host HOST_MAX_LEN = []
    · rw [if_pos host] at answer
      have sent := sendRequest_one sendable answer (by decide) (by decide)
      have refused : ascii "ERROR|Invalid host or port" ≠ ascii "OK" := by decide
      simp [registerServer, sent, host, refused]
    · rw [if_neg host] at answer
      have sent := sendRequest_one sendable answer (by decide) (by decide)
      simp [registerServer, sent, sendable, host]
  · cases frame : encodeFrame (registerRequest entry) with
    | ok payload => exact absurd (encodeFrame_ok_iff.mp frame) fun h => sendable ⟨h.1, h.2.1⟩
    | error failure => simp [registerServer, sendRequest, frame, sendable]

/-- A listing takes the place of one with its key. -/
theorem registerServer_eq (h : (registerServer directory now staleNow entry).1 = .ok ()) :
    (registerServer directory now staleNow entry).2 =
      (directory.removeStale staleNow).insert (listingOf now entry).key (listingOf now entry) := by
  obtain ⟨sendable, host⟩ := registerServer_ok_iff.mp h
  have answer := processRequest_register directory now staleNow entry
  rw [if_neg host] at answer
  simp only [registerServer, sendRequest_one sendable answer (by decide) (by decide)]

theorem length_port (port : UInt16) : (toDecimal port.toNat).length ≤ 5 :=
  length_toDecimal_le (by omega) (by have := port.toNat_lt; omega)

theorem length_flagField (flag : Bool) : (flagField flag).length = 1 := by cases flag <;> rfl

theorem sendable_fields {part : Bytes} {parts : List Bytes} (more : parts ≠ [])
    (short : ((part :: parts).map fun part => part.length + 1).sum ≤ 3069) :
    Sendable (fields (part :: parts)) := by
  refine ⟨?_, (length_fields (part :: parts)).trans short⟩
  rw [fields_cons part more]
  simp

theorem sendable_registerRequest (fits : entry.users ≤ 2147483647) :
    Sendable (registerRequest entry) := by
  have host := (Field.sanitize entry.host HOST_MAX_LEN).length
  have name := (Field.sanitize entry.name BROWSER_NAME_MAX_LEN).length
  have port := length_port entry.port
  have users : (toDecimalInt (max 0 entry.users)).length ≤ 11 :=
    length_toDecimalInt_le (by omega) (by omega)
  have word : (ascii "REGISTER").length = 8 := by decide
  refine sendable_fields (List.cons_ne_nil _ _) ?_
  simp only [List.map_cons, List.map_nil, List.sum_cons, List.sum_nil, HOST_MAX_LEN,
    BROWSER_NAME_MAX_LEN, word, length_flagField] at host name ⊢
  omega

theorem sendable_unregisterRequest (entry : BrowserEntry) :
    Sendable (unregisterRequest entry) := by
  have host := (Field.sanitize entry.host HOST_MAX_LEN).length
  have name := (Field.sanitize entry.name BROWSER_NAME_MAX_LEN).length
  have port := length_port entry.port
  have word : (ascii "UNREGISTER").length = 10 := by decide
  refine sendable_fields (List.cons_ne_nil _ _) ?_
  simp only [List.map_cons, List.map_nil, List.sum_cons, List.sum_nil, HOST_MAX_LEN,
    BROWSER_NAME_MAX_LEN, word] at host name ⊢
  omega

theorem unregisterServer_eq : (unregisterServer directory now staleNow entry).2 =
    if sanitizeBrowserField entry.name BROWSER_NAME_MAX_LEN = [] then directory
    else directory.erase (listingOf now entry).key := by
  have sendable := sendable_unregisterRequest entry
  have answer := processRequest_unregister directory now staleNow entry
  split
  · next name =>
      rw [if_pos name] at answer
      simp only [unregisterServer, sendRequest_one sendable answer (by decide) (by decide)]
  · next name =>
      rw [if_neg name] at answer
      simp only [unregisterServer, sendRequest_one sendable answer (by decide) (by decide)]

/-- What is to come of a listing that is made and withdrawn again: the states of the
directory when it is registered and when it is unregistered. -/
structure Withdrawn (now : TimePoint) (entry : BrowserEntry) (registered after : Directory) :
    Prop where
  listed : registered[(listingOf now entry).key]? = some (listingOf now entry)
  gone : after[(listingOf now entry).key]? = none
  others : ∀ key, key ≠ (listingOf now entry).key → after[key]? = registered[key]?

/-- A listing that was registered can be withdrawn unless it was registered without a
name: the directory then made one up, and takes the request to withdraw it for one
without enough fields. -/
theorem unregisterServer_withdraws (directory : Directory)
    (now staleNow now' staleNow' : TimePoint) (entry : BrowserEntry)
    (h : (registerServer directory now staleNow entry).1 = .ok ()) :
    Withdrawn now entry (registerServer directory now staleNow entry).2
        (unregisterServer (registerServer directory now staleNow entry).2 now' staleNow' entry).2 ↔
      sanitizeBrowserField entry.name BROWSER_NAME_MAX_LEN ≠ [] := by
  have listed : (registerServer directory now staleNow entry).2[(listingOf now entry).key]? =
      some (listingOf now entry) := by
    rw [registerServer_eq h, OrderedMap.getElem?_insert, if_pos rfl]
  constructor
  · intro withdrawn name
    have gone := withdrawn.gone
    rw [unregisterServer_eq, if_pos name, listed] at gone
    cases gone
  · intro name
    have after : (unregisterServer (registerServer directory now staleNow entry).2 now' staleNow'
        entry).2 =
        (registerServer directory now staleNow entry).2.erase (listingOf now entry).key := by
      rw [unregisterServer_eq, if_neg name]
      rfl
    refine ⟨listed, ?_, fun key other => ?_⟩
    · rw [after, Std.ExtTreeMap.getElem?_erase_self]
    · rw [after, Std.ExtTreeMap.getElem?_erase, if_neg]
      simpa using fun same => other same.symm

theorem unregisterServer_withdraws_named :
    let entry : BrowserEntry := { name := ascii "lobby", host := ascii "h", port := 5000 }
    Withdrawn 0 entry (registerServer ∅ 0 0 entry).2
        (unregisterServer (registerServer ∅ 0 0 entry).2 0 0 entry).2 ↔
      sanitizeBrowserField entry.name BROWSER_NAME_MAX_LEN ≠ [] :=
  unregisterServer_withdraws ∅ 0 0 0 0 { name := ascii "lobby", host := ascii "h", port := 5000 }
    (registerServer_ok_iff.mpr ⟨sendable_registerRequest (by decide), by decide⟩)

theorem unregisterServer_keeps_unnamed :
    ¬ ∀ (directory : Directory) (now staleNow now' staleNow' : TimePoint) (entry : BrowserEntry),
      (registerServer directory now staleNow entry).1 = .ok () →
        Withdrawn now entry (registerServer directory now staleNow entry).2
          (unregisterServer (registerServer directory now staleNow entry).2 now' staleNow'
            entry).2 := by
  intro withdraws
  let unnamed : BrowserEntry := { name := [], host := ascii "h", port := 5000 }
  have registered : (registerServer ∅ 0 0 unnamed).1 = .ok () :=
    registerServer_ok_iff.mpr ⟨sendable_registerRequest (by decide), by decide⟩
  have withdrawn := withdraws ∅ 0 0 0 0 unnamed registered
  have gone := withdrawn.gone
  rw [unregisterServer_eq, if_pos (by decide), withdrawn.listed] at gone
  cases gone

end Requests

end Chatbox.Network
