import Chatbox.Network.Directory

/-!
What the entries of a directory look like to a client that asks for them. Every entry
that can get into a directory has a line that can be sent and read back; a client
takes them all, unless there are so many that the end of the answer is lost.
-/

namespace Chatbox.Network

open Text Protocol

/-- An entry whose fields a line can carry. -/
structure BrowserEntry.Plain (entry : BrowserEntry) : Prop where
  name : Field BROWSER_NAME_MAX_LEN entry.name
  host : Field HOST_MAX_LEN entry.host
  users : 0 ≤ entry.users ∧ entry.users ≤ 2147483647

namespace Directory

variable {directory : Directory} {now staleNow : TimePoint} {entry : BrowserEntry}

def Plain (directory : Directory) : Prop :=
  ∀ (key : Bytes) (entry : BrowserEntry), directory[key]? = some entry → entry.Plain

theorem getElem?_removeStale (directory : Directory) (now : TimePoint) (key : Bytes) :
    (directory.removeStale now)[key]? = directory[key]?.filter (isLive now) := by
  rw [removeStale, Std.ExtTreeMap.getElem?_filter']

theorem Plain.removeStale (h : directory.Plain) (now : TimePoint) :
    (directory.removeStale now).Plain := by
  intro key entry found
  rw [getElem?_removeStale, Option.filter_eq_some_iff] at found
  exact h key entry found.1

theorem Plain.insert (h : directory.Plain) {entry : BrowserEntry} (plain : entry.Plain)
    (key : Bytes) : Plain (Std.ExtTreeMap.insert directory key entry) := by
  intro other found hfound
  rw [OrderedMap.getElem?_insert] at hfound
  split at hfound
  · cases hfound
    exact plain
  · exact h other found hfound

theorem Plain.erase (h : directory.Plain) (key : Bytes) :
    Plain (Std.ExtTreeMap.erase directory key) := by
  intro other found hfound
  rw [Std.ExtTreeMap.getElem?_erase] at hfound
  split at hfound
  · cases hfound
  · exact h other found hfound

theorem plain_name (text : Bytes) : Field BROWSER_NAME_MAX_LEN
    (if (sanitizeBrowserField text BROWSER_NAME_MAX_LEN).isEmpty then ascii "chatbox room"
      else sanitizeBrowserField text BROWSER_NAME_MAX_LEN) := by
  split
  · exact ⟨by decide, by decide +kernel⟩
  · exact Field.sanitize text BROWSER_NAME_MAX_LEN

theorem Plain.register (h : directory.Plain) (now staleNow : TimePoint) (parts : List Bytes) :
    (directory.register now staleNow parts).2.Plain := by
  unfold Directory.register
  split
  · exact h
  · simp only
    split
    · exact h
    · exact (h.removeStale staleNow).insert
        ⟨plain_name _, Field.sanitize _ _, countField_bounds _⟩ _

theorem Plain.unregister (h : directory.Plain) (parts : List Bytes) :
    (directory.unregister parts).2.Plain := by
  unfold Directory.unregister
  split
  · exact h
  · split
    · exact h
    · exact h.erase _

theorem Plain.processRequest (h : directory.Plain) (now staleNow : TimePoint) (request : Bytes) :
    (directory.processRequest now staleNow request).2.Plain := by
  unfold Directory.processRequest
  simp only
  split
  · exact h
  · split
    · exact h.register now staleNow _
    · split
      · exact h.unregister _
      · split
        · exact h.removeStale staleNow
        · exact h

theorem Plain.readRequest (h : directory.Plain) (now staleNow : TimePoint) (line : Bytes) :
    (directory.readRequest now staleNow line).2.Plain := by
  cases decoded : decodeFrame line with
  | error failure => simpa only [Directory.readRequest, decoded] using h
  | ok request =>
      simpa only [Directory.readRequest, decoded] using h.processRequest now staleNow request

theorem Plain.sendRequest (h : directory.Plain) (now staleNow : TimePoint) (request : Bytes) :
    (sendRequest directory now staleNow request).2.Plain := by
  cases encoded : encodeFrame request with
  | error failure => simpa only [Network.sendRequest, encoded] using h
  | ok payload => simpa only [Network.sendRequest, encoded] using h.readRequest now staleNow _

theorem Reachable.plain (h : Reachable directory) : directory.Plain := by
  induction h with
  | empty =>
      intro key entry found
      simp at found
  | request now staleNow line _ ih => exact ih.readRequest now staleNow line

end Directory

section Lines

variable {entry : BrowserEntry}

/-- The number of seconds that an entry is old at a reading of the clock. -/
def ageOf (now : TimePoint) (entry : BrowserEntry) : Int :=
  ((now.val : Int) - entry.updatedAt.val).tdiv 1000000000

theorem natAbs_ageOf (now : TimePoint) (entry : BrowserEntry) :
    (ageOf now entry).natAbs < 10 ^ 10 := by
  have bound : ((now.val : Int) - entry.updatedAt.val).natAbs < 2 ^ 63 := by omega
  rw [ageOf, Int.natAbs_tdiv]
  exact Nat.div_lt_of_lt_mul (by simpa using lt_trans bound (by norm_num))

theorem serverLine_cons (now : TimePoint) (entry : BrowserEntry) : ∃ rest,
    Directory.serverLine now entry = 83 :: rest := by
  rw [Directory.serverLine, fields_cons _ (List.cons_ne_nil _ _)]
  exact ⟨_, rfl⟩

theorem serverLine_goesOn (now : TimePoint) (entry : BrowserEntry) :
    endsResponses (Directory.serverLine now entry) = false := by
  obtain ⟨rest, same⟩ := serverLine_cons now entry
  rw [same]
  simp [endsResponses, ascii, List.isPrefixOf]

theorem sendable_serverLine (plain : entry.Plain) (now : TimePoint) :
    Sendable (Directory.serverLine now entry) := by
  have name := plain.name.length
  have host := plain.host.length
  have port := length_port entry.port
  have users : (toDecimalInt entry.users).length ≤ 11 :=
    length_toDecimalInt_le (by omega) (by have := plain.users; omega)
  have age : (toDecimalInt (ageOf now entry)).length ≤ 11 :=
    length_toDecimalInt_le (by omega) (natAbs_ageOf now entry)
  have word : (ascii "SERVER").length = 6 := by decide
  refine sendable_fields (List.cons_ne_nil _ _) ?_
  simp only [List.map_cons, List.map_nil, List.sum_cons, List.sum_nil, HOST_MAX_LEN,
    BROWSER_NAME_MAX_LEN, word, length_flagField, ageOf] at host name age ⊢
  omega

theorem split_serverLine (plain : entry.Plain) (now : TimePoint) :
    split fieldBar (Directory.serverLine now entry) =
      [ascii "SERVER", entry.name, entry.host, toDecimal entry.port.toNat,
        flagField entry.hasPassword, toDecimalInt entry.users, flagField entry.usesTls,
        toDecimalInt (ageOf now entry)] := by
  refine @split_fields_some [_, _, _, _, _, _, _] _ ?_ (fieldBar_not_mem_toDecimalInt _)
    (toDecimalInt_ne_nil _)
  simp only [List.forall_mem_cons]
  exact ⟨by decide, plain.name.noBar, plain.host.noBar, fieldBar_not_mem_toDecimal _,
    fieldBar_not_mem_flagField _, fieldBar_not_mem_toDecimalInt _, fieldBar_not_mem_flagField _,
    fun _ none => absurd none List.not_mem_nil⟩

/-- What a listing tells of an entry. -/
def BrowserEntry.shown (entry : BrowserEntry) : Bytes × Bytes × UInt16 × Bool × Int × Bool :=
  (entry.name, entry.host, entry.port, entry.hasPassword, entry.users, entry.usesTls)

theorem parseServerLine_serverLine (plain : entry.Plain) (now clientNow : TimePoint) :
    (parseServerLine clientNow (Directory.serverLine now entry)).map BrowserEntry.shown =
      some entry.shown := by
  simp only [parseServerLine, split_serverLine plain, List.length_cons, List.length_nil,
    List.getD_cons_succ, List.getD_cons_zero, parseU16Field_toDecimal, Option.map_some]
  rw [if_neg (by decide)]
  simp only [Option.map_some, BrowserEntry.shown, flagField_eq, countField_toDecimalInt plain.users]

theorem serverLine_ne_end (now : TimePoint) (entry : BrowserEntry) :
    Directory.serverLine now entry ≠ ascii "END" := by
  intro same
  have goesOn := serverLine_goesOn now entry
  rw [same] at goesOn
  exact absurd goesOn (by decide)

variable {entries : List BrowserEntry}

theorem readServers_lines (plain : ∀ entry ∈ entries, entry.Plain) (now clientNow : TimePoint)
    (rest : List Bytes) :
    (readServers clientNow (entries.map (Directory.serverLine now) ++ rest)).map
        (List.map BrowserEntry.shown) =
      (readServers clientNow rest).map fun read =>
        entries.map BrowserEntry.shown ++ read.map BrowserEntry.shown := by
  induction entries with
  | nil => rfl
  | cons entry entries ih =>
      have own := parseServerLine_serverLine (plain entry List.mem_cons_self) now clientNow
      obtain ⟨read, parsed, shown⟩ := Option.map_eq_some_iff.mp own
      have others := ih fun other mem => plain other (List.mem_cons_of_mem entry mem)
      rw [List.map_cons, List.cons_append, readServers, if_neg (serverLine_ne_end now entry), parsed]
      have push (taken : Except Bytes (List BrowserEntry)) :
          (taken.map (read :: ·)).map (List.map BrowserEntry.shown) =
            (taken.map (List.map BrowserEntry.shown)).map (entry.shown :: ·) := by
        cases taken <;> simp [Except.map, shown]
      simp only
      rw [push, others]
      cases readServers clientNow rest <;> rfl

end Lines

section Listing

variable {directory : Directory}

/-- The entries that are left when the directory is looked at. -/
def Directory.live (directory : Directory) (staleNow : TimePoint) : List BrowserEntry :=
  (directory.removeStale staleNow).toList.map Prod.snd

theorem Directory.Plain.live (h : directory.Plain) {staleNow : TimePoint} {entry : BrowserEntry}
    (mem : entry ∈ directory.live staleNow) : entry.Plain := by
  obtain ⟨⟨key, found⟩, listed, rfl⟩ := List.mem_map.mp mem
  exact h.removeStale staleNow key found (Std.ExtTreeMap.mem_toList_iff_getElem?_eq_some.mp listed)

theorem processRequest_list (directory : Directory) (now staleNow : TimePoint) :
    directory.processRequest now staleNow (ascii "LIST") =
      ((directory.live staleNow).map (Directory.serverLine now) ++ [ascii "END"],
        directory.removeStale staleNow) := by
  have parts : split fieldBar (ascii "LIST") = [ascii "LIST"] := by decide
  have other : ascii "LIST" ≠ ascii "REGISTER" := by decide
  have other' : ascii "LIST" ≠ ascii "UNREGISTER" := by decide
  simp only [Directory.processRequest, parts, List.head?_cons, if_neg other, if_neg other', if_true,
    Directory.list, Directory.live, List.map_map]
  rfl

/-- The client gets to see the lines of the live entries and the end, as far as it takes them. -/
theorem listServers_eq (h : directory.Plain) (now staleNow clientNow : TimePoint) :
    listServers directory now staleNow clientNow =
      readServers clientNow (((directory.live staleNow).map (Directory.serverLine now) ++
        [ascii "END"]).take MAX_RESPONSES) := by
  have sent := @sendRequest_eq ((directory.live staleNow).map (Directory.serverLine now)) directory
    now staleNow (ascii "LIST") (ascii "END") (by decide)
    (by rw [processRequest_list])
    (by
      intro line mem
      obtain ⟨entry, live, rfl⟩ := List.mem_map.mp mem
      exact sendable_serverLine (h.live live) now)
    (by
      intro line mem
      obtain ⟨entry, live, rfl⟩ := List.mem_map.mp mem
      exact serverLine_goesOn now entry)
    (by decide) (by decide)
  rw [listServers, sent]

theorem readServers_end (clientNow : TimePoint) : readServers clientNow [ascii "END"] = .ok [] := by
  rw [readServers, if_pos rfl]

theorem listServers_few (h : directory.Plain) {now staleNow clientNow : TimePoint}
    (few : (directory.live staleNow).length < MAX_RESPONSES) :
    ∃ entries, listServers directory now staleNow clientNow = .ok entries ∧
      entries.map BrowserEntry.shown = (directory.live staleNow).map BrowserEntry.shown := by
  have whole : ((directory.live staleNow).map (Directory.serverLine now) ++
      [ascii "END"]).take MAX_RESPONSES =
      (directory.live staleNow).map (Directory.serverLine now) ++ [ascii "END"] := by
    apply List.take_of_length_le
    simpa using few
  have taken := @readServers_lines (directory.live staleNow) (fun entry mem => h.live mem)
    now clientNow [ascii "END"]
  rw [listServers_eq h, whole]
  rw [readServers_end] at taken
  cases read : readServers clientNow
      ((directory.live staleNow).map (Directory.serverLine now) ++ [ascii "END"]) with
  | error failure =>
      rw [read] at taken
      cases taken
  | ok entries =>
      rw [read] at taken
      exact ⟨entries, rfl, by simpa [Except.map] using taken⟩

theorem listServers_many (h : directory.Plain) {now staleNow clientNow : TimePoint}
    (many : MAX_RESPONSES ≤ (directory.live staleNow).length) :
    listServers directory now staleNow clientNow =
      .error (ascii "Browser response did not include END") := by
  have cut : ((directory.live staleNow).map (Directory.serverLine now) ++
      [ascii "END"]).take MAX_RESPONSES =
      ((directory.live staleNow).take MAX_RESPONSES).map (Directory.serverLine now) ++ [] := by
    rw [List.take_append_of_le_length (by simpa using many), List.map_take, List.append_nil]
  have taken := @readServers_lines ((directory.live staleNow).take MAX_RESPONSES)
    (fun entry mem => h.live (List.mem_of_mem_take mem)) now clientNow []
  rw [listServers_eq h, cut]
  cases read : readServers clientNow
      (((directory.live staleNow).take MAX_RESPONSES).map (Directory.serverLine now) ++ []) with
  | error failure =>
      rw [read] at taken
      simpa [Except.map, readServers] using taken
  | ok entries =>
      rw [read] at taken
      cases taken

/-- A client gets exactly the live entries as long as they are fewer than the responses
it takes, and nothing otherwise. -/
theorem listServers_reachable (directory : Directory) (h : Directory.Reachable directory)
    (now staleNow clientNow : TimePoint) :
    ((directory.live staleNow).length < MAX_RESPONSES →
      ∃ entries, listServers directory now staleNow clientNow = .ok entries ∧
        entries.map BrowserEntry.shown = (directory.live staleNow).map BrowserEntry.shown) ∧
    (MAX_RESPONSES ≤ (directory.live staleNow).length →
      listServers directory now staleNow clientNow =
        .error (ascii "Browser response did not include END")) :=
  ⟨listServers_few h.plain, listServers_many h.plain⟩

theorem reachable_register (h : Directory.Reachable directory) (now staleNow : TimePoint)
    {entry : BrowserEntry} (sendable : Sendable (registerRequest entry))
    (host : sanitizeBrowserField entry.host HOST_MAX_LEN ≠ []) :
    Directory.Reachable ((directory.removeStale staleNow).insert (listingOf now entry).key
      (listingOf now entry)) := by
  have next := h.request now staleNow (encodeBlocks (registerRequest entry))
  rwa [readRequest_line sendable, processRequest_register, if_neg host] at next

def moment (nanoseconds : Nat) : TimePoint := ⟨nanoseconds % 2 ^ 63, Nat.mod_lt _ (by decide)⟩

/-- The first of three entries has gone stale. -/
theorem listServers_reachable_three :
    let lobby : BrowserEntry := { name := ascii "lobby", host := ascii "h", port := 5000 }
    let arena : BrowserEntry := { name := ascii "arena", host := ascii "h", users := 3 }
    let hall : BrowserEntry := { name := [], host := ascii "g", port := 5000, hasPassword := true }
    let first := moment 0
    let second := moment 100000000000
    let third := moment 150000000000
    let asked := moment 200000000000
    let opened := (Directory.readRequest ∅ first first (encodeBlocks (registerRequest lobby))).2
    let joined := (opened.readRequest second second (encodeBlocks (registerRequest arena))).2
    let directory := (joined.readRequest third third (encodeBlocks (registerRequest hall))).2
    ∃ entries, listServers directory asked asked asked = .ok entries ∧
      entries.map BrowserEntry.shown =
        [(listingOf third hall).shown, (listingOf second arena).shown] := by
  intro lobby arena hall first second third asked opened joined directory
  have reachable : Directory.Reachable directory :=
    .request third third _ (.request second second _ (.request first first _ .empty))
  obtain ⟨entries, answer, shown⟩ :=
    (listServers_reachable directory reachable asked asked asked).1 (by decide +kernel)
  exact ⟨entries, answer, shown.trans (by decide +kernel)⟩

/-- A directory with `n` entries, numbered, all of the same age. -/
structure Numbered (n : Nat) (directory : Directory) : Prop where
  reachable : Directory.Reachable directory
  size : directory.size = n
  fresh : ∀ (key : Bytes) (entry : BrowserEntry), directory[key]? = some entry → entry.updatedAt = 0
  keys : ∀ key ∈ directory, ∃ i < n, key = browserEntryKey (ascii "h") 0 (toDecimal i)

theorem removeStale_fresh
    (fresh : ∀ (key : Bytes) (entry : BrowserEntry), directory[key]? = some entry →
      entry.updatedAt = 0) : directory.removeStale 0 = directory := by
  refine Std.ExtTreeMap.ext_getElem? fun key => ?_
  rw [Directory.getElem?_removeStale]
  cases found : directory[key]? with
  | none => rfl
  | some entry =>
      rw [Option.filter_some, if_pos]
      rw [Directory.isLive, fresh key entry found]
      decide

theorem field_toDecimal {n : Nat} (small : n < 10 ^ 48) :
    Field BROWSER_NAME_MAX_LEN (toDecimal n) := by
  refine ⟨length_toDecimal_le (by decide) small, fun ch mem => ?_⟩
  have plain : isDigit ch = true → isCntrl ch = false ∧ ch ≠ fieldBar :=
    @forall_byte (fun ch => isDigit ch = true → isCntrl ch = false ∧ ch ≠ fieldBar)
      (by decide +kernel) ch
  exact plain (toDecimal_isDigit mem)

theorem Numbered.next {n : Nat} (h : Numbered n directory) (small : n < 10 ^ 48) :
    ∃ after, Numbered (n + 1) after := by
  let entry : BrowserEntry := { name := toDecimal n, host := ascii "h" }
  have name : sanitizeBrowserField (toDecimal n) BROWSER_NAME_MAX_LEN = toDecimal n :=
    (field_toDecimal small).sanitize_eq
  have key : (listingOf 0 entry).key = browserEntryKey (ascii "h") 0 (toDecimal n) := by
    simp only [BrowserEntry.key, listingOf, entry, name, List.isEmpty_iff,
      if_neg (toDecimal_ne_nil n)]
    rfl
  have host : sanitizeBrowserField (ascii "h") HOST_MAX_LEN ≠ [] := by decide
  have next := @reachable_register directory h.reachable 0 0 entry
    (sendable_registerRequest (by simp [entry])) host
  rw [removeStale_fresh h.fresh, key] at next
  have new : browserEntryKey (ascii "h") 0 (toDecimal n) ∉ directory := by
    intro mem
    obtain ⟨i, before, same⟩ := h.keys _ mem
    have numbers : toDecimal n = toDecimal i := by simpa [browserEntryKey] using same
    have value := toDecimal_injective numbers
    omega
  refine ⟨_, next, ?_, fun other found => ?_, fun other => ?_⟩
  · rw [Std.ExtTreeMap.size_insert, if_neg (by simpa using new), h.size]
  · rw [OrderedMap.getElem?_insert]
    split
    · intro same
      cases same
      rfl
    · exact h.fresh other found
  · rw [Std.ExtTreeMap.mem_insert]
    intro mem
    rcases mem with same | mem
    · exact ⟨n, by omega, (Std.LawfulEqCmp.compare_eq_iff_eq.mp same).symm⟩
    · obtain ⟨i, before, same⟩ := h.keys other mem
      exact ⟨i, by omega, same⟩

theorem exists_numbered (n : Nat) (small : n < 10 ^ 48) : ∃ directory, Numbered n directory := by
  induction n with
  | zero => exact ⟨∅, .empty, rfl, by simp, by simp⟩
  | succ n ih =>
      obtain ⟨directory, numbered⟩ := ih (by omega)
      exact numbered.next (by omega)

/-- With a thousand entries there is no room for the end of the answer. -/
theorem listServers_thousand :
    ¬ ∀ directory, Directory.Reachable directory → ∀ now staleNow clientNow : TimePoint,
      ∃ entries, listServers directory now staleNow clientNow = .ok entries ∧
        entries.map BrowserEntry.shown = (directory.live staleNow).map BrowserEntry.shown := by
  intro all
  obtain ⟨directory, numbered⟩ := exists_numbered 1000 (by norm_num)
  have thousand : (directory.live 0).length = 1000 := by
    rw [Directory.live, removeStale_fresh numbered.fresh, List.length_map,
      Std.ExtTreeMap.length_toList, numbered.size]
  obtain ⟨entries, taken, -⟩ := all directory numbered.reachable 0 0 0
  rw [listServers_many numbered.reachable.plain thousand.ge] at taken
  cases taken

end Listing

end Chatbox.Network
