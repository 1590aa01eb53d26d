import Chatbox.Lib.Lease
import Chatbox.Lib.Run
import Chatbox.Network.Listing

/-!
The directory against the history of its requests. Entries are put, replaced and removed
by host, port and name, and those that have grown stale are dropped only when somebody
registers or asks; yet what is listed is at any time what the last accepted requests
say is there.
-/

namespace Chatbox.Network

open Text Protocol Lease

/-- `entries()` -/
def Directory.entries (directory : Directory) (now : TimePoint) : List BrowserEntry :=
  (directory.toList.map fun item => item.2).filter (Directory.isLive now)

/-- What an entry is filed under. The host has no bar. -/
structure Triple where
  host : Bytes
  port : UInt16
  name : Bytes
  plain : fieldBar ∉ host
deriving DecidableEq

namespace Triple

/-- The fields as a request gives them. -/
def sanitized (host : Bytes) (port : UInt16) (name : Bytes) : Triple where
  host := sanitizeBrowserField host HOST_MAX_LEN
  port
  name := sanitizeBrowserField name BROWSER_NAME_MAX_LEN
  plain := (Field.sanitize _ _).noBar

def key (triple : Triple) : Bytes := browserEntryKey triple.host triple.port triple.name

theorem append_bar {front front' rest rest' : Bytes} (plain : fieldBar ∉ front)
    (plain' : fieldBar ∉ front') (same : front ++ fieldBar :: rest = front' ++ fieldBar :: rest') :
    front = front' ∧ rest = rest' := by
  have parts := congrArg (split fieldBar) same
  rw [split_item plain, split_item plain', List.cons.injEq] at parts
  obtain ⟨rfl, -⟩ := parts
  exact ⟨rfl, by simpa using same⟩

/-- Different triples have different keys. -/
theorem key_injective {a b : Triple} (same : a.key = b.key) : a = b := by
  obtain ⟨host, rest⟩ := append_bar a.plain b.plain same
  obtain ⟨port, name⟩ := append_bar (fieldBar_not_mem_toDecimal _) (fieldBar_not_mem_toDecimal _)
    rest
  have port := UInt16.toNat_inj.mp (toDecimal_injective port)
  cases a
  cases b
  simp_all

end Triple

def BrowserEntry.triple (entry : BrowserEntry) : Triple :=
  .sanitized entry.host entry.port entry.name

/-- The fields of a REGISTER request, for the time it is made at. -/
def registered (now : TimePoint) (parts : List Bytes) : BrowserEntry :=
  let name := sanitizeBrowserField (parts.getD 1 []) BROWSER_NAME_MAX_LEN
  { name := if name.isEmpty then ascii "chatbox room" else name
    host := sanitizeBrowserField (parts.getD 2 []) HOST_MAX_LEN
    port := (parseU16Field (parts.getD 3 [])).getD 0
    hasPassword := parts.getD 4 [] == ascii "1"
    users := countField (parts.getD 5 [])
    usesTls := parts.getD 6 [] == ascii "1"
    updatedAt := now }

/-- What a REGISTER or an UNREGISTER asks for. -/
def requested (now : TimePoint) (request : Bytes) : Operation Triple BrowserEntry :=
  let parts := split fieldBar request
  if parts.head? = some (ascii "REGISTER") then
    .put (registered now parts).triple (registered now parts)
  else
    .remove (.sanitized (parts.getD 1 []) ((parseU16Field (parts.getD 2 [])).getD 0)
      (parts.getD 3 []))

/-- A REGISTER with all its fields, a host and a port, or an UNREGISTER with its fields and a
port. -/
def Acceptable (request : Bytes) : Prop :=
  let parts := split fieldBar request
  (parts.head? = some (ascii "REGISTER") ∧ 7 ≤ parts.length ∧
    sanitizeBrowserField (parts.getD 2 []) HOST_MAX_LEN ≠ [] ∧
      (parseU16Field (parts.getD 3 [])).isSome) ∨
  (parts.head? = some (ascii "UNREGISTER") ∧ 4 ≤ parts.length ∧
    (parseU16Field (parts.getD 2 [])).isSome)

/-- A directory with the requests it has accepted, and the time of the last one. -/
structure Ledger where
  directory : Directory := ∅
  clock : TimePoint := 0
  history : List (Operation Triple BrowserEntry) := []

structure Call where
  now : TimePoint
  staleNow : TimePoint
  request : Bytes

namespace Ledger

/-- REGISTER and UNREGISTER are answered with OK when they are accepted. -/
def step (ledger : Ledger) (call : Call) : Option Ledger :=
  if ledger.clock ≤ call.now ∧ call.now ≤ call.staleNow then
    let (responses, directory) :=
      ledger.directory.processRequest call.now call.staleNow call.request
    some {
      directory
      clock := call.staleNow
      history := ledger.history ++
        if responses = [ascii "OK"] then [requested call.now call.request] else [] }
  else none

end Ledger

section Requests

variable {directory : Directory} {now staleNow : TimePoint} {request : Bytes}

theorem registered_plain (now : TimePoint) (parts : List Bytes) : (registered now parts).Plain :=
  ⟨Directory.plain_name _, Field.sanitize _ _, countField_bounds _⟩

theorem BrowserEntry.Plain.triple_key {entry : BrowserEntry} (plain : entry.Plain) :
    entry.triple.key = entry.key := by
  simp only [Triple.key, BrowserEntry.triple, Triple.sanitized, plain.host.sanitize_eq,
    plain.name.sanitize_eq, BrowserEntry.key]

theorem register_cases (directory : Directory) (now staleNow : TimePoint) (parts : List Bytes) :
    directory.register now staleNow parts = ([ascii "OK"],
        (directory.removeStale staleNow).insert (registered now parts).triple.key
          (registered now parts)) ∨
      ∃ text, directory.register now staleNow parts = ([ascii "ERROR|" ++ text], directory) := by
  have key := (registered_plain now parts).triple_key
  by_cases short : parts.length < 7
  · rw [Directory.register, if_pos short]
    exact .inr ⟨ascii "REGISTER requires name, host, port, password flag, users, and TLS flag", rfl⟩
  · rw [Directory.register, if_neg short]
    dsimp only
    split
    · exact .inr ⟨ascii "Invalid host or port", rfl⟩
    · next port parsed =>
        rw [Option.ite_none_left_eq_some] at parsed
        refine .inl ?_
        rw [key]
        simp only [BrowserEntry.key, registered, parsed.2, Option.getD_some]

theorem unregister_cases (directory : Directory) (parts : List Bytes) :
    directory.unregister parts = ([ascii "OK"], directory.erase
        (Triple.sanitized (parts.getD 1 []) ((parseU16Field (parts.getD 2 [])).getD 0)
          (parts.getD 3 [])).key) ∨
      ∃ text, directory.unregister parts = ([ascii "ERROR|" ++ text], directory) := by
  by_cases short : parts.length < 4
  · rw [Directory.unregister, if_pos short]
    exact .inr ⟨ascii "UNREGISTER requires host, port, name", rfl⟩
  · rw [Directory.unregister, if_neg short]
    cases parsed : parseU16Field (parts.getD 2 []) with
    | none => exact .inr ⟨ascii "Invalid port", rfl⟩
    | some port => exact .inl rfl

/-- The ways in which a request can go. -/
theorem processRequest_cases (directory : Directory) (now staleNow : TimePoint) (request : Bytes) :
    (∃ entry : BrowserEntry, entry.Plain ∧ requested now request = .put entry.triple entry ∧
      directory.processRequest now staleNow request =
        ([ascii "OK"], (directory.removeStale staleNow).insert entry.triple.key entry)) ∨
    (∃ triple, requested now request = .remove triple ∧
      directory.processRequest now staleNow request =
        ([ascii "OK"], directory.erase triple.key)) ∨
    ((split fieldBar request).head? = some (ascii "LIST") ∧
      directory.processRequest now staleNow request = directory.list now staleNow) ∨
    ∃ text, directory.processRequest now staleNow request = ([ascii "ERROR|" ++ text], directory) := by
  simp only [Directory.processRequest, requested]
  cases head : (split fieldBar request).head? with
  | none => exact .inr (.inr (.inr ⟨ascii "Empty request", rfl⟩))
  | some command =>
      dsimp only
      by_cases registers : command = ascii "REGISTER"
      · subst registers
        rw [if_pos rfl, if_pos rfl]
        rcases register_cases directory now staleNow (split fieldBar request) with accepted | refused
        · exact .inl ⟨_, registered_plain now _, rfl, accepted⟩
        · exact .inr (.inr (.inr refused))
      · rw [if_neg registers, if_neg fun same => registers (Option.some.inj same)]
        by_cases unregisters : command = ascii "UNREGISTER"
        · rw [if_pos unregisters]
          rcases unregister_cases directory (split fieldBar request) with accepted | refused
          · exact .inr (.inl ⟨_, rfl, accepted⟩)
          · exact .inr (.inr (.inr refused))
        · rw [if_neg unregisters]
          by_cases lists : command = ascii "LIST"
          · rw [if_pos lists, lists]
            exact .inr (.inr (.inl ⟨rfl, rfl⟩))
          · rw [if_neg lists]
            exact .inr (.inr (.inr ⟨ascii "Unknown request", rfl⟩))

theorem list_ne_ok (directory : Directory) (now staleNow : TimePoint) :
    (directory.list now staleNow).1 ≠ [ascii "OK"] := by
  intro same
  have last := congrArg List.getLast? same
  rw [Directory.list, List.getLast?_append, List.getLast?_singleton, Option.some_or,
    List.getLast?_singleton] at last
  exact absurd (Option.some.inj last) (by decide)

theorem list_ne_error (directory : Directory) (now staleNow : TimePoint) (text : Bytes) :
    (directory.list now staleNow).1 ≠ [ascii "ERROR|" ++ text] := by
  intro same
  have last := congrArg List.getLast? same
  rw [Directory.list, List.getLast?_append, List.getLast?_singleton, Option.some_or,
    List.getLast?_singleton] at last
  have second := congrArg (fun line : Bytes => (line.drop 1).head?) (Option.some.inj last)
  have error : ((ascii "ERROR|" ++ text).drop 1).head? = some 82 := rfl
  rw [error] at second
  exact absurd second (by decide)

theorem processRequest_of_list (directory : Directory) (now staleNow : TimePoint) {request : Bytes}
    (lists : (split fieldBar request).head? = some (ascii "LIST")) :
    directory.processRequest now staleNow request = directory.list now staleNow := by
  have other : ascii "LIST" ≠ ascii "REGISTER" := by decide
  have other' : ascii "LIST" ≠ ascii "UNREGISTER" := by decide
  simp only [Directory.processRequest, lists, if_neg other, if_neg other', if_true]

theorem error_ne_ok (text : Bytes) : [ascii "ERROR|" ++ text] ≠ [ascii "OK"] := by
  intro same
  have first := congrArg List.head? (List.cons.inj same).1
  have error : (ascii "ERROR|" ++ text).head? = some 69 := rfl
  rw [error] at first
  exact absurd first (by decide)

theorem register_ok_iff (parts : List Bytes) :
    (directory.register now staleNow parts).1 = [ascii "OK"] ↔ 7 ≤ parts.length ∧
      sanitizeBrowserField (parts.getD 2 []) HOST_MAX_LEN ≠ [] ∧
        (parseU16Field (parts.getD 3 [])).isSome := by
  unfold Directory.register
  split
  · next short =>
      refine iff_of_false ?_ fun enough => absurd enough.1 (Nat.not_le.mpr short)
      exact error_ne_ok
        (ascii "REGISTER requires name, host, port, password flag, users, and TLS flag")
  · next enough =>
      dsimp only
      split
      · next none =>
          refine iff_of_false (error_ne_ok (ascii "Invalid host or port")) fun fits => ?_
          rw [if_neg (by simpa using fits.2.1)] at none
          rw [none] at fits
          cases fits.2.2
      · next port some =>
          rw [Option.ite_none_left_eq_some] at some
          refine iff_of_true rfl ⟨Nat.not_lt.mp enough, by simpa using some.1, ?_⟩
          rw [some.2]
          rfl

theorem unregister_ok_iff (parts : List Bytes) :
    (directory.unregister parts).1 = [ascii "OK"] ↔
      4 ≤ parts.length ∧ (parseU16Field (parts.getD 2 [])).isSome := by
  unfold Directory.unregister
  split
  · next short =>
      refine iff_of_false ?_ fun enough => absurd enough.1 (Nat.not_le.mpr short)
      exact error_ne_ok (ascii "UNREGISTER requires host, port, name")
  · next enough =>
      cases parseU16Field (parts.getD 2 []) with
      | none => exact iff_of_false (error_ne_ok (ascii "Invalid port")) fun fits => by cases fits.2
      | some port => exact iff_of_true rfl ⟨Nat.not_lt.mp enough, rfl⟩

/-- The requests that are accepted do not depend on the entries. -/
theorem processRequest_ok_iff :
    (directory.processRequest now staleNow request).1 = [ascii "OK"] ↔ Acceptable request := by
  have apart : ascii "UNREGISTER" ≠ ascii "REGISTER" := by decide
  simp only [Directory.processRequest, Acceptable]
  cases head : (split fieldBar request).head? with
  | none =>
      refine iff_of_false (error_ne_ok (ascii "Empty request")) ?_
      simp
  | some command =>
      dsimp only
      by_cases registers : command = ascii "REGISTER"
      · subst registers
        rw [if_pos rfl, register_ok_iff]
        simp [apart.symm]
      · rw [if_neg registers]
        by_cases unregisters : command = ascii "UNREGISTER"
        · subst unregisters
          rw [if_pos rfl, unregister_ok_iff]
          simp [apart]
        · rw [if_neg unregisters]
          refine iff_of_false ?_ (by simp [registers, unregisters])
          split
          · exact list_ne_ok directory now staleNow
          · exact error_ne_ok (ascii "Unknown request")

end Requests

section Filing

variable {directory : Directory} {now now' : TimePoint}

def Directory.held (directory : Directory) (triple : Triple) : Option BrowserEntry :=
  directory[triple.key]?

theorem isLive_later (order : now ≤ now') {entry : BrowserEntry}
    (live : Directory.isLive now' entry = true) : Directory.isLive now entry = true := by
  have order : now.val ≤ now'.val := order
  simp only [Directory.isLive, decide_eq_true_eq] at live ⊢
  omega

theorem held_insert (directory : Directory) (triple : Triple) (entry : BrowserEntry) :
    Directory.held (directory.insert triple.key entry) =
      Function.update directory.held triple (some entry) := by
  funext other
  rw [Directory.held, OrderedMap.getElem?_insert]
  by_cases same : triple = other
  · subst same
    rw [if_pos rfl, Function.update_self]
  · rw [if_neg fun keys => same (Triple.key_injective keys), Function.update_of_ne (Ne.symm same)]
    rfl

theorem held_erase (directory : Directory) (triple : Triple) :
    Directory.held (directory.erase triple.key) = Function.update directory.held triple none := by
  funext other
  rw [Directory.held, Std.ExtTreeMap.getElem?_erase]
  by_cases same : triple = other
  · subst same
    rw [Function.update_self]
    simp
  · have keys : triple.key ≠ other.key := fun keys => same (Triple.key_injective keys)
    rw [Function.update_of_ne (Ne.symm same), if_neg (by simpa using keys)]
    rfl

theorem held_removeStale (directory : Directory) (now : TimePoint) :
    (directory.removeStale now).held = fun triple =>
      (directory.held triple).filter (Directory.isLive now) := by
  funext triple
  exact Directory.getElem?_removeStale directory now triple.key

/-- Every entry is filed under its own triple, and the directory has what the history
says, up to what has died by the last request. -/
structure Ledger.Filed (ledger : Ledger) : Prop where
  plain : ledger.directory.Plain
  keyed : ∀ (key : Bytes) (entry : BrowserEntry), ledger.directory[key]? = some entry →
    key = entry.triple.key
  keeps : Keeps (Directory.isLive ledger.clock) ledger.history ledger.directory.held

theorem keyed_removeStale {directory : Directory}
    (keyed : ∀ (key : Bytes) (entry : BrowserEntry), directory[key]? = some entry →
      key = entry.triple.key) (now : TimePoint) (key : Bytes) (entry : BrowserEntry)
    (found : (directory.removeStale now)[key]? = some entry) : key = entry.triple.key := by
  rw [Directory.getElem?_removeStale, Option.filter_eq_some_iff] at found
  exact keyed key entry found.1

theorem Ledger.Filed.step {ledger ledger' : Ledger} {call : Call} (filed : ledger.Filed)
    (h : ledger.step call = some ledger') : ledger'.Filed := by
  simp only [Ledger.step, Option.ite_none_right_eq_some] at h
  obtain ⟨⟨before, within⟩, h⟩ := h
  obtain rfl := Option.some.inj h
  have plain := filed.plain.processRequest call.now call.staleNow call.request
  have keeps := filed.keeps.later (fun entry live => isLive_later (before.trans within) live)
  obtain ⟨entry, -, request, answer⟩ | ⟨triple, request, answer⟩ | ⟨-, answer⟩ | ⟨text, answer⟩ :=
    processRequest_cases ledger.directory call.now call.staleNow call.request
  · rw [answer] at plain ⊢
    refine ⟨plain, ?_, ?_⟩
    · intro key other found
      rw [OrderedMap.getElem?_insert] at found
      split at found
      · next own =>
          obtain rfl := Option.some.inj found
          exact own.symm
      · exact keyed_removeStale filed.keyed call.staleNow key other found
    · dsimp only
      rw [if_pos rfl, request, held_insert, held_removeStale]
      exact keeps.prune.append (.put entry.triple entry)
  · rw [answer] at plain ⊢
    refine ⟨plain, ?_, ?_⟩
    · intro key other found
      rw [Std.ExtTreeMap.getElem?_erase, Option.ite_none_left_eq_some] at found
      exact filed.keyed key other found.2
    · dsimp only
      rw [if_pos rfl, request, held_erase]
      exact keeps.append (.remove triple)
  · rw [answer] at plain ⊢
    rw [if_neg (list_ne_ok _ _ _), List.append_nil]
    refine ⟨plain, keyed_removeStale filed.keyed call.staleNow, ?_⟩
    dsimp only [Directory.list]
    rw [held_removeStale]
    exact keeps.prune
  · rw [answer] at plain ⊢
    rw [if_neg (error_ne_ok text), List.append_nil]
    exact ⟨plain, filed.keyed, keeps⟩

end Filing

section Listing

variable {ledger : Ledger} {calls : List Call}

theorem run_filed (h : Run.run Ledger.step {} calls = some ledger) : ledger.Filed := by
  refine Run.run_invariant (fun _ _ _ filed stepped => filed.step stepped) h ⟨?_, ?_, ?_⟩
  · intro key entry found
    simp at found
  · intro key entry found
    simp at found
  · have none : Directory.held ∅ = fun _ => none := by
      funext triple
      simp [Directory.held]
    rw [none]
    exact .empty _

theorem entries_eq_live (directory : Directory) (now : TimePoint) :
    directory.entries now = directory.live now := by
  rw [Directory.entries, Directory.live, Directory.removeStale, Std.ExtTreeMap.toList_filter,
    List.filter_map]
  rfl

theorem mem_entries {directory : Directory} {now : TimePoint} {entry : BrowserEntry} :
    entry ∈ directory.entries now ↔
      (∃ key : Bytes, directory[key]? = some entry) ∧ Directory.isLive now entry = true := by
  rw [Directory.entries, List.mem_filter]
  refine and_congr_left fun _ => ?_
  simp only [List.mem_map, Prod.exists, exists_eq_right,
    Std.ExtTreeMap.mem_toList_iff_getElem?_eq_some]

theorem Ledger.Filed.mem_entries_iff (filed : ledger.Filed) {now : TimePoint}
    (order : ledger.clock ≤ now) (entry : BrowserEntry) :
    entry ∈ ledger.directory.entries now ↔
      latest ledger.history entry.triple = some entry ∧ Directory.isLive now entry = true := by
  have keeps := filed.keeps.later (fun _ live => isLive_later order live)
  rw [mem_entries]
  constructor
  · rintro ⟨⟨key, found⟩, live⟩
    refine ⟨keeps.sound _ _ ?_, live⟩
    rw [Directory.held, ← filed.keyed key entry found, found]
  · rintro ⟨last, live⟩
    exact ⟨⟨_, keeps.complete _ _ last live⟩, live⟩

/-- No triple is listed twice. -/
theorem Ledger.Filed.nodup (filed : ledger.Filed) (now : TimePoint) :
    ((ledger.directory.entries now).map BrowserEntry.triple).Nodup := by
  have filtered : (ledger.directory.entries now).Sublist
      (ledger.directory.toList.map fun item => item.2) := List.filter_sublist
  refine (filtered.map BrowserEntry.triple).nodup ?_
  rw [List.map_map, List.Nodup, List.pairwise_map]
  refine (Std.ExtTreeMap.distinct_keys_toList (t := ledger.directory)).imp_of_mem ?_
  intro a b first second apart same
  have keyA := filed.keyed a.1 a.2 (Std.ExtTreeMap.mem_toList_iff_getElem?_eq_some.mp first)
  have keyB := filed.keyed b.1 b.2 (Std.ExtTreeMap.mem_toList_iff_getElem?_eq_some.mp second)
  have keys : a.1 = b.1 := keyA.trans ((congrArg Triple.key same).trans keyB.symm)
  exact apart (by simp [keys])

/-- After any requests, what LIST and `entries` show is what the last accepted request
on each triple has put there, while it is fresh; each triple has an entry of its own, a
refused request does nothing, and the others are those that can be understood. -/
theorem run_listed (h : Run.run Ledger.step {} calls = some ledger) (now staleNow : TimePoint)
    (order : ledger.clock ≤ staleNow) :
    (∀ request, (split fieldBar request).head? = some (ascii "LIST") →
      (ledger.directory.processRequest now staleNow request).1 =
        (ledger.directory.entries staleNow).map (Directory.serverLine now) ++ [ascii "END"]) ∧
    (∀ entry, entry ∈ ledger.directory.entries staleNow ↔
      latest ledger.history entry.triple = some entry ∧
        (staleNow.val : Int) - entry.updatedAt.val ≤ BROWSER_ENTRY_TTL_SECONDS * 1000000000) ∧
    ((ledger.directory.entries staleNow).map BrowserEntry.triple).Nodup ∧
    (∀ a b : Triple, a ≠ b → a.key ≠ b.key) ∧
    (∀ request text,
      (ledger.directory.processRequest now staleNow request).1 = [ascii "ERROR|" ++ text] →
      (ledger.directory.processRequest now staleNow request).2 = ledger.directory) ∧
    (∀ request, (ledger.directory.processRequest now staleNow request).1 = [ascii "OK"] ↔
      Acceptable request) := by
  have filed := run_filed h
  refine ⟨?_, ?_, filed.nodup staleNow, fun a b apart keys => apart (Triple.key_injective keys),
    ?_, fun _ => processRequest_ok_iff⟩
  · intro request lists
    have list := processRequest_of_list ledger.directory now staleNow lists
    rw [list, Directory.list, entries_eq_live, Directory.live, List.map_map]
    rfl
  · intro entry
    rw [filed.mem_entries_iff order entry, Directory.isLive, decide_eq_true_eq]
  · intro request text refused
    obtain ⟨_, -, -, answer⟩ | ⟨_, -, answer⟩ | ⟨-, answer⟩ | ⟨_, answer⟩ :=
      processRequest_cases ledger.directory now staleNow request
    · rw [answer] at refused
      exact absurd refused.symm (error_ne_ok text)
    · rw [answer] at refused
      exact absurd refused.symm (error_ne_ok text)
    · rw [answer] at refused
      exact absurd refused (list_ne_error _ _ _ text)
    · rw [answer]

/-- Two servers register and one of them leaves; a third comes later, and the first is not heard
of again. -/
def ledgerCalls : List Call :=
  [⟨moment 0, moment 1, ascii "REGISTER|room|host|7777|0|1|1"⟩,
    ⟨moment 2, moment 3, ascii "REGISTER|lobby|host|7777|1|2|0"⟩,
    ⟨moment 4, moment 5, ascii "UNREGISTER|host|7777|lobby"⟩,
    ⟨moment 6, moment 7, ascii "REGISTER|lobby||7777|1|2|0"⟩,
    ⟨moment 100000000000, moment 100000000000, ascii "REGISTER|arena|other|7778|0|3|1"⟩]

theorem run_listed_three :
    let room : BrowserEntry :=
      { name := ascii "room", host := ascii "host", port := 7777, users := 1
        updatedAt := moment 0 }
    let lobby : BrowserEntry :=
      { name := ascii "lobby", host := ascii "host", port := 7777, hasPassword := true
        usesTls := false, users := 2, updatedAt := moment 2 }
    let arena : BrowserEntry :=
      { name := ascii "arena", host := ascii "other", port := 7778, users := 3
        updatedAt := moment 100000000000 }
    ∃ ledger, Run.run Ledger.step {} ledgerCalls = some ledger ∧
      room ∈ ledger.directory.entries (moment 150000000000) ∧
      room ∉ ledger.directory.entries (moment 190000000000) ∧
      lobby ∉ ledger.directory.entries (moment 150000000000) ∧
      arena ∈ ledger.directory.entries (moment 190000000000) := by
  intro room lobby arena
  have ends : (Run.run Ledger.step {} ledgerCalls).any (fun ledger =>
      decide (ledger.clock ≤ moment 150000000000) &&
      decide (latest ledger.history room.triple = some room) &&
      decide (latest ledger.history lobby.triple = none) &&
      decide (latest ledger.history arena.triple = some arena)) = true := by decide +kernel
  obtain ⟨ledger, run, state⟩ := (Option.any_eq_true _ _).mp ends
  simp only [Bool.and_eq_true, decide_eq_true_eq] at state
  obtain ⟨⟨⟨order, roomLast⟩, lobbyGone⟩, arenaLast⟩ := state
  have later : moment 150000000000 ≤ moment 190000000000 := by decide
  obtain ⟨-, early, -⟩ := run_listed run (moment 150000000000) (moment 150000000000) order
  obtain ⟨-, late, -⟩ :=
    run_listed run (moment 190000000000) (moment 190000000000) (order.trans later)
  refine ⟨ledger, run, (early room).mpr ⟨roomLast, by decide⟩, ?_, ?_,
    (late arena).mpr ⟨arenaLast, by decide⟩⟩
  · intro listed
    exact absurd ((late room).mp listed).2 (by decide)
  · intro listed
    have last := ((early lobby).mp listed).1
    rw [lobbyGone] at last
    cases last

end Listing

end Chatbox.Network
