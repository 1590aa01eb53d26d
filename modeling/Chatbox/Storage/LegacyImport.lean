import Chatbox.Chat.Environment
import Chatbox.Lib.Fields
import Chatbox.Storage.Batch
import Chatbox.Storage.Database

/-!
The import of the text files of a server without a database. Both kinds of file go into one
transaction, which leaves a mark for each kind that it has read; a kind that is marked is not
read again. Any statement may fail, and then nothing has happened.
-/

namespace Chatbox.Storage

open Text Protocol

inductive LegacyKind where
  | bans
  | identities
deriving DecidableEq, Repr

/-- The database with the table of the kinds that have been imported. -/
structure LegacyStore where
  db : Database
  legacyImports : List LegacyKind

/-- A file that is to be imported: none, one that does not open, or its contents. -/
inductive LegacyFile where
  | notRequested
  | missing
  | contents (text : Bytes)
deriving DecidableEq, Repr

structure ImportResult where
  bans : Nat := 0
  identities : Nat := 0
  bansAlreadyImported : Bool := false
  identitiesAlreadyImported : Bool := false
deriving DecidableEq, Repr

/-- A call of `import_legacy_files`: its files, the clock at each of its statements, and the
error of each statement that fails. -/
structure ImportCall where
  bans : LegacyFile
  identities : LegacyFile
  unixSeconds : Nat → Int
  fails : Nat → Option Bytes

/-- What the transaction has done so far, and the number of its statements. -/
structure ImportState where
  store : LegacyStore
  result : ImportResult := {}
  statements : Nat := 0

/-- A ban by name. -/
def importedBan (nickname : Bytes) (createdAt : Int) : StoredBan :=
  { nickname, reason := [], createdAt, expiresAt := none }

/-- The binding that a line of the identity file stands for. -/
def identityEntry (line : Bytes) : Option (Bytes × Bytes) :=
  match split pipe line with
  | [nickname, publicKey] =>
      if isValidNickname nickname && Chat.isHexOfLen publicKey Chat.cryptoSignPublicKeyBytes then
        some (nickname, publicKey)
      else none
  | _ => none

namespace Database

variable (db : Database)

/-- `INSERT OR IGNORE INTO bans` -/
def insertBan (ban : StoredBan) : Database :=
  { db with
    bans := Table.insert (fun ban => ban.nickname) db.bans ban
    banned := Table.insert_nodup db.banned }

/-- `INSERT OR IGNORE INTO identities` -/
def insertIdentity (identity : Bytes × Bytes) : Database :=
  { db with
    identities := Table.insert (fun identity => identity.1) db.identities identity
    nicknames := Table.insert_nodup db.nicknames }

end Database

namespace ImportCall

variable (call : ImportCall)

/-- A statement, which may fail. -/
def execute (state : ImportState) (change : ImportState → ImportState) :
    Except Bytes ImportState :=
  match call.fails state.statements with
  | some detail => .error detail
  | none => .ok { change state with statements := state.statements + 1 }

/-- `INSERT INTO legacy_imports`, whose key is the kind. -/
def mark (kind : LegacyKind) (state : ImportState) : Except Bytes ImportState :=
  if kind ∈ state.store.legacyImports then
    .error (writeFailed (ascii "UNIQUE constraint failed: legacy_imports.kind"))
  else
    call.execute state fun state =>
      { state with
        store := { state.store with legacyImports := state.store.legacyImports ++ [kind] } }

/-- The body of the loop over the lines of the ban file. -/
def insertBan (state : ImportState) (nickname : Bytes) : Except Bytes ImportState :=
  if !isValidNickname nickname then .ok state
  else
    call.execute state fun state =>
      let ban := importedBan nickname (call.unixSeconds state.statements)
      { state with
        store := { state.store with db := state.store.db.insertBan ban }
        result := { state.result with
          bans := state.result.bans +
            Table.changes (fun ban => ban.nickname) state.store.db.bans ban } }

/-- The body of the loop over the lines of the identity file. -/
def insertIdentity (state : ImportState) (line : Bytes) : Except Bytes ImportState :=
  match identityEntry line with
  | none => .ok state
  | some identity =>
      call.execute state fun state =>
        { state with
          store := { state.store with db := state.store.db.insertIdentity identity }
          result := { state.result with
            identities := state.result.identities +
              Table.changes (fun identity => identity.1) state.store.db.identities identity } }

/-- `imported(kind)`, a query of its own. -/
def imported (kind : LegacyKind) (state : ImportState) : Except Bytes (Bool × ImportState) :=
  (call.execute state id).map fun next => (decide (kind ∈ state.store.legacyImports), next)

/-- One kind of file: nothing when it is not requested, a flag when it has been imported, and
else its lines, if it opens, and the mark. -/
def importFile (kind : LegacyKind) (file : LegacyFile) (already : ImportState → ImportState)
    (insertLine : ImportState → Bytes → Except Bytes ImportState) (state : ImportState) :
    Except Bytes ImportState :=
  match file with
  | .notRequested => .ok state
  | .missing => do
      let (imported, state) ← call.imported kind state
      .ok (if imported then already state else state)
  | .contents text => do
      let (imported, state) ← call.imported kind state
      if imported then .ok (already state)
      else
        let state ← (lines text).foldlM insertLine state
        call.mark kind state

def importBans (state : ImportState) : Except Bytes ImportState :=
  call.importFile .bans call.bans
    (fun state => { state with result := { state.result with bansAlreadyImported := true } })
    call.insertBan state

def importIdentities (state : ImportState) : Except Bytes ImportState :=
  call.importFile .identities call.identities
    (fun state => { state with result := { state.result with identitiesAlreadyImported := true } })
    call.insertIdentity state

/-- From `BEGIN IMMEDIATE` to `COMMIT`. -/
def transaction (store : LegacyStore) : Except Bytes ImportState := do
  let state ← call.execute { store } id
  let state ← call.importBans state
  let state ← call.importIdentities state
  call.execute state id

/-- `import_legacy_files`. After an exception the transaction is rolled back. -/
def importLegacyFiles (store : LegacyStore) : Except Bytes ImportResult × LegacyStore :=
  match call.transaction store with
  | .ok state => (.ok state.result, state.store)
  | .error detail => (.error detail, store)

/-- The rows of the ban file from the given statement on. -/
def banRows : Nat → List Bytes → List StoredBan
  | _, [] => []
  | statement, line :: lines =>
      if isValidNickname line then
        importedBan line (call.unixSeconds statement) :: banRows (statement + 1) lines
      else banRows statement lines

end ImportCall

/-- The text that is imported. -/
def LegacyFile.text (file : LegacyFile) (imported : Bool) : Bytes :=
  match file with
  | .contents text => if imported then [] else text
  | _ => []

/-- What becomes of one table: the entries without a row are added, the first of each
nickname, and counted. -/
structure Imported {ρ : Type} (key : ρ → Bytes) (file : LegacyFile) (imported : Bool)
    (entries : List Bytes → List ρ) (rows rows' : List ρ) (count : Nat)
    (already imported' : Bool) : Prop where
  added : ∃ added, rows' = rows ++ added ∧ count = added.length ∧ (added.map key).Nodup ∧
    ∀ row, row ∈ added ↔ key row ∉ rows.map key ∧
      Table.find key (key row) (entries (lines (file.text imported))) = some row
  already : already = true ↔ file ≠ .notRequested ∧ imported = true
  marked : imported' = true ↔ imported = true ∨ ∃ text, file = .contents text

section Table

variable {ρ : Type} {key : ρ → Bytes} {entries : List Bytes → List ρ} {rows : List ρ}

/-- A file is read. -/
theorem Imported.file {text : Bytes} (unique : (rows.map key).Nodup) :
    Imported key (.contents text) false entries rows
      (rows ++ Table.fresh key rows (entries (lines text)))
      (Table.fresh key rows (entries (lines text))).length false true where
  added := by
    have distinct := @Table.fresh_nodup ρ Bytes _ key rows (entries (lines text)) unique
    rw [List.map_append] at distinct
    exact ⟨_, rfl, rfl, distinct.of_append_right, fun row => Table.mem_fresh⟩
  already := by simp
  marked := by simp

end Table

namespace ImportCall

variable {call : ImportCall} {state state' : ImportState} {kind : LegacyKind} {file : LegacyFile}
  {detail : Bytes}

section Parts

/-- From one state to the other no statement has failed. -/
def Ran (call : ImportCall) (state state' : ImportState) : Prop :=
  state.statements ≤ state'.statements ∧
    ∀ n, state.statements ≤ n → n < state'.statements → call.fails n = none

theorem Ran.refl (state : ImportState) : Ran call state state :=
  ⟨Nat.le_refl _, fun _ low high => absurd high (Nat.not_lt.mpr low)⟩

theorem Ran.trans {middle : ImportState} (first : Ran call state middle)
    (second : Ran call middle state') : Ran call state state' := by
  refine ⟨Nat.le_trans first.1 second.1, fun n low high => ?_⟩
  obtain before | after := Nat.lt_or_ge n middle.statements
  · exact first.2 n low before
  · exact second.2 n after high

theorem Ran.one (fine : call.fails state.statements = none)
    (next : state'.statements = state.statements + 1) : Ran call state state' := by
  refine ⟨next ▸ Nat.le_succ _, fun n low high => ?_⟩
  obtain rfl : n = state.statements := by omega
  exact fine

end Parts

section Failures

/-- The error is that of a statement. -/
def StatementError (call : ImportCall) (detail : Bytes) : Prop := ∃ n, call.fails n = some detail

theorem execute_error {change : ImportState → ImportState}
    (h : call.execute state change = .error detail) : call.StatementError detail := by
  unfold execute at h
  split at h
  · next other failed =>
      obtain rfl := Except.error.inj h
      exact ⟨_, failed⟩
  · cases h

end Failures

/-- What an import reports and leaves behind: with an error the error of a statement and no
change, and else exactly the new entries of the files that have been read for the first
time. -/
def Outcome (call : ImportCall) (store : LegacyStore) :
    Except Bytes ImportResult × LegacyStore → Prop
  | (.error detail, store') => store' = store ∧ call.StatementError detail
  | (.ok result, store') =>
      Imported (fun ban => ban.nickname) call.bans (decide (.bans ∈ store.legacyImports))
          (call.banRows 2) store.db.bans store'.db.bans result.bans result.bansAlreadyImported
          (decide (.bans ∈ store'.legacyImports)) ∧
        Imported (fun identity => identity.1) call.identities
          (decide (.identities ∈ store.legacyImports))
          (fun lines => lines.filterMap identityEntry) store.db.identities store'.db.identities
          result.identities result.identitiesAlreadyImported
          (decide (.identities ∈ store'.legacyImports)) ∧
        store'.db.rooms = store.db.rooms ∧ store'.db.messages = store.db.messages

def requested (call : ImportCall) : LegacyKind → LegacyFile
  | .bans => call.bans
  | .identities => call.identities

section Marks

variable {store : LegacyStore}

end Marks

end ImportCall

/-- A batch of writes, or an import. -/
inductive LegacyEvent where
  | writes (batch : List Write)
  | importFiles (call : ImportCall)

namespace LegacyStore

variable (store : LegacyStore)

def step : LegacyEvent → LegacyStore
  | .writes batch =>
      match applyBatch Database.executeWrite store.db batch with
      | .ok db => { store with db }
      | .error _ => store
  | .importFiles call => (call.importLegacyFiles store).2

def run (events : List LegacyEvent) : LegacyStore := events.foldl step store

def banned (nickname : Bytes) : Prop := nickname ∈ store.db.bans.map fun ban => ban.nickname

variable {store} {event : LegacyEvent} {events : List LegacyEvent} {kind : LegacyKind}
  {nickname : Bytes}

theorem run_append (before after : List LegacyEvent) :
    store.run (before ++ after) = (store.run before).run after := List.foldl_append

end LegacyStore

end Chatbox.Storage
