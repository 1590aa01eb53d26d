import Mathlib.Logic.Function.Basic
import Chatbox.Lib.Run
import Chatbox.Storage.LegacyImport

/-!
Openers of one database file, which bring its schema up to date. Each reads the version and
then begins a transaction, for which it waits until no other has one. Which statements it
executes has been decided by then, so that it is too late for an opener whose file another
has brought up to date in between.
-/

namespace Chatbox.Storage

open Text Protocol

def SCHEMA_VERSION : Nat := 3

structure RoomRow where
  id : RoomId
  name : Bytes
  topic : Bytes
  createdAt : Int
deriving DecidableEq, Repr

/-- The table of rooms, which has had no `owner_nickname` at first. -/
inductive RoomTable where
  | withoutOwner (rows : List RoomRow)
  | withOwner (rows : List (RoomRow × Bytes))
deriving DecidableEq, Repr

structure IdentityRow where
  nickname : Bytes
  publicKey : Bytes
  createdAt : Int
deriving DecidableEq, Repr

/-- The file: the tables and indexes it has, with their rows. -/
structure DatabaseFile where
  schemaVersion : Option (List Nat) := none
  rooms : Option RoomTable := none
  identities : Option (List IdentityRow) := none
  bans : Option (List StoredBan) := none
  messages : Option (List StoredMessage) := none
  messagesRoomHistory : Bool := false
  bansExpiration : Bool := false
  legacyImports : Option (List (LegacyKind × Int)) := none
deriving DecidableEq, Repr

/-- The statements of `migrate`. -/
inductive MigrationStatement where
  | createSchemaVersion
  | insertVersion (version : Nat)
  | createRooms
  | createIdentities
  | createBans
  | createMessages
  | createMessagesRoomHistory
  | createBansExpiration
  | insertLobby
  | addOwnerNickname
  | updateVersion (version : Nat)
  | createLegacyImports
deriving DecidableEq, Repr

/-- The room that a new file gets. -/
def lobbyRow (createdAt : Int) : RoomRow where
  id := 1
  name := ascii "lobby"
  topic := ascii "Welcome to the lobby"
  createdAt := createdAt

/-- Whether `id` or `name` break a constraint. -/
def RoomRow.conflicts (row other : RoomRow) : Bool :=
  row.id == other.id || nocase row.name == nocase other.name

def statementFailed (detail : Bytes) : Bytes := ascii "SQLite statement failed: " ++ detail

namespace DatabaseFile

variable (file : DatabaseFile)

/-- `CREATE TABLE` or `CREATE INDEX` of something that must not be there. -/
def create (there : Bool) (what : Bytes) (created : DatabaseFile) : Except Bytes DatabaseFile :=
  if there then .error (statementFailed (what ++ ascii " already exists")) else .ok created

def noTable (name : Bytes) : Except Bytes DatabaseFile :=
  .error (statementFailed (ascii "no such table: " ++ name))

/-- `INSERT INTO rooms`, where a column that is not named gets its default. -/
def insertRoom (row : RoomRow) : Except Bytes DatabaseFile :=
  match file.rooms with
  | none => noTable (ascii "rooms")
  | some (.withoutOwner rows) =>
      if rows.any row.conflicts then
        .error (statementFailed (ascii "UNIQUE constraint failed: rooms.id"))
      else .ok { file with rooms := some (.withoutOwner (rows ++ [row])) }
  | some (.withOwner rows) =>
      if rows.any fun other => row.conflicts other.1 then
        .error (statementFailed (ascii "UNIQUE constraint failed: rooms.id"))
      else .ok { file with rooms := some (.withOwner (rows ++ [(row, [])])) }

def execute (now : Int) : MigrationStatement → Except Bytes DatabaseFile
  | .createSchemaVersion =>
      create file.schemaVersion.isSome (ascii "table schema_version")
        { file with schemaVersion := some [] }
  | .insertVersion version =>
      match file.schemaVersion with
      | none => noTable (ascii "schema_version")
      | some rows => .ok { file with schemaVersion := some (rows ++ [version]) }
  | .createRooms =>
      create file.rooms.isSome (ascii "table rooms")
        { file with rooms := some (.withoutOwner []) }
  | .createIdentities =>
      create file.identities.isSome (ascii "table identities") { file with identities := some [] }
  | .createBans => create file.bans.isSome (ascii "table bans") { file with bans := some [] }
  | .createMessages =>
      create file.messages.isSome (ascii "table messages") { file with messages := some [] }
  | .createMessagesRoomHistory =>
      create file.messagesRoomHistory (ascii "index messages_room_history")
        { file with messagesRoomHistory := true }
  | .createBansExpiration =>
      create file.bansExpiration (ascii "index bans_expiration")
        { file with bansExpiration := true }
  | .insertLobby => file.insertRoom (lobbyRow now)
  | .addOwnerNickname =>
      match file.rooms with
      | none => noTable (ascii "rooms")
      | some (.withoutOwner rows) =>
          .ok { file with rooms := some (.withOwner (rows.map fun row => (row, []))) }
      | some (.withOwner _) =>
          .error (statementFailed (ascii "duplicate column name: owner_nickname"))
  | .updateVersion version =>
      match file.schemaVersion with
      | none => noTable (ascii "schema_version")
      | some rows => .ok { file with schemaVersion := some (rows.map fun _ => version) }
  | .createLegacyImports =>
      create file.legacyImports.isSome (ascii "table legacy_imports")
        { file with legacyImports := some [] }

/-- The version that is read when nothing happens in between. -/
def version : Nat :=
  match file.schemaVersion with
  | some (version :: _) => version
  | _ => 0

end DatabaseFile

/-- What `migrate` executes for a file of the version. -/
def migrationStatements (version : Nat) : List MigrationStatement :=
  (if version < 1 then
      [.createSchemaVersion, .insertVersion 1, .createRooms, .createIdentities, .createBans,
        .createMessages, .createMessagesRoomHistory, .createBansExpiration, .insertLobby]
    else []) ++
    (if version < 2 then [.addOwnerNickname, .updateVersion 2] else []) ++
    (if version < 3 then [.createLegacyImports, .updateVersion 3] else [])

/-- An opener: before and after `table_exists`, with the version and without the lock, within
its transaction or after an error in it, and at its end. -/
inductive Opener where
  | starting
  | selecting
  | waiting (version : Nat)
  | migrating (left : List MigrationStatement) (work : DatabaseFile)
  | failed (error : Bytes)
  | finished (outcome : Except Bytes Unit)
deriving DecidableEq

def Opener.locks : Opener → Bool
  | .migrating _ _ | .failed _ => true
  | _ => false

structure Openers where
  file : DatabaseFile
  lock : Option Nat := none
  opener : Nat → Opener := fun _ => .starting

namespace Openers

variable (world : Openers)

def place (i : Nat) (opener : Opener) : Openers :=
  { world with opener := Function.update world.opener i opener }

/-- The next step of an opener at a time of the clock. -/
def step (event : Nat × Int) : Option Openers :=
  let (i, now) := event
  match world.opener i with
  | .starting =>
      if world.file.schemaVersion.isSome then some (world.place i .selecting)
      else some (world.place i (.waiting 0))
  | .selecting =>
      match world.file.schemaVersion with
      | none =>
          some (world.place i (.finished (.error
            (ascii "Could not prepare SQLite statement: no such table: schema_version"))))
      | some [] =>
          some (world.place i (.finished (.error
            (ascii "schema_version exists but contains no version"))))
      | some (version :: _) =>
          if SCHEMA_VERSION < version then
            some (world.place i (.finished (.error (ascii "Database schema version " ++
              toDecimal version ++ ascii " is newer than this chatbox build supports (" ++
              toDecimal SCHEMA_VERSION ++ ascii ")"))))
          else some (world.place i (.waiting version))
  | .waiting version =>
      if world.lock = none then
        some { world.place i (.migrating (migrationStatements version) world.file) with
          lock := some i }
      else none
  | .migrating (statement :: left) work =>
      match work.execute now statement with
      | .ok work => some (world.place i (.migrating left work))
      | .error error => some (world.place i (.failed error))
  | .migrating [] work =>
      some { world.place i (.finished (.ok ())) with file := work, lock := none }
  | .failed error => some { world.place i (.finished (.error error)) with lock := none }
  | .finished _ => none

end Openers

/-- A file before its openers: empty, or with the schema of one of the versions and any rows. -/
inductive Admissible : DatabaseFile → Prop where
  | empty : Admissible {}
  | one (rooms : List RoomRow) (identities : List IdentityRow) (bans : List StoredBan)
      (messages : List StoredMessage) (messagesRoomHistory bansExpiration : Bool) : Admissible {
        schemaVersion := some [1], rooms := some (.withoutOwner rooms)
        identities := some identities, bans := some bans, messages := some messages
        messagesRoomHistory, bansExpiration }
  | two (rooms : List (RoomRow × Bytes)) (identities : List IdentityRow) (bans : List StoredBan)
      (messages : List StoredMessage) (messagesRoomHistory bansExpiration : Bool) : Admissible {
        schemaVersion := some [2], rooms := some (.withOwner rooms)
        identities := some identities, bans := some bans, messages := some messages
        messagesRoomHistory, bansExpiration }
  | three (rooms : List (RoomRow × Bytes)) (identities : List IdentityRow) (bans : List StoredBan)
      (messages : List StoredMessage) (messagesRoomHistory bansExpiration : Bool)
      (legacyImports : List (LegacyKind × Int)) : Admissible {
        schemaVersion := some [3], rooms := some (.withOwner rooms)
        identities := some identities, bans := some bans, messages := some messages
        messagesRoomHistory, bansExpiration, legacyImports := some legacyImports }

/-- The rows of a table of rooms, with no owner where there was no column for it. -/
def RoomTable.owned : RoomTable → List (RoomRow × Bytes)
  | .withoutOwner rows => rows.map fun row => (row, [])
  | .withOwner rows => rows

/-- The newest schema, with the rows of the old file; in a new file the lobby and nothing
else. -/
structure Migrated (start file : DatabaseFile) : Prop where
  version : file.schemaVersion = some [SCHEMA_VERSION]
  rooms : ∃ rows, file.rooms = some (.withOwner rows) ∧
    match start.rooms with
    | none => ∃ createdAt, rows = [(lobbyRow createdAt, [])]
    | some table => rows = table.owned
  identities : file.identities = some (start.identities.getD [])
  bans : file.bans = some (start.bans.getD [])
  messages : file.messages = some (start.messages.getD [])
  legacyImports : file.legacyImports = some (start.legacyImports.getD [])

/-- The statements that are left go through whatever the time, and end with a good file. -/
def Succeeds (good : DatabaseFile → Prop) : DatabaseFile → List MigrationStatement → Prop
  | work, [] => good work
  | work, statement :: left =>
      ∀ now, ∃ next, work.execute now statement = .ok next ∧ Succeeds good next left

section Statements

variable {start file : DatabaseFile}

theorem Admissible.version_le (admissible : Admissible start) : start.version ≤ SCHEMA_VERSION := by
  cases admissible with
  | empty => exact Nat.zero_le _
  | one => exact (by decide : 1 ≤ SCHEMA_VERSION)
  | two => exact (by decide : 2 ≤ SCHEMA_VERSION)
  | three => exact Nat.le_refl _

theorem Migrated.version_eq (migrated : Migrated start file) : file.version = SCHEMA_VERSION := by
  rw [DatabaseFile.version, migrated.version]

theorem migrationStatements_newest : migrationStatements SCHEMA_VERSION = [] := rfl

theorem Succeeds.next {good : DatabaseFile → Prop} {work next : DatabaseFile}
    {statement : MigrationStatement} {left : List MigrationStatement}
    (h : ∀ now, work.execute now statement = .ok next) (rest : Succeeds good next left) :
    Succeeds good work (statement :: left) := fun now => ⟨next, h now, rest⟩

/-- The statements for the version that a file has bring it up to date. -/
theorem Admissible.succeeds (admissible : Admissible start) :
    Succeeds (Migrated start) start (migrationStatements start.version) := by
  cases admissible with
  | empty =>
      iterate 8 refine .next (fun _ => rfl) ?_
      -- The lobby is as old as its statement.
      intro now
      refine ⟨_, rfl, ?_⟩
      iterate 4 refine .next (fun _ => rfl) ?_
      exact ⟨rfl, ⟨_, rfl, now, rfl⟩, rfl, rfl, rfl, rfl⟩
  | one =>
      iterate 4 refine .next (fun _ => rfl) ?_
      exact ⟨rfl, ⟨_, rfl, rfl⟩, rfl, rfl, rfl, rfl⟩
  | two =>
      iterate 2 refine .next (fun _ => rfl) ?_
      exact ⟨rfl, ⟨_, rfl, rfl⟩, rfl, rfl, rfl, rfl⟩
  | three => exact ⟨rfl, ⟨_, rfl, rfl⟩, rfl, rfl, rfl, rfl⟩

/-- The statements for the version that a file has had fail at once when it is up to date. -/
theorem Admissible.outdated (admissible : Admissible start) (migrated : Migrated start file)
    (old : start.version ≠ SCHEMA_VERSION) :
    ∃ statement left, migrationStatements start.version = statement :: left ∧
      ∀ now, ∃ error, file.execute now statement = .error error := by
  obtain ⟨rows, rooms, -⟩ := migrated.rooms
  cases admissible with
  | empty =>
      refine ⟨_, _, rfl, fun now => ?_⟩
      simp only [DatabaseFile.execute, migrated.version]
      exact ⟨_, rfl⟩
  | one =>
      refine ⟨_, _, rfl, fun now => ?_⟩
      simp only [DatabaseFile.execute, rooms]
      exact ⟨_, rfl⟩
  | two =>
      refine ⟨_, _, rfl, fun now => ?_⟩
      simp only [DatabaseFile.execute, migrated.legacyImports]
      exact ⟨_, rfl⟩
  | three => exact absurd rfl old

end Statements

/-- The transaction of an opener that has read the old version and finds the new one. -/
structure Late (start file : DatabaseFile) (left : List MigrationStatement)
    (work : DatabaseFile) : Prop where
  migrated : Migrated start file
  old : start.version ≠ SCHEMA_VERSION
  left : left = migrationStatements start.version
  work : work = file

/-- What an opener of the file has read and has to do. -/
def Opener.Placed (start file : DatabaseFile) : Opener → Prop
  | .starting | .failed _ | .finished (.error _) => True
  | .selecting => file.schemaVersion.isSome
  | .waiting version => version = start.version ∨ version = SCHEMA_VERSION ∧ Migrated start file
  | .migrating left work => Succeeds (Migrated start) work left ∨ Late start file left work
  | .finished (.ok _) => Migrated start file

/-- An opener that has ended with an error or that will. -/
def Opener.Erring (start file : DatabaseFile) : Opener → Prop
  | .starting | .selecting | .waiting _ | .finished (.ok _) => False
  | .migrating left work => Late start file left work
  | .failed _ | .finished (.error _) => True

/-- A bound of the steps that an opener still takes. -/
def Opener.remaining : Opener → Nat
  | .starting => 17
  | .selecting => 16
  | .waiting _ => 15
  | .migrating left _ => left.length + 1
  | .failed _ => 1
  | .finished _ => 0

/-- The lock is the one opener's that is in its transaction. -/
def Held (lock : Option Nat) (opener : Nat → Opener) : Prop :=
  ∀ i, lock = some i ↔ (opener i).locks = true

namespace Openers

structure Sound (start : DatabaseFile) (world : Openers) : Prop where
  file : world.file = start ∨ Migrated start world.file
  held : Held world.lock world.opener
  placed : ∀ i, (world.opener i).Placed start world.file

/-- An opener that gets the lock finds the version that it has read. -/
def InTime (world : Openers) (event : Nat × Int) : Prop :=
  ∀ version, world.opener event.1 = .waiting version → world.lock = none →
    version = world.file.version

instance (world : Openers) (event : Nat × Int) : Decidable (InTime world event) :=
  match h : world.opener event.1 with
  | .waiting version =>
      decidable_of_iff (world.lock = none → version = world.file.version) (by simp [InTime, h])
  | .starting | .selecting | .migrating _ _ | .failed _ | .finished _ =>
      isTrue (by simp [InTime, h])

end Openers

section Locks

variable {lock : Option Nat} {opener : Nat → Opener} {i : Nat} {next : Opener}

theorem Held.unlocked (held : Held (some i) opener) {j : Nat} (ne : j ≠ i) :
    (opener j).locks = false := by
  refine Bool.eq_false_iff.mpr fun locks => ne ?_
  exact (Option.some.inj ((held j).mpr locks)).symm

theorem held_update (self : lock = some i ↔ next.locks = true)
    (others : ∀ j, j ≠ i → (lock = some j ↔ (opener j).locks = true)) :
    Held lock (Function.update opener i next) :=
  (Function.forall_update_iff opener fun j opener => lock = some j ↔ opener.locks = true).mpr
    ⟨self, others⟩

theorem Held.turn (held : Held lock opener) (same : next.locks = (opener i).locks) :
    Held lock (Function.update opener i next) :=
  held_update (same ▸ held i) fun j _ => held j

theorem Held.acquire (held : Held none opener) (locks : next.locks = true) :
    Held (some i) (Function.update opener i next) := by
  refine held_update (iff_of_true rfl locks) fun j ne => ?_
  refine iff_of_false (fun same => ne (Option.some.inj same).symm) fun locks => ?_
  cases (held j).mpr locks

theorem Held.release (held : Held (some i) opener) (unlocks : next.locks = false) :
    Held none (Function.update opener i next) :=
  held_update (by simp [unlocks]) fun j ne => by simp [held.unlocked ne]

end Locks

section Statements

variable {start file work next : DatabaseFile} {statement : MigrationStatement}
  {left : List MigrationStatement} {version : Nat} {opener : Opener}

theorem Admissible.schemaVersion_eq (admissible : Admissible start) :
    start.schemaVersion = none ∧ start.version = 0 ∨
      start.schemaVersion = some [start.version] := by
  cases admissible with
  | empty => exact .inl ⟨rfl, rfl⟩
  | one => exact .inr rfl
  | two => exact .inr rfl
  | three => exact .inr rfl

theorem Admissible.statements_ne_nil (admissible : Admissible start)
    (old : start.version ≠ SCHEMA_VERSION) : migrationStatements start.version ≠ [] := by
  cases admissible with
  | empty => exact List.cons_ne_nil _ _
  | one => exact List.cons_ne_nil _ _
  | two => exact List.cons_ne_nil _ _
  | three => exact absurd rfl old

theorem Late.left_ne_nil (late : Late start file left work) (admissible : Admissible start) :
    left ≠ [] := by
  rw [late.left]
  exact admissible.statements_ne_nil late.old

/-- A late transaction fails with its first statement. -/
theorem Late.execute_error (late : Late start file (statement :: left) work)
    (admissible : Admissible start) (now : Int) :
    ∃ error, work.execute now statement = .error error := by
  obtain ⟨first, rest, statements, fails⟩ := admissible.outdated late.migrated late.old
  obtain ⟨rfl, rfl⟩ := List.cons.inj (late.left.trans statements)
  rw [late.work]
  exact fails now

theorem Succeeds.not_late (succeeds : Succeeds (Migrated start) work left)
    (admissible : Admissible start) : ¬ Late start file left work := by
  intro late
  cases left with
  | nil => exact late.left_ne_nil admissible rfl
  | cons statement left =>
      obtain ⟨next, ok, -⟩ := succeeds 0
      obtain ⟨error, fails⟩ := late.execute_error admissible 0
      cases ok.symm.trans fails

/-- The statements for the version that the file has. -/
theorem Admissible.current (admissible : Admissible start)
    (found : file = start ∨ Migrated start file) :
    Succeeds (Migrated start) file (migrationStatements file.version) := by
  obtain rfl | migrated := found
  · exact admissible.succeeds
  · rw [migrated.version_eq, migrationStatements_newest]
    exact migrated

/-- The statements for a version that the file had when it was read. -/
theorem Admissible.stale (found : file = start ∨ Migrated start file)
    (placed : (Opener.waiting version).Placed start file) (stale : version ≠ file.version) :
    Late start file (migrationStatements version) file := by
  obtain rfl | migrated := found
  · obtain same | ⟨newest, migrated⟩ := placed
    · exact absurd same stale
    · exact absurd (newest.trans migrated.version_eq.symm) stale
  · rw [migrated.version_eq] at stale
    obtain rfl | ⟨newest, -⟩ := placed
    · exact ⟨migrated, stale, rfl, rfl⟩
    · exact absurd newest stale

/-- What an opener that is not in its transaction has to do is the same after another's. -/
theorem Opener.Placed.committed (placed : opener.Placed start file)
    (unlocked : opener.locks = false) (migrated : Migrated start work) :
    opener.Placed start work := by
  cases opener with
  | starting => trivial
  | selecting => exact Option.isSome_iff_exists.mpr ⟨_, migrated.version⟩
  | waiting version => exact placed.imp id fun newest => ⟨newest.1, migrated⟩
  | migrating left work => cases unlocked
  | failed error => cases unlocked
  | finished outcome =>
      cases outcome with
      | error error => trivial
      | ok _ => exact migrated

theorem Opener.Erring.finished (erring : opener.Erring start file)
    (unlocked : opener.locks = false) : ∃ error, opener = .finished (.error error) := by
  cases opener with
  | starting | selecting | waiting _ => exact erring.elim
  | migrating _ _ | failed _ => cases unlocked
  | finished outcome =>
      cases outcome with
      | error error => exact ⟨error, rfl⟩
      | ok _ => exact erring.elim

theorem Opener.erring_of_unlocked (unlocked : opener.locks = false) :
    opener.Erring start file ↔ opener.Erring start work := by
  cases opener with
  | migrating left work => cases unlocked
  | finished outcome => cases outcome <;> rfl
  | _ => rfl

end Statements

namespace Openers

/-- The steps of an opener of a file that is sound. -/
inductive Stepped (start : DatabaseFile) (world : Openers) (i : Nat) : Openers → Prop where
  | looked (before : world.opener i = .starting) (there : world.file.schemaVersion.isSome = true) :
      Stepped start world i (world.place i .selecting)
  | read (version : Nat) (before : world.opener i = .starting ∨ world.opener i = .selecting)
      (placed : (Opener.waiting version).Placed start world.file) :
      Stepped start world i (world.place i (.waiting version))
  | begun (version : Nat) (before : world.opener i = .waiting version)
      (free : world.lock = none) :
      Stepped start world i
        { world.place i (.migrating (migrationStatements version) world.file) with
          lock := some i }
  | executed (statement : MigrationStatement) (left : List MigrationStatement)
      (work next : DatabaseFile) (before : world.opener i = .migrating (statement :: left) work)
      (now : Int) (executed : work.execute now statement = .ok next) :
      Stepped start world i (world.place i (.migrating left next))
  | refused (statement : MigrationStatement) (left : List MigrationStatement)
      (work : DatabaseFile) (before : world.opener i = .migrating (statement :: left) work)
      (now : Int) (error : Bytes) (refused : work.execute now statement = .error error) :
      Stepped start world i (world.place i (.failed error))
  | committed (work : DatabaseFile) (before : world.opener i = .migrating [] work) :
      Stepped start world i
        { world.place i (.finished (.ok ())) with file := work, lock := none }
  | rolledBack (error : Bytes) (before : world.opener i = .failed error) :
      Stepped start world i { world.place i (.finished (.error error)) with lock := none }

section Steps

variable {start : DatabaseFile} {world world' : Openers} {i j : Nat} {now : Int}

/-- What an opener can read of the version. -/
theorem Sound.schemaVersion (sound : Sound start world) (admissible : Admissible start) :
    world.file.schemaVersion = none ∧ start.version = 0 ∨
      ∃ version, world.file.schemaVersion = some [version] ∧ version ≤ SCHEMA_VERSION ∧
        (Opener.waiting version).Placed start world.file := by
  obtain same | migrated := sound.file
  · rw [same]
    refine admissible.schemaVersion_eq.imp id fun there => ?_
    exact ⟨start.version, there, admissible.version_le, .inl rfl⟩
  · exact .inr ⟨SCHEMA_VERSION, migrated.version, Nat.le_refl _, .inr ⟨rfl, migrated⟩⟩

theorem Sound.stepped (sound : Sound start world) (admissible : Admissible start)
    (h : world.step (i, now) = some world') : Stepped start world i world' := by
  have readable := sound.schemaVersion admissible
  have placed := sound.placed i
  unfold step at h
  cases before : world.opener i with
  | starting =>
      simp only [before] at h
      obtain ⟨there, old⟩ | ⟨version, there, -, -⟩ := readable
      · simp only [there, Option.isSome_none, Bool.false_eq_true, if_false] at h
        obtain rfl := Option.some.inj h
        exact .read 0 (.inl before) (.inl old.symm)
      · simp only [there, Option.isSome_some, if_true] at h
        obtain rfl := Option.some.inj h
        exact .looked before (by rw [there]; rfl)
  | selecting =>
      simp only [before] at h placed
      obtain ⟨there, -⟩ | ⟨version, there, supported, read⟩ := readable
      · rw [Opener.Placed, there] at placed
        cases placed
      · simp only [there, if_neg (Nat.not_lt.mpr supported)] at h
        obtain rfl := Option.some.inj h
        exact .read version (.inr before) read
  | waiting version =>
      simp only [before] at h
      split at h
      · rename_i free
        obtain rfl := Option.some.inj h
        exact .begun version before free
      · cases h
  | migrating left work =>
      cases left with
      | nil =>
          simp only [before] at h
          obtain rfl := Option.some.inj h
          exact .committed work before
      | cons statement left =>
          simp only [before] at h
          split at h
          · rename_i next executed
            obtain rfl := Option.some.inj h
            exact .executed statement left work next before now executed
          · rename_i error refused
            obtain rfl := Option.some.inj h
            exact .refused statement left work before now error refused
  | failed error =>
      simp only [before] at h
      obtain rfl := Option.some.inj h
      exact .rolledBack error before
  | finished outcome =>
      simp only [before] at h
      cases h

theorem Sound.step (sound : Sound start world) (admissible : Admissible start)
    (h : world.step (i, now) = some world') : Sound start world' := by
  have placed_update {opener : Opener} (self : opener.Placed start world.file) :
      ∀ j, (Function.update world.opener i opener j).Placed start world.file :=
    (Function.forall_update_iff world.opener fun _ opener => opener.Placed start world.file).mpr
      ⟨self, fun j _ => sound.placed j⟩
  have locked (locks : (world.opener i).locks = true) : Held (some i) world.opener := by
    rw [← (sound.held i).mpr locks]
    exact sound.held
  have placed := sound.placed i
  cases sound.stepped admissible h with
  | looked before there =>
      exact ⟨sound.file, sound.held.turn (by rw [before]; rfl), placed_update there⟩
  | read version before read =>
      refine ⟨sound.file, sound.held.turn ?_, placed_update read⟩
      obtain before | before := before <;> rw [before] <;> rfl
  | begun version before free =>
      refine ⟨sound.file, (free ▸ sound.held).acquire rfl, placed_update ?_⟩
      by_cases current : version = world.file.version
      · exact .inl (current ▸ admissible.current sound.file)
      · exact .inr (Admissible.stale sound.file (before ▸ placed) current)
  | executed statement left work next before now executed =>
      refine ⟨sound.file, sound.held.turn (by rw [before]; rfl), placed_update (.inl ?_)⟩
      rw [before] at placed
      obtain succeeds | late := placed
      · obtain ⟨_, ok, rest⟩ := succeeds now
        obtain rfl := Except.ok.inj (executed.symm.trans ok)
        exact rest
      · obtain ⟨error, fails⟩ := late.execute_error admissible now
        cases executed.symm.trans fails
  | refused statement left work before now error refused =>
      exact ⟨sound.file, sound.held.turn (by rw [before]; rfl), placed_update trivial⟩
  | committed work before =>
      rw [before] at placed
      obtain migrated | late := placed
      · have held := locked (by rw [before]; rfl)
        refine ⟨.inr migrated, held.release rfl, ?_⟩
        -- No other opener is in a transaction.
        exact (Function.forall_update_iff world.opener fun _ opener =>
          opener.Placed start work).mpr ⟨migrated, fun j ne =>
            (sound.placed j).committed (held.unlocked ne) migrated⟩
      · exact absurd rfl (late.left_ne_nil admissible)
  | rolledBack error before =>
      have held := locked (by rw [before]; rfl)
      exact ⟨sound.file, held.release rfl, placed_update trivial⟩

theorem Sound.erring_self (sound : Sound start world) (admissible : Admissible start)
    (h : world.step (i, now) = some world') : (world'.opener i).Erring start world'.file ↔
      (world.opener i).Erring start world.file ∨ ¬ InTime world (i, now) := by
  have placed := sound.placed i
  cases sound.stepped admissible h with
  | looked before there => simp [place, InTime, Opener.Erring, before]
  | read version before read =>
      obtain before | before := before <;> simp [place, InTime, Opener.Erring, before]
  | begun version before free =>
      rw [before] at placed
      simp only [place, InTime, Opener.Erring, before, free, Function.update_self, false_or,
        Opener.waiting.injEq, forall_eq', forall_const]
      constructor
      · intro late current
        rw [current] at late
        exact (admissible.current sound.file).not_late admissible late
      · exact Admissible.stale sound.file placed
  | executed statement left work next before now executed =>
      rw [before] at placed
      obtain succeeds | late := placed
      · obtain ⟨_, ok, rest⟩ := succeeds now
        obtain rfl := Except.ok.inj (executed.symm.trans ok)
        simp [place, InTime, Opener.Erring, before, succeeds.not_late admissible,
          rest.not_late admissible]
      · obtain ⟨error, fails⟩ := late.execute_error admissible now
        cases executed.symm.trans fails
  | refused statement left work before now error refused =>
      rw [before] at placed
      obtain succeeds | late := placed
      · obtain ⟨_, ok, -⟩ := succeeds now
        cases ok.symm.trans refused
      · simp [place, InTime, Opener.Erring, before, late]
  | committed work before =>
      rw [before] at placed
      obtain migrated | late := placed
      · have fine : ¬ Late start world.file [] work := fun late => late.left_ne_nil admissible rfl
        simp [place, InTime, Opener.Erring, before, fine]
      · exact absurd rfl (late.left_ne_nil admissible)
  | rolledBack error before => simp [place, InTime, Opener.Erring, before]

theorem Sound.erring_of_ne (sound : Sound start world) (admissible : Admissible start)
    (h : world.step (i, now) = some world') (ne : j ≠ i) :
    (world'.opener j).Erring start world'.file ↔ (world.opener j).Erring start world.file := by
  cases sound.stepped admissible h with
  | committed work before =>
      have lock : world.lock = some i := (sound.held i).mpr (by rw [before]; rfl)
      have held : Held (some i) world.opener := lock ▸ sound.held
      simp only [place, Function.update_of_ne ne]
      exact Opener.erring_of_unlocked (held.unlocked ne)
  | _ => simp only [place, Function.update_of_ne ne]

/-- An opener is in error where one was or where this step gets the lock too late. -/
theorem Sound.erring_iff (sound : Sound start world) (admissible : Admissible start)
    (h : world.step (i, now) = some world') :
    (∃ j, (world'.opener j).Erring start world'.file) ↔
      (∃ j, (world.opener j).Erring start world.file) ∨ ¬ InTime world (i, now) := by
  have self := sound.erring_self admissible h
  constructor
  · rintro ⟨j, erring⟩
    by_cases same : j = i
    · subst same
      exact (self.mp erring).imp (fun erring => ⟨j, erring⟩) id
    · exact .inl ⟨j, (sound.erring_of_ne admissible h same).mp erring⟩
  · rintro (⟨j, erring⟩ | late)
    · by_cases same : j = i
      · subst same
        exact ⟨j, self.mpr (.inl erring)⟩
      · exact ⟨j, (sound.erring_of_ne admissible h same).mpr erring⟩
    · exact ⟨i, self.mpr (.inr late)⟩

theorem Stepped.opener_of_ne (stepped : Stepped start world i world') (ne : j ≠ i) :
    world'.opener j = world.opener j := by
  cases stepped <;> exact Function.update_of_ne ne _ world.opener

theorem migrationStatements_length (version : Nat) :
    (migrationStatements version).length ≤ 13 := by
  unfold migrationStatements
  split <;> split <;> split <;> decide

theorem Stepped.remaining_lt (stepped : Stepped start world i world') :
    (world'.opener i).remaining < (world.opener i).remaining := by
  cases stepped with
  | read version before placed =>
      obtain before | before := before <;> simp [place, before, Opener.remaining]
  | begun version before free =>
      have short := migrationStatements_length version
      simp only [place, Function.update_self, before, Opener.remaining]
      omega
  | looked before | executed _ _ _ _ before | refused _ _ _ before | committed _ before
  | rolledBack _ before => simp [place, before, Opener.remaining]

/-- An opener takes its step unless it has ended or waits for the lock of another. -/
theorem step_isSome (unfinished : ∀ outcome, world.opener i ≠ .finished outcome)
    (free : world.lock = none ∨ (world.opener i).locks = true) :
    (world.step (i, now)).isSome := by
  unfold step
  cases before : world.opener i with
  | starting =>
      simp only [before]
      split <;> rfl
  | selecting =>
      simp only [before]
      split
      · rfl
      · rfl
      · split <;> rfl
  | waiting version =>
      rw [before] at free
      simp [before, free.resolve_right nofun]
  | migrating left work =>
      cases left with
      | nil => simp only [before, Option.isSome_some]
      | cons statement left =>
          simp only [before]
          split <;> rfl
  | failed error => simp only [before, Option.isSome_some]
  | finished outcome => exact absurd before (unfinished outcome)

/-- The one that an opener waits for has steps to take. -/
theorem Sound.progress (sound : Sound start world)
    (unfinished : ∀ outcome, world.opener i ≠ .finished outcome) :
    (world.step (i, now)).isSome ∨
      ∃ holder, world.lock = some holder ∧ (world.step (holder, now)).isSome := by
  cases lock : world.lock with
  | none => exact .inl (step_isSome unfinished (.inl lock))
  | some holder =>
      have locks := (sound.held holder).mp lock
      refine .inr ⟨holder, rfl, step_isSome (fun outcome finished => ?_) (.inr locks)⟩
      rw [finished] at locks
      cases locks

end Steps

theorem sound_start (start : DatabaseFile) : Sound start { file := start } :=
  ⟨.inl rfl, fun _ => ⟨nofun, nofun⟩, fun _ => trivial⟩

theorem run_sound {start : DatabaseFile} (admissible : Admissible start) {world : Openers}
    {events : List (Nat × Int)} (h : Run.run step { file := start } events = some world) :
    Sound start world :=
  Run.run_invariant (fun _ _ _ sound h => sound.step admissible h) h (sound_start start)

theorem run_remaining {start : DatabaseFile} (admissible : Admissible start)
    {world world' : Openers} {events : List (Nat × Int)} (sound : Sound start world)
    (h : Run.run step world events = some world') (i : Nat) :
    (world'.opener i).remaining + events.countP (fun event => event.1 == i) ≤
      (world.opener i).remaining := by
  induction events generalizing world with
  | nil =>
      obtain rfl : world = world' := by simpa [Run.run] using h
      simp
  | cons event events ih =>
      obtain ⟨middle, hm, h⟩ := Run.run_cons.mp h
      have stepped := sound.stepped admissible hm
      have rest := ih (sound.step admissible hm) h
      by_cases same : event.1 = i
      · subst same
        have less := stepped.remaining_lt
        simp only [List.countP_cons, beq_self_eq_true, if_true]
        omega
      · rw [stepped.opener_of_ne (Ne.symm same)] at rest
        simpa [List.countP_cons, same] using rest

/-- A run is in time exactly when no opener has ended with an error or will. -/
theorem run_inTime_iff {start : DatabaseFile} (admissible : Admissible start) {world : Openers}
    {events : List (Nat × Int)} (h : Run.run step { file := start } events = some world) :
    Run.Always step InTime { file := start } events ↔
      ∀ i, ¬ (world.opener i).Erring start world.file := by
  have turns := Run.run_always_iff
    (fun world event world' sound h => Sound.step sound admissible h)
    (fun world event world' sound h => Sound.erring_iff sound admissible h) h
    (sound_start start)
  rw [← not_exists, ← turns]
  exact (and_iff_right fun ⟨_, erring⟩ => erring).symm

/-- Openers that each get the lock in time all end with the newest schema and the old rows; an
opener that is too late ends with an error. Nothing is lost either way, and no opener waits for
ever. -/
theorem run_migrated {start : DatabaseFile} (admissible : Admissible start) {world : Openers}
    {events : List (Nat × Int)} (h : Run.run step { file := start } events = some world) :
    (Run.Always step InTime { file := start } events → ∀ i outcome,
      world.opener i = .finished outcome → outcome = .ok () ∧ Migrated start world.file) ∧
    (world.lock = none → (∀ i error, world.opener i ≠ .finished (.error error)) →
      Run.Always step InTime { file := start } events) ∧
    (world.file = start ∨ Migrated start world.file) ∧
    (∀ i, events.countP (fun event => event.1 == i) ≤ 17) ∧
    ∀ i now, (∀ outcome, world.opener i ≠ .finished outcome) →
      (world.step (i, now)).isSome ∨
        ∃ holder, world.lock = some holder ∧ (world.step (holder, now)).isSome := by
  have sound := run_sound admissible h
  have inTime := run_inTime_iff admissible h
  refine ⟨fun always i outcome finished => ?_, fun free fine => inTime.mpr fun i erring => ?_,
    sound.file, fun i => ?_, fun i now unfinished => sound.progress unfinished⟩
  · have fine := inTime.mp always i
    have placed := sound.placed i
    rw [finished] at fine placed
    cases outcome with
    | ok _ => exact ⟨rfl, placed⟩
    | error error => exact absurd trivial fine
  · have unlocked : (world.opener i).locks = false := by
      refine Bool.eq_false_iff.mpr fun locks => ?_
      cases free.symm.trans ((sound.held i).mpr locks)
    obtain ⟨error, finished⟩ := erring.finished unlocked
    exact fine i error finished
  · have bound := run_remaining admissible (sound_start start) h i
    exact (Nat.le_add_left _ _).trans bound

/-- A file of the second version with a room and a message. -/
def olderFile : DatabaseFile where
  schemaVersion := some [2]
  rooms := some (.withOwner [(lobbyRow 5, ascii "ann")])
  identities := some []
  bans := some []
  messages := some [
    { id := ascii "m", roomId := 1, nickname := ascii "ann", body := ascii "hi", sentAt := 6 }]

/-- The second looks while there is the old version and reads after the first has committed. -/
def olderTurns : List (Nat × Int) :=
  [(0, 7), (1, 7), (0, 7), (0, 7), (0, 7), (0, 8), (0, 8), (1, 8), (1, 8), (1, 8)]

theorem run_migrated_older : ∃ world,
    Run.run step { file := olderFile } olderTurns = some world ∧
      world.opener 1 = .finished (.ok ()) ∧ Migrated olderFile world.file := by
  have inTime : Run.Always step InTime { file := olderFile } olderTurns := by decide
  refine ⟨_, rfl, rfl, ?_⟩
  exact ((@run_migrated olderFile (.two _ _ _ _ _ _) _ olderTurns rfl).1 inTime 1 _ rfl).2

/-- Two openers of a new file have both found no table, and then one waits for the other. -/
theorem run_migrated_late : Admissible {} ∧ ∃ world,
    Run.run step { file := {} }
      ([(0, 7), (1, 7)] ++ List.replicate 15 (0, 7) ++ List.replicate 3 (1, 8)) = some world ∧
      world.opener 0 = .finished (.ok ()) ∧
      world.opener 1 = .finished (.error (ascii
        "SQLite statement failed: table schema_version already exists")) :=
  ⟨.empty, _, rfl, rfl, rfl⟩

end Openers

end Chatbox.Storage
