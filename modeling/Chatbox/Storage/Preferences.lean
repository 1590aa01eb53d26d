import Chatbox.Lib.OrderedMap
import Chatbox.Lib.Recency
import Chatbox.Storage.Database

/-!
The settings a client keeps between runs. `save_preferences` writes them into three
tables, the servers by their position and their certificates by a name made of the
position; `load_preferences` reads them back and leaves out the servers it cannot use.
-/

namespace Chatbox.Storage

open Text Protocol

structure RecentServer where
  name : Bytes
  host : Bytes
  port : UInt16 := 7777
  tls : Bool := true
  caPath : Bytes := []
  fingerprint : Bytes := []
deriving DecidableEq, Repr

abbrev Options := Std.ExtTreeMap Bytes Bytes

structure Preferences where
  remember : Bool := false
  nickname : Bytes := []
  options : Options := ∅
  recentServers : List RecentServer := []

/-- A row of `recent`. -/
structure RecentRow where
  position : Int
  name : Bytes
  host : Bytes
  port : Int
  tls : Int
deriving DecidableEq, Repr

/-- A database from before there were options has no table of them. -/
structure PreferencesDatabase where
  settings : List (Int × Bytes)
  recent : List RecentRow
  options : Option (List (Bytes × Bytes))

def MAX_RECENT_SERVERS : Nat := 10

/-- Servers are told apart by this. -/
def RecentServer.address (server : RecentServer) : Bytes × UInt16 × Bool :=
  (server.host, server.port, server.tls)

namespace Preferences

def rememberServer (preferences : Preferences) (server : RecentServer) : Preferences :=
  let same (other : RecentServer) : Bool := other.address == server.address
  let servers := match preferences.recentServers.find? same with
    | none => server :: preferences.recentServers
    | some known => { server with name := known.name } :: preferences.recentServers.eraseP same
  { preferences with recentServers := servers.take MAX_RECENT_SERVERS }

/-- `server.name = it->name` -/
def keepName (old server : RecentServer) : RecentServer := { server with name := old.name }

theorem rememberServer_touch (preferences : Preferences) (server : RecentServer) :
    (preferences.rememberServer server).recentServers =
      Recency.touch RecentServer.address keepName MAX_RECENT_SERVERS preferences.recentServers
        server := by
  have same : (fun other : RecentServer => other.address == server.address) =
      fun other => decide (other.address = server.address) := by
    funext other
    rw [Bool.eq_iff_iff, beq_iff_eq, decide_eq_true_eq]
  simp only [rememberServer, Recency.touch, Recency.renewed, same]
  split
  · next found =>
      rw [found, List.eraseP_of_forall_not fun other mem => List.find?_eq_none.mp found other mem]
  · next known found => rw [found]; rfl

theorem rememberServers_touchAll (preferences : Preferences) (calls : List RecentServer) :
    (calls.foldl rememberServer { preferences with recentServers := [] }).recentServers =
      Recency.touchAll RecentServer.address keepName MAX_RECENT_SERVERS calls := by
  induction calls using List.reverseRecOn with
  | nil => rfl
  | append_singleton calls call ih =>
      rw [Recency.touchAll_concat, ← ih, List.foldl_append]
      exact rememberServer_touch _ call

/-- However servers are remembered, the list holds the ten that were remembered last, the
last one first and none twice. The certificate of each is that of its last call; its name
is that of the call which put it into the list when it was not there. -/
theorem rememberServer_recent (preferences : Preferences) (calls : List RecentServer) :
    let after (calls : List RecentServer) : List RecentServer :=
      (calls.foldl rememberServer { preferences with recentServers := [] }).recentServers
    (after calls).map RecentServer.address =
      (Recency.recents RecentServer.address calls).take 10 ∧
    ((after calls).map RecentServer.address).Nodup ∧
    ∀ server ∈ after calls,
      (∃ earlier call later, calls = earlier ++ call :: later ∧ call.address = server.address ∧
        (∀ other ∈ later, other.address ≠ server.address) ∧
        (server.caPath, server.fingerprint) = (call.caPath, call.fingerprint)) ∧
      (∃ earlier call later, calls = earlier ++ call :: later ∧ call.address = server.address ∧
        server.address ∉ (after earlier).map RecentServer.address ∧
        (∀ between other rest, later = between ++ other :: rest →
          other.address = server.address →
          server.address ∈ (after (earlier ++ call :: between)).map RecentServer.address) ∧
        server.name = call.name) := by
  intro after
  have kept (old server : RecentServer) : (keepName old server).address = server.address := rfl
  have run (calls : List RecentServer) : after calls =
      Recency.touchAll RecentServer.address keepName MAX_RECENT_SERVERS calls :=
    rememberServers_touchAll preferences calls
  simp only [run]
  refine ⟨Recency.touchAll_keys kept calls, Recency.touchAll_nodup kept calls,
    fun server mem => ⟨?_, ?_⟩⟩
  · exact Recency.touchAll_fresh (fun server => (server.caPath, server.fingerprint)) kept
      (fun _ _ => rfl) mem
  · exact Recency.touchAll_kept (fun server => server.name) kept (fun _ _ => rfl) mem

end Preferences

/-- `"recent."` -/
def recentPrefix : Bytes := ascii "recent."

def caKey (index : Nat) : Bytes := recentPrefix ++ (ascii "ca." ++ toDecimal index)

def pinKey (index : Nat) : Bytes := recentPrefix ++ (ascii "pin." ++ toDecimal index)

section Save

/-- The rows of the servers, the first of them at a position. Texts are bound as C
strings. -/
def recentRows (position : Nat) : List RecentServer → List RecentRow
  | [] => []
  | server :: servers =>
      { position
        name := columnText server.name
        host := columnText server.host
        port := server.port.toNat
        tls := if server.tls then 1 else 0 } :: recentRows (position + 1) servers

/-- The certificates of the servers go among the options. -/
def saveSecrets (index : Nat) (options : Options) : List RecentServer → Options
  | [] => options
  | server :: servers =>
      saveSecrets (index + 1)
        ((options.insert (caKey index) server.caPath).insert (pinKey index) server.fingerprint)
        servers

local instance lawfulBytes : LawfulBEq Bytes := inferInstance

/-- `INSERT INTO options`, row after row: a name can be there once. -/
def insertOptions : List (Bytes × Bytes) → List (Bytes × Bytes) →
    Except Bytes (List (Bytes × Bytes))
  | rows, [] => .ok rows
  | rows, (name, value) :: more =>
      if columnText name ∈ rows.map Prod.fst then
        .error (ascii "UNIQUE constraint failed: options.name")
      else insertOptions (rows ++ [(columnText name, columnText value)]) more

def savedOptions (preferences : Preferences) : Options :=
  saveSecrets 0 (preferences.options.filter fun name _ => !recentPrefix.isPrefixOf name)
    preferences.recentServers

/-- Nothing that was in the database before is left, unless saving fails. -/
def savePreferences (preferences : Preferences) : Except Bytes PreferencesDatabase :=
  if preferences.remember then
    (insertOptions [] (savedOptions preferences).toList).map fun options =>
      { settings := [(1, columnText preferences.nickname)]
        recent := recentRows 0 (preferences.recentServers.take MAX_RECENT_SERVERS)
        options := some options }
  else .ok { settings := [(0, [])], recent := [], options := some [] }

end Save

section Load

/-- The server of a row, nothing where the row is passed over. -/
def RecentRow.server? (row : RecentRow) : Option RecentServer :=
  let host := columnText row.host
  if row.port < 1 ∨ row.port > 65535 ∨ host = [] ∨ host.length > HOST_MAX_LEN then none
  else some
    { name := columnText row.name, host, port := UInt16.ofNat row.port.toNat, tls := row.tls == 1 }

/-- `options[name]` makes an empty option of one that is not there. -/
def subscript (options : Options) (name : Bytes) : Bytes × Options :=
  (options[name]?.getD [], options.insertIfNew name [])

/-- The certificates of the servers are looked up by their position among those loaded. -/
def loadSecrets (index : Nat) (options : Options) :
    List RecentServer → List RecentServer × Options
  | [] => ([], options)
  | server :: servers =>
      let (caPath, options) := subscript options (caKey index)
      let (fingerprint, options) := subscript options (pinKey index)
      let (servers, options) := loadSecrets (index + 1) options servers
      ({ server with caPath, fingerprint } :: servers, options)

def loadPreferences : Option PreferencesDatabase → Preferences
  | none => {}
  | some db =>
      match db.settings with
      | [] => {}
      | (remember, nickname) :: _ =>
          if remember ≠ 1 then {}
          else
            let nickname := columnText nickname
            let rows := db.recent.insertionSort fun a b => a.position ≤ b.position
            let servers := (rows.take MAX_RECENT_SERVERS).filterMap RecentRow.server?
            let (servers, options) := match db.options with
              | none => (servers, ∅)
              | some rows =>
                  loadSecrets 0 (rows.foldl (fun options row =>
                    options.insert (columnText row.1) (columnText row.2)) ∅) servers
            { remember := true
              nickname := if isValidNickname nickname then nickname else []
              options
              recentServers := servers }

end Load

end Chatbox.Storage
