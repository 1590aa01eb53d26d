import Chatbox.Storage.Preferences

/-!
What comes back of saved preferences. The options and the rows of the servers survive.
A certificate is kept under the place of its server in the list and looked up under the
place among the servers that could be loaded, so it comes back to its own server only
where the two agree.
-/

namespace Chatbox.Storage

open Text Protocol

section Keys

variable {i j : Nat}

theorem caKey_injective (h : caKey i = caKey j) : i = j := by
  have numbers : toDecimal i = toDecimal j := by simpa [caKey] using h
  rw [← decimalValue_toDecimal i, numbers, decimalValue_toDecimal]

theorem pinKey_injective (h : pinKey i = pinKey j) : i = j := by
  have numbers : toDecimal i = toDecimal j := by simpa [pinKey] using h
  rw [← decimalValue_toDecimal i, numbers, decimalValue_toDecimal]

theorem caKey_ne_pinKey : caKey i ≠ pinKey j := by
  intro h
  rw [caKey, pinKey, List.append_cancel_left_eq] at h
  exact absurd (congrArg List.head? h) (by simp [ascii])

theorem recentPrefix_caKey (i : Nat) : recentPrefix.isPrefixOf (caKey i) = true := by
  rw [List.isPrefixOf_iff_prefix]
  exact List.prefix_append _ _

theorem recentPrefix_pinKey (i : Nat) : recentPrefix.isPrefixOf (pinKey i) = true := by
  rw [List.isPrefixOf_iff_prefix]
  exact List.prefix_append _ _

end Keys

section NulFree

theorem nul_not_mem_nickname {nickname : Bytes} (h : isValidNickname nickname = true) :
    (0 : UInt8) ∉ nickname := by
  intro mem
  unfold isValidNickname at h
  split at h
  · cases h
  · exact absurd (List.all_eq_true.mp h 0 mem) (by decide)

theorem nul_not_mem_caKey (i : Nat) : (0 : UInt8) ∉ caKey i := by
  rw [caKey, List.mem_append, List.mem_append]
  rintro (mem | mem | mem)
  · exact absurd mem (by decide)
  · exact absurd mem (by decide)
  · exact not_mem_toDecimal (by decide) mem

theorem nul_not_mem_pinKey (i : Nat) : (0 : UInt8) ∉ pinKey i := by
  rw [pinKey, List.mem_append, List.mem_append]
  rintro (mem | mem | mem)
  · exact absurd mem (by decide)
  · exact absurd mem (by decide)
  · exact not_mem_toDecimal (by decide) mem

structure RecentServer.NulFree (server : RecentServer) : Prop where
  name : (0 : UInt8) ∉ server.name
  host : (0 : UInt8) ∉ server.host
  caPath : (0 : UInt8) ∉ server.caPath
  fingerprint : (0 : UInt8) ∉ server.fingerprint

def Options.NulFree (options : Options) : Prop :=
  ∀ name value : Bytes, options[name]? = some value → (0 : UInt8) ∉ name ∧ (0 : UInt8) ∉ value

theorem Options.NulFree.insert {options : Options} (h : Options.NulFree options)
    {name value : Bytes} (plainName : (0 : UInt8) ∉ name) (plainValue : (0 : UInt8) ∉ value) :
    Options.NulFree (Std.ExtTreeMap.insert options name value) := by
  intro other found there
  rw [OrderedMap.getElem?_insert] at there
  split at there
  · next same =>
      cases there
      exact ⟨same ▸ plainName, plainValue⟩
  · exact h other found there

end NulFree

section Secrets

variable {options : Options} {servers : List RecentServer}

/-- Only the names made of the positions from `index` on are written. -/
theorem saveSecrets_other {name : Bytes} {index : Nat}
    (other : ∀ j, index ≤ j → name ≠ caKey j ∧ name ≠ pinKey j) :
    (saveSecrets index options servers)[name]? = options[name]? := by
  induction servers generalizing index options with
  | nil => rfl
  | cons server servers ih =>
      have own := other index (Nat.le_refl index)
      rw [saveSecrets, ih fun j later => other j (by omega), OrderedMap.getElem?_insert,
        OrderedMap.getElem?_insert, if_neg own.2.symm, if_neg own.1.symm]

theorem saveSecrets_getElem? {index j : Nat} {server : RecentServer}
    (h : servers[j]? = some server) :
    (saveSecrets index options servers)[caKey (index + j)]? = some server.caPath ∧
      (saveSecrets index options servers)[pinKey (index + j)]? = some server.fingerprint := by
  induction servers generalizing index j options with
  | nil => simp at h
  | cons first servers ih =>
      cases j with
      | zero =>
          obtain rfl : first = server := by simpa using h
          have caOther : ∀ j, index + 1 ≤ j → caKey index ≠ caKey j ∧ caKey index ≠ pinKey j := by
            intro j later
            exact ⟨fun same => by have := caKey_injective same; omega, caKey_ne_pinKey⟩
          have pinOther : ∀ j, index + 1 ≤ j →
              pinKey index ≠ caKey j ∧ pinKey index ≠ pinKey j := by
            intro j later
            exact ⟨caKey_ne_pinKey.symm, fun same => by have := pinKey_injective same; omega⟩
          rw [Nat.add_zero, saveSecrets, saveSecrets_other caOther, saveSecrets_other pinOther,
            OrderedMap.getElem?_insert, OrderedMap.getElem?_insert, OrderedMap.getElem?_insert,
            if_neg caKey_ne_pinKey.symm, if_pos rfl, if_pos rfl]
          exact ⟨rfl, rfl⟩
      | succ j =>
          rw [saveSecrets, show index + (j + 1) = index + 1 + j by omega]
          exact ih (by simpa using h)

theorem saveSecrets_nulFree {index : Nat} (plain : Options.NulFree options)
    (plainServers : ∀ server ∈ servers, server.NulFree) :
    Options.NulFree (saveSecrets index options servers) := by
  induction servers generalizing index options with
  | nil => exact plain
  | cons server servers ih =>
      have own := plainServers server List.mem_cons_self
      refine ih ?_ fun other mem => plainServers other (List.mem_cons_of_mem server mem)
      exact (plain.insert (nul_not_mem_caKey index) own.caPath).insert (nul_not_mem_pinKey index)
        own.fingerprint

theorem getD_subscript (name name' : Bytes) :
    (subscript options name).2[name']?.getD [] = options[name']?.getD [] := by
  rw [subscript, OrderedMap.getElem?_insertIfNew]
  split
  · rfl
  · rfl

theorem subscript_other {name name' : Bytes} (other : name ≠ name') :
    (subscript options name).2[name']? = options[name']? := by
  rw [subscript, OrderedMap.getElem?_insertIfNew, if_neg other]

/-- A server with the certificate of another. -/
def RecentServer.withSecrets (server source : RecentServer) : RecentServer :=
  { server with caPath := source.caPath, fingerprint := source.fingerprint }

/-- The servers get the certificates saved for `sources`, in the order of the two lists. -/
theorem loadSecrets_servers {sources : List RecentServer} {index : Nat}
    (enough : servers.length ≤ sources.length)
    (saved : ∀ (j : Nat) (source : RecentServer), sources[j]? = some source →
      options[caKey (index + j)]?.getD [] = source.caPath ∧
        options[pinKey (index + j)]?.getD [] = source.fingerprint) :
    (loadSecrets index options servers).1 =
      List.zipWith RecentServer.withSecrets servers sources := by
  induction servers generalizing index options sources with
  | nil => rfl
  | cons server servers ih =>
      cases sources with
      | nil => simp at enough
      | cons source sources =>
          have own := saved 0 source rfl
          have rest := @ih (subscript (subscript options (caKey index)).2 (pinKey index)).2 sources
            (index + 1) (by simpa using enough) (by
              intro j later there
              have kept := saved (j + 1) later there
              rw [getD_subscript, getD_subscript, getD_subscript, getD_subscript,
                show index + 1 + j = index + (j + 1) by omega]
              exact kept)
          have ca : (subscript options (caKey index)).1 = source.caPath := own.1
          have pin : (subscript (subscript options (caKey index)).2 (pinKey index)).1 =
              source.fingerprint := by
            rw [subscript, getD_subscript]
            exact own.2
          simp only [loadSecrets, List.zipWith_cons_cons, RecentServer.withSecrets, rest, ca, pin]

theorem loadSecrets_other {name : Bytes} (other : recentPrefix.isPrefixOf name = false)
    (index : Nat) : (loadSecrets index options servers).2[name]? = options[name]? := by
  have ne {key : Bytes} (h : recentPrefix.isPrefixOf key = true) : key ≠ name := by
    rintro rfl
    rw [other] at h
    cases h
  induction servers generalizing index options with
  | nil => rfl
  | cons server servers ih =>
      simp only [loadSecrets]
      rw [ih, subscript_other (ne (recentPrefix_pinKey index)),
        subscript_other (ne (recentPrefix_caKey index))]

end Secrets

section Tables

variable {servers : List RecentServer}

theorem recentRows_position {position : Nat} {row : RecentRow}
    (h : row ∈ recentRows position servers) : (position : Int) ≤ row.position := by
  induction servers generalizing position with
  | nil => cases h
  | cons server servers ih =>
      obtain rfl | later := List.mem_cons.mp h
      · exact Int.le_refl _
      · have := ih later
        omega

theorem recentRows_sorted (position : Nat) :
    (recentRows position servers).Pairwise fun a b => a.position ≤ b.position := by
  induction servers generalizing position with
  | nil => exact List.Pairwise.nil
  | cons server servers ih =>
      refine List.Pairwise.cons (fun row mem => ?_) (ih (position + 1))
      have := recentRows_position mem
      show (position : Int) ≤ row.position
      omega

theorem length_recentRows (position : Nat) :
    (recentRows position servers).length = servers.length := by
  induction servers generalizing position with
  | nil => rfl
  | cons server servers ih => rw [recentRows, List.length_cons, List.length_cons, ih]

/-- The servers that are not passed over. -/
def RecentServer.admitted (server : RecentServer) : Bool :=
  1 ≤ server.port.toNat && server.host != [] && server.host.length ≤ HOST_MAX_LEN

/-- The server as the table of servers has it. -/
def RecentServer.bare (server : RecentServer) : RecentServer :=
  { server with caPath := [], fingerprint := [] }

theorem server?_row {server : RecentServer} (plain : server.NulFree) (position : Int) :
    RecentRow.server?
        { position
          name := columnText server.name
          host := columnText server.host
          port := server.port.toNat
          tls := if server.tls then 1 else 0 } =
      if server.admitted then some server.bare else none := by
  have port := server.port.toNat_lt
  have tls : ((if server.tls then (1 : Int) else 0) == 1) = server.tls := by
    cases server.tls <;> rfl
  simp only [RecentRow.server?, columnText_eq plain.name, columnText_eq plain.host, tls]
  by_cases admitted : server.admitted = true
  · rw [if_pos admitted]
    simp only [RecentServer.admitted, Bool.and_eq_true, decide_eq_true_eq, bne_iff_ne] at admitted
    obtain ⟨⟨positive, host⟩, short⟩ := admitted
    rw [if_neg]
    · simp [RecentServer.bare]
    · simp only [host, false_or, not_or]
      omega
  · rw [if_neg admitted, if_pos]
    simp only [RecentServer.admitted, Bool.and_eq_true, decide_eq_true_eq, bne_iff_ne] at admitted
    by_cases host : server.host = []
    · exact .inr (.inr (.inl host))
    · by_cases long : HOST_MAX_LEN < server.host.length
      · exact .inr (.inr (.inr long))
      · have zero : ¬ 1 ≤ server.port.toNat := fun positive =>
          admitted ⟨⟨positive, host⟩, Nat.le_of_not_lt long⟩
        exact .inl (by omega)

theorem filterMap_recentRows (plain : ∀ server ∈ servers, server.NulFree) (position : Nat) :
    (recentRows position servers).filterMap RecentRow.server? =
      (servers.filter RecentServer.admitted).map RecentServer.bare := by
  induction servers generalizing position with
  | nil => rfl
  | cons server servers ih =>
      rw [recentRows, List.filterMap_cons, server?_row (plain server List.mem_cons_self),
        ih fun other mem => plain other (List.mem_cons_of_mem server mem), List.filter_cons]
      split
      · next none => rw [if_neg (by simpa using none)]
      · next some =>
          split at some
          · next admitted =>
              cases some
              rw [if_pos admitted, List.map_cons]
          · cases some

theorem insertOptions_ok {rows more : List (Bytes × Bytes)}
    (plain : ∀ row ∈ more, (0 : UInt8) ∉ row.1 ∧ (0 : UInt8) ∉ row.2)
    (distinct : ((rows ++ more).map Prod.fst).Nodup) :
    insertOptions rows more = .ok (rows ++ more) := by
  induction more generalizing rows with
  | nil => rw [insertOptions, List.append_nil]
  | cons row more ih =>
      obtain ⟨name, value⟩ := row
      have own := plain (name, value) List.mem_cons_self
      have absent : name ∉ rows.map Prod.fst := by
        intro mem
        rw [List.map_append, List.nodup_append] at distinct
        exact distinct.2.2 name mem name (by simp) rfl
      rw [insertOptions, columnText_eq own.1, columnText_eq own.2, if_neg absent, ih]
      · rw [List.append_assoc, List.singleton_append]
      · exact fun other mem => plain other (List.mem_cons_of_mem _ mem)
      · rwa [List.append_assoc, List.singleton_append]

/-- Options that are written can be read. -/
theorem foldl_columnText {options : Options} (plain : Options.NulFree options) :
    options.toList.foldl (fun options row => Std.ExtTreeMap.insert options (columnText row.1)
      (columnText row.2)) (∅ : Options) = options := by
  have same : options.toList.foldl (fun options row => Std.ExtTreeMap.insert options
      (columnText row.1) (columnText row.2)) (∅ : Options) =
      options.toList.foldl (fun options row => Std.ExtTreeMap.insert options row.1 row.2) ∅ := by
    apply List.foldl_ext
    intro options' row mem
    have own := plain row.1 row.2 (Std.ExtTreeMap.mem_toList_iff_getElem?_eq_some.mp mem)
    rw [columnText_eq own.1, columnText_eq own.2]
  rw [same]
  exact OrderedMap.ofList_toList options

end Tables

section RoundTrip

structure Preferences.NulFree (preferences : Preferences) : Prop where
  options : Options.NulFree preferences.options
  servers : ∀ server ∈ preferences.recentServers, server.NulFree

/-- The servers that come back, as they were saved. -/
def Preferences.kept (preferences : Preferences) : List RecentServer :=
  (preferences.recentServers.take MAX_RECENT_SERVERS).filter RecentServer.admitted

/-- What is to come back of preferences. -/
structure Restored (preferences loaded : Preferences) : Prop where
  remember : loaded.remember = true
  nickname : loaded.nickname = preferences.nickname
  options : ∀ name, recentPrefix.isPrefixOf name = false →
    loaded.options[name]? = preferences.options[name]?
  recentServers : loaded.recentServers = preferences.kept

def RecentServer.secrets (server : RecentServer) : Bytes × Bytes :=
  (server.caPath, server.fingerprint)

/-- The servers that come back have the certificates of as many servers from the front of
the list. -/
def Preferences.Aligned (preferences : Preferences) : Prop :=
  preferences.kept.map RecentServer.secrets =
    (preferences.recentServers.take preferences.kept.length).map RecentServer.secrets

variable {preferences : Preferences}

theorem zipWith_withSecrets {servers sources : List RecentServer}
    (enough : servers.length ≤ sources.length) :
    List.zipWith RecentServer.withSecrets (servers.map RecentServer.bare) sources = servers ↔
      servers.map RecentServer.secrets =
        (sources.take servers.length).map RecentServer.secrets := by
  induction servers generalizing sources with
  | nil => simp
  | cons server servers ih =>
      cases sources with
      | nil => simp at enough
      | cons source sources =>
          rw [List.map_cons, List.zipWith_cons_cons, List.length_cons, List.take_succ_cons,
            List.map_cons, List.map_cons, List.cons.injEq, List.cons.injEq,
            ih (by simpa using enough)]
          refine and_congr_left fun _ => ?_
          cases server
          simp [RecentServer.withSecrets, RecentServer.bare, RecentServer.secrets, eq_comm]

theorem length_kept (preferences : Preferences) :
    preferences.kept.length ≤ preferences.recentServers.length :=
  (List.length_filter_le _ _).trans (List.length_take_le' _ _)

/-- What the options are like once they are saved. -/
theorem savedOptions_nulFree (plain : preferences.NulFree) :
    Options.NulFree (savedOptions preferences) := by
  refine saveSecrets_nulFree (fun name value there => ?_) plain.servers
  rw [Std.ExtTreeMap.getElem?_filter', Option.filter_eq_some_iff] at there
  exact plain.options name value there.1

theorem savedOptions_other {name : Bytes} (other : recentPrefix.isPrefixOf name = false) :
    (savedOptions preferences)[name]? = preferences.options[name]? := by
  have ne {key : Bytes} (h : recentPrefix.isPrefixOf key = true) : name ≠ key := by
    rintro rfl
    rw [other] at h
    cases h
  rw [savedOptions, saveSecrets_other fun j _ => ⟨ne (recentPrefix_caKey j),
    ne (recentPrefix_pinKey j)⟩, Std.ExtTreeMap.getElem?_filter']
  cases preferences.options[name]? <;> simp [other]

theorem savePreferences_eq (remember : preferences.remember = true) (plain : preferences.NulFree) :
    savePreferences preferences = .ok
      { settings := [(1, columnText preferences.nickname)]
        recent := recentRows 0 (preferences.recentServers.take MAX_RECENT_SERVERS)
        options := some (savedOptions preferences).toList } := by
  have inserted : insertOptions [] (savedOptions preferences).toList =
      .ok ([] ++ (savedOptions preferences).toList) := by
    apply insertOptions_ok
    · intro row mem
      exact savedOptions_nulFree plain row.1 row.2
        (Std.ExtTreeMap.mem_toList_iff_getElem?_eq_some.mp mem)
    · rw [List.nil_append, List.Nodup, List.pairwise_map]
      exact (Std.ExtTreeMap.distinct_keys_toList).imp fun other same => other (by simp [same])
  rw [savePreferences, if_pos remember, inserted]
  rfl

theorem loadPreferences_eq (remember : preferences.remember = true)
    (valid : isValidNickname preferences.nickname = true) (plain : preferences.NulFree) :
    ∃ db, savePreferences preferences = .ok db ∧
      loadPreferences (some db) =
        { remember := true
          nickname := preferences.nickname
          options := (loadSecrets 0 (savedOptions preferences)
            (preferences.kept.map RecentServer.bare)).2
          recentServers := List.zipWith RecentServer.withSecrets
            (preferences.kept.map RecentServer.bare) preferences.recentServers } := by
  refine ⟨_, savePreferences_eq remember plain, ?_⟩
  have nickname := columnText_eq (nul_not_mem_nickname valid)
  have rows : (recentRows 0 (preferences.recentServers.take MAX_RECENT_SERVERS)).insertionSort
      (fun a b => a.position ≤ b.position) =
      recentRows 0 (preferences.recentServers.take MAX_RECENT_SERVERS) :=
    (recentRows_sorted 0).insertionSort_eq
  have all : (recentRows 0 (preferences.recentServers.take MAX_RECENT_SERVERS)).take
      MAX_RECENT_SERVERS = recentRows 0 (preferences.recentServers.take MAX_RECENT_SERVERS) := by
    apply List.take_of_length_le
    rw [length_recentRows]
    exact List.length_take_le _ _
  have servers := @filterMap_recentRows (preferences.recentServers.take MAX_RECENT_SERVERS)
    (fun server mem => plain.servers server (List.mem_of_mem_take mem)) 0
  have secrets := @loadSecrets_servers (savedOptions preferences)
    (preferences.kept.map RecentServer.bare) preferences.recentServers 0
    (by rw [List.length_map]; exact length_kept preferences) (by
      intro j source there
      have saved := @saveSecrets_getElem? (preferences.options.filter fun name _ =>
        !recentPrefix.isPrefixOf name) preferences.recentServers 0 j source there
      rw [savedOptions, saved.1, saved.2]
      exact ⟨rfl, rfl⟩)
  simp only [loadPreferences, nickname, rows, all, servers, foldl_columnText
    (savedOptions_nulFree plain), valid, if_true]
  rw [if_neg (by decide)]
  rw [← secrets]
  rfl

/-- Preferences come back as they were saved exactly if the servers that are passed over
take no certificate from its place. -/
theorem loadPreferences_restores (preferences : Preferences)
    (remember : preferences.remember = true)
    (valid : isValidNickname preferences.nickname = true) (plain : preferences.NulFree) :
    ∃ db, savePreferences preferences = .ok db ∧
      (Restored preferences (loadPreferences (some db)) ↔ preferences.Aligned) := by
  obtain ⟨db, saved, loaded⟩ := loadPreferences_eq remember valid plain
  have servers := zipWith_withSecrets (length_kept preferences)
  refine ⟨db, saved, ?_⟩
  rw [loaded, Preferences.Aligned, ← servers]
  constructor
  · intro restored
    exact restored.recentServers
  · intro same
    exact ⟨rfl, rfl, fun name other => by
      rw [loadSecrets_other other, savedOptions_other other], same⟩

/-- Preferences without options of their own. -/
theorem nulFree_servers {servers : List RecentServer} (nickname : Bytes)
    (plain : ∀ server ∈ servers, server.NulFree) :
    Preferences.NulFree { remember := true, nickname, recentServers := servers } :=
  ⟨fun name value there => by simp at there, plain⟩

theorem loadPreferences_restores_two :
    let preferences : Preferences :=
      { remember := true
        nickname := ascii "alice"
        recentServers := [{ name := ascii "My room", host := ascii "::1", caPath := ascii "ca.pem" },
          { name := ascii "Another", host := ascii "localhost", port := 1234, tls := false }] }
    ∃ db, savePreferences preferences = .ok db ∧
      (Restored preferences (loadPreferences (some db)) ↔ preferences.Aligned) :=
  loadPreferences_restores _ rfl (by decide) (nulFree_servers _ (by
    simp only [List.forall_mem_cons]
    exact ⟨⟨by decide, by decide, by decide, by decide⟩,
      ⟨by decide, by decide, by decide, by decide⟩, fun _ none => absurd none List.not_mem_nil⟩))

/-- A server without a host takes the place of the one after it. -/
theorem loadPreferences_loses_certificate :
    ¬ ∀ preferences : Preferences, preferences.remember = true →
      isValidNickname preferences.nickname = true → preferences.NulFree →
        ∃ db, savePreferences preferences = .ok db ∧
          Restored preferences (loadPreferences (some db)) := by
  intro all
  let servers : List RecentServer :=
    [{ name := ascii "gone", host := [] },
      { name := ascii "home", host := ascii "h", caPath := ascii "ca.pem" }]
  have plain : ∀ server ∈ servers, server.NulFree := by
    simp only [servers, List.forall_mem_cons]
    exact ⟨⟨by decide, by decide, by decide, by decide⟩,
      ⟨by decide, by decide, by decide, by decide⟩, fun _ none => absurd none List.not_mem_nil⟩
  have valid : isValidNickname (ascii "alice") = true := by decide
  let preferences : Preferences :=
    { remember := true, nickname := ascii "alice", recentServers := servers }
  obtain ⟨db, saved, restored⟩ := all preferences rfl valid (nulFree_servers _ plain)
  obtain ⟨db', saved', loaded⟩ :=
    @loadPreferences_eq preferences rfl valid (nulFree_servers _ plain)
  obtain rfl : db = db' := Except.ok.inj (saved.symm.trans saved')
  have back := restored.recentServers
  rw [loaded] at back
  have aligned := (zipWith_withSecrets (length_kept preferences)).mp back
  exact absurd aligned (by decide)

end RoundTrip

end Chatbox.Storage
