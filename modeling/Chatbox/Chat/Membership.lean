import Chatbox.Chat.StepChange

/-!
Who is in which room. The fact is kept twice, in the member sets of the rooms and
in the session's own field, and every change keeps the two in agreement.
-/

namespace Chatbox.Chat

open Text Protocol Storage

namespace ServerTables

variable {tables : ServerTables} {s a : SessionId} {roomId r : RoomId}

section Lookups

@[simp] theorem updateSession_session (change : ClientSession → ClientSession) :
    (tables.updateSession s change).session a =
      if a = s then change (tables.session s) else tables.session a := by
  simp [updateSession, Function.update_apply]

/-- What the change keeps of the session it is for, it keeps of every session. -/
theorem updateSession_kept {β : Type} (field : ClientSession → β)
    {change : ClientSession → ClientSession}
    (kept : field (change (tables.session s)) = field (tables.session s)) :
    field ((tables.updateSession s change).session a) = field (tables.session a) := by
  rw [updateSession_session]
  split
  · next e =>
      subst e
      exact kept
  · rfl

@[simp] theorem updateSession_members (change : ClientSession → ClientSession) :
    (tables.updateSession s change).members = tables.members := rfl

@[simp] theorem updateSession_rooms (change : ClientSession → ClientSession) :
    (tables.updateSession s change).rooms = tables.rooms := rfl

theorem updateRoom_getElem? (change : Room → Room) :
    (tables.updateRoom roomId change).rooms[r]? =
      if roomId = r then tables.rooms[r]?.map change else tables.rooms[r]? :=
  OrderedMap.getElem?_modify _ _ _ _

/-- A change of a room that keeps its members changes no member set. -/
theorem updateRoom_members {change : Room → Room}
    (h : ∀ room, (change room).members = room.members) :
    (tables.updateRoom roomId change).members = tables.members := by
  funext r
  simp only [members, updateRoom_getElem?]
  by_cases hr : roomId = r
  · cases tables.rooms[r]? <;> simp [hr, h]
  · simp [hr]

@[simp] theorem mem_eraseMember :
    a ∈ (tables.eraseMember s roomId).members r ↔
      a ∈ tables.members r ∧ ¬ (a = s ∧ r = roomId) := by
  simp only [members, eraseMember, updateRoom_getElem?]
  by_cases hr : roomId = r
  · subst hr
    cases tables.rooms[roomId]? with
    | none => simp
    | some room =>
        simp only [if_true, Option.map_some, OrderedMap.mem_erase, and_true]
        exact and_comm
  · simp [hr, Ne.symm hr]

@[simp] theorem mem_insertMember (present : roomId ∈ tables.rooms) :
    a ∈ (tables.insertMember s roomId).members r ↔
      a ∈ tables.members r ∨ (a = s ∧ r = roomId) := by
  simp only [members, insertMember, updateRoom_getElem?]
  by_cases hr : roomId = r
  · subst hr
    obtain ⟨room, hroom⟩ := Option.isSome_iff_exists.mp
      (Std.ExtTreeMap.isSome_getElem?_iff_mem.mpr present)
    simp only [hroom, if_true, Option.map_some, OrderedMap.mem_insert, and_true]
    exact or_comm
  · simp [hr, Ne.symm hr]

@[simp] theorem eraseMember_mem : r ∈ (tables.eraseMember s roomId).rooms ↔ r ∈ tables.rooms := by
  simp [eraseMember, updateRoom, Std.ExtTreeMap.mem_modify]

@[simp] theorem insertMember_mem :
    r ∈ (tables.insertMember s roomId).rooms ↔ r ∈ tables.rooms := by
  simp [insertMember, updateRoom, Std.ExtTreeMap.mem_modify]

@[simp] theorem eraseMember_session : (tables.eraseMember s roomId).session = tables.session :=
  rfl

@[simp] theorem insertMember_session : (tables.insertMember s roomId).session = tables.session :=
  rfl

theorem mem_placeSession (present : roomId ∈ tables.rooms) :
    a ∈ (tables.placeSession s roomId).members r ↔
      (a ∈ tables.members r ∧ ¬ (a = s ∧ r = (tables.session s).activeRoomId)) ∨
        (a = s ∧ r = roomId) := by
  have present' : roomId ∈
      (tables.eraseMember s (tables.session s).activeRoomId).rooms := by simpa using present
  simp only [placeSession, updateSession_members, mem_insertMember present', mem_eraseMember]

theorem placeSession_session :
    (tables.placeSession s roomId).session a =
      if a = s then { tables.session s with activeRoomId := roomId } else tables.session a := by
  simp [placeSession]

theorem placeSession_kept {β : Type} (field : ClientSession → β)
    (kept : field { tables.session s with activeRoomId := roomId } = field (tables.session s)) :
    field ((tables.placeSession s roomId).session a) = field (tables.session a) := by
  rw [placeSession_session]
  split
  · next e =>
      subst e
      exact kept
  · rfl

theorem mem_dropSession :
    a ∈ (tables.dropSession s).members r ↔
      a ∈ tables.members r ∧
        ¬ (a = s ∧ r = (tables.session s).activeRoomId ∧ r ≠ 0) := by
  unfold dropSession
  simp only
  split
  · next h =>
      rw [h, updateSession_members]
      change a ∈ tables.members r ↔ _
      constructor
      · exact fun hm => ⟨hm, fun hn => hn.2.2 hn.2.1⟩
      · exact fun hm => hm.1
  · next h =>
      rw [mem_eraseMember, updateSession_members]
      change a ∈ tables.members r ∧ _ ↔ _
      refine and_congr_right fun _ => not_congr (and_congr_right fun _ => ?_)
      constructor
      · rintro rfl
        exact ⟨rfl, h⟩
      · exact fun hn => hn.1

theorem dropSession_session :
    (tables.dropSession s).session a =
      if a = s then { tables.session s with activeRoomId := 0 } else tables.session a := by
  unfold dropSession
  simp only
  split
  · rw [updateSession_session]
  · rw [eraseMember_session, updateSession_session]

theorem dropSession_kept {β : Type} (field : ClientSession → β)
    (kept : field { tables.session s with activeRoomId := 0 } = field (tables.session s)) :
    field ((tables.dropSession s).session a) = field (tables.session a) := by
  rw [dropSession_session]
  split
  · next e =>
      subst e
      exact kept
  · rfl

theorem dropSession_sessions : (tables.dropSession s).sessions = tables.sessions.erase s := by
  unfold dropSession
  simp only
  split <;> rfl

theorem dropSession_identities : (tables.dropSession s).identities = tables.identities := by
  unfold dropSession
  simp only
  split <;> rfl

@[simp] theorem dropSession_mem : r ∈ (tables.dropSession s).rooms ↔ r ∈ tables.rooms := by
  unfold dropSession
  simp only
  split
  · rfl
  · rw [eraseMember_mem]
    rfl

@[simp] theorem insertRoom_members {room : Room} (empty : room.members = ∅) :
    (tables.insertRoom roomId room).members = tables.members := by
  funext r
  simp only [members, insertRoom, OrderedMap.getElem?_insertIfNew]
  by_cases hr : roomId = r
  · cases tables.rooms[r]? <;> simp [hr, empty]
  · simp [hr]

theorem mem_rooms_of_mem_members (h : a ∈ tables.members r) : r ∈ tables.rooms := by
  unfold members at h
  split at h
  · simp at h
  · next room hroom => exact Std.ExtTreeMap.isSome_getElem?_iff_mem.mp (by rw [hroom]; rfl)

end Lookups

/-- The table of rooms: each under its own id, below the next one to be given
out, which is too small to overflow; the lobby always exists. -/
structure RoomsWellFormed (tables : ServerTables) : Prop where
  key : ∀ r room, tables.rooms[r]? = some room →
    room.id = r ∧ 0 < r ∧ r < tables.nextRoomId
  bound : tables.nextRoomId.toNat ≤ 2 ^ 63 + tables.rooms.size
  lobby : DEFAULT_ROOM_ID ∈ tables.rooms

namespace RoomsWellFormed

variable (h : tables.RoomsWellFormed)

include h

theorem pos (present : r ∈ tables.rooms) : r ≠ 0 := by
  obtain ⟨room, hroom⟩ := Option.isSome_iff_exists.mp
    (Std.ExtTreeMap.isSome_getElem?_iff_mem.mpr present)
  rintro rfl
  exact absurd (h.key _ room hroom).2.1 (by decide)

/-- Changing rooms one by one, without their ids, keeps the table well formed. -/
theorem updateRoom {change : Room → Room} (hid : ∀ room, (change room).id = room.id) :
    (tables.updateRoom roomId change).RoomsWellFormed := by
  refine ⟨fun r room hroom => ?_, ?_, ?_⟩
  · rw [updateRoom_getElem?] at hroom
    split at hroom
    · obtain ⟨room', hroom', rfl⟩ := Option.map_eq_some_iff.mp hroom
      rw [hid]
      exact h.key r room' hroom'
    · exact h.key r room hroom
  · simpa [ServerTables.updateRoom, Std.ExtTreeMap.size_modify] using h.bound
  · simpa [ServerTables.updateRoom, Std.ExtTreeMap.mem_modify] using h.lobby

theorem eraseMember : (tables.eraseMember s roomId).RoomsWellFormed :=
  h.updateRoom fun _ => rfl

theorem insertMember : (tables.insertMember s roomId).RoomsWellFormed :=
  h.updateRoom fun _ => rfl

theorem updateSession {change : ClientSession → ClientSession} :
    (tables.updateSession s change).RoomsWellFormed := ⟨h.key, h.bound, h.lobby⟩

theorem placeSession : (tables.placeSession s roomId).RoomsWellFormed := by
  unfold ServerTables.placeSession
  exact (RoomsWellFormed.insertMember h.eraseMember).updateSession

theorem dropSession : (tables.dropSession s).RoomsWellFormed := by
  have erased : RoomsWellFormed { tables with sessions := tables.sessions.erase s } :=
    ⟨h.key, h.bound, h.lobby⟩
  unfold ServerTables.dropSession
  simp only
  split
  · exact erased.updateSession
  · exact (RoomsWellFormed.updateSession erased).eraseMember

theorem fresh : tables.nextRoomId ∉ tables.rooms := by
  intro hm
  obtain ⟨room, hroom⟩ := Option.isSome_iff_exists.mp
    (Std.ExtTreeMap.isSome_getElem?_iff_mem.mpr hm)
  exact absurd (h.key _ room hroom).2.2 (UInt64.lt_irrefl _)

/-- The next id is fresh and not the last one. -/
theorem insertRoom {name ownerNickname : Bytes} (below : tables.rooms.size < MAX_ROOMS) :
    (tables.insertRoom tables.nextRoomId
      { id := tables.nextRoomId, name, ownerNickname }).RoomsWellFormed := by
  have limit : MAX_ROOMS = 32 := rfl
  have bound := h.bound
  have next : (tables.nextRoomId + 1).toNat = tables.nextRoomId.toNat + 1 := by
    rw [UInt64.toNat_add, UInt64.toNat_one, Nat.mod_eq_of_lt (by omega)]
  have absent := h.fresh
  have positive : 0 < tables.nextRoomId := by
    obtain ⟨room, hroom⟩ := Option.isSome_iff_exists.mp
      (Std.ExtTreeMap.isSome_getElem?_iff_mem.mpr h.lobby)
    have := h.key _ room hroom
    exact UInt64.lt_trans this.2.1 this.2.2
  have grows : ∀ r, r < tables.nextRoomId → r < tables.nextRoomId + 1 := by
    intro r hr
    rw [UInt64.lt_iff_toNat_lt] at hr ⊢
    omega
  refine ⟨fun r room hroom => ?_, ?_, ?_⟩
  · simp only [ServerTables.insertRoom, OrderedMap.getElem?_insertIfNew] at hroom ⊢
    split at hroom
    · next hr =>
        subst hr
        rw [Std.ExtTreeMap.getElem?_eq_none absent] at hroom
        obtain rfl := Option.some.inj hroom
        refine ⟨rfl, positive, ?_⟩
        rw [UInt64.lt_iff_toNat_lt]
        omega
    · have := h.key r room hroom
      exact ⟨this.1, this.2.1, grows r this.2.2⟩
  · simp only [ServerTables.insertRoom, Std.ExtTreeMap.size_insertIfNew, if_neg absent, next]
    omega
  · simpa [ServerTables.insertRoom] using .inr h.lobby

end RoomsWellFormed

/-- The two records of the memberships agree, members have nicknames, and
nicknames, also those being proven, are valid. -/
structure Consistent (tables : ServerTables) : Prop where
  rooms : tables.RoomsWellFormed
  member_iff : ∀ s r, s ∈ tables.members r ↔ (tables.session s).activeRoomId = r ∧ r ≠ 0
  named : ∀ s, (tables.session s).activeRoomId ≠ 0 → (tables.session s).nickname ≠ []
  valid : ∀ s, (tables.session s).nickname = [] ∨
    isValidNickname (tables.session s).nickname = true
  pending : ∀ s, (tables.session s).pendingNickname = [] ∨
    isValidNickname (tables.session s).pendingNickname = true

namespace Consistent

/-- A change of one session that leaves its room alone. -/
theorem updateSession (h : tables.Consistent) {change : ClientSession → ClientSession}
    (hroom : (change (tables.session s)).activeRoomId = (tables.session s).activeRoomId)
    (hnamed : (tables.session s).nickname ≠ [] → (change (tables.session s)).nickname ≠ [])
    (hvalid : (change (tables.session s)).nickname = [] ∨
      isValidNickname (change (tables.session s)).nickname = true)
    (hpending : (change (tables.session s)).pendingNickname = [] ∨
      isValidNickname (change (tables.session s)).pendingNickname = true) :
    (tables.updateSession s change).Consistent := by
  refine ⟨h.rooms.updateSession, fun a r => ?_, fun a => ?_, fun a => ?_, fun a => ?_⟩
  all_goals
    simp only [updateSession_session, updateSession_members]
    by_cases ha : a = s
    · subst ha
      simp only [if_true]
      first
        | rw [hroom]; exact h.member_iff a r
        | rw [hroom]; exact fun hne => hnamed (h.named a hne)
        | exact hvalid
        | exact hpending
    · simp only [if_neg ha]
      first
        | exact h.member_iff a r
        | exact h.named a
        | exact h.valid a
        | exact h.pending a

/-- Other tables do not matter. -/
theorem congr (h : tables.Consistent) {tables' : ServerTables}
    (hrooms : tables'.RoomsWellFormed) (hmembers : tables'.members = tables.members)
    (hsession : tables'.session = tables.session) : tables'.Consistent := by
  refine ⟨hrooms, ?_, ?_, ?_, ?_⟩
  · rw [hmembers, hsession]
    exact h.member_iff
  · rw [hsession]
    exact h.named
  · rw [hsession]
    exact h.valid
  · rw [hsession]
    exact h.pending

theorem placeSession (h : tables.Consistent) (hnamed : (tables.session s).nickname ≠ [])
    (present : roomId ∈ tables.rooms) : (tables.placeSession s roomId).Consistent := by
  refine ⟨h.rooms.placeSession, fun a r => ?_, fun a => ?_, fun a => ?_, fun a => ?_⟩
  · rw [mem_placeSession present, placeSession_session, h.member_iff]
    by_cases ha : a = s
    · subst ha
      have hpos := h.rooms.pos present
      simp only [if_true, true_and]
      constructor
      · rintro (⟨⟨rfl, -⟩, hne⟩ | rfl)
        · exact absurd rfl hne
        · exact ⟨rfl, hpos⟩
      · rintro ⟨rfl, -⟩
        exact .inr rfl
    · simp [ha]
  all_goals
    rw [placeSession_session]
    by_cases ha : a = s
    · subst ha
      simp only [if_true]
      first
        | exact fun _ => hnamed
        | exact h.valid a
        | exact h.pending a
    · simp only [if_neg ha]
      first
        | exact h.named a
        | exact h.valid a
        | exact h.pending a

theorem dropSession (h : tables.Consistent) : (tables.dropSession s).Consistent := by
  refine ⟨h.rooms.dropSession, fun a r => ?_, fun a => ?_, fun a => ?_, fun a => ?_⟩
  · rw [mem_dropSession, dropSession_session, h.member_iff]
    by_cases ha : a = s
    · subst ha
      simp only [if_true, true_and]
      constructor
      · rintro ⟨⟨rfl, hne⟩, hn⟩
        exact absurd ⟨rfl, hne⟩ hn
      · rintro ⟨rfl, hne⟩
        exact absurd rfl hne
    · simp [ha]
  all_goals
    rw [dropSession_session]
    by_cases ha : a = s
    · subst ha
      simp only [if_true]
      first
        | exact fun hne => absurd rfl hne
        | exact h.valid a
        | exact h.pending a
    · simp only [if_neg ha]
      first
        | exact h.named a
        | exact h.valid a
        | exact h.pending a

end Consistent

end ServerTables

open ServerTables

theorem Change.consistent {env : Env} {mover : SessionId → Prop} {a b : ServerTables}
    (h : Change env mover a b) (ha : a.Consistent) : b.Consistent := by
  cases h with
  | touch s change keeps =>
      have k := keeps (a.session s)
      refine ha.updateSession k.activeRoomId ?_ ?_ ?_
      · rw [k.nickname]
        exact id
      · rw [k.nickname]
        exact ha.valid s
      · rw [k.pendingNickname]
        exact ha.pending s
  | accept s absent =>
      have inserted : Consistent { a with sessions := a.sessions.insert s } :=
        ha.congr ⟨ha.rooms.key, ha.rooms.bound, ha.rooms.lobby⟩ rfl rfl
      exact inserted.updateSession rfl id (ha.valid s) (ha.pending s)
  | identify s nick publicKeyHex challenge valid reading =>
      exact ha.updateSession rfl id (ha.valid s) (.inr valid)
  | admission s moves unnamed named free bound =>
      exact ha.updateSession rfl (fun _ => named)
        ((ha.pending s).imp_left fun e => absurd e named) (.inl rfl)
  | place s roomId moves named present => exact ha.placeSession named present
  | drop s stays => exact ha.dropSession
  | insertRoom name ownerNickname valid below fresh =>
      exact ha.congr (ha.rooms.insertRoom below) (insertRoom_members rfl) rfl
  | topic roomId topic valid =>
      exact ha.congr (ha.rooms.updateRoom fun _ => rfl) (updateRoom_members fun _ => rfl) rfl
  | host roomId present => exact ha.congr ⟨ha.rooms.key, ha.rooms.bound, ha.rooms.lobby⟩ rfl rfl
  | bans bannedNicks => exact ha.congr ⟨ha.rooms.key, ha.rooms.bound, ha.rooms.lobby⟩ rfl rfl
  | bind nick publicKeyHex unbound =>
      exact ha.congr ⟨ha.rooms.key, ha.rooms.bound, ha.rooms.lobby⟩ rfl rfl

theorem Changes.consistent {env : Env} {mover : SessionId → Prop} {a b : ServerTables}
    (h : Changes env mover a b) (ha : a.Consistent) : b.Consistent :=
  h.invariant (fun _ _ hc => hc.consistent) ha

section Start

/-- The rooms of the database get their own ids, no members, and a next id that is
above them all. -/
theorem loadRooms_spec (env : Env) (stored : StoredState) :
    let loaded := ChatServer.loadRooms env stored
    (∀ (r : RoomId) (room : Room), loaded.1[r]? = some room →
      room.id = r ∧ 0 < r ∧ r < loaded.2 ∧ room.members = ∅) ∧
      1 < loaded.2.toNat ∧ loaded.2.toNat ≤ 2 ^ 63 := by
  have all (rows : List StoredRoom) (hrows : ∀ room ∈ rows, 0 < room.id ∧ room.id.toNat < 2 ^ 63)
      (rooms : RoomMap) (nextRoomId : RoomId)
      (hrooms : ∀ (r : RoomId) (room : Room), rooms[r]? = some room →
        room.id = r ∧ 0 < r ∧ r < nextRoomId ∧ room.members = ∅)
      (hnext : 1 < nextRoomId.toNat ∧ nextRoomId.toNat ≤ 2 ^ 63) :
      let loaded := rows.foldl (fun (loaded : RoomMap × RoomId) (room : StoredRoom) =>
        (loaded.1.insertIfNew room.id
          ({ id := room.id, name := room.name, topic := room.topic,
             ownerNickname := room.ownerNickname,
             recentMessages := (stored.history room.id env.historyLimit).reverse.map (·.body) } :
            Room), max loaded.2 (room.id + 1))) (rooms, nextRoomId)
      (∀ (r : RoomId) (room : Room), loaded.1[r]? = some room →
        room.id = r ∧ 0 < r ∧ r < loaded.2 ∧ room.members = ∅) ∧
        1 < loaded.2.toNat ∧ loaded.2.toNat ≤ 2 ^ 63 := by
    induction rows generalizing rooms nextRoomId with
    | nil => exact ⟨hrooms, hnext⟩
    | cons row rows ih =>
        have hrow := hrows row (by simp)
        have succ : (row.id + 1).toNat = row.id.toNat + 1 := by
          rw [UInt64.toNat_add, UInt64.toNat_one, Nat.mod_eq_of_lt (by omega)]
        have hmax : (max nextRoomId (row.id + 1)).toNat =
            max nextRoomId.toNat (row.id.toNat + 1) := by
          rw [← succ]
          change (if nextRoomId ≤ row.id + 1 then row.id + 1 else nextRoomId).toNat = _
          split
          · next hle =>
              rw [UInt64.le_iff_toNat_le] at hle
              omega
          · next hle =>
              rw [UInt64.le_iff_toNat_le] at hle
              omega
        refine ih (fun room hm => hrows room (by simp [hm])) _ _ (fun r room hroom => ?_) ?_
        · rw [OrderedMap.getElem?_insertIfNew] at hroom
          have below : row.id < max nextRoomId (row.id + 1) := by
            rw [UInt64.lt_iff_toNat_lt, hmax]
            omega
          have old : ∀ room, rooms[r]? = some room → room.id = r ∧ 0 < r ∧
              r < max nextRoomId (row.id + 1) ∧ room.members = ∅ := by
            intro room hroom
            have := hrooms r room hroom
            refine ⟨this.1, this.2.1, ?_, this.2.2.2⟩
            have lt := this.2.2.1
            rw [UInt64.lt_iff_toNat_lt] at lt ⊢
            omega
          split at hroom
          · next hr =>
              subst hr
              cases hold : rooms[row.id]? with
              | some room' =>
                  rw [hold] at hroom
                  obtain rfl : room' = room := by simpa using hroom
                  exact old room' hold
              | none =>
                  rw [hold] at hroom
                  obtain rfl := Option.some.inj hroom
                  exact ⟨rfl, hrow.1, below, rfl⟩
          · exact old room hroom
        · rw [hmax]
          omega
  refine all stored.rooms stored.rowIds ∅ (DEFAULT_ROOM_ID + 1) ?_ (by decide)
  simp

/-- A new server: its tables are those of the store, with a lobby, and no session
has been accepted. -/
theorem start_tables (env : Env) (stored : StoredState) :
    let tables := (ChatServer.start env stored).tables
    tables.RoomsWellFormed ∧
      (∀ (r : RoomId) (room : Room), tables.rooms[r]? = some room → room.members = ∅) ∧
      tables.sessions = ∅ ∧ tables.session = fun _ => {} := by
  have start_eq (rooms : RoomMap) (nextRoomId : RoomId)
      (hrooms : ∀ (r : RoomId) (room : Room), rooms[r]? = some room →
        room.id = r ∧ 0 < r ∧ r < nextRoomId ∧ room.members = ∅)
      (hnext : 1 < nextRoomId.toNat ∧ nextRoomId.toNat ≤ 2 ^ 63) (tables : ServerTables)
      (htables : tables.rooms = rooms ∧ tables.nextRoomId = nextRoomId)
      (lobby : Room) (hlobby : lobby.id = DEFAULT_ROOM_ID ∧ lobby.members = ∅) :
      (DEFAULT_ROOM_ID ∈ rooms → tables.RoomsWellFormed ∧
        ∀ (r : RoomId) (room : Room), tables.rooms[r]? = some room → room.members = ∅) ∧
      (RoomsWellFormed { tables with rooms := tables.rooms.insert DEFAULT_ROOM_ID lobby } ∧
        ∀ (r : RoomId) (room : Room),
          (tables.rooms.insert DEFAULT_ROOM_ID lobby)[r]? = some room →
          room.members = ∅) := by
    obtain ⟨rfl, rfl⟩ := htables
    have bound : tables.nextRoomId.toNat ≤ 2 ^ 63 + tables.rooms.size := by omega
    refine ⟨fun present => ⟨⟨fun r room hroom => ?_, bound, present⟩, fun r room hroom => ?_⟩,
      ⟨fun r room hroom => ?_, ?_, ?_⟩, fun r room hroom => ?_⟩
    · have := hrooms r room hroom
      exact ⟨this.1, this.2.1, this.2.2.1⟩
    · exact (hrooms r room hroom).2.2.2
    · rw [OrderedMap.getElem?_insert] at hroom
      split at hroom
      · next hr =>
          subst hr
          obtain rfl := Option.some.inj hroom
          refine ⟨hlobby.1, by decide, ?_⟩
          rw [UInt64.lt_iff_toNat_lt]
          exact hnext.1
      · have := hrooms r room hroom
        exact ⟨this.1, this.2.1, this.2.2.1⟩
    · have : (2 : Nat) ^ 63 ≤ 2 ^ 63 + (tables.rooms.insert DEFAULT_ROOM_ID lobby).size := by omega
      exact hnext.2.trans this
    · simp
    · rw [OrderedMap.getElem?_insert] at hroom
      split at hroom
      · obtain rfl := Option.some.inj hroom
        exact hlobby.2
      · exact (hrooms r room hroom).2.2.2
  have initial : ∀ (rooms : RoomMap) (nextRoomId : RoomId),
      (if env.config.hasStorage then ChatServer.loadRooms env stored
        else (∅, DEFAULT_ROOM_ID + 1)) = (rooms, nextRoomId) →
      (∀ (r : RoomId) (room : Room), rooms[r]? = some room →
        room.id = r ∧ 0 < r ∧ r < nextRoomId ∧ room.members = ∅) ∧
        1 < nextRoomId.toNat ∧ nextRoomId.toNat ≤ 2 ^ 63 := by
    intro rooms nextRoomId h
    split at h
    · have := loadRooms_spec env stored
      rw [h] at this
      exact this
    · obtain ⟨rfl, rfl⟩ := Prod.mk.inj h
      exact ⟨by simp, by decide⟩
  unfold ChatServer.start
  split
  next rooms nextRoomId h =>
  obtain ⟨hrooms, hnext⟩ := initial rooms nextRoomId h
  simp only
  split
  · next room hlobby =>
      have present : DEFAULT_ROOM_ID ∈ rooms :=
        Std.ExtTreeMap.isSome_getElem?_iff_mem.mp (by rw [hlobby]; rfl)
      have := fun tables htables => (start_eq rooms nextRoomId hrooms hnext tables htables
        { id := DEFAULT_ROOM_ID, name := [] } ⟨rfl, rfl⟩).1 present
      refine ⟨(this _ ?_).1, (this _ ?_).2, rfl, rfl⟩
      · exact ⟨rfl, rfl⟩
      · exact ⟨rfl, rfl⟩
  · rw [ChatServer.persistRoom_tables]
    have := fun tables htables lobby hlobby =>
      (start_eq rooms nextRoomId hrooms hnext tables htables lobby hlobby).2
    refine ⟨(this _ ?_ _ ?_).1, (this _ ?_ _ ?_).2, rfl, rfl⟩
    all_goals exact ⟨rfl, rfl⟩

theorem start_consistent (env : Env) (stored : StoredState) :
    (ChatServer.start env stored).tables.Consistent := by
  obtain ⟨hrooms, hempty, -, hsession⟩ := start_tables env stored
  refine ⟨hrooms, fun s r => ?_, ?_, ?_, ?_⟩
  · have none : s ∉ (ChatServer.start env stored).tables.members r := by
      unfold ServerTables.members
      split
      · simp
      · next room hroom => simp [hempty r room hroom]
    have zero : ((ChatServer.start env stored).tables.session s).activeRoomId = 0 := by
      rw [hsession]
    rw [zero]
    exact ⟨fun hm => absurd hm none, fun hm => absurd hm.1.symm hm.2⟩
  all_goals
    rw [hsession]
    intro s
    simp

end Start

/-- A server keeps all that its roster has. -/
theorem roomsWellFormed_roster {tables : ServerTables} :
    tables.roster.RoomsWellFormed ↔ tables.RoomsWellFormed := by
  constructor
  · intro h
    refine ⟨fun r room hroom => ?_, ?_, ?_⟩
    · exact h.key r room.withoutHistory (by rw [roster_getElem?, hroom]; rfl)
    · simpa using h.bound
    · simpa using h.lobby
  · intro h
    refine ⟨fun r room hroom => ?_, ?_, ?_⟩
    · rw [roster_getElem?] at hroom
      obtain ⟨room', hroom', rfl⟩ := Option.map_eq_some_iff.mp hroom
      exact h.key r room' hroom'
    · simpa using h.bound
    · simpa using h.lobby

theorem consistent_roster {tables : ServerTables} : tables.roster.Consistent ↔ tables.Consistent := by
  constructor
  · intro h
    exact h.congr (roomsWellFormed_roster.mp h.rooms) tables.roster_members.symm rfl
  · intro h
    exact h.congr (roomsWellFormed_roster.mpr h.rooms) tables.roster_members rfl

theorem step_consistent {env : Env} {server server' : ChatServer} {event : Event}
    (h : step env server event = some server') (hc : server.tables.Consistent) :
    server'.tables.Consistent :=
  consistent_roster.mp ((step_changes h).consistent (consistent_roster.mpr hc))

theorem reachable_consistent {env : Env} {stored : StoredState} {server : ChatServer}
    (h : Reachable env stored server) : server.tables.Consistent := by
  obtain ⟨events, h⟩ := h
  exact Run.run_invariant (fun _ _ _ hc hs => step_consistent hs hc) h (start_consistent env stored)

section Disconnect

/-- Only an event that moves the session takes it out of the state of being in no
room. -/
theorem Changes.outside {env : Env} {mover : SessionId → Prop} {a b : ServerTables}
    {s : SessionId} (h : Changes env mover a b) (still : ¬ mover s)
    (ha : (a.session s).activeRoomId = 0) : (b.session s).activeRoomId = 0 := by
  have keeps (a b : ServerTables) (hc : Change env mover a b)
      (ha : (a.session s).activeRoomId = 0) : (b.session s).activeRoomId = 0 := by
    cases hc with
    | touch t change hk =>
        rw [updateSession_session]
        split
        · next e =>
            subst e
            rw [(hk _).activeRoomId]
            exact ha
        · exact ha
    | accept t absent =>
        rw [updateSession_session]
        split
        · next e =>
            subst e
            exact ha
        · exact ha
    | identify t nick publicKeyHex challenge valid reading =>
        rw [updateSession_session]
        split
        · next e =>
            subst e
            exact ha
        · exact ha
    | admission t moves unnamed named free bound =>
        rw [updateSession_session]
        split
        · next e =>
            subst e
            exact ha
        · exact ha
    | place t roomId moves named present =>
        rw [placeSession_session]
        split
        · next e =>
            subst e
            exact absurd moves still
        · exact ha
    | drop t stays =>
        rw [dropSession_session]
        split
        · rfl
        · exact ha
    | insertRoom | topic | host | bans | bind => exact ha
  exact h.invariant keeps ha

/-- Disconnecting a session that is in no room takes it from the list of sessions
and does nothing else. -/
theorem disconnect_outside {env : Env} {server : ChatServer} {s : SessionId}
    (h : (server.tables.session s).activeRoomId = 0) (announce : Bool) :
    (server.disconnect env s announce).tables.rooms = server.tables.rooms ∧
      (server.disconnect env s announce).output = server.output := by
  unfold ChatServer.disconnect
  simp only [if_pos h]
  exact ⟨rfl, rfl⟩

theorem disconnect_leaves (env : Env) (server : ChatServer) (s : SessionId) (announce : Bool) :
    ((server.disconnect env s announce).tables.session s).activeRoomId = 0 := by
  have h := congrArg (fun tables => (tables.session s).activeRoomId)
    (server.disconnect_roster env s announce)
  simpa [dropSession_session, ChatServer.roster] using h

end Disconnect

/-- In every state of every run the member sets and the sessions' own fields agree
and members have valid nicknames; and after a disconnect a second one, whatever
happens in between but a move of that session, changes no room and sends nothing. -/
theorem reachable_membership (env : Env) (stored : StoredState) (server : ChatServer)
    (h : Reachable env stored server) :
    (∀ s r, s ∈ server.tables.members r ↔
      (server.tables.session s).activeRoomId = r ∧ r ≠ 0) ∧
    (∀ s r, s ∈ server.tables.members r → r ∈ server.tables.rooms ∧
      isValidNickname (server.tables.session s).nickname = true) ∧
    (∀ s announce, ((server.disconnect env s announce).tables.session s).activeRoomId = 0) ∧
    ∀ first s events later,
      (first = server ∧ (server.tables.session s).activeRoomId = 0 ∨
        ∃ announce, first = server.disconnect env s announce) →
      Run.run (step env) first events = some later →
      Run.Always (step env) (fun state event => ¬ Mover env state event s) first events →
      ∀ announce, (later.disconnect env s announce).tables.rooms = later.tables.rooms ∧
        (later.disconnect env s announce).output = later.output := by
  have hc := reachable_consistent h
  refine ⟨hc.member_iff, fun s r hm => ⟨mem_rooms_of_mem_members hm, ?_⟩,
    fun s announce => disconnect_leaves env server s announce, ?_⟩
  · obtain ⟨rfl, hne⟩ := (hc.member_iff s r).mp hm
    exact (hc.valid s).resolve_left (hc.named s hne)
  · intro first s events later hfirst hrun still announce
    refine disconnect_outside ?_ announce
    have outside : (first.tables.session s).activeRoomId = 0 := by
      rcases hfirst with ⟨rfl, hzero⟩ | ⟨announce', rfl⟩
      · exact hzero
      · exact disconnect_leaves env server s announce'
    have keeps (state : ChatServer) (event : Event) (state' : ChatServer)
        (hzero : (state.tables.session s).activeRoomId = 0) (hstill : ¬ Mover env state event s)
        (hstep : step env state event = some state') :
        (state'.tables.session s).activeRoomId = 0 :=
      (step_changes hstep).outside hstill hzero
    exact Run.run_invariant_of keeps still hrun outside

theorem reachable_membership_ann :
    ∃ server, serverAfter (visit 7 (ascii "ann")) = some server ∧
      7 ∈ server.tables.members DEFAULT_ROOM_ID ∧
      isValidNickname (server.tables.session 7).nickname = true := by
  obtain ⟨server, hserver, reachable, member⟩ :=
    exists_serverAfter (visit 7 (ascii "ann"))
      (fun server => 7 ∈ server.tables.members DEFAULT_ROOM_ID) (by decide +kernel)
  exact ⟨server, hserver, member, ((reachable_membership _ _ _ reachable).2.1 7 _ member).2⟩

end Chatbox.Chat
