import Chatbox.Chat.RegionSpec

/-!
A session is moved to another room while the operator's thread removes it, and its
read loop ends with an error after that. The removal reads the active room and clears
it in two steps; a move between them is forgotten, and the session stays in its room.
-/

namespace Chatbox.Chat

open Text Protocol Storage

abbrev Race := Threads ThreadId ChatServer Region

namespace Race

variable (env : Env) (s : SessionId)

abbrev step : Race → ThreadId → Option Race := Threads.step (Region.perform env)

abbrev after (state : Race) (i : ThreadId) (region : Region) (rest : List Region) : Race :=
  Threads.after (Region.perform env) state i region rest

/-- `move_session_to_room` and later the read error on the one thread, what a kick or a
ban does to the session on the other. -/
def moveAndRemove (server : ChatServer) (targetId : RoomId) (announceMove : Bool)
    (roomId : RoomId) (nick reason notice : Bytes) : Race where
  shared := server
  todo
    | .network => .readOldRoom s targetId announceMove :: Region.readError s
    | .operator => Region.remove s roomId nick reason notice

/-- The thread is about to clear this active room of the session. -/
def clearing (state : Race) (roomId : RoomId) (i : ThreadId) : Bool :=
  match (state.todo i).head? with
  | some (.clearActiveRoom a _ oldId) => a == s && oldId == roomId
  | _ => false

/-- The thread does not clear an active room of the session that nobody has read. -/
def clearsKnownRoom (state : Race) (i : ThreadId) : Bool :=
  let roomId := (state.shared.tables.session s).activeRoomId
  match (state.todo i).head? with
  | some (.clearActiveRoom a _ oldId) =>
      a != s || roomId == 0 || oldId == roomId ||
        clearing s state roomId .network || clearing s state roomId .operator
  | _ => true

variable {env s}

/-- A thread will erase the session from the room. -/
def Erasing (s : SessionId) (state : Race) (roomId : RoomId) : Prop :=
  ∃ i announce, Region.clearActiveRoom s announce roomId ∈ state.todo i ∨
    Region.eraseMember s announce roomId ∈ state.todo i

/-- What is left of the move before the read error. -/
def Moving (s : SessionId) (state : Race) (front : List Region) : Prop :=
  (∃ targetId announceMove, front = [.readOldRoom s targetId announceMove]) ∨
    (∃ targetId announceMove oldId, front = [.placeSession s targetId announceMove oldId] ∧
      ((state.shared.tables.session s).activeRoomId = oldId ∨
        (state.shared.tables.session s).activeRoomId = 0)) ∨
    ∀ region ∈ front, region.isNotice = true

/-- The session's active room is one that a thread still has to read or to clear. -/
def Known (s : SessionId) (state : Race) : Prop :=
  (state.shared.tables.session s).activeRoomId = 0 ∨
    (∃ announce, Region.readActiveRoom s announce ∈ state.todo .network) ∨
      ∃ i announce, Region.clearActiveRoom s announce
        (state.shared.tables.session s).activeRoomId ∈ state.todo i

/-- Every room the session is in is its active room or about to be left, and after the
move the network thread knows of the active room. -/
structure Tracked (s : SessionId) (state : Race) : Prop where
  rooms : ∀ r ∈ state.shared.tables.rooms, r ≠ 0
  seated : ∀ r, s ∈ state.shared.tables.members r →
    (state.shared.tables.session s).activeRoomId = r ∨ Erasing s state r
  network : (∃ front, state.todo .network = front ++ Region.readError s ∧ Moving s state front) ∨
    (∀ region ∈ state.todo .network, region.places s = false) ∧ Known s state
  operator : ∀ region ∈ state.todo .operator, region.places s = false

theorem Tracked.nonzero {state : Race} {r : RoomId} (h : Tracked s state)
    (member : s ∈ state.shared.tables.members r) : r ≠ 0 :=
  h.rooms r (ServerTables.mem_rooms_of_mem_members member)

section Step

variable {state : Race} {i : ThreadId} {region : Region} {rest : List Region}

theorem Moving.congr {state' : Race} {front : List Region} (h : Moving s state front)
    (active : (state'.shared.tables.session s).activeRoomId =
        (state.shared.tables.session s).activeRoomId ∨
      (state'.shared.tables.session s).activeRoomId = 0) : Moving s state' front := by
  obtain first | ⟨targetId, announceMove, oldId, rfl, known⟩ | notices := h
  · exact .inl first
  · refine .inr (.inl ⟨targetId, announceMove, oldId, rfl, ?_⟩)
    obtain same | cleared := active
    · rw [same]
      exact known
    · exact .inr cleared
  · exact .inr (.inr notices)

theorem Erasing.after {r : RoomId} (h : Erasing s state r) (head : state.todo i = region :: rest)
    (other : ∀ announce, region ≠ .clearActiveRoom s announce r ∧
      region ≠ .eraseMember s announce r) : Erasing s (after env state i region rest) r := by
  obtain ⟨j, announce, clear | erase⟩ := h
  · exact ⟨j, announce, .inl (Threads.mem_after_of_ne head clear (other announce).1.symm)⟩
  · exact ⟨j, announce, .inr (Threads.mem_after_of_ne head erase (other announce).2.symm)⟩

theorem not_seats_ne {r : RoomId} (other : region.seats s = false) (announce : Bool) :
    region ≠ .clearActiveRoom s announce r ∧ region ≠ .eraseMember s announce r := by
  constructor
  · rintro rfl
    simp [Region.seats] at other
  · rintro rfl
    simp [Region.seats] at other

theorem settled_after {j : ThreadId} (h : ∀ region ∈ state.todo j, region.places s = false)
    (head : state.todo i = region :: rest) :
    ∀ next ∈ (after env state i region rest).todo j, next.places s = false := by
  intro next hnext
  obtain before | ⟨rfl, more⟩ := Threads.mem_of_mem_after head hnext
  · exact h next before
  · exact Region.perform_places (h region (head ▸ List.mem_cons_self)) next more

/-- Reading the active room makes the thread clear it. -/
theorem Known.after (h : Known s state) (head : state.todo i = region :: rest)
    (other : region.seats s = false) : Known s (after env state i region rest) := by
  have active : ((Race.after env state i region rest).shared.tables.session s).activeRoomId =
      (state.shared.tables.session s).activeRoomId := Region.perform_activeRoomId other
  rw [Known, active]
  obtain outside | ⟨announce, read⟩ | ⟨j, announce, clear⟩ := h
  · exact .inl outside
  · by_cases same : Region.readActiveRoom s announce = region
    · subst same
      exact .inr (.inr ⟨i, announce, Threads.mem_after_of_more List.mem_cons_self⟩)
    · exact .inr (.inl ⟨announce, Threads.mem_after_of_ne head read same⟩)
  · refine .inr (.inr ⟨j, announce, Threads.mem_after_of_ne head clear ?_⟩)
    rintro rfl
    simp [Region.seats] at other

theorem rooms_after (h : ∀ r ∈ state.shared.tables.rooms, r ≠ 0) :
    ∀ r ∈ (after env state i region rest).shared.tables.rooms, r ≠ 0 := fun r hr =>
  h r (Region.perform_mem_rooms.mp hr)

/-- The network thread comes to the locked region of the move, goes on to the read
error, or comes to it. -/
theorem moving_after (env : Env) {front : List Region} (moving : Moving s state front)
    (todo : state.todo .network = front ++ Region.readError s)
    (head : state.todo .network = region :: rest) :
    (∃ targetId announceMove oldId, region = .placeSession s targetId announceMove oldId ∧
      rest = Region.readError s ∧
        ((state.shared.tables.session s).activeRoomId = oldId ∨
          (state.shared.tables.session s).activeRoomId = 0)) ∨
    (region.seats s = false ∧ ∃ front',
      (after env state .network region rest).todo .network =
        front' ++ Region.readError s ∧
      Moving s (after env state .network region rest) front') ∨
    (region = .readSuppression s ∧ rest = [.stopReading s]) := by
  rw [todo] at head
  obtain ⟨targetId, announceMove, rfl⟩ | ⟨targetId, announceMove, oldId, rfl, known⟩ | notices :=
    moving
  · obtain ⟨rfl, rfl⟩ := List.cons.inj head
    refine .inr (.inl ⟨rfl, _, Threads.after_todo_self, .inr (.inl ?_)⟩)
    exact ⟨targetId, announceMove, _, rfl, .inl rfl⟩
  · obtain ⟨rfl, rfl⟩ := List.cons.inj head
    exact .inl ⟨targetId, announceMove, oldId, rfl, rfl, known⟩
  · cases front with
    | nil =>
        obtain ⟨rfl, rfl⟩ := List.cons.inj head
        exact .inr (.inr ⟨rfl, rfl⟩)
    | cons notice front =>
        obtain ⟨rfl, rfl⟩ := List.cons.inj head
        have isNotice := notices notice List.mem_cons_self
        refine .inr (.inl ⟨Region.notice_not_seats isNotice,
          (notice.perform env state.shared).2 ++ front, ?_, .inr (.inr ?_)⟩)
        · rw [Threads.after_todo_self]
          exact (List.append_assoc _ _ _).symm
        · intro next hnext
          obtain more | later := List.mem_append.mp hnext
          · exact Region.perform_notices isNotice next more
          · exact notices next (List.mem_cons_of_mem notice later)

/-- The operator's thread leaves the move to the network thread. -/
theorem Moving.operator {front : List Region} (h : Moving s state front)
    (todo : state.todo .network = front ++ Region.readError s)
    (active : ((after env state .operator region rest).shared.tables.session s).activeRoomId =
        (state.shared.tables.session s).activeRoomId ∨
      ((after env state .operator region rest).shared.tables.session s).activeRoomId = 0) :
    ∃ front, (after env state .operator region rest).todo .network =
        front ++ Region.readError s ∧
      Moving s (after env state .operator region rest) front := by
  refine ⟨front, ?_, h.congr active⟩
  rwa [Threads.after_todo_of_ne (by decide)]

/-- During the move the network thread touches the seat in the locked region only. -/
theorem Moving.not_seats (env : Env) {front : List Region} (h : Moving s state front)
    (todo : state.todo .network = front ++ Region.readError s)
    (head : state.todo .network = region :: rest) (places : region.places s = false) :
    region.seats s = false := by
  obtain ⟨_, _, _, rfl, -⟩ | ⟨other, -⟩ | ⟨rfl, -⟩ := moving_after env h todo head
  · simp [Region.places] at places
  · exact other
  · rfl

/-- A region that does not touch the session's seat. -/
theorem Tracked.other (h : Tracked s state) (head : state.todo i = region :: rest)
    (other : region.seats s = false) : Tracked s (after env state i region rest) := by
  have active : ((after env state i region rest).shared.tables.session s).activeRoomId =
      (state.shared.tables.session s).activeRoomId := Region.perform_activeRoomId other
  have member (r : RoomId) : s ∈ (after env state i region rest).shared.tables.members r ↔
      s ∈ state.shared.tables.members r := Region.perform_member other r
  refine ⟨rooms_after h.rooms, fun r hr => ?_, ?_, settled_after h.operator head⟩
  · rw [active]
    exact (h.seated r ((member r).mp hr)).imp id fun erasing =>
      erasing.after head (not_seats_ne other)
  · obtain ⟨front, todo, moving⟩ | ⟨settled, known⟩ := h.network
    · cases i with
      | operator => exact .inl (moving.operator todo (.inl active))
      | network =>
          obtain ⟨_, _, _, rfl, -⟩ | ⟨-, front', todo', moving'⟩ | ⟨rfl, rfl⟩ :=
            moving_after env moving todo head
          · simp [Region.seats] at other
          · exact .inl ⟨front', todo', moving'⟩
          · refine .inr ⟨?_, .inr (.inl ?_)⟩
            · rw [Threads.after_todo_self]
              exact List.forall_mem_append.mpr
                ⟨Region.disconnect_places, List.forall_mem_singleton.mpr rfl⟩
            · exact ⟨!(state.shared.output.wire s).suppressLeaveNotice,
                Threads.mem_after_of_more (List.mem_cons_of_mem _ List.mem_cons_self)⟩
    · exact .inr ⟨settled_after settled head, known.after head other⟩

/-- The locked region of the move: the session leaves the room that was its active one. -/
theorem Tracked.place {targetId oldId : RoomId} {announceMove : Bool} (h : Tracked s state)
    (head : state.todo i = .placeSession s targetId announceMove oldId :: rest) :
    Tracked s (after env state i (.placeSession s targetId announceMove oldId) rest) := by
  have places : (Region.placeSession s targetId announceMove oldId).places s = true := by
    simp [Region.places]
  cases i with
  | operator =>
      have operator := h.operator _ (head ▸ List.mem_cons_self)
      rw [places] at operator
      cases operator
  | network =>
      obtain ⟨front, todo, moving⟩ | ⟨settled, -⟩ := h.network
      · obtain ⟨_, _, _, same, rfl, known⟩ | ⟨other, -⟩ | ⟨wrong, -⟩ :=
          moving_after env moving todo head
        · obtain ⟨-, rfl, rfl, rfl⟩ := Region.placeSession.inj same
          have network : (∃ front, (after env state .network
                (.placeSession s targetId announceMove oldId) (Region.readError s)).todo .network =
                front ++ Region.readError s ∧ ∀ region ∈ front, region.isNotice = true) :=
            ⟨_, Threads.after_todo_self, Region.placeSession_notices⟩
          obtain ⟨front, todo', notices⟩ := network
          by_cases present : targetId ∈ state.shared.tables.rooms
          · refine ⟨rooms_after h.rooms, fun r hr => ?_,
              .inl ⟨front, todo', .inr (.inr notices)⟩, settled_after h.operator head⟩
            obtain ⟨before, stays⟩ | ⟨-, rfl⟩ := (Region.placeSession_member env present).mp hr
            · refine .inr (((h.seated r before).resolve_left ?_).after head ?_)
              · rintro rfl
                obtain same | outside := known
                · exact stays ⟨rfl, same⟩
                · exact h.nonzero before outside
              · exact fun announce => ⟨nofun, nofun⟩
            · exact .inl (Region.placeSession_activeRoomId env present)
          · have unchanged : (after env state .network
                (.placeSession s targetId announceMove oldId) (Region.readError s)).shared =
                state.shared := congrArg Prod.fst (Region.placeSession_absent env present)
            refine ⟨rooms_after h.rooms, fun r hr => ?_,
              .inl ⟨front, todo', .inr (.inr notices)⟩, settled_after h.operator head⟩
            rw [unchanged] at hr ⊢
            exact (h.seated r hr).imp id fun erasing =>
              erasing.after head fun announce => ⟨nofun, nofun⟩
        · simp [Region.seats] at other
        · cases wrong
      · have network := settled _ (head ▸ List.mem_cons_self)
        rw [places] at network
        cases network

/-- Nothing but the room that the thread has read is cleared, or another thread clears it
as well. -/
theorem clearsKnownRoom_spec {oldId : RoomId} {announce : Bool}
    (head : state.todo i = .clearActiveRoom s announce oldId :: rest)
    (safe : clearsKnownRoom s state i = true) {r : RoomId}
    (active : (state.shared.tables.session s).activeRoomId = r) :
    r = 0 ∨ oldId = r ∨ ∃ j announce, Region.clearActiveRoom s announce r ∈ state.todo j := by
  have clears (j : ThreadId) (h : clearing s state r j = true) :
      ∃ announce, Region.clearActiveRoom s announce r ∈ state.todo j := by
    rw [clearing] at h
    split at h
    · next a announce known next =>
        simp only [Bool.and_eq_true, beq_iff_eq] at h
        obtain ⟨rfl, rfl⟩ := h
        exact ⟨announce, List.mem_of_mem_head? (Option.mem_def.mpr next)⟩
    · cases h
  simp only [clearsKnownRoom, head, List.head?_cons, active, bne_self_eq_false, Bool.false_or,
    Bool.or_eq_true, beq_iff_eq] at safe
  obtain ((outside | same) | network) | operator := safe
  · exact .inl outside
  · exact .inr (.inl same)
  · exact .inr (.inr ⟨.network, clears .network network⟩)
  · exact .inr (.inr ⟨.operator, clears .operator operator⟩)

/-- Clearing the active room: the room that was read is about to be left. -/
theorem Tracked.clear {oldId : RoomId} {announce : Bool} (h : Tracked s state)
    (head : state.todo i = .clearActiveRoom s announce oldId :: rest)
    (safe : clearsKnownRoom s state i = true) :
    Tracked s (after env state i (.clearActiveRoom s announce oldId) rest) := by
  have cleared : ((after env state i (.clearActiveRoom s announce oldId)
      rest).shared.tables.session s).activeRoomId = 0 :=
    Region.clearActiveRoom_activeRoomId env announce oldId
  have erases (r : RoomId) (hr : r ≠ 0) (same : oldId = r) :
      Erasing s (after env state i (.clearActiveRoom s announce oldId) rest) r := by
    subst same
    refine ⟨i, announce, .inr (Threads.mem_after_of_more ?_)⟩
    simp [Region.perform, hr]
  have others (r : RoomId) (hr : r ≠ 0) (j : ThreadId) (announce' : Bool)
      (clear : Region.clearActiveRoom s announce' r ∈ state.todo j) :
      Erasing s (after env state i (.clearActiveRoom s announce oldId) rest) r := by
    by_cases same : oldId = r
    · exact erases r hr same
    · refine ⟨j, announce', .inl (Threads.mem_after_of_ne head clear ?_)⟩
      intro equal
      exact same (Region.clearActiveRoom.inj equal).2.2.symm
  refine ⟨rooms_after h.rooms, fun r hr => .inr ?_, ?_, settled_after h.operator head⟩
  · have nonzero := h.nonzero hr
    obtain active | ⟨j, announce', clear | erase⟩ := h.seated r hr
    · obtain outside | same | ⟨j, announce', clear⟩ := clearsKnownRoom_spec head safe active
      · exact absurd outside nonzero
      · exact erases r nonzero same
      · exact others r nonzero j announce' clear
    · exact others r nonzero j announce' clear
    · exact ⟨j, announce', .inr (Threads.mem_after_of_ne head erase (by simp))⟩
  · obtain ⟨front, todo, moving⟩ | ⟨settled, -⟩ := h.network
    · cases i with
      | operator => exact .inl (moving.operator todo (.inr cleared))
      | network =>
          have other := moving.not_seats env todo head rfl
          simp [Region.seats] at other
    · exact .inr ⟨settled_after settled head, .inl cleared⟩

theorem Tracked.erase {oldId : RoomId} {announce : Bool} (h : Tracked s state)
    (head : state.todo i = .eraseMember s announce oldId :: rest) :
    Tracked s (after env state i (.eraseMember s announce oldId) rest) := by
  have active : ((after env state i (.eraseMember s announce oldId) rest).shared.tables.session
      s).activeRoomId = (state.shared.tables.session s).activeRoomId :=
    Region.eraseMember_activeRoomId env announce oldId
  refine ⟨rooms_after h.rooms, fun r hr => ?_, ?_, settled_after h.operator head⟩
  · obtain ⟨before, stays⟩ := (Region.eraseMember_member env announce).mp hr
    rw [active]
    refine (h.seated r before).imp id fun erasing => erasing.after head fun announce' => ?_
    refine ⟨by simp, fun equal => stays ⟨rfl, ?_⟩⟩
    exact (Region.eraseMember.inj equal).2.2.symm
  · obtain ⟨front, todo, moving⟩ | ⟨settled, known⟩ := h.network
    · cases i with
      | operator => exact .inl (moving.operator todo (.inl active))
      | network =>
          have other := moving.not_seats env todo head rfl
          simp [Region.seats] at other
    · refine .inr ⟨settled_after settled head, ?_⟩
      rw [Known, active]
      obtain outside | ⟨announce', read⟩ | ⟨j, announce', clear⟩ := known
      · exact .inl outside
      · exact .inr (.inl ⟨announce', Threads.mem_after_of_ne head read (by simp)⟩)
      · exact .inr (.inr ⟨j, announce', Threads.mem_after_of_ne head clear (by simp)⟩)

theorem Tracked.step {state' : Race} (h : Tracked s state)
    (safe : clearsKnownRoom s state i = true) (stepped : step env state i = some state') :
    Tracked s state' := by
  obtain ⟨region, rest, head, rfl⟩ := Threads.step_cases stepped
  cases other : region.seats s with
  | false => exact h.other head other
  | true =>
      cases region with
      | placeSession a targetId announceMove oldId =>
          obtain rfl : a = s := by simpa [Region.seats] using other
          exact h.place head
      | clearActiveRoom a announce oldId =>
          obtain rfl : a = s := by simpa [Region.seats] using other
          exact h.clear head safe
      | eraseMember a announce oldId =>
          obtain rfl : a = s := by simpa [Region.seats] using other
          exact h.erase head
      | _ => cases other

end Step

theorem moveAndRemove_tracked {server : ChatServer} {targetId roomId : RoomId}
    {announceMove : Bool} {nick reason notice : Bytes} (consistent : server.tables.Consistent) :
    Tracked s (moveAndRemove s server targetId announceMove roomId nick reason notice) where
  rooms _ hr := consistent.rooms.pos hr
  seated r hr := .inl ((consistent.member_iff s r).mp hr).1
  network := .inl ⟨[_], rfl, .inl ⟨targetId, announceMove, rfl⟩⟩
  operator := Region.remove_places

def finished (state : Race) : Bool :=
  (state.todo .network).isEmpty && (state.todo .operator).isEmpty

theorem finished_iff {state : Race} : finished state = true ↔ state.Finished := by
  rw [finished, Bool.and_eq_true, List.isEmpty_iff, List.isEmpty_iff]
  constructor
  · rintro ⟨network, operator⟩ i
    cases i with
    | network => exact network
    | operator => exact operator
  · exact fun h => ⟨h .network, h .operator⟩

/-- Two clients are in the lobby, and then one of them is in a room of its own. -/
def apart : List Event :=
  visit 7 (ascii "ann") ++ visit 3 (ascii "bob") ++
    [.line 3 (clientFrame (.createRoom (ascii "games")))]

/-- Client 7 is moved to the new room and kicked from the lobby. -/
def moveAndKick (server : ChatServer) : Race :=
  moveAndRemove 7 server 2 true DEFAULT_ROOM_ID (ascii "ann") [] (ascii "[system] ann was kicked")

theorem exists_race {events : List Event} {start : ChatServer → Race} {schedule : List ThreadId}
    (p : ChatServer → Race → Prop) [∀ server state, Decidable (p server state)]
    (h : (serverAfter events).any (fun server =>
      (Run.run (step .plain) (start server) schedule).any fun state => p server state) = true) :
    ∃ server state, serverAfter events = some server ∧ Reachable .plain emptyStore server ∧
      Run.run (step .plain) (start server) schedule = some state ∧ p server state := by
  obtain ⟨server, hserver, reachable, hrun⟩ := exists_serverAfter events
    (fun server => ((Run.run (step .plain) (start server) schedule).any fun state =>
      p server state) = true) (by simpa using h)
  obtain ⟨state, hstate, hp⟩ := (Option.any_eq_true _ _).mp hrun
  exact ⟨server, state, hserver, reachable, hstate, by simpa using hp⟩

/-- The removal reads the lobby as the active room, the move puts the session into the
other room, and the removal clears the new active room and looks in the lobby only. The
disconnected session stays in the new room. -/
def strandingSchedule : List ThreadId :=
  List.replicate 4 .operator ++ List.replicate 2 .network ++ [.operator] ++
    List.replicate 20 .network ++ List.replicate 3 .operator

theorem moveAndKick_strands :
    ∃ server state, serverAfter apart = some server ∧ Reachable .plain emptyStore server ∧
      Run.run (step .plain) (moveAndKick server) strandingSchedule = some state ∧
      state.Finished ∧ 7 ∉ state.shared.tables.sessions ∧ 7 ∈ state.shared.tables.members 2 := by
  obtain ⟨server, state, hserver, reachable, run, done, rest⟩ :=
    @exists_race apart moveAndKick strandingSchedule
      (fun _ state => finished state = true ∧ 7 ∉ state.shared.tables.sessions ∧
        7 ∈ state.shared.tables.members 2) _ (by decide +kernel)
  exact ⟨server, state, hserver, reachable, run, finished_iff.mp done, rest⟩

/-- After a move, a removal and the read error the session is in no room, in whatever
order their regions come, when no thread clears an active room that nobody has read. -/
theorem moveAndRemove_leaves (env : Env) (s : SessionId) (server : ChatServer)
    (targetId : RoomId) (announceMove : Bool) (roomId : RoomId) (nick reason notice : Bytes)
    (schedule : List ThreadId) (state : Race) (consistent : server.tables.Consistent)
    (run : Run.run (step env)
      (moveAndRemove s server targetId announceMove roomId nick reason notice) schedule =
        some state)
    (finished : state.Finished)
    (safe : Run.Always (step env) (fun state i => clearsKnownRoom s state i = true)
      (moveAndRemove s server targetId announceMove roomId nick reason notice) schedule) :
    ∀ r, s ∉ state.shared.tables.members r := by
  have tracked : Tracked s state :=
    Run.run_invariant_of (fun _ _ _ h safe => h.step safe) safe run
      (moveAndRemove_tracked consistent)
  intro r member
  have idle (i : ThreadId) (region : Region) : region ∉ state.todo i := by
    rw [finished i]
    exact List.not_mem_nil
  have outside : (state.shared.tables.session s).activeRoomId = 0 := by
    obtain ⟨front, todo, -⟩ | ⟨-, known⟩ := tracked.network
    · rw [finished .network] at todo
      simp [Region.readError] at todo
    · obtain outside | ⟨announce, read⟩ | ⟨i, announce, clear⟩ := known
      · exact outside
      · exact absurd read (idle _ _)
      · exact absurd clear (idle _ _)
  obtain active | ⟨i, announce, clear | erase⟩ := tracked.seated r member
  · exact tracked.nonzero member (active.symm.trans outside)
  · exact idle _ _ clear
  · exact idle _ _ erase

theorem moveAndRemove_leaves_kick :
    ∃ server state, serverAfter apart = some server ∧
      Run.run (step .plain) (moveAndKick server)
        (List.replicate 13 .operator ++ List.replicate 30 .network) = some state ∧
      ∀ r, 7 ∉ state.shared.tables.members r := by
  obtain ⟨server, state, hserver, reachable, run, done, safe⟩ :=
    @exists_race apart moveAndKick (List.replicate 13 .operator ++ List.replicate 30 .network)
      (fun server state => finished state = true ∧
        Run.Always (step .plain) (fun state i => clearsKnownRoom 7 state i = true)
          (moveAndKick server) (List.replicate 13 .operator ++ List.replicate 30 .network))
      _ (by decide +kernel)
  refine ⟨server, state, hserver, run, ?_⟩
  exact moveAndRemove_leaves .plain 7 server 2 true DEFAULT_ROOM_ID (ascii "ann") []
    (ascii "[system] ann was kicked") _ state (reachable_consistent reachable) run
    (finished_iff.mp done) safe

end Race

end Chatbox.Chat
