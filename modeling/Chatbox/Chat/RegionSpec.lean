import Chatbox.Chat.Membership
import Chatbox.Chat.Regions

/-!
What the regions do to the roster, and which regions an operation goes on with. Most
of them only send and record; the others are told apart by the session they are about.
-/

namespace Chatbox.Chat

open Text Protocol Storage

/-- Who is connected, under which nickname and in which room, and who is banned. -/
@[ext]
structure Seats where
  listed : SessionId → Prop
  member : SessionId → RoomId → Prop
  nickname : SessionId → Bytes
  pendingNickname : SessionId → Bytes
  activeRoomId : SessionId → RoomId
  banned : Bytes → Prop

namespace Seats

variable (seats : Seats) (s : SessionId) (roomId : RoomId)

def unlist : Seats := { seats with listed := fun x => seats.listed x ∧ x ≠ s }

def clear : Seats := { seats with activeRoomId := Function.update seats.activeRoomId s 0 }

def leave : Seats := { seats with member := fun x r => seats.member x r ∧ ¬ (x = s ∧ r = roomId) }

def enter : Seats :=
  { seats with
    member := fun x r => seats.member x r ∨ (x = s ∧ r = roomId)
    activeRoomId := Function.update seats.activeRoomId s roomId }

def name : Seats :=
  { seats with
    nickname := Function.update seats.nickname s (seats.pendingNickname s)
    pendingNickname := Function.update seats.pendingNickname s [] }

def ban (nick : Bytes) : Seats := { seats with banned := fun n => seats.banned n ∨ n = nick }

end Seats

namespace ServerTables

variable (tables : ServerTables)

def seats : Seats where
  listed x := x ∈ tables.sessions
  member x r := x ∈ tables.members r
  nickname x := (tables.session x).nickname
  pendingNickname x := (tables.session x).pendingNickname
  activeRoomId x := (tables.session x).activeRoomId
  banned n := n ∈ tables.bannedNicks

theorem roster_seats : tables.roster.seats = tables.seats := by
  simp only [seats, roster_sessions, roster_members, roster_session, roster_bannedNicks]

/-- A change of one session's record. -/
theorem updateSession_seats {s : SessionId} {change : ClientSession → ClientSession} :
    (tables.updateSession s change).seats =
      { tables.seats with
        nickname := Function.update tables.seats.nickname s (change (tables.session s)).nickname
        pendingNickname := Function.update tables.seats.pendingNickname s
          (change (tables.session s)).pendingNickname
        activeRoomId := Function.update tables.seats.activeRoomId s
          (change (tables.session s)).activeRoomId } := by
  refine Seats.ext rfl rfl ?_ ?_ ?_ rfl
  all_goals
    funext x
    by_cases same : x = s
    · subst same
      simp [seats]
    · simp [seats, same]

theorem eraseMember_seats {s : SessionId} {roomId : RoomId} :
    (tables.eraseMember s roomId).seats = tables.seats.leave s roomId := by
  refine Seats.ext rfl ?_ rfl rfl rfl rfl
  funext x r
  exact propext mem_eraseMember

end ServerTables

namespace Region

variable {env : Env} {server : ChatServer} {region : Region} {s : SessionId}

section Roster

/-- What a region does to the roster. -/
def onRoster (tables : ServerTables) : Region → ServerTables
  | placeSession s targetId _ oldId =>
      if targetId ∈ tables.rooms then
        ((tables.eraseMember s oldId).insertMember s targetId).updateSession s
          fun session => { session with activeRoomId := targetId }
      else tables
  | eraseSession s => { tables with sessions := tables.sessions.erase s }
  | clearActiveRoom s _ _ =>
      tables.updateSession s fun session => { session with activeRoomId := 0 }
  | eraseMember s _ oldId => tables.eraseMember s oldId
  | stopReading s => tables.updateSession s fun session => { session with readLoop := .stopped }
  | insertBan nick _ => { tables with bannedNicks := tables.bannedNicks.insert nick }
  | bindIdentity s =>
      let session := tables.session s
      match tables.identities[session.pendingNickname]? with
      | some _ => tables
      | none =>
          { tables with
            identities := tables.identities.insert session.pendingNickname
              session.pendingPublicKeyHex }
  | setNickname s => tables.updateSession s fun session =>
      { session with
        nickname := session.pendingNickname
        pendingNickname := []
        pendingPublicKeyHex := []
        pendingChallenge := [] }
  | _ => tables

theorem perform_roster (region : Region) (server : ChatServer) :
    (region.perform env server).1.roster = region.onRoster server.roster := by
  cases region with
  | recordMessage roomId msg nickname =>
      simp only [perform, onRoster]
      cases found : server.tables.rooms[roomId]? with
      | none => rfl
      | some room => exact server.recordMessage_roster env found msg
  | collectUsers roomId =>
      simp only [perform, onRoster]
      cases server.tables.rooms[roomId]? <;> rfl
  | updateRoomList list =>
      simp only [perform, onRoster]
      exact ChatServer.ite_roster (server.onHost_roster _)
  | placeSession s targetId announceMove oldId =>
      simp only [perform, onRoster]
      cases found : server.tables.rooms[targetId]? with
      | none =>
          have absent : targetId ∉ server.roster.rooms := by
            simpa [ChatServer.roster] using found
          rw [if_neg absent]
      | some target =>
          have present : targetId ∈ server.roster.rooms := by
            rw [ChatServer.roster, ServerTables.roster_mem,
              ← Std.ExtTreeMap.isSome_getElem?_iff_mem, found]
            rfl
          rw [if_pos present]
          simp only [ChatServer.roster, ChatServer.note_tables, ChatServer.onTables,
            ChatServer.noteLeave_tables, ServerTables.roster_updateSession,
            ServerTables.roster_insertMember, ServerTables.roster_eraseMember]
  | eraseMember s announce oldId =>
      simp only [perform, onRoster, ChatServer.roster, ChatServer.onTables,
        ChatServer.noteLeave_tables, ServerTables.roster_eraseMember]
  | findMember roomId nick reason =>
      simp only [perform, onRoster]
      cases server.tables.rooms[roomId]? with
      | none => rfl
      | some room =>
          dsimp only
          cases room.members.toList.find? fun s => (server.tables.session s).nickname == nick <;>
            rfl
  | recordBan nick reason =>
      simp only [perform, onRoster]
      split
      · rfl
      · rw [ChatServer.roster, ChatServer.saveBans_tables, ChatServer.roster]
  | findSession nick reason =>
      simp only [perform, onRoster]
      cases server.tables.sessionNamed nick <;> rfl
  | bindIdentity s =>
      simp only [perform, onRoster, ChatServer.bindIdentity, ChatServer.roster,
        ServerTables.roster_session, ServerTables.roster_identities]
      cases server.tables.identities[(server.tables.session s).pendingNickname]? with
      | some key => rfl
      | none =>
          dsimp only
          split
          · rfl
          · rw [ChatServer.saveIdentities_tables]
            rfl
  | pushMessage _ | storeMessage _ _ _ | updateRoomUsers _ _ | collectRooms | collectSessions _
  | deliver _ _ | close _ | readOldRoom _ _ _ | eraseSession _ | readActiveRoom _ _
  | clearActiveRoom _ _ _ | announceLeft _ _ | stopReading _ | insertBan _ _ | readRoomOf _ _ _
  | checkProof _ _ | checkBan _ | checkTaken _ | setNickname _ | readSuppression _ => rfl

theorem perform_mem_rooms {r : RoomId} :
    r ∈ (region.perform env server).1.tables.rooms ↔ r ∈ server.tables.rooms := by
  have after : r ∈ (region.perform env server).1.tables.rooms ↔
      r ∈ (region.perform env server).1.roster.rooms := ServerTables.roster_mem _ |>.symm
  have before : r ∈ server.tables.rooms ↔ r ∈ server.roster.rooms :=
    (ServerTables.roster_mem server.tables).symm
  rw [after, before, perform_roster]
  cases region with
  | placeSession _ _ _ _ =>
      simp only [onRoster]
      split
      · simp
      · rfl
  | eraseMember _ _ _ => simp [onRoster]
  | bindIdentity _ =>
      simp only [onRoster]
      split <;> rfl
  | _ => rfl

/-- What RoomJoined says of a room. -/
def heading (room : Room) : RoomId × Bytes × Bytes := (room.id, room.name, room.topic)

theorem updateRoom_heading (tables : ServerTables) {change : Room → Room} {roomId r : RoomId}
    (same : ∀ room, heading (change room) = heading room) :
    (tables.updateRoom roomId change).rooms[r]?.map heading = tables.rooms[r]?.map heading := by
  rw [ServerTables.updateRoom_getElem?]
  split
  · cases tables.rooms[r]? with
    | none => rfl
    | some room => exact congrArg some (same room)
  · rfl

theorem eraseMember_heading (tables : ServerTables) {a : SessionId} {roomId r : RoomId} :
    (tables.eraseMember a roomId).rooms[r]?.map heading = tables.rooms[r]?.map heading :=
  updateRoom_heading tables fun _ => rfl

theorem insertMember_heading (tables : ServerTables) {a : SessionId} {roomId r : RoomId} :
    (tables.insertMember a roomId).rooms[r]?.map heading = tables.rooms[r]?.map heading :=
  updateRoom_heading tables fun _ => rfl

theorem perform_heading (r : RoomId) :
    (region.perform env server).1.tables.rooms[r]?.map heading =
      server.tables.rooms[r]?.map heading := by
  have through (tables : ServerTables) :
      tables.roster.rooms[r]?.map heading = tables.rooms[r]?.map heading := by
    rw [ServerTables.roster_getElem?, Option.map_map]
    rfl
  rw [← through, ← through server.tables]
  have after : (region.perform env server).1.tables.roster = region.onRoster server.tables.roster :=
    perform_roster region server
  rw [after]
  cases region with
  | placeSession _ _ _ _ =>
      simp only [onRoster]
      split
      · rw [ServerTables.updateSession_rooms, insertMember_heading, eraseMember_heading]
      · rfl
  | eraseMember _ _ _ => exact eraseMember_heading _
  | bindIdentity _ =>
      simp only [onRoster]
      split <;> rfl
  | _ => rfl

end Roster

section Seats

/-- What a region does to the seats. -/
def onSeats (tables : ServerTables) : Region → Seats
  | placeSession s targetId _ oldId =>
      if targetId ∈ tables.rooms then (tables.seats.leave s oldId).enter s targetId
      else tables.seats
  | eraseSession s => tables.seats.unlist s
  | clearActiveRoom s _ _ => tables.seats.clear s
  | eraseMember s _ oldId => tables.seats.leave s oldId
  | setNickname s => tables.seats.name s
  | insertBan nick _ => tables.seats.ban nick
  | _ => tables.seats

theorem onRoster_seats (tables : ServerTables) :
    (region.onRoster tables).seats = region.onSeats tables := by
  cases region with
  | placeSession s targetId announceMove oldId =>
      simp only [onRoster, onSeats]
      split
      · next present =>
          have present' : targetId ∈ (tables.eraseMember s oldId).rooms := by simpa using present
          rw [ServerTables.updateSession_seats]
          refine Seats.ext rfl ?_ ?_ ?_ ?_ rfl
          · funext x r
            exact propext ((ServerTables.mem_insertMember present').trans
              (or_congr_left ServerTables.mem_eraseMember))
          · exact Function.update_eq_self s _
          · exact Function.update_eq_self s _
          · rfl
      · rfl
  | eraseSession s =>
      refine Seats.ext ?_ rfl rfl rfl rfl rfl
      funext x
      exact propext (OrderedMap.mem_erase.trans and_comm)
  | clearActiveRoom s announce oldId =>
      simp only [onRoster, onSeats, ServerTables.updateSession_seats]
      refine Seats.ext rfl rfl ?_ ?_ rfl rfl
      · exact Function.update_eq_self s _
      · exact Function.update_eq_self s _
  | eraseMember s announce oldId => exact tables.eraseMember_seats
  | stopReading s =>
      simp only [onRoster, onSeats, ServerTables.updateSession_seats]
      refine Seats.ext rfl rfl ?_ ?_ ?_ rfl
      all_goals exact Function.update_eq_self s _
  | bindIdentity s =>
      simp only [onRoster, onSeats]
      split <;> rfl
  | setNickname s =>
      simp only [onRoster, onSeats, ServerTables.updateSession_seats]
      refine Seats.ext rfl rfl ?_ ?_ ?_ rfl
      · rfl
      · rfl
      · exact Function.update_eq_self s _
  | insertBan nick reason =>
      refine Seats.ext rfl rfl rfl rfl rfl ?_
      funext n
      exact propext (OrderedMap.mem_insert.trans or_comm)
  | _ => rfl

theorem perform_seats :
    (region.perform env server).1.tables.seats = region.onSeats server.tables := by
  have after : (region.perform env server).1.tables.seats = _ :=
    (ServerTables.roster_seats _).symm.trans
      ((congrArg ServerTables.seats (perform_roster region server)).trans (onRoster_seats _))
  rw [after]
  cases region with
  | placeSession s targetId announceMove oldId =>
      simp only [onSeats, ChatServer.roster, ServerTables.roster_seats, ServerTables.roster_mem]
  | _ => simp only [onSeats, ChatServer.roster, ServerTables.roster_seats]

/-- The region may change the session's active room or the members' sets it is in. -/
def seats (s : SessionId) : Region → Bool
  | placeSession a _ _ _ | clearActiveRoom a _ _ | eraseMember a _ _ => a == s
  | _ => false

theorem perform_activeRoomId (h : region.seats s = false) :
    ((region.perform env server).1.tables.session s).activeRoomId =
      (server.tables.session s).activeRoomId := by
  have after := congrArg (fun seats => seats.activeRoomId s) (@perform_seats env server region)
  refine after.trans ?_
  cases region with
  | placeSession a _ _ _ =>
      have other : s ≠ a := fun same => by simp [seats, same] at h
      simp only [onSeats]
      split
      · exact Function.update_of_ne other _ _
      · rfl
  | clearActiveRoom a _ _ =>
      have other : s ≠ a := fun same => by simp [seats, same] at h
      exact Function.update_of_ne other _ _
  | _ => rfl

theorem perform_member (h : region.seats s = false) (r : RoomId) :
    s ∈ (region.perform env server).1.tables.members r ↔ s ∈ server.tables.members r := by
  have after := congrArg (fun seats => seats.member s r) (@perform_seats env server region)
  refine (iff_of_eq after).trans ?_
  cases region with
  | placeSession a targetId _ oldId =>
      have other : s ≠ a := fun same => by simp [seats, same] at h
      simp only [onSeats]
      split
      · simp [Seats.enter, Seats.leave, ServerTables.seats, other]
      · rfl
  | eraseMember a _ oldId =>
      have other : s ≠ a := fun same => by simp [seats, same] at h
      simp [onSeats, Seats.leave, ServerTables.seats, other]
  | _ => rfl

variable (env) {a : SessionId} {targetId oldId r : RoomId} {announceMove : Bool}

theorem placeSession_absent (absent : targetId ∉ server.tables.rooms) :
    (placeSession s targetId announceMove oldId).perform env server = (server, []) := by
  have none : server.tables.rooms[targetId]? = none := by simpa using absent
  simp only [perform, none]

theorem placeSession_seats (present : targetId ∈ server.tables.rooms) :
    ((placeSession s targetId announceMove oldId).perform env server).1.tables.seats =
      (server.tables.seats.leave s oldId).enter s targetId := by
  rw [perform_seats, onSeats, if_pos present]

theorem placeSession_member (present : targetId ∈ server.tables.rooms) :
    a ∈ ((placeSession s targetId announceMove oldId).perform env server).1.tables.members r ↔
      (a ∈ server.tables.members r ∧ ¬ (a = s ∧ r = oldId)) ∨ (a = s ∧ r = targetId) :=
  iff_of_eq (congrArg (fun seats => seats.member a r) (placeSession_seats env present))

theorem placeSession_activeRoomId (present : targetId ∈ server.tables.rooms) :
    (((placeSession s targetId announceMove oldId).perform env server).1.tables.session
      s).activeRoomId = targetId :=
  (congrArg (fun seats => seats.activeRoomId s) (placeSession_seats env present)).trans
    (Function.update_self s _ _)

theorem eraseMember_member (announce : Bool) :
    a ∈ ((eraseMember s announce oldId).perform env server).1.tables.members r ↔
      a ∈ server.tables.members r ∧ ¬ (a = s ∧ r = oldId) :=
  iff_of_eq (congrArg (fun seats => seats.member a r) perform_seats)

theorem eraseMember_activeRoomId (announce : Bool) (oldId : RoomId) :
    (((eraseMember s announce oldId).perform env server).1.tables.session a).activeRoomId =
      (server.tables.session a).activeRoomId :=
  congrArg (fun seats => seats.activeRoomId a) perform_seats

theorem clearActiveRoom_activeRoomId (announce : Bool) (oldId : RoomId) :
    (((clearActiveRoom s announce oldId).perform env server).1.tables.session
      s).activeRoomId = 0 :=
  (congrArg (fun seats => seats.activeRoomId s) perform_seats).trans (Function.update_self s _ _)

end Seats

section Continuation

/-- Regions that send and record, and go on with nothing else. -/
def isNotice : Region → Bool
  | recordMessage _ _ _ | pushMessage _ | storeMessage _ _ _ | collectUsers _
  | updateRoomUsers _ _ | collectRooms | collectSessions _ | updateRoomList _ | deliver _ _
  | close _ | announceLeft _ _ | stopReading _ => true
  | _ => false

/-- Regions of an operation that can still place the session in a room. -/
def places (s : SessionId) : Region → Bool
  | readOldRoom a _ _ | placeSession a _ _ _ | checkProof a _ | checkBan a | checkTaken a
  | bindIdentity a | setNickname a => a == s
  | _ => false

theorem notice_not_places (h : region.isNotice = true) : region.places s = false := by
  cases region <;> first | rfl | cases h

theorem notice_not_seats (h : region.isNotice = true) : region.seats s = false := by
  cases region <;> first | rfl | cases h

theorem deliverAll_notices {members : List SessionId} {message : ServerMessage} :
    ∀ next ∈ deliverAll members message, next.isNotice = true := by
  intro next h
  obtain ⟨s, -, rfl⟩ := List.mem_map.mp h
  rfl

theorem history_notices {roomId : RoomId} {name : Bytes} {messages : List Bytes} :
    ∀ next ∈ history s roomId name messages, next.isNotice = true := by
  intro next h
  simp only [history] at h
  split at h
  · cases h
  · obtain rfl | h := List.mem_cons.mp h
    · rfl
    · obtain ⟨message, -, rfl⟩ := List.mem_map.mp h
      rfl

theorem perform_notices (h : region.isNotice = true) :
    ∀ next ∈ (region.perform env server).2, next.isNotice = true := by
  intro next hnext
  cases region with
  | recordMessage roomId msg nickname =>
      simp only [perform] at hnext
      cases found : server.tables.rooms[roomId]? with
      | none => simp [found] at hnext
      | some room =>
          simp only [found, List.mem_append] at hnext
          obtain (hnext | hnext) | hnext := hnext
          · split at hnext
            · obtain rfl := List.mem_singleton.mp hnext
              rfl
            · cases hnext
          · exact deliverAll_notices next hnext
          · split at hnext
            · obtain rfl := List.mem_singleton.mp hnext
              rfl
            · cases hnext
  | collectUsers roomId =>
      simp only [perform] at hnext
      cases found : server.tables.rooms[roomId]? with
      | none => simp [found] at hnext
      | some room =>
          simp only [found, List.mem_append] at hnext
          obtain hnext | hnext := hnext
          · split at hnext
            · obtain rfl := List.mem_singleton.mp hnext
              rfl
            · cases hnext
          · exact deliverAll_notices next hnext
  | collectRooms =>
      obtain rfl := List.mem_singleton.mp hnext
      rfl
  | collectSessions list =>
      obtain hnext | hnext := List.mem_append.mp hnext
      · exact deliverAll_notices next hnext
      · obtain rfl := List.mem_singleton.mp hnext
        rfl
  | announceLeft s oldId =>
      simp only [perform] at hnext
      split at hnext
      · cases hnext
      · obtain rfl := List.mem_singleton.mp hnext
        rfl
  | pushMessage _ | storeMessage _ _ _ | updateRoomUsers _ _ | updateRoomList _ | deliver _ _
  | close _ | stopReading _ => cases hnext
  | _ => cases h

theorem disconnect_places {a : SessionId} {announce : Bool} :
    ∀ next ∈ disconnect a announce, next.places s = false :=
  List.forall_mem_cons.mpr ⟨rfl, List.forall_mem_singleton.mpr rfl⟩

theorem reject_places {a : SessionId} {message : ServerMessage} :
    ∀ next ∈ reject a message, next.places s = false := by
  refine List.forall_mem_append.mpr ⟨List.forall_mem_append.mpr ⟨?_, disconnect_places⟩, ?_⟩
  · exact List.forall_mem_cons.mpr ⟨rfl, List.forall_mem_singleton.mpr rfl⟩
  · exact List.forall_mem_singleton.mpr rfl

theorem remove_places {target : SessionId} {roomId : RoomId} {nick reason notice : Bytes} :
    ∀ next ∈ remove target roomId nick reason notice, next.places s = false := by
  refine List.forall_mem_append.mpr ⟨List.forall_mem_append.mpr ⟨?_, disconnect_places⟩, ?_⟩
  · exact List.forall_mem_cons.mpr ⟨rfl, List.forall_mem_singleton.mpr rfl⟩
  · exact List.forall_mem_cons.mpr ⟨rfl, List.forall_mem_singleton.mpr rfl⟩

/-- After its locked region a move only sends and records. -/
theorem placeSession_notices {targetId oldId : RoomId} {announceMove : Bool} :
    ∀ next ∈ ((placeSession s targetId announceMove oldId).perform env server).2,
      next.isNotice = true := by
  intro next hnext
  simp only [perform] at hnext
  cases found : server.tables.rooms[targetId]? with
  | none => simp [found] at hnext
  | some target =>
      simp only [found, List.mem_append] at hnext
      obtain ((hnext | hnext) | hnext) | hnext := hnext
      · split at hnext
        · revert next
          exact List.forall_mem_cons.mpr ⟨rfl, List.forall_mem_singleton.mpr rfl⟩
        · cases hnext
      · obtain rfl := List.mem_singleton.mp hnext
        rfl
      · exact history_notices next hnext
      · revert next
        exact List.forall_mem_cons.mpr
          ⟨rfl, List.forall_mem_cons.mpr ⟨rfl, List.forall_mem_singleton.mpr rfl⟩⟩

theorem eraseMember_notices {oldId : RoomId} {announce : Bool} :
    ∀ next ∈ ((eraseMember s announce oldId).perform env server).2, next.isNotice = true := by
  intro next hnext
  simp only [perform] at hnext
  split at hnext
  · obtain hnext | hnext := List.mem_append.mp hnext
    · split at hnext
      · obtain rfl := List.mem_singleton.mp hnext
        rfl
      · cases hnext
    · obtain rfl | hnext := List.mem_cons.mp hnext
      · rfl
      · obtain rfl := List.mem_singleton.mp hnext
        rfl
  · cases hnext

/-- Only such an operation goes on to place the session. -/
theorem perform_places (h : region.places s = false) :
    ∀ next ∈ (region.perform env server).2, next.places s = false := by
  intro next hnext
  cases notice : region.isNotice with
  | true => exact notice_not_places (perform_notices notice next hnext)
  | false =>
      cases region with
      | readOldRoom a targetId announceMove =>
          obtain rfl := List.mem_singleton.mp hnext
          exact h
      | placeSession a targetId announceMove oldId =>
          exact notice_not_places (placeSession_notices next hnext)
      | eraseMember a announce oldId => exact notice_not_places (eraseMember_notices next hnext)
      | clearActiveRoom a announce oldId =>
          simp only [perform] at hnext
          split at hnext
          · cases hnext
          · obtain rfl := List.mem_singleton.mp hnext
            rfl
      | findMember roomId nick reason =>
          simp only [perform] at hnext
          split at hnext
          · cases hnext
          · split at hnext
            · cases hnext
            · exact remove_places next hnext
      | findSession nick reason =>
          simp only [perform] at hnext
          split at hnext
          · cases hnext
          · obtain rfl := List.mem_singleton.mp hnext
            rfl
      | readRoomOf target nick reason => exact remove_places next hnext
      | insertBan nick reason =>
          revert next
          exact List.forall_mem_cons.mpr ⟨rfl, List.forall_mem_singleton.mpr rfl⟩
      | readSuppression a => exact disconnect_places next hnext
      | checkProof a signatureHex =>
          simp only [perform] at hnext
          split at hnext
          · obtain rfl := List.mem_singleton.mp hnext
            rfl
          · split at hnext
            · exact reject_places next hnext
            · split at hnext
              · exact reject_places next hnext
              · obtain rfl := List.mem_singleton.mp hnext
                exact h
      | checkBan a | checkTaken a | bindIdentity a =>
          simp only [perform] at hnext
          split at hnext
          · exact reject_places next hnext
          · obtain rfl := List.mem_singleton.mp hnext
            exact h
      | setNickname a =>
          revert next
          exact List.forall_mem_cons.mpr
            ⟨rfl, List.forall_mem_cons.mpr ⟨rfl, List.forall_mem_singleton.mpr h⟩⟩
      | readActiveRoom a announce =>
          obtain rfl := List.mem_singleton.mp hnext
          rfl
      | eraseSession _ | recordBan _ _ => cases hnext
      | _ => cases notice

end Continuation

end Region

end Chatbox.Chat
