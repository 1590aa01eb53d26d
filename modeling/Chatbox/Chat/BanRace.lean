import Chatbox.Chat.MoveRace
import Chatbox.Chat.Nicknames

/-!
A nickname is banned while a session proves it. The ban inserts the nickname and then
looks for its bearer once; the proof checks the ban, takes the nickname and enters the
lobby in later steps. Between them the bearer is missed, or is removed before it enters.
-/

namespace Chatbox.Chat

open Text Protocol Storage

namespace Race

/-- The PROOF branch of `read_loop` on the one thread, `ban_user` on the other. -/
def proveAndBan (server : ChatServer) (s : SessionId) (signatureHex nick reason : Bytes) :
    Race where
  shared := server
  todo
    | .network => [.checkProof s signatureHex]
    | .operator => [.insertBan nick reason]

/-- The move of an admission, which reads the old room and then places the session. -/
def enters (s : SessionId) : Region → Bool
  | .readOldRoom a _ _ | .placeSession a _ _ _ => a == s
  | _ => false

/-- The ban still has to look for the bearer of the nickname. -/
def searching (state : Race) : Bool :=
  (state.todo .operator).any fun region => match region with
    | .findSession _ _ => true
    | _ => false

/-- A banned nickname is taken only by a connected session and before the ban looks for
its bearer, and the bearer's active room is read when it does not still enter one. -/
def bansInTime (nick : Bytes) (state : Race) (i : ThreadId) : Bool :=
  let tables := state.shared.tables
  match (state.todo i).head? with
  | some (.setNickname s) =>
      (tables.session s).pendingNickname != nick ||
        (tables.sessions.contains s && (!tables.isBanned nick || searching state))
  | some (.readActiveRoom s _) =>
      (tables.session s).nickname != nick ||
        !(state.todo .network).any fun region => enters s region
  | _ => true

variable {env : Env} {nick reason : Bytes} {s t : SessionId} {seats : Seats}
  {network : List Region}

section Phases

/-- Regions that take the session out of what it is in. -/
def drops (s : SessionId) : Region → Bool
  | .eraseSession a | .readActiveRoom a _ | .clearActiveRoom a _ _ | .eraseMember a _ _ => a == s
  | _ => false

/-- How far the proof has come. -/
inductive Proving (s : SessionId) (seats : Seats) : List Region → Prop
  | start (signatureHex : Bytes) (outside : seats.nickname s = [] → ∀ r, ¬ seats.member s r) :
      Proving s seats [.checkProof s signatureHex]
  | checking {region : Region}
      (h : region ∈ [Region.checkBan s, .checkTaken s, .bindIdentity s, .setNickname s])
      (unnamed : seats.nickname s = []) (outside : ∀ r, ¬ seats.member s r) :
      Proving s seats [region]
  | admitted {notices : List Region} (h : ∀ region ∈ notices, region.isNotice = true)
      (outside : ∀ r, ¬ seats.member s r) :
      Proving s seats (notices ++ [.readOldRoom s DEFAULT_ROOM_ID false])
  | entering (oldId : RoomId) (outside : ∀ r, ¬ seats.member s r) :
      Proving s seats [.placeSession s DEFAULT_ROOM_ID false oldId]
  | settled {rest : List Region} (h : ∀ region ∈ rest, region.isNotice = true) :
      Proving s seats rest
  | rejected {rest : List Region} (unnamed : seats.nickname s = [])
      (h : ∀ region ∈ rest, region.isNotice = true ∨ drops s region = true) :
      Proving s seats rest

/-- The thread may still place the session. -/
def Placing (network : List Region) (x : SessionId) : Prop :=
  ∃ region ∈ network, region.places x = true

/-- The thread is about to place the session. -/
def Entering (network : List Region) (x : SessionId) : Prop :=
  ∃ region ∈ network, enters x region = true

theorem Entering.placing {x : SessionId} (h : Entering network x) : Placing network x := by
  obtain ⟨region, mem, entering⟩ := h
  refine ⟨region, mem, ?_⟩
  cases region <;> first | exact entering | cases entering

structure Gone (seats : Seats) (network : List Region) (x : SessionId) : Prop where
  unlisted : ¬ seats.listed x
  outside : ∀ r, ¬ seats.member x r
  settled : ¬ Entering network x

/-- Before the ban has looked for the bearer: there is at most one, and a proof that has
passed the check of the nickname is the only one for it. -/
structure Unsought (nick : Bytes) (s : SessionId) (seats : Seats) (network : List Region) :
    Prop where
  distinct : ∀ x y, seats.nickname x = nick → seats.nickname y = nick →
    seats.listed x → seats.listed y → x = y
  seated : ∀ x r, seats.nickname x = nick → seats.member x r →
    seats.listed x ∧ seats.activeRoomId x = r
  entering : ∀ x, seats.nickname x = nick → Entering network x → seats.listed x
  free : network = [.bindIdentity s] ∨ network = [.setNickname s] →
    seats.pendingNickname s = nick → ∀ x, seats.nickname x = nick → ¬ seats.listed x

/-- The bearer is the session that the ban has found, if it is any. -/
structure Sought (nick : Bytes) (t : SessionId) (seats : Seats) (network : List Region) :
    Prop where
  others : ∀ x, seats.nickname x = nick → x ≠ t → Gone seats network x
  seated : seats.nickname t = nick → ∀ r, seats.member t r → seats.activeRoomId t = r

/-- The bearer is nowhere but in the room that the ban has read. -/
structure Leaving (nick : Bytes) (t : SessionId) (oldId : RoomId) (seats : Seats)
    (network : List Region) : Prop where
  others : ∀ x, seats.nickname x = nick → x ≠ t → Gone seats network x
  unlisted : seats.nickname t = nick → ¬ seats.listed t
  seated : seats.nickname t = nick → ∀ r, seats.member t r → r = oldId
  settled : seats.nickname t = nick → ¬ Entering network t

/-- What a step of the proof does to the seats. -/
inductive Progress (s : SessionId) (seats : Seats) (network : List Region) :
    Seats → List Region → Prop
  | calm {network' : List Region} (entering : ∀ x, Entering network' x → Entering network x)
      (free : network' = [.bindIdentity s] ∨ network' = [.setNickname s] →
        network = [.bindIdentity s] ∨
          ∀ x, seats.listed x → seats.nickname x ≠ seats.pendingNickname s) :
      Progress s seats network seats network'
  | named {network' : List Region} (h : network = [.setNickname s])
      (outside : ∀ r, ¬ seats.member s r)
      (entering : ∀ x, Entering network' x → x = s)
      (free : ¬ (network' = [.bindIdentity s] ∨ network' = [.setNickname s])) :
      Progress s seats network (seats.name s) network'
  | entered {network' : List Region} {oldId : RoomId} (entering : Entering network s)
      (outside : ∀ r, ¬ seats.member s r) (settled : ∀ x, ¬ Placing network' x) :
      Progress s seats network ((seats.leave s oldId).enter s DEFAULT_ROOM_ID) network'
  | dropped {seats' : Seats} {network' : List Region} (unnamed : seats.nickname s = [])
      (nickname : seats'.nickname = seats.nickname)
      (listed : ∀ x, x ≠ s → (seats'.listed x ↔ seats.listed x))
      (member : ∀ x r, x ≠ s → (seats'.member x r ↔ seats.member x r))
      (activeRoomId : ∀ x, x ≠ s → seats'.activeRoomId x = seats.activeRoomId x)
      (settled : ∀ x, ¬ Placing network' x) : Progress s seats network seats' network'

/-- How far the ban has come. -/
inductive Banning (nick reason : Bytes) (s : SessionId) (seats : Seats)
    (network : List Region) : List Region → Prop
  | start (h : Unsought nick s seats network) :
      Banning nick reason s seats network [.insertBan nick reason]
  | recording (banned : seats.banned nick) (h : Unsought nick s seats network) :
      Banning nick reason s seats network [.recordBan nick reason, .findSession nick reason]
  | finding (banned : seats.banned nick) (h : Unsought nick s seats network) :
      Banning nick reason s seats network [.findSession nick reason]
  | found (t : SessionId) (banned : seats.banned nick) (h : Sought nick t seats network) :
      Banning nick reason s seats network [.readRoomOf t nick reason]
  | removing (t : SessionId) (banned : seats.banned nick) {notices rest : List Region}
      (before : ∀ region ∈ notices, region.isNotice = true)
      (after : ∀ region ∈ rest, region.isNotice = true) (h : Sought nick t seats network) :
      Banning nick reason s seats network
        (notices ++ .eraseSession t :: .readActiveRoom t false :: rest)
  | reading (t : SessionId) (banned : seats.banned nick) {rest : List Region}
      (after : ∀ region ∈ rest, region.isNotice = true) (h : Sought nick t seats network)
      (unlisted : seats.nickname t = nick → ¬ seats.listed t) :
      Banning nick reason s seats network (.readActiveRoom t false :: rest)
  | clearing (t : SessionId) (oldId : RoomId) (banned : seats.banned nick) {rest : List Region}
      (after : ∀ region ∈ rest, region.isNotice = true)
      (h : Leaving nick t oldId seats network) :
      Banning nick reason s seats network (.clearActiveRoom t false oldId :: rest)
  | erasing (t : SessionId) (oldId : RoomId) (banned : seats.banned nick) {rest : List Region}
      (after : ∀ region ∈ rest, region.isNotice = true)
      (h : Leaving nick t oldId seats network) :
      Banning nick reason s seats network (.eraseMember t false oldId :: rest)
  | done {rest : List Region} (banned : seats.banned nick)
      (after : ∀ region ∈ rest, region.isNotice = true)
      (h : ∀ x, seats.nickname x = nick → Gone seats network x) :
      Banning nick reason s seats network rest

end Phases

section Progress

variable {seats' : Seats} {network' : List Region} {x : SessionId}

theorem placing_of_taking (h : network = [.bindIdentity s] ∨ network = [.setNickname s]) :
    Placing network s := by
  obtain rfl | rfl := h
  · exact ⟨_, List.mem_singleton.mpr rfl, by simp [Region.places]⟩
  · exact ⟨_, List.mem_singleton.mpr rfl, by simp [Region.places]⟩

/-- The thread goes on with nothing that could place the session. -/
theorem Progress.settles (settled : ∀ x, ¬ Placing network' x) :
    Progress s seats network seats network' :=
  .calm (fun x later => absurd later.placing (settled x))
    fun taking => absurd (placing_of_taking taking) (settled s)

/-- Taking the banned nickname is excluded. -/
def Late (nick : Bytes) (s : SessionId) (seats : Seats) (network : List Region) : Prop :=
  network = [.setNickname s] → seats.pendingNickname s ≠ nick

theorem Progress.bearer (h : Progress s seats network seats' network')
    (late : Late nick s seats network) (bearer : seats'.nickname x = nick) :
    seats.nickname x = nick := by
  cases h with
  | calm entering free => exact bearer
  | named taking outside entering free =>
      by_cases same : x = s
      · subst same
        have taken : seats.pendingNickname x = nick := by simpa [Seats.name] using bearer
        exact absurd taken (late taking)
      · simpa [Seats.name, same] using bearer
  | entered entering outside settled => exact bearer
  | dropped unnamed nickname listed member activeRoomId settled => rwa [nickname] at bearer

theorem Progress.gone (h : Progress s seats network seats' network') (named : nick ≠ [])
    (late : Late nick s seats network) (bearer : seats'.nickname x = nick)
    (gone : Gone seats network x) : Gone seats' network' x := by
  have before := h.bearer late bearer
  cases h with
  | calm entering free => exact ⟨gone.unlisted, gone.outside, fun h => gone.settled (entering x h)⟩
  | named taking outside entering free =>
      refine ⟨gone.unlisted, gone.outside, fun h => ?_⟩
      obtain rfl := entering x h
      have taken : seats.pendingNickname x = nick := by simpa [Seats.name] using bearer
      exact late taking taken
  | entered entering outside settled =>
      have other : x ≠ s := by
        rintro rfl
        exact gone.settled entering
      refine ⟨gone.unlisted, fun r member => ?_, fun h => settled x h.placing⟩
      obtain ⟨member, -⟩ | ⟨same, -⟩ := member
      · exact gone.outside r member
      · exact other same
  | dropped unnamed nickname listed member activeRoomId settled =>
      have other : x ≠ s := by
        rintro rfl
        exact named (before.symm.trans unnamed)
      exact ⟨fun h => gone.unlisted ((listed x other).mp h),
        fun r h => gone.outside r ((member x r other).mp h), fun h => settled x h.placing⟩

theorem Progress.sought (h : Progress s seats network seats' network') (named : nick ≠ [])
    (late : Late nick s seats network) (sought : Sought nick t seats network) :
    Sought nick t seats' network' := by
  refine ⟨fun x bearer other => h.gone named late bearer
    (sought.others x (h.bearer late bearer) other), fun bearer r member => ?_⟩
  have seated := sought.seated (h.bearer late bearer)
  have before := h.bearer late bearer
  cases h with
  | calm entering free => exact seated r member
  | named taking outside entering free => exact seated r member
  | entered entering outside settled =>
      obtain ⟨member, stays⟩ | ⟨rfl, rfl⟩ := member
      · by_cases same : t = s
        · subst same
          exact absurd member (outside r)
        · simpa [Seats.enter, Seats.leave, same] using seated r member
      · simp [Seats.enter]
  | dropped unnamed nickname listed members activeRoomId settled =>
      have other : t ≠ s := by
        rintro rfl
        exact named (before.symm.trans unnamed)
      rw [activeRoomId t other]
      exact seated r ((members t r other).mp member)

theorem Progress.unlisted (h : Progress s seats network seats' network') (named : nick ≠ [])
    (late : Late nick s seats network)
    (unlisted : seats.nickname t = nick → ¬ seats.listed t) :
    seats'.nickname t = nick → ¬ seats'.listed t := by
  intro bearer
  have before := h.bearer late bearer
  cases h with
  | calm entering free => exact unlisted before
  | named taking outside entering free => exact unlisted before
  | entered entering outside settled => exact unlisted before
  | dropped unnamed nickname listed members activeRoomId settled =>
      have other : t ≠ s := by
        rintro rfl
        exact named (before.symm.trans unnamed)
      exact fun h => unlisted before ((listed t other).mp h)

theorem Progress.leaving {oldId : RoomId} (h : Progress s seats network seats' network')
    (named : nick ≠ []) (late : Late nick s seats network)
    (leaving : Leaving nick t oldId seats network) : Leaving nick t oldId seats' network' := by
  refine ⟨fun x bearer other => h.gone named late bearer
    (leaving.others x (h.bearer late bearer) other), h.unlisted named late leaving.unlisted,
    fun bearer r member => ?_, fun bearer => ?_⟩
  · have before := h.bearer late bearer
    cases h with
    | calm entering free => exact leaving.seated before r member
    | named taking outside entering free => exact leaving.seated before r member
    | entered entering outside settled =>
        obtain ⟨member, -⟩ | ⟨rfl, -⟩ := member
        · exact leaving.seated before r member
        · exact absurd entering (leaving.settled before)
    | dropped unnamed nickname listed members activeRoomId settled =>
        have other : t ≠ s := by
          rintro rfl
          exact named (before.symm.trans unnamed)
        exact leaving.seated before r ((members t r other).mp member)
  · have before := h.bearer late bearer
    cases h with
    | calm entering free => exact fun h => leaving.settled before (entering t h)
    | named taking outside entering free =>
        intro h
        obtain rfl := entering t h
        have taken : seats.pendingNickname t = nick := by simpa [Seats.name] using bearer
        exact late taking taken
    | entered entering outside settled => exact fun h => settled t h.placing
    | dropped unnamed nickname listed members activeRoomId settled =>
        exact fun h => settled t h.placing

/-- The proof takes the nickname only while its session is connected. -/
def Timely (nick : Bytes) (s : SessionId) (seats : Seats) (network : List Region) : Prop :=
  network = [.setNickname s] → seats.pendingNickname s = nick → seats.listed s

theorem Progress.unsought (h : Progress s seats network seats' network') (named : nick ≠ [])
    (timely : Timely nick s seats network) (unsought : Unsought nick s seats network) :
    Unsought nick s seats' network' := by
  cases h with
  | calm entering free =>
      refine ⟨unsought.distinct, unsought.seated,
        fun x bearer later => unsought.entering x bearer (entering x later),
        fun taking pending x bearer listed => ?_⟩
      obtain before | fresh := free taking
      · exact unsought.free (.inl before) pending x bearer listed
      · exact fresh x listed (bearer.trans pending.symm)
  | named taking outside entering free =>
      have bearers {x : SessionId} (other : x ≠ s) (bearer : (seats.name s).nickname x = nick) :
          seats.nickname x = nick := by
        simpa [Seats.name, other] using bearer
      have taken (bearer : (seats.name s).nickname s = nick) :
          seats.pendingNickname s = nick := by
        simpa [Seats.name] using bearer
      refine ⟨fun x y hx hy listedX listedY => ?_, fun x r bearer member => ?_,
        fun x bearer later => ?_, fun later => absurd later free⟩
      · by_cases sx : x = s
        · subst sx
          by_cases sy : y = x
          · exact sy.symm
          · exact absurd listedY (unsought.free (.inr taking) (taken hx) y (bearers sy hy))
        · by_cases sy : y = s
          · subst sy
            exact absurd listedX (unsought.free (.inr taking) (taken hy) x (bearers sx hx))
          · exact unsought.distinct x y (bearers sx hx) (bearers sy hy) listedX listedY
      · have other : x ≠ s := by
          rintro rfl
          exact outside r member
        exact unsought.seated x r (bearers other bearer) member
      · obtain rfl := entering x later
        exact timely taking (taken bearer)
  | entered entering outside settled =>
      refine ⟨unsought.distinct, fun x r bearer member => ?_,
        fun x bearer later => absurd later.placing (settled x),
        fun later => absurd (placing_of_taking later) (settled s)⟩
      obtain ⟨member, -⟩ | ⟨rfl, rfl⟩ := member
      · have other : x ≠ s := by
          rintro rfl
          exact outside r member
        simpa [Seats.enter, Seats.leave, other] using unsought.seated x r bearer member
      · exact ⟨unsought.entering x bearer entering, by simp [Seats.enter]⟩
  | dropped unnamed nickname listed members activeRoomId settled =>
      have other {x : SessionId} (bearer : seats'.nickname x = nick) : x ≠ s := by
        rw [nickname] at bearer
        rintro rfl
        exact named (bearer.symm.trans unnamed)
      refine ⟨fun x y hx hy listedX listedY => ?_, fun x r bearer member => ?_,
        fun x bearer later => absurd later.placing (settled x),
        fun later => absurd (placing_of_taking later) (settled s)⟩
      · have before := unsought.distinct x y
        rw [← nickname] at before
        exact before hx hy ((listed x (other hx)).mp listedX) ((listed y (other hy)).mp listedY)
      · have before := unsought.seated x r
        rw [← nickname] at before
        rw [listed x (other bearer), activeRoomId x (other bearer)]
        exact before bearer ((members x r (other bearer)).mp member)

end Progress

section Network

variable {server : ChatServer} {region : Region} {rest : List Region}

theorem notice_seats (h : region.isNotice = true) :
    (region.perform env server).1.tables.seats = server.tables.seats := by
  rw [Region.perform_seats]
  cases region <;> first | rfl | cases h

theorem drops_not_places {x : SessionId} (h : drops s region = true) : region.places x = false := by
  cases region <;> first | rfl | cases h

theorem not_placing_of_notices (h : ∀ region ∈ network, region.isNotice = true) (x : SessionId) :
    ¬ Placing network x := by
  rintro ⟨region, mem, places⟩
  rw [Region.notice_not_places (h region mem)] at places
  cases places

theorem reject_drops {message : ServerMessage} :
    ∀ region ∈ Region.reject s message, region.isNotice = true ∨ drops s region = true := by
  simp [Region.reject, Region.disconnect, Region.isNotice, drops]

/-- A proof that is refused takes its session out of what it is in. -/
theorem rejected_next (unnamed : server.tables.seats.nickname s = [])
    (h : ∀ next ∈ region :: rest, next.isNotice = true ∨ drops s next = true) :
    Proving s (region.perform env server).1.tables.seats
        ((region.perform env server).2 ++ rest) ∧
      Progress s server.tables.seats (region :: rest) (region.perform env server).1.tables.seats
        ((region.perform env server).2 ++ rest) := by
  have later : ∀ next ∈ (region.perform env server).2 ++ rest,
      next.isNotice = true ∨ drops s next = true := by
    refine List.forall_mem_append.mpr ⟨?_, (List.forall_mem_cons.mp h).2⟩
    obtain notice | dropping := (List.forall_mem_cons.mp h).1
    · exact fun next hnext => .inl (Region.perform_notices notice next hnext)
    · cases region with
      | eraseSession a => exact fun next hnext => absurd hnext List.not_mem_nil
      | readActiveRoom a announce => exact List.forall_mem_singleton.mpr (.inr dropping)
      | clearActiveRoom a announce oldId =>
          simp only [Region.perform]
          split
          · exact fun next hnext => absurd hnext List.not_mem_nil
          · exact List.forall_mem_singleton.mpr (.inr dropping)
      | eraseMember a announce oldId =>
          exact fun next hnext => .inl (Region.eraseMember_notices next hnext)
      | _ => cases dropping
  have settled (x : SessionId) : ¬ Placing ((region.perform env server).2 ++ rest) x := by
    rintro ⟨next, mem, places⟩
    obtain notice | dropping := later next mem
    · rw [Region.notice_not_places notice] at places
      cases places
    · rw [drops_not_places dropping] at places
      cases places
  obtain notice | dropping := (List.forall_mem_cons.mp h).1
  · have same := @notice_seats env server region notice
    refine ⟨.rejected (same ▸ unnamed) later, .dropped unnamed ?_ ?_ ?_ ?_ settled⟩
    all_goals simp [same]
  · have seats := @Region.perform_seats env server region
    cases region with
    | eraseSession a =>
        obtain rfl : a = s := by simpa [drops] using dropping
        rw [seats]
        refine ⟨.rejected unnamed later, .dropped unnamed rfl ?_ ?_ ?_ settled⟩
        all_goals simp +contextual [Region.onSeats, Seats.unlist]
    | readActiveRoom a announce =>
        rw [seats]
        refine ⟨.rejected unnamed later, .dropped unnamed rfl ?_ ?_ ?_ settled⟩
        all_goals simp [Region.onSeats]
    | clearActiveRoom a announce oldId =>
        obtain rfl : a = s := by simpa [drops] using dropping
        rw [seats]
        refine ⟨.rejected unnamed later, .dropped unnamed rfl ?_ ?_ ?_ settled⟩
        all_goals simp +contextual [Region.onSeats, Seats.clear]
    | eraseMember a announce oldId =>
        obtain rfl : a = s := by simpa [drops] using dropping
        rw [seats]
        refine ⟨.rejected unnamed later, .dropped unnamed rfl ?_ ?_ ?_ settled⟩
        all_goals simp +contextual [Region.onSeats, Seats.leave]
    | _ => cases dropping

theorem not_placing_of_drops
    (h : ∀ region ∈ network, region.isNotice = true ∨ drops s region = true) (x : SessionId) :
    ¬ Placing network x := by
  rintro ⟨region, mem, places⟩
  obtain notice | dropping := h region mem
  · rw [Region.notice_not_places notice] at places
    cases places
  · rw [drops_not_places dropping] at places
    cases places

/-- A check either refuses the proof or goes on to the next one. -/
theorem check_next {p : Prop} [Decidable p] {seats : Seats} {message : ServerMessage}
    {next : Region} (unnamed : seats.nickname s = []) (outside : ∀ r, ¬ seats.member s r)
    (onward : next ∈ [Region.checkBan s, .checkTaken s, .bindIdentity s, .setNickname s])
    (free : next = .bindIdentity s ∨ next = .setNickname s → region = .bindIdentity s ∨
      (¬ p → ∀ x, seats.listed x → seats.nickname x ≠ seats.pendingNickname s)) :
    Proving s seats (if p then Region.reject s message else [next]) ∧
      Progress s seats [region] seats (if p then Region.reject s message else [next]) := by
  split
  · next refused =>
      exact ⟨.rejected unnamed reject_drops, .settles (not_placing_of_drops reject_drops)⟩
  · next passed =>
      refine ⟨.checking onward unnamed outside, .calm ?_ ?_⟩
      · rintro x ⟨later, mem, entering⟩
        obtain rfl := List.mem_singleton.mp mem
        simp only [List.mem_cons, List.not_mem_nil, or_false] at onward
        obtain rfl | rfl | rfl | rfl := onward
        all_goals cases entering
      · intro taking
        have taking' : next = .bindIdentity s ∨ next = .setNickname s := by simpa using taking
        obtain same | fresh := free taking'
        · exact .inl (congrArg (fun region => [region]) same)
        · exact .inr (fresh passed)

/-- The checks and the taking of the nickname. -/
theorem checking_next
    (h : region ∈ [Region.checkBan s, .checkTaken s, .bindIdentity s, .setNickname s])
    (unnamed : server.tables.seats.nickname s = [])
    (outside : ∀ r, ¬ server.tables.seats.member s r) :
    Proving s (region.perform env server).1.tables.seats (region.perform env server).2 ∧
      Progress s server.tables.seats [region] (region.perform env server).1.tables.seats
        (region.perform env server).2 := by
  rw [Region.perform_seats]
  simp only [List.mem_cons, List.not_mem_nil, or_false] at h
  obtain rfl | rfl | rfl | rfl := h
  · exact check_next unnamed outside (by simp) nofun
  · refine check_next unnamed outside (by simp) fun _ => .inr ?_
    intro passed x listed
    exact ServerTables.nickname_ne_of_not_taken (eq_false_of_ne_true passed) listed
  · exact check_next unnamed outside (by simp) fun _ => .inl rfl
  · have notices : ∀ next ∈ [Region.deliver s (.identityAccepted (identityFingerprint
        (server.tables.session s).pendingPublicKeyHex)), .deliver s .joinAccepted],
        next.isNotice = true := by
      simp [Region.isNotice]
    refine ⟨.admitted notices outside, .named rfl outside ?_ ?_⟩
    · rintro x ⟨later, mem, places⟩
      obtain rfl | mem := List.mem_cons.mp mem
      · cases places
      · obtain rfl | mem := List.mem_cons.mp mem
        · cases places
        · obtain rfl := List.mem_singleton.mp mem
          exact (beq_iff_eq.mp places).symm
    · rintro (wrong | wrong)
      · cases wrong
      · cases wrong

/-- A step of the proof that only sends leaves everyone where they are. -/
theorem notice_progress {network' : List Region} (notice : region.isNotice = true)
    (entering : ∀ x, Entering network' x → Entering (region :: rest) x)
    (free : ¬ (network' = [.bindIdentity s] ∨ network' = [.setNickname s])) :
    Progress s server.tables.seats (region :: rest) (region.perform env server).1.tables.seats
      network' := by
  rw [notice_seats notice]
  exact .calm entering fun taking => absurd taking free

theorem Proving.next (h : Proving s server.tables.seats (region :: rest)) :
    Proving s (region.perform env server).1.tables.seats
        ((region.perform env server).2 ++ rest) ∧
      Progress s server.tables.seats (region :: rest) (region.perform env server).1.tables.seats
        ((region.perform env server).2 ++ rest) := by
  generalize todo : region :: rest = network at h
  cases h with
  | start signatureHex outside =>
      obtain ⟨rfl, rfl⟩ := List.cons.inj todo
      rw [List.append_nil]
      simp only [Region.perform]
      split
      · have notices : ∀ next ∈ [Region.deliver s (.joinRejected (ascii "Already joined"))],
            next.isNotice = true := List.forall_mem_singleton.mpr rfl
        exact ⟨.settled notices, .settles (not_placing_of_notices notices)⟩
      · next unnamed =>
          have unnamed : server.tables.seats.nickname s = [] := by
            simpa [ServerTables.seats] using unnamed
          split
          · exact ⟨.rejected unnamed reject_drops, .settles (not_placing_of_drops reject_drops)⟩
          · split
            · exact ⟨.rejected unnamed reject_drops, .settles (not_placing_of_drops reject_drops)⟩
            · refine ⟨.checking (by simp) unnamed (outside unnamed), .calm ?_ (by simp)⟩
              rintro x ⟨later, mem, places⟩
              obtain rfl := List.mem_singleton.mp mem
              exact ⟨_, List.mem_singleton.mpr rfl, places⟩
  | checking known unnamed outside =>
      obtain ⟨rfl, rfl⟩ := List.cons.inj todo
      rw [List.append_nil]
      exact checking_next known unnamed outside
  | @admitted notices known outside =>
      cases notices with
      | nil =>
          obtain ⟨rfl, rfl⟩ := List.cons.inj todo
          refine ⟨.entering _ outside, .calm ?_ (by rintro (wrong | wrong) <;> cases wrong)⟩
          rintro x ⟨later, mem, places⟩
          obtain rfl := List.mem_singleton.mp mem
          exact ⟨_, List.mem_singleton.mpr rfl, places⟩
      | cons notice notices =>
          rw [List.cons_append] at todo
          obtain ⟨rfl, rfl⟩ := List.cons.inj todo
          obtain ⟨isNotice, known⟩ := List.forall_mem_cons.mp known
          have more := List.forall_mem_append.mpr
            ⟨@Region.perform_notices env server _ isNotice, known⟩
          rw [← List.append_assoc]
          refine ⟨.admitted more (by rwa [notice_seats isNotice]), notice_progress isNotice ?_ ?_⟩
          · rintro x ⟨later, mem, entering⟩
            obtain mem | mem := List.mem_append.mp mem
            · have sends : Entering ((region.perform env server).2 ++ notices) x :=
                ⟨later, mem, entering⟩
              exact absurd sends.placing (not_placing_of_notices more x)
            · exact ⟨later, List.mem_cons_of_mem _ (List.mem_append_right _ mem), entering⟩
          · intro taking
            have last : Region.readOldRoom s DEFAULT_ROOM_ID false ∈
                (region.perform env server).2 ++ notices ++
                  [.readOldRoom s DEFAULT_ROOM_ID false] := by
              simp
            obtain same | same := taking
            · rw [same] at last
              simp at last
            · rw [same] at last
              simp at last
  | entering oldId outside =>
      obtain ⟨rfl, rfl⟩ := List.cons.inj todo
      rw [List.append_nil]
      by_cases present : DEFAULT_ROOM_ID ∈ server.tables.rooms
      · have notices := @Region.placeSession_notices env server s DEFAULT_ROOM_ID oldId false
        rw [Region.placeSession_seats env present]
        exact ⟨.settled notices, .entered ⟨_, List.mem_singleton.mpr rfl, by simp [enters]⟩
          outside (not_placing_of_notices notices)⟩
      · rw [Region.placeSession_absent env present]
        exact ⟨.settled (by simp), .settles (not_placing_of_notices (by simp))⟩
  | settled known =>
      subst todo
      obtain ⟨isNotice, known⟩ := List.forall_mem_cons.mp known
      have more := List.forall_mem_append.mpr
        ⟨@Region.perform_notices env server _ isNotice, known⟩
      rw [notice_seats isNotice]
      exact ⟨.settled more, .settles (not_placing_of_notices more)⟩
  | rejected unnamed known =>
      subst todo
      exact rejected_next unnamed known

/-- A step of the proof keeps what the ban has come to. -/
theorem Banning.proceed {seats' : Seats} {network' operator : List Region}
    (h : Banning nick reason s seats network operator) (named : nick ≠ [])
    (progress : Progress s seats network seats' network')
    (banned : seats.banned nick → seats'.banned nick) (timely : Timely nick s seats network)
    (late : seats.banned nick → (∀ region ∈ operator, ∀ nick reason,
      region ≠ .findSession nick reason) → Late nick s seats network) :
    Banning nick reason s seats' network' operator := by
  have silent {notices : List Region} (h : ∀ region ∈ notices, region.isNotice = true) :
      ∀ region ∈ notices, ∀ nick reason, region ≠ .findSession nick reason := by
    rintro region mem nick reason rfl
    cases h _ mem
  cases h with
  | start h => exact .start (progress.unsought named timely h)
  | recording inserted h => exact .recording (banned inserted) (progress.unsought named timely h)
  | finding inserted h => exact .finding (banned inserted) (progress.unsought named timely h)
  | found t inserted h =>
      have late := late inserted (List.forall_mem_singleton.mpr nofun)
      exact .found t (banned inserted) (progress.sought named late h)
  | removing t inserted before after h =>
      have late := late inserted (List.forall_mem_append.mpr ⟨silent before,
        List.forall_mem_cons.mpr ⟨nofun, List.forall_mem_cons.mpr ⟨nofun, silent after⟩⟩⟩)
      exact .removing t (banned inserted) before after (progress.sought named late h)
  | reading t inserted after h unlisted =>
      have late := late inserted (List.forall_mem_cons.mpr ⟨nofun, silent after⟩)
      exact .reading t (banned inserted) after (progress.sought named late h)
        (progress.unlisted named late unlisted)
  | clearing t oldId inserted after h =>
      have late := late inserted (List.forall_mem_cons.mpr ⟨nofun, silent after⟩)
      exact .clearing t oldId (banned inserted) after (progress.leaving named late h)
  | erasing t oldId inserted after h =>
      have late := late inserted (List.forall_mem_cons.mpr ⟨nofun, silent after⟩)
      exact .erasing t oldId (banned inserted) after (progress.leaving named late h)
  | done inserted after h =>
      have late := late inserted (silent after)
      exact .done (banned inserted) after fun x bearer =>
        progress.gone named late bearer (h x (progress.bearer late bearer))

end Network

section Operator

variable {server : ChatServer} {region : Region} {rest : List Region}

theorem perform_banned {n : Bytes} (h : server.tables.seats.banned n) :
    (region.perform env server).1.tables.seats.banned n := by
  rw [Region.perform_seats]
  cases region with
  | insertBan nick reason => exact .inl h
  | placeSession s targetId announceMove oldId =>
      simp only [Region.onSeats]
      split
      · exact h
      · exact h
  | _ => exact h

/-- The regions of the ban put nobody into a room and name nobody. -/
theorem Proving.shrink (h : Proving s server.tables.seats network)
    (settled : ∀ x, region.places x = false) :
    Proving s (region.perform env server).1.tables.seats network := by
  have shrinks : (region.perform env server).1.tables.seats.nickname s =
        server.tables.seats.nickname s ∧
      ∀ r, (region.perform env server).1.tables.seats.member s r →
        server.tables.seats.member s r := by
    rw [Region.perform_seats]
    cases region with
    | placeSession a targetId announceMove oldId =>
        have placing := settled a
        simp [Region.places] at placing
    | setNickname a =>
        have placing := settled a
        simp [Region.places] at placing
    | eraseMember a announce oldId => exact ⟨rfl, fun r member => member.1⟩
    | _ => exact ⟨rfl, fun r member => member⟩
  obtain ⟨nickname, member⟩ := shrinks
  cases h with
  | start signatureHex outside =>
      exact .start signatureHex fun unnamed r inside =>
        outside (nickname.symm.trans unnamed) r (member r inside)
  | checking known unnamed outside =>
      exact .checking known (nickname.trans unnamed) fun r inside => outside r (member r inside)
  | admitted known outside => exact .admitted known fun r inside => outside r (member r inside)
  | entering oldId outside => exact .entering oldId fun r inside => outside r (member r inside)
  | settled known => exact .settled known
  | rejected unnamed known => exact .rejected (nickname.trans unnamed) known

theorem Unsought.find (h : Unsought nick s server.tables.seats network)
    (inserted : server.tables.seats.banned nick) :
    Banning nick reason s server.tables.seats network
      ((Region.findSession nick reason).perform env server).2 := by
  simp only [Region.perform]
  cases found : server.tables.sessionNamed nick with
  | none =>
      refine .done inserted (by simp) fun x bearer => ?_
      have unlisted : ¬ server.tables.seats.listed x := by
        intro listed
        have missed := List.find?_eq_none.mp found x (Std.ExtTreeSet.mem_toList.mpr listed)
        exact missed (beq_iff_eq.mpr bearer)
      exact ⟨unlisted, fun r member => unlisted (h.seated x r bearer member).1,
        fun entering => unlisted (h.entering x bearer entering)⟩
  | some t =>
      have bearerT : (server.tables.session t).nickname = nick := by
        simpa using List.find?_some found
      have listedT : server.tables.seats.listed t :=
        Std.ExtTreeSet.mem_toList.mp (List.mem_of_find?_eq_some found)
      refine .found t inserted ⟨fun x bearer other => ?_, fun bearer r member =>
        (h.seated t r bearer member).2⟩
      have unlisted : ¬ server.tables.seats.listed x := fun listed =>
        other (h.distinct x t bearer bearerT listed listedT)
      exact ⟨unlisted, fun r member => unlisted (h.seated x r bearer member).1,
        fun entering => unlisted (h.entering x bearer entering)⟩

/-- Once the bearer is out of the room that was read, it is nowhere. -/
theorem Leaving.gone {oldId : RoomId} {x : SessionId} (h : Leaving nick t oldId seats network)
    (bearer : seats.nickname x = nick) (left : ¬ seats.member t oldId) :
    Gone seats network x := by
  by_cases same : x = t
  · subst same
    refine ⟨h.unlisted bearer, fun r member => ?_, h.settled bearer⟩
    obtain rfl := h.seated bearer r member
    exact left member
  · exact h.others x bearer same

/-- A step of the ban. The bearer's active room is read when no proof still places it. -/
theorem Banning.next (h : Banning nick reason s server.tables.seats network (region :: rest))
    (nonzero : ∀ x r, server.tables.seats.member x r → r ≠ 0)
    (timely : ∀ t announce, region = .readActiveRoom t announce →
      server.tables.seats.nickname t = nick → ¬ Entering network t) :
    Banning nick reason s (region.perform env server).1.tables.seats network
      ((region.perform env server).2 ++ rest) := by
  generalize todo : region :: rest = operator at h
  cases h with
  | start h =>
      obtain ⟨rfl, rfl⟩ := List.cons.inj todo
      rw [Region.perform_seats]
      exact .recording (.inr rfl) ⟨h.distinct, h.seated, h.entering, h.free⟩
  | recording banned h =>
      obtain ⟨rfl, rfl⟩ := List.cons.inj todo
      rw [Region.perform_seats]
      exact .finding banned h
  | finding banned h =>
      obtain ⟨rfl, rfl⟩ := List.cons.inj todo
      rw [Region.perform_seats, List.append_nil]
      exact h.find banned
  | found t banned h =>
      obtain ⟨rfl, rfl⟩ := List.cons.inj todo
      rw [Region.perform_seats, List.append_nil]
      have before : ∀ region ∈ [Region.deliver t (.kick nick
          (if reason.isEmpty then ascii "banned" else reason)), .close t],
          region.isNotice = true :=
        List.forall_mem_cons.mpr ⟨rfl, List.forall_mem_singleton.mpr rfl⟩
      have after : ∀ region ∈ [Region.recordMessage (server.tables.session t).activeRoomId
          (ascii "[system] " ++ nick ++ ascii " has been banned") [],
          .collectUsers (server.tables.session t).activeRoomId], region.isNotice = true :=
        List.forall_mem_cons.mpr ⟨rfl, List.forall_mem_singleton.mpr rfl⟩
      exact .removing t banned before after h
  | @removing t banned notices rest' before after h =>
      cases notices with
      | nil =>
          obtain ⟨rfl, rfl⟩ := List.cons.inj todo
          rw [Region.perform_seats]
          have others (x : SessionId) (bearer : server.tables.seats.nickname x = nick)
              (other : x ≠ t) : Gone (server.tables.seats.unlist t) network x := by
            have gone := h.others x bearer other
            exact ⟨fun listed => gone.unlisted listed.1, gone.outside, gone.settled⟩
          have unlisted : ¬ (server.tables.seats.unlist t).listed t := fun listed => listed.2 rfl
          have inserted : (server.tables.seats.unlist t).banned nick := banned
          exact .reading t inserted after ⟨others, h.seated⟩ fun _ => unlisted
      | cons notice notices =>
          rw [List.cons_append] at todo
          obtain ⟨rfl, rfl⟩ := List.cons.inj todo
          obtain ⟨isNotice, before⟩ := List.forall_mem_cons.mp before
          rw [notice_seats isNotice, ← List.append_assoc]
          exact .removing t banned (List.forall_mem_append.mpr
            ⟨Region.perform_notices isNotice, before⟩) after h
  | reading t banned after h unlisted =>
      obtain ⟨rfl, rfl⟩ := List.cons.inj todo
      rw [Region.perform_seats]
      refine .clearing t _ banned after ⟨h.others, unlisted, fun bearer r member => ?_,
        timely t false rfl⟩
      exact (h.seated bearer r member).symm
  | clearing t oldId banned after h =>
      obtain ⟨rfl, rfl⟩ := List.cons.inj todo
      rw [Region.perform_seats]
      have leaving : Leaving nick t oldId (server.tables.seats.clear t) network := by
        refine ⟨fun x bearer other => ?_, h.unlisted, h.seated, h.settled⟩
        have gone := h.others x bearer other
        exact ⟨gone.unlisted, gone.outside, gone.settled⟩
      by_cases outside : oldId = 0
      · have more : ((Region.clearActiveRoom t false oldId).perform env server).2 = [] :=
          if_pos outside
        rw [more]
        refine .done banned after fun x bearer => leaving.gone bearer fun member => ?_
        exact nonzero t oldId member outside
      · have more : ((Region.clearActiveRoom t false oldId).perform env server).2 =
            [.eraseMember t false oldId] := if_neg outside
        rw [more]
        have inserted : (server.tables.seats.clear t).banned nick := banned
        exact .erasing t oldId inserted after leaving
  | erasing t oldId banned after h =>
      obtain ⟨rfl, rfl⟩ := List.cons.inj todo
      rw [Region.perform_seats]
      have leaving : Leaving nick t oldId (server.tables.seats.leave t oldId) network := by
        refine ⟨fun x bearer other => ?_, h.unlisted,
          fun bearer r member => h.seated bearer r member.1, h.settled⟩
        have gone := h.others x bearer other
        exact ⟨gone.unlisted, fun r member => gone.outside r member.1, gone.settled⟩
      refine .done banned (List.forall_mem_append.mpr ⟨Region.eraseMember_notices, after⟩)
        fun x bearer => leaving.gone bearer fun member => ?_
      exact member.2 ⟨rfl, rfl⟩
  | done banned after h =>
      subst todo
      obtain ⟨isNotice, after⟩ := List.forall_mem_cons.mp after
      rw [notice_seats isNotice]
      exact .done banned (List.forall_mem_append.mpr ⟨Region.perform_notices isNotice, after⟩) h

end Operator

section Run

variable {state state' : Race} {i : ThreadId}

/-- Both threads are where they should be. -/
structure Barred (nick reason : Bytes) (s : SessionId) (state : Race) : Prop where
  rooms : ∀ r ∈ state.shared.tables.rooms, r ≠ 0
  settled : ∀ x, ∀ region ∈ state.todo .operator, region.places x = false
  proving : Proving s state.shared.tables.seats (state.todo .network)
  banning : Banning nick reason s state.shared.tables.seats (state.todo .network)
    (state.todo .operator)

theorem searching_iff : searching state = true ↔
    ∃ nick reason, Region.findSession nick reason ∈ state.todo .operator := by
  simp only [searching, List.any_eq_true]
  constructor
  · rintro ⟨region, mem, search⟩
    cases region with
    | findSession nick reason => exact ⟨nick, reason, mem⟩
    | _ => cases search
  · rintro ⟨nick, reason, mem⟩
    exact ⟨_, mem, rfl⟩

/-- A connected session takes the nickname before the ban looks for its bearer. -/
theorem bansInTime_setNickname {rest : List Region} (safe : bansInTime nick state i = true)
    (head : state.todo i = .setNickname s :: rest)
    (pending : state.shared.tables.seats.pendingNickname s = nick) :
    state.shared.tables.seats.listed s ∧
      (state.shared.tables.seats.banned nick → searching state = true) := by
  have same : (state.shared.tables.session s).pendingNickname = nick := pending
  simp only [bansInTime, head, List.head?_cons, same, bne_self_eq_false, Bool.false_or,
    Bool.and_eq_true, Bool.or_eq_true, Bool.not_eq_true'] at safe
  refine ⟨safe.1, fun banned => safe.2.resolve_left fun unbanned => ?_⟩
  have contained : state.shared.tables.isBanned nick = true := banned
  rw [contained] at unbanned
  cases unbanned

theorem bansInTime_readActiveRoom {rest : List Region} {announce : Bool}
    (safe : bansInTime nick state i = true) (head : state.todo i = .readActiveRoom t announce :: rest)
    (bearer : state.shared.tables.seats.nickname t = nick) :
    ¬ Entering (state.todo .network) t := by
  have same : (state.shared.tables.session t).nickname = nick := bearer
  simp only [bansInTime, head, List.head?_cons, same, bne_self_eq_false, Bool.false_or,
    Bool.not_eq_true'] at safe
  rintro ⟨region, mem, entering⟩
  exact List.any_eq_false.mp safe region mem entering

theorem Barred.step (h : Barred nick reason s state) (named : nick ≠ [])
    (safe : bansInTime nick state i = true) (stepped : step env state i = some state') :
    Barred nick reason s state' := by
  obtain ⟨region, rest, head, rfl⟩ := Threads.step_cases stepped
  cases i with
  | network =>
      obtain ⟨proving, progress⟩ := @Proving.next env s state.shared region rest (head ▸ h.proving)
      have timely : Timely nick s state.shared.tables.seats (region :: rest) := by
        intro taking pending
        exact (bansInTime_setNickname safe (head.trans taking) pending).1
      have late (banned : state.shared.tables.seats.banned nick)
          (sought : ∀ region ∈ state.todo .operator, ∀ nick reason,
            region ≠ .findSession nick reason) :
          Late nick s state.shared.tables.seats (region :: rest) := by
        intro taking pending
        obtain ⟨-, search⟩ := bansInTime_setNickname safe (head.trans taking) pending
        obtain ⟨nick', reason', mem⟩ := searching_iff.mp (search banned)
        exact sought _ mem nick' reason' rfl
      have banning := (head ▸ h.banning).proceed named progress perform_banned timely late
      refine ⟨rooms_after h.rooms, fun x => settled_after (h.settled x) head, ?_, ?_⟩
      · rw [Threads.after_todo_self]
        exact proving
      · rw [Threads.after_todo_self, Threads.after_todo_of_ne (by decide)]
        exact banning
  | operator =>
      have nonzero (x : SessionId) (r : RoomId)
          (member : state.shared.tables.seats.member x r) : r ≠ 0 :=
        h.rooms r (ServerTables.mem_rooms_of_mem_members member)
      have banning := @Banning.next env nick reason s _ state.shared region rest
        (head ▸ h.banning) nonzero fun t announce same bearer =>
          bansInTime_readActiveRoom safe (head.trans (congrArg (fun region => region :: rest) same))
            bearer
      refine ⟨rooms_after h.rooms, fun x => settled_after (h.settled x) head, ?_, ?_⟩
      · rw [Threads.after_todo_of_ne (by decide)]
        exact h.proving.shrink fun x => h.settled x region (head ▸ List.mem_cons_self)
      · rw [Threads.after_todo_self, Threads.after_todo_of_ne (by decide)]
        exact banning

theorem proveAndBan_barred {server : ChatServer} {signatureHex : Bytes} (named : nick ≠ [])
    (consistent : server.tables.Consistent) (unambiguous : server.tables.Unambiguous env)
    (connected : ∀ x r, (server.tables.session x).nickname = nick → x ∈ server.tables.members r →
      x ∈ server.tables.sessions) :
    Barred nick reason s (proveAndBan server s signatureHex nick reason) where
  rooms _ hr := consistent.rooms.pos hr
  settled _ := List.forall_mem_singleton.mpr rfl
  proving := .start signatureHex fun unnamed r member => by
    obtain ⟨active, nonzero⟩ := (consistent.member_iff s r).mp member
    rw [← active] at nonzero
    exact consistent.named s nonzero unnamed
  banning := .start
    { distinct := fun x y hx hy listedX listedY =>
        unambiguous.distinct x listedX y listedY (fun unnamed => named (hx.symm.trans unnamed))
          (hx.trans hy.symm)
      seated := fun x r bearer member =>
        ⟨connected x r bearer member, ((consistent.member_iff x r).mp member).1⟩
      entering := by
        rintro x bearer ⟨region, mem, entering⟩
        obtain rfl := List.mem_singleton.mp mem
        cases entering
      free := fun taking => by simp [proveAndBan] at taking }

end Run

/-- A client has sent IDENTIFY and is about to send the proof. -/
def challenged : List Event := (visit 7 (ascii "ann")).take 4

def proveAnn (server : ChatServer) : Race :=
  proveAndBan server 7 (List.replicate 128 48) (ascii "ann") []

/-- The proof checks the ban, the ban finds nobody, and the proof goes on. -/
def missingSchedule : List ThreadId :=
  List.replicate 2 .network ++ List.replicate 3 .operator ++ List.replicate 16 .network

theorem proveAndBan_misses :
    ∃ server state, serverAfter challenged = some server ∧ Reachable .plain emptyStore server ∧
      Run.run (step .plain) (proveAnn server) missingSchedule = some state ∧ state.Finished ∧
      (state.shared.tables.session 7).nickname = ascii "ann" ∧
      ascii "ann" ∈ state.shared.tables.bannedNicks ∧ 7 ∈ state.shared.tables.sessions ∧
      7 ∈ state.shared.tables.members DEFAULT_ROOM_ID := by
  obtain ⟨server, state, hserver, reachable, run, done, rest⟩ :=
    @exists_race challenged proveAnn missingSchedule
      (fun _ state => finished state = true ∧
        (state.shared.tables.session 7).nickname = ascii "ann" ∧
        ascii "ann" ∈ state.shared.tables.bannedNicks ∧ 7 ∈ state.shared.tables.sessions ∧
        7 ∈ state.shared.tables.members DEFAULT_ROOM_ID) _ (by decide +kernel)
  exact ⟨server, state, hserver, reachable, run, finished_iff.mp done, rest⟩

/-- When the proof and the ban have finished no bearer of the nickname is connected or in
a room, if a banned nickname is taken in time and its bearer's room is read in time. -/
theorem proveAndBan_bars (env : Env) (s : SessionId) (server : ChatServer)
    (signatureHex nick reason : Bytes) (schedule : List ThreadId) (state : Race)
    (named : nick ≠ []) (consistent : server.tables.Consistent)
    (unambiguous : server.tables.Unambiguous env)
    (connected : ∀ x r, (server.tables.session x).nickname = nick → x ∈ server.tables.members r →
      x ∈ server.tables.sessions)
    (run : Run.run (step env) (proveAndBan server s signatureHex nick reason) schedule =
      some state)
    (finished : state.Finished)
    (safe : Run.Always (step env) (fun state i => bansInTime nick state i = true)
      (proveAndBan server s signatureHex nick reason) schedule) :
    ∀ x, (state.shared.tables.session x).nickname = nick →
      x ∉ state.shared.tables.sessions ∧ ∀ r, x ∉ state.shared.tables.members r := by
  have barred : Barred nick reason s state :=
    Run.run_invariant_of (fun _ _ _ h safe => h.step named safe) safe run
      (proveAndBan_barred named consistent unambiguous connected)
  have banning := barred.banning
  rw [finished .operator] at banning
  intro x bearer
  generalize idle : ([] : List Region) = operator at banning
  cases banning with
  | done banned after h => exact ⟨(h x bearer).unlisted, (h x bearer).outside⟩
  | removing t banned before after h => simp at idle
  | _ => cases idle

/-- The client is admitted before the ban. -/
theorem proveAndBan_bars_ann :
    ∃ server state, serverAfter challenged = some server ∧
      Run.run (step .plain) (proveAnn server)
        (List.replicate 18 .network ++ List.replicate 16 .operator) = some state ∧
      (state.shared.tables.session 7).nickname = ascii "ann" ∧
      7 ∉ state.shared.tables.sessions ∧ ∀ r, 7 ∉ state.shared.tables.members r := by
  obtain ⟨server, state, hserver, reachable, run, done, nickname, safe, connected⟩ :=
    @exists_race challenged proveAnn (List.replicate 18 .network ++ List.replicate 16 .operator)
      (fun server state => finished state = true ∧
        (state.shared.tables.session 7).nickname = ascii "ann" ∧
        Run.Always (step .plain) (fun state i => bansInTime (ascii "ann") state i = true)
          (proveAnn server) (List.replicate 18 .network ++ List.replicate 16 .operator) ∧
        ∀ item ∈ server.tables.rooms.toList, item.2.members.toList = []) _ (by decide +kernel)
  refine ⟨server, state, hserver, run, nickname, ?_⟩
  have outside (x : SessionId) (r : RoomId) : x ∉ server.tables.members r := by
    intro member
    have present := ServerTables.mem_rooms_of_mem_members member
    obtain ⟨room, found⟩ := Option.isSome_iff_exists.mp
      (Std.ExtTreeMap.isSome_getElem?_iff_mem.mpr present)
    simp only [ServerTables.members, found] at member
    have empty := connected (r, room) (Std.ExtTreeMap.mem_toList_iff_getElem?_eq_some.mpr found)
    have mem := Std.ExtTreeSet.mem_toList.mpr member
    rw [empty] at mem
    cases mem
  exact proveAndBan_bars .plain 7 server (List.replicate 128 48) (ascii "ann") [] _ state
    (by decide) (reachable_consistent reachable) (reachable_unambiguous reachable)
    (fun x r _ member => absurd member (outside x r)) run (finished_iff.mp done) safe 7 nickname

end Race

end Chatbox.Chat
