import Chatbox.Network.Ledger

/-!
A server that keeps its entry in the directory. `ServerBrowserPublisher` registers it, renews it
from a thread of its own as long as the server runs, and takes it out at the end; the others make
their requests in between. One renewal may get lost on the way, and the entry still stays.
-/

namespace Chatbox.Network

open Text Protocol

def BROWSER_PUBLISH_INTERVAL_SECONDS : Nat := 60

/-- In nanoseconds. -/
def SECOND : Nat := 1000000000

/-- Where the thread is: in its sleep, with so many seconds behind it, before the request, behind
it, or at its end; then whether the directory has been asked to take the entry out. -/
inductive PublishStage where
  | sleeping (slept : Nat)
  | renewing
  | returning
  | finished
  | stopped (told : Bool)
deriving DecidableEq, Repr

/-- `since` is when the stage began, and `missed` counts the renewals lost since the last one that
was not. -/
structure Publication where
  directory : Directory
  clock : TimePoint
  since : TimePoint
  stage : PublishStage := .returning
  stopRequested : Bool := false
  missed : Nat := 0

/-- A request of somebody else, the steps of the thread, and those of `stop`. -/
inductive PublishEvent where
  | other (now staleNow : TimePoint) (request : Bytes)
  | woke (now : TimePoint)
  | renewed (now staleNow : TimePoint) (users : Int32)
  | lost (now : TimePoint)
  | returned (now : TimePoint)
  | stop (now : TimePoint)
  | unregistered (now staleNow : TimePoint)
  | unheard (now : TimePoint)

namespace PublishEvent

/-- When the event begins and when it is over. -/
def times : PublishEvent → TimePoint × TimePoint
  | .other now staleNow _ | .renewed now staleNow _ | .unregistered now staleNow => (now, staleNow)
  | .woke now | .lost now | .returned now | .stop now | .unheard now => (now, now)

def isLost : PublishEvent → Bool
  | .lost _ => true
  | _ => false

/-- When the entry was renewed last, and with how many users. -/
def renewal (last : TimePoint × Int) : PublishEvent → TimePoint × Int
  | .renewed now _ users => (now, users.toInt)
  | _ => last

end PublishEvent

namespace Publication

variable (entry : BrowserEntry) (publication : Publication)

/-- The next stage of the thread begins. -/
def enter (stage : PublishStage) : Publication :=
  { publication with stage, since := publication.clock }

/-- `publish_loop` behind one second of its sleep. -/
def wake (slept : Nat) : Publication :=
  if publication.stopRequested then publication.enter .finished
  else if slept + 1 < BROWSER_PUBLISH_INTERVAL_SECONDS then
    publication.enter (.sleeping (slept + 1))
  else publication.enter .renewing

def advance (publication : Publication) : PublishEvent → Option Publication
  | .other now staleNow request =>
      let (_, directory) := publication.directory.processRequest now staleNow request
      some { publication with directory }
  | .woke now =>
      match publication.stage with
      | .sleeping slept =>
          if publication.since.val + SECOND ≤ now.val then some (publication.wake slept) else none
      | _ => none
  | .renewed now staleNow users =>
      if publication.stage = .renewing then
        let (_, directory) :=
          registerServer publication.directory now staleNow { entry with users := users.toInt }
        some ({ publication with directory, missed := 0 }.enter .returning)
      else none
  | .lost _ =>
      if publication.stage = .renewing then
        some ({ publication with missed := publication.missed + 1 }.enter .returning)
      else none
  | .returned _ =>
      if publication.stage = .returning then
        some (publication.enter (if publication.stopRequested then .finished else .sleeping 0))
      else none
  | .stop _ => some { publication with stopRequested := true }
  | .unregistered now staleNow =>
      if publication.stage = .finished then
        let (_, directory) := unregisterServer publication.directory now staleNow entry
        some ({ publication with directory }.enter (.stopped true))
      else none
  | .unheard _ =>
      if publication.stage = .finished then some (publication.enter (.stopped false)) else none

/-- The clocks do not go back. -/
def step (publication : Publication) (event : PublishEvent) : Option Publication :=
  let (now, staleNow) := event.times
  if publication.clock ≤ now ∧ now ≤ staleNow then
    advance entry { publication with clock := staleNow } event
  else none

/-- `start`, where the directory accepts the entry. -/
def start (directory : Directory) (now staleNow : TimePoint) : Option Publication :=
  match registerServer directory now staleNow entry with
  | (.ok (), directory) => some { directory, clock := staleNow, since := staleNow }
  | _ => none

end Publication

/-- The last renewal that arrived, or else the registration at the start. -/
def lastRenewal (entry : BrowserEntry) (now : TimePoint) (events : List PublishEvent) :
    TimePoint × Int :=
  events.foldl PublishEvent.renewal (now, entry.users)

section Keeping

variable {entry : BrowserEntry} {lag : Nat} {directory : Directory} {now staleNow : TimePoint}
  {last : TimePoint × Int}

/-- What the entry of the publisher is filed under, whatever its users and its time are. -/
def publishedKey (entry : BrowserEntry) : Bytes := (listingOf entry.updatedAt entry).key

namespace PublishStage

/-- The server is to be listed. -/
def going : PublishStage → Bool
  | .sleeping _ | .renewing | .returning => true
  | _ => false

/-- How long the stage may last, with `lag` for what is not sleep. -/
def due (lag : Nat) : PublishStage → Nat
  | .sleeping _ => SECOND + lag
  | _ => lag

/-- How long the last renewal may be ago when the stage begins. -/
def age (lag : Nat) : PublishStage → Nat
  | .sleeping slept => 2 * lag + slept * (SECOND + lag)
  | .renewing => 2 * lag + BROWSER_PUBLISH_INTERVAL_SECONDS * (SECOND + lag)
  | _ => lag

end PublishStage

/-- From one renewal to the next. -/
def cycle (lag : Nat) : Nat := 2 * lag + BROWSER_PUBLISH_INTERVAL_SECONDS * (SECOND + lag)

/-- What somebody else requests is about another entry. -/
def PublishEvent.Apart (entry : BrowserEntry) : PublishEvent → Prop
  | .other now _ request => (split fieldBar request).head? = some (ascii "LIST") ∨
      (requested now request).key.key ≠ publishedKey entry
  | _ => True

/-- Nothing takes longer than it may, and the renewal after a lost one is not lost. -/
structure Prompt (entry : BrowserEntry) (lag : Nat) (publication : Publication)
    (event : PublishEvent) : Prop where
  apart : event.Apart entry
  due : publication.stage.going = true →
    event.times.2.val ≤ publication.since.val + publication.stage.due lag
  reaches : event.isLost = true → publication.missed = 0

instance (entry : BrowserEntry) (event : PublishEvent) : Decidable (event.Apart entry) :=
  match event with
  | .other now _ request => inferInstanceAs (Decidable
      ((split fieldBar request).head? = some (ascii "LIST") ∨
        (requested now request).key.key ≠ publishedKey entry))
  | .woke _ | .renewed _ _ _ | .lost _ | .returned _ | .stop _ | .unregistered _ _ | .unheard _ =>
      isTrue trivial

instance (entry : BrowserEntry) (lag : Nat) (publication : Publication) (event : PublishEvent) :
    Decidable (Prompt entry lag publication event) :=
  decidable_of_iff (event.Apart entry ∧
      (publication.stage.going = true →
        event.times.2.val ≤ publication.since.val + publication.stage.due lag) ∧
      (event.isLost = true → publication.missed = 0))
    ⟨fun held => ⟨held.1, held.2.1, held.2.2⟩,
      fun prompt => ⟨prompt.apart, prompt.due, prompt.reaches⟩⟩

/-- The entry is there as it was renewed last, which is not long ago, or it has been taken
out. -/
structure StaysListed (entry : BrowserEntry) (lag : Nat) (last : TimePoint × Int)
    (publication : Publication) : Prop where
  order : publication.since ≤ publication.clock
  missed : publication.missed ≤ 1
  slept : ∀ n, publication.stage = .sleeping n → n < BROWSER_PUBLISH_INTERVAL_SECONDS
  listed : publication.stage.going = true →
    publication.directory[publishedKey entry]? =
        some (listingOf last.1 { entry with users := last.2 }) ∧
      publication.since.val ≤ last.1.val + publication.stage.age lag +
        publication.missed * cycle lag
  gone : publication.stage = .stopped true →
    sanitizeBrowserField entry.name BROWSER_NAME_MAX_LEN ≠ [] →
      publication.directory[publishedKey entry]? = none

/-- A request that is about another entry leaves this one alone, but for its age. -/
theorem processRequest_apart {request : Bytes}
    (apart : (PublishEvent.other now staleNow request).Apart entry) :
    (directory.processRequest now staleNow request).2[publishedKey entry]? =
        directory[publishedKey entry]? ∨
      (directory.processRequest now staleNow request).2[publishedKey entry]? =
        directory[publishedKey entry]?.filter (Directory.isLive staleNow) := by
  obtain lists | other := apart
  · rw [processRequest_of_list directory now staleNow lists]
    exact .inr (Directory.getElem?_removeStale directory staleNow _)
  · obtain ⟨entry', -, request, answer⟩ | ⟨triple, request, answer⟩ | ⟨-, answer⟩ |
      ⟨text, answer⟩ := processRequest_cases directory now staleNow request
    · rw [request] at other
      have apart : entry'.triple.key ≠ publishedKey entry := other
      rw [answer, OrderedMap.getElem?_insert, if_neg apart]
      exact .inr (Directory.getElem?_removeStale directory staleNow _)
    · rw [request] at other
      have apart : triple.key ≠ publishedKey entry := other
      rw [answer, Std.ExtTreeMap.getElem?_erase, if_neg (by simpa using apart)]
      exact .inl rfl
    · rw [answer]
      exact .inr (Directory.getElem?_removeStale directory staleNow _)
    · rw [answer]
      exact .inl rfl

/-- A stage that is not overdue is over before the entry is stale. -/
theorem PublishStage.within {stage : PublishStage} (short : 125 * lag ≤ 60 * SECOND)
    (slept : ∀ n, stage = .sleeping n → n < BROWSER_PUBLISH_INTERVAL_SECONDS)
    (going : stage.going = true) :
    stage.age lag + stage.due lag + cycle lag ≤ BROWSER_ENTRY_TTL_SECONDS * SECOND := by
  have unit : SECOND = 1000000000 := rfl
  have interval : BROWSER_PUBLISH_INTERVAL_SECONDS = 60 := rfl
  have ttl : BROWSER_ENTRY_TTL_SECONDS = 180 := rfl
  rw [cycle, interval, ttl]
  cases stage with
  | sleeping n =>
      have few : n ≤ 59 := Nat.le_of_lt_succ (slept n rfl)
      have bound : n * (SECOND + lag) ≤ 59 * (SECOND + lag) := Nat.mul_le_mul_right _ few
      simp only [PublishStage.age, PublishStage.due]
      omega
  | renewing =>
      simp only [PublishStage.age, PublishStage.due, interval]
      omega
  | returning =>
      simp only [PublishStage.age, PublishStage.due]
      omega
  | _ => cases going

/-- A renewal that is not too long ago is alive. -/
theorem StaysListed.live {publication : Publication} (kept : StaysListed entry lag last publication)
    (short : 125 * lag ≤ 60 * SECOND) (going : publication.stage.going = true)
    {time : TimePoint}
    (due : time.val ≤ publication.since.val + publication.stage.due lag) :
    Directory.isLive time (listingOf last.1 { entry with users := last.2 }) = true := by
  obtain ⟨-, recent⟩ := kept.listed going
  have within := PublishStage.within short kept.slept going
  have once : publication.missed * cycle lag ≤ 1 * cycle lag :=
    Nat.mul_le_mul_right _ kept.missed
  have unit : SECOND = 1000000000 := rfl
  have updated : (listingOf last.1 { entry with users := last.2 }).updatedAt = last.1 := rfl
  simp only [Directory.isLive, decide_eq_true_eq, updated]
  rw [unit] at within
  omega

/-- A renewal that reaches the directory. -/
theorem registerServer_listed (users : Int32)
    (host : sanitizeBrowserField entry.host HOST_MAX_LEN ≠ []) :
    (registerServer directory now staleNow { entry with users := users.toInt }).2[publishedKey
      entry]? = some (listingOf now { entry with users := users.toInt }) := by
  have fits : users.toInt ≤ 2147483647 := by
    have small := Int32.toInt_lt users
    omega
  have accepted : (registerServer directory now staleNow { entry with users := users.toInt }).1 =
      .ok () := registerServer_ok_iff.mpr ⟨sendable_registerRequest fits, host⟩
  have key : (listingOf now { entry with users := users.toInt }).key = publishedKey entry := rfl
  rw [registerServer_eq accepted, OrderedMap.getElem?_insert, if_pos key]

/-- A step that leaves the directory and begins a stage. -/
theorem StaysListed.enter {publication : Publication} {stage : PublishStage}
    (kept : StaysListed entry lag last publication)
    (slept : ∀ n, stage = .sleeping n → n < BROWSER_PUBLISH_INTERVAL_SECONDS)
    (runs : stage.going = true → publication.stage.going = true ∧
      publication.clock.val + publication.stage.age lag ≤
        publication.since.val + stage.age lag)
    (stays : stage ≠ .stopped true) : StaysListed entry lag last (publication.enter stage) := by
  refine ⟨le_rfl, kept.missed, slept, fun going => ?_, fun told => absurd told stays⟩
  obtain ⟨went, passed⟩ := runs going
  obtain ⟨found, recent⟩ := kept.listed went
  refine ⟨found, ?_⟩
  simp only [Publication.enter]
  omega

/-- The clock goes on. -/
theorem StaysListed.tick {publication : Publication} {time : TimePoint}
    (kept : StaysListed entry lag last publication) (order : publication.since ≤ time) :
    StaysListed entry lag last { publication with clock := time } :=
  ⟨order, kept.missed, kept.slept, kept.listed, kept.gone⟩

theorem StaysListed.other {publication : Publication} {request : Bytes}
    (kept : StaysListed entry lag last publication) (short : 125 * lag ≤ 60 * SECOND)
    (apart : (PublishEvent.other now staleNow request).Apart entry)
    (due : publication.stage.going = true →
      staleNow.val ≤ publication.since.val + publication.stage.due lag) :
    StaysListed entry lag last { publication with
      directory := (publication.directory.processRequest now staleNow request).2 } := by
  have apart := @processRequest_apart entry publication.directory now staleNow request apart
  refine ⟨kept.order, kept.missed, kept.slept, fun going => ?_, fun told named => ?_⟩
  · obtain ⟨found, recent⟩ := kept.listed going
    have live := kept.live short going (due going)
    refine ⟨?_, recent⟩
    rw [found, Option.filter_some_pos live] at apart
    exact apart.elim id id
  · have none := kept.gone told named
    rw [none] at apart
    exact apart.elim id id

theorem StaysListed.wake {publication : Publication} {slept : Nat}
    (kept : StaysListed entry lag last publication) (stage : publication.stage = .sleeping slept)
    (passed : publication.clock.val ≤ publication.since.val + (SECOND + lag)) :
    StaysListed entry lag last (publication.wake slept) := by
  have few := kept.slept slept stage
  have more : (slept + 1) * (SECOND + lag) = slept * (SECOND + lag) + (SECOND + lag) :=
    Nat.succ_mul slept (SECOND + lag)
  have going : publication.stage.going = true := by rw [stage]; rfl
  unfold Publication.wake
  split
  · exact kept.enter (fun n same => by cases same) (fun going => by cases going) (by simp)
  · split
    · next further =>
        refine kept.enter (fun n same => ?_) (fun _ => ⟨going, ?_⟩) (by simp)
        · cases same
          exact further
        · simp only [stage, PublishStage.age]
          omega
    · next ends =>
        have all : slept + 1 = BROWSER_PUBLISH_INTERVAL_SECONDS := by omega
        refine kept.enter (fun n same => by cases same) (fun _ => ⟨going, ?_⟩) (by simp)
        simp only [stage, PublishStage.age, ← all]
        omega

/-- Behind a renewal it does not matter what was before. -/
theorem renew_listed {publication : Publication} (users : Int32)
    (host : sanitizeBrowserField entry.host HOST_MAX_LEN ≠ [])
    (passed : publication.clock.val ≤ now.val + lag) :
    StaysListed entry lag (now, users.toInt) ({ publication with
      directory := (registerServer publication.directory now staleNow
        { entry with users := users.toInt }).2
      missed := 0 }.enter .returning) := by
  refine ⟨le_rfl, Nat.zero_le 1, (fun n same => by cases same), fun _ => ?_,
    fun told => by cases told⟩
  refine ⟨registerServer_listed users host, ?_⟩
  simp only [Publication.enter, PublishStage.age]
  omega

/-- The one renewal that may get lost. -/
theorem StaysListed.lose {publication : Publication} (kept : StaysListed entry lag last publication)
    (stage : publication.stage = .renewing) (first : publication.missed = 0)
    (passed : publication.clock.val ≤ publication.since.val + lag) :
    StaysListed entry lag last
      ({ publication with missed := publication.missed + 1 }.enter .returning) := by
  obtain ⟨found, recent⟩ := kept.listed (by rw [stage]; rfl)
  refine ⟨le_rfl, by simp [Publication.enter, first], (fun n same => by cases same), fun _ => ?_,
    fun told => by cases told⟩
  refine ⟨found, ?_⟩
  rw [stage, first] at recent
  simp only [Publication.enter, PublishStage.age, first, cycle] at recent ⊢
  omega

theorem StaysListed.sleep {publication : Publication} (kept : StaysListed entry lag last publication)
    (stage : publication.stage = .returning)
    (passed : publication.clock.val ≤ publication.since.val + lag) :
    StaysListed entry lag last
      (publication.enter (if publication.stopRequested then .finished else .sleeping 0)) := by
  split
  · exact kept.enter (fun n same => by cases same) (fun going => by cases going) (by simp)
  · refine kept.enter (fun n same => ?_) (fun _ => ⟨by rw [stage]; rfl, ?_⟩) (by simp)
    · cases same
      decide
    · simp only [stage, PublishStage.age]
      omega

theorem StaysListed.unregister {publication : Publication}
    (kept : StaysListed entry lag last publication) :
    StaysListed entry lag last ({ publication with
      directory := (unregisterServer publication.directory now staleNow entry).2 }.enter
        (.stopped true)) := by
  refine ⟨le_rfl, kept.missed, (fun n same => by cases same), (fun going => by cases going),
    fun _ named => ?_⟩
  have erased := @unregisterServer_eq publication.directory now staleNow entry
  rw [if_neg named] at erased
  have key : (listingOf now entry).key = publishedKey entry := rfl
  have gone : (unregisterServer publication.directory now staleNow entry).2[publishedKey
      entry]? = none := by
    rw [erased, key, Std.ExtTreeMap.getElem?_erase_self]
  exact gone

theorem StaysListed.step {publication publication' : Publication} {event : PublishEvent}
    (kept : StaysListed entry lag last publication) (short : 125 * lag ≤ 60 * SECOND)
    (host : sanitizeBrowserField entry.host HOST_MAX_LEN ≠ [])
    (prompt : Prompt entry lag publication event)
    (stepped : publication.step entry event = some publication') :
    StaysListed entry lag (event.renewal last) publication' := by
  simp only [Publication.step, Option.ite_none_right_eq_some] at stepped
  obtain ⟨⟨later, lasts⟩, advanced⟩ := stepped
  -- the clock is read at the end of the event
  have ticked := kept.tick (kept.order.trans (later.trans lasts))
  have passed {stage : PublishStage} (here : publication.stage = stage)
      (going : stage.going = true) :
      event.times.2.val ≤ publication.since.val + stage.due lag := by
    subst here
    exact prompt.due going
  cases event with
  | other now staleNow request =>
      obtain rfl := Option.some.inj advanced
      exact ticked.other short prompt.apart prompt.due
  | woke now =>
      simp only [Publication.advance] at advanced
      split at advanced
      · next slept stage =>
          obtain ⟨-, advanced⟩ := Option.ite_none_right_eq_some.mp advanced
          obtain rfl := Option.some.inj advanced
          exact ticked.wake stage (passed stage rfl)
      · cases advanced
  | renewed now staleNow users =>
      obtain ⟨stage, advanced⟩ := Option.ite_none_right_eq_some.mp advanced
      obtain rfl := Option.some.inj advanced
      have began : publication.since.val ≤ now.val := kept.order.trans later
      exact renew_listed users host ((passed stage rfl).trans (Nat.add_le_add_right began lag))
  | lost now =>
      obtain ⟨stage, advanced⟩ := Option.ite_none_right_eq_some.mp advanced
      obtain rfl := Option.some.inj advanced
      exact ticked.lose stage (prompt.reaches rfl) (passed stage rfl)
  | returned now =>
      obtain ⟨stage, advanced⟩ := Option.ite_none_right_eq_some.mp advanced
      obtain rfl := Option.some.inj advanced
      exact ticked.sleep stage (passed stage rfl)
  | stop now =>
      obtain rfl := Option.some.inj advanced
      exact ⟨ticked.order, kept.missed, kept.slept, kept.listed, kept.gone⟩
  | unregistered now staleNow =>
      obtain ⟨-, advanced⟩ := Option.ite_none_right_eq_some.mp advanced
      obtain rfl := Option.some.inj advanced
      exact ticked.unregister
  | unheard now =>
      obtain ⟨-, advanced⟩ := Option.ite_none_right_eq_some.mp advanced
      obtain rfl := Option.some.inj advanced
      exact ticked.enter (fun n same => by cases same) (fun going => by cases going) (by simp)

theorem start_kept {first : Publication}
    (started : Publication.start entry directory now staleNow = some first)
    (soon : staleNow.val ≤ now.val + lag) :
    StaysListed entry lag (now, entry.users) first ∧
      sanitizeBrowserField entry.host HOST_MAX_LEN ≠ [] := by
  have accepted : (registerServer directory now staleNow entry).1 = .ok () := by
    unfold Publication.start at started
    split at started
    · next result => rw [result]
    · cases started
  have result : registerServer directory now staleNow entry =
      (.ok (), (directory.removeStale staleNow).insert (listingOf now entry).key
        (listingOf now entry)) := Prod.ext accepted (registerServer_eq accepted)
  simp only [Publication.start, result, Option.some.injEq] at started
  subst started
  refine ⟨⟨le_rfl, Nat.zero_le 1, (fun n same => by cases same), fun _ => ?_,
    fun told => by cases told⟩, (registerServer_ok_iff.mp accepted).2⟩
  have key : (listingOf now entry).key = publishedKey entry := rfl
  refine ⟨?_, ?_⟩
  · rw [OrderedMap.getElem?_insert, if_pos key]
  · simp only [PublishStage.age]
    omega

/-- A step leaves nothing in the directory that a listing could not tell. -/
theorem step_plain {publication publication' : Publication} {event : PublishEvent}
    (plain : publication.directory.Plain)
    (stepped : publication.step entry event = some publication') :
    publication'.directory.Plain := by
  simp only [Publication.step, Option.ite_none_right_eq_some] at stepped
  obtain ⟨-, advanced⟩ := stepped
  cases event with
  | other now staleNow request =>
      obtain rfl := Option.some.inj advanced
      exact plain.processRequest now staleNow request
  | woke now =>
      simp only [Publication.advance] at advanced
      split at advanced
      · obtain ⟨-, advanced⟩ := Option.ite_none_right_eq_some.mp advanced
        obtain rfl := Option.some.inj advanced
        unfold Publication.wake
        split
        · exact plain
        · split <;> exact plain
      · cases advanced
  | renewed now staleNow users =>
      obtain ⟨-, advanced⟩ := Option.ite_none_right_eq_some.mp advanced
      obtain rfl := Option.some.inj advanced
      exact plain.sendRequest now staleNow _
  | unregistered now staleNow =>
      obtain ⟨-, advanced⟩ := Option.ite_none_right_eq_some.mp advanced
      obtain rfl := Option.some.inj advanced
      exact plain.sendRequest now staleNow _
  | stop now =>
      obtain rfl := Option.some.inj advanced
      exact plain
  | lost now | returned now | unheard now =>
      obtain ⟨-, advanced⟩ := Option.ite_none_right_eq_some.mp advanced
      obtain rfl := Option.some.inj advanced
      exact plain

theorem start_plain {first : Publication} (plain : directory.Plain)
    (started : Publication.start entry directory now staleNow = some first) :
    first.directory.Plain := by
  unfold Publication.start at started
  split at started
  · next after result =>
      obtain rfl := Option.some.inj started
      have same : after = (registerServer directory now staleNow entry).2 := by rw [result]
      rw [same]
      exact plain.sendRequest now staleNow _
  · cases started

section Runs

variable {first publication : Publication} {events : List PublishEvent}

theorem StaysListed.run (kept : StaysListed entry lag last first) (short : 125 * lag ≤ 60 * SECOND)
    (host : sanitizeBrowserField entry.host HOST_MAX_LEN ≠ [])
    (prompt : Run.Always (Publication.step entry) (Prompt entry lag) first events)
    (run : Run.run (Publication.step entry) first events = some publication) :
    StaysListed entry lag (events.foldl PublishEvent.renewal last) publication := by
  induction events generalizing first last with
  | nil =>
      obtain rfl : first = publication := Option.some.inj run
      exact kept
  | cons event events ih =>
      obtain ⟨next, stepped, rest⟩ := Run.run_cons.mp run
      exact ih (kept.step short host prompt.1 stepped) (prompt.2 next stepped) rest

theorem run_staysListed (short : 125 * lag ≤ 60 * SECOND)
    (started : Publication.start entry directory now staleNow = some first)
    (soon : staleNow.val ≤ now.val + lag)
    (prompt : Run.Always (Publication.step entry) (Prompt entry lag) first events)
    (run : Run.run (Publication.step entry) first events = some publication) :
    StaysListed entry lag (lastRenewal entry now events) publication := by
  obtain ⟨kept, host⟩ := start_kept started soon
  exact kept.run short host prompt run

/-- The entry is alive as long as the stage is not overdue. -/
theorem StaysListed.found (kept : StaysListed entry lag last publication)
    (short : 125 * lag ≤ 60 * SECOND) (going : publication.stage.going = true) {time : TimePoint}
    (due : time.val ≤ publication.since.val + publication.stage.due lag) :
    listingOf last.1 { entry with users := last.2 } ∈ publication.directory.entries time :=
  mem_entries.mpr ⟨⟨_, (kept.listed going).1⟩, kept.live short going due⟩

/-- As long as the server runs, everything takes at most its time and no two renewals in a row are
lost, its entry is in every listing, with the time and the users of the last renewal that arrived;
and once it has been taken out at the end it does not come back. -/
theorem run_published {first publication : Publication} {events : List PublishEvent}
    (short : 125 * lag ≤ 60 * SECOND)
    (started : Publication.start entry directory now staleNow = some first)
    (soon : staleNow.val ≤ now.val + lag)
    (prompt : Run.Always (Publication.step entry) (Prompt entry lag) first events)
    (run : Run.run (Publication.step entry) first events = some publication) :
    let renewal := lastRenewal entry now events
    (publication.stage.going = true → ∀ time : TimePoint,
      time.val ≤ publication.since.val + publication.stage.due lag →
        listingOf renewal.1 { entry with users := renewal.2 } ∈
          publication.directory.entries time) ∧
    (publication.stage = .stopped true →
      sanitizeBrowserField entry.name BROWSER_NAME_MAX_LEN ≠ [] →
        publication.directory[publishedKey entry]? = none) := by
  have ends := run_staysListed short started soon prompt run
  exact ⟨fun going time due => ends.found short going due, ends.gone⟩

def gameRoom : BrowserEntry :=
  { name := ascii "room", host := ascii "h", port := 5000, updatedAt := moment 0 }

/-- The room is listed while somebody looks, and renewed behind a minute of sleep. -/
def gameEvents : List PublishEvent :=
  [.returned (moment 0), .other (moment 0) (moment 0) (ascii "LIST")] ++
    (List.range BROWSER_PUBLISH_INTERVAL_SECONDS).map
      (fun slept => .woke (moment ((slept + 1) * SECOND))) ++
    [.renewed (moment (60 * SECOND)) (moment (60 * SECOND + 1)) 3]

theorem exists_published (holds : Publication → Prop) [DecidablePred holds]
    (h : ((Publication.start gameRoom ∅ (moment 0) (moment 0)).any fun first =>
      decide (Run.Always (Publication.step gameRoom) (Prompt gameRoom 1000) first gameEvents) &&
      (Run.run (Publication.step gameRoom) first gameEvents).any fun last =>
        decide (holds last)) = true) :
    ∃ first publication, Publication.start gameRoom ∅ (moment 0) (moment 0) = some first ∧
      Run.Always (Publication.step gameRoom) (Prompt gameRoom 1000) first gameEvents ∧
      Run.run (Publication.step gameRoom) first gameEvents = some publication ∧
      holds publication := by
  obtain ⟨first, started, both⟩ := (Option.any_eq_true _ _).mp h
  obtain ⟨prompt, rest⟩ := Bool.and_eq_true_iff.mp both
  obtain ⟨publication, run, last⟩ := (Option.any_eq_true _ _).mp rest
  exact ⟨first, publication, started, of_decide_eq_true prompt, run, of_decide_eq_true last⟩

theorem run_published_room : ∃ first publication,
    Publication.start gameRoom ∅ (moment 0) (moment 0) = some first ∧
    Run.run (Publication.step gameRoom) first gameEvents = some publication ∧
    listingOf (moment (60 * SECOND)) { gameRoom with users := 3 } ∈
      publication.directory.entries (moment (60 * SECOND + 500)) := by
  obtain ⟨first, publication, started, prompt, run, going, due⟩ := exists_published
    (fun publication => publication.stage.going = true ∧ (moment (60 * SECOND + 500)).val ≤
      publication.since.val + publication.stage.due 1000) (by decide +kernel)
  have listed := run_published (by decide) started (by decide) prompt run
  have renewal : lastRenewal gameRoom (moment 0) gameEvents = (moment (60 * SECOND), 3) := by
    decide +kernel
  rw [renewal] at listed
  exact ⟨first, publication, started, run, listed.1 going _ due⟩

/-- Whoever asks the directory for the servers meanwhile gets this one, with its name, its address
and its flags, unless there are more servers than a client takes. -/
theorem run_found (short : 125 * lag ≤ 60 * SECOND) (reachable : Directory.Reachable directory)
    (started : Publication.start entry directory now staleNow = some first)
    (soon : staleNow.val ≤ now.val + lag)
    (prompt : Run.Always (Publication.step entry) (Prompt entry lag) first events)
    (run : Run.run (Publication.step entry) first events = some publication)
    (going : publication.stage.going = true) {time staleTime clientTime : TimePoint}
    (due : staleTime.val ≤ publication.since.val + publication.stage.due lag)
    (few : (publication.directory.live staleTime).length < MAX_RESPONSES) :
    ∃ entries users, listServers publication.directory time staleTime clientTime = .ok entries ∧
      (listingOf time { entry with users }).shown ∈ entries.map BrowserEntry.shown := by
  have kept := run_staysListed short started soon prompt run
  have plain : publication.directory.Plain :=
    Run.run_invariant (fun _ _ _ held stepped => step_plain held stepped) run
      (start_plain reachable.plain started)
  have listed := kept.found short going due
  obtain ⟨entries, answer, shown⟩ := listServers_few plain few
  refine ⟨entries, (lastRenewal entry now events).2, answer, ?_⟩
  rw [shown]
  rw [entries_eq_live] at listed
  -- when the entry was renewed does not show
  have same (users : Int) : (listingOf time { entry with users }).shown =
      (listingOf (lastRenewal entry now events).1 { entry with users }).shown := rfl
  rw [same]
  exact List.mem_map_of_mem listed

theorem run_found_room : ∃ first publication,
    Publication.start gameRoom ∅ (moment 0) (moment 0) = some first ∧
    Run.run (Publication.step gameRoom) first gameEvents = some publication ∧
    ∃ entries users, listServers publication.directory (moment (60 * SECOND + 500))
        (moment (60 * SECOND + 500)) (moment 9) = .ok entries ∧
      (listingOf (moment (60 * SECOND + 500)) { gameRoom with users }).shown ∈
        entries.map BrowserEntry.shown := by
  obtain ⟨first, publication, started, prompt, run, going, due, few⟩ := exists_published
    (fun publication => publication.stage.going = true ∧ (moment (60 * SECOND + 500)).val ≤
      publication.since.val + publication.stage.due 1000 ∧
        (publication.directory.live (moment (60 * SECOND + 500))).length < MAX_RESPONSES)
    (by decide +kernel)
  exact ⟨first, publication, started, run, run_found (by decide) .empty started (by decide) prompt
    run going due few⟩

end Runs

end Keeping

end Chatbox.Network
