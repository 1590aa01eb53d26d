import Chatbox.Lib.Log
import Chatbox.Lib.Run
import Chatbox.Lib.Text

/-!
A task of the user interface that runs on a thread of its own. The worker asks for decisions
on certificates; the terminal thread takes the question, asks the user and leaves the answer.
The two share one optional question and one optional answer behind a mutex, and a flag for
cancellation that both read and write without it. A wait may end at any time, so that
notifications are left out.
-/

namespace Chatbox.Ui

open Text

structure Decision where
  address : Bytes
  fingerprint : Bytes
  previous : Bytes
deriving DecidableEq, Repr

/-- A call of the `confirm_certificate` that the worker is given. No step reads the number,
which tells calls with the same values apart. -/
structure Request where
  number : Nat
  decision : Decision
deriving DecidableEq, Repr

structure Answer where
  request : Request
  accepted : Bool
deriving DecidableEq, Repr

/-- What the worker does next. From `checking` to `testing`, and from `accepting` on, it has
the mutex. -/
inductive Worker where
  | working
  | locking (request : Request)
  | checking (request : Request)
  | posting (request : Request)
  | testing (request : Request)
  | waiting (request : Request)
  | accepting (request : Request)
  | answering (request : Request) (cancelled : Bool)
  | done
deriving DecidableEq, Repr

def Worker.locks : Worker → Bool
  | .checking _ | .posting _ | .testing _ | .accepting _ | .answering _ _ => true
  | _ => false

/-- The call that the worker is in. -/
def Worker.request : Worker → Option Request
  | .working | .done => none
  | .locking request | .checking request | .posting request | .testing request
  | .waiting request | .accepting request | .answering request _ => some request

/-- How `run_network_task` ends: `{}`, what the task returned, or an error. -/
inductive Outcome (R : Type) where
  | returned (result : Option R)
  | threw (error : Bytes)
deriving DecidableEq, Repr

/-- What the terminal thread does next. -/
inductive Terminal (R : Type) where
  | looping
  | taking
  | confirming (request : Request)
  | storing (answer : Answer)
  | polling
  | left (outcome : Outcome R)
deriving DecidableEq, Repr

/-- The call whose question the terminal thread has. -/
def Terminal.carried {R : Type} : Terminal R → Option Request
  | .confirming request => some request
  | .storing answer => some answer.request
  | _ => none

/-- What has happened: the user's answer to a call, a read of the flag in a call that saw the
cancellation, and what a call returned with the answer it found. -/
inductive TaskNote where
  | confirmed (request : Request) (accepted : Bool)
  | cancellationSeen (request : Request)
  | returned (request : Request) (accepted : Bool) (answer : Option Answer)
deriving DecidableEq, Repr

structure NetworkTask (R : Type) where
  /-- Whether the configuration has a `confirm_certificate` of its own. -/
  hasConfirm : Bool
  worker : Worker := .working
  terminal : Terminal R := .looping
  cancelled : Bool := false
  decision : Option Request := none
  answer : Option Answer := none
  result : Option R := none
  error : Bytes := []
  requests : Nat := 0
  log : List TaskNote := []

inductive TaskEvent (R : Type) where
  | call (decision : Decision)
  | finish (outcome : Except Bytes R)
  | worker
  | terminal
  /-- The user's answer, or an exception of `confirm`. -/
  | confirm (reply : Except Bytes Bool)
  /-- `getch` and the deadline. -/
  | poll (cancel : Bool)
deriving DecidableEq

namespace NetworkTask

variable {R : Type} (task : NetworkTask R)

def note (entry : TaskNote) : NetworkTask R := { task with log := task.log ++ [entry] }

/-- The end of a call that has waited. The answer goes with it. -/
def returnAnswer (request : Request) (cancelled : Bool) : NetworkTask R :=
  let accepted := !cancelled && (task.answer.map Answer.accepted).getD false
  { task.note (.returned request accepted task.answer) with answer := none, worker := .working }

/-- The next step of the worker inside of `confirm_certificate`. -/
def workerStep : Option (NetworkTask R) :=
  match task.worker with
  | .working | .done => none
  | .locking request => some { task with worker := .checking request }
  | .checking request =>
      if task.cancelled then
        some { (task.note (.cancellationSeen request)).note (.returned request false none) with
          worker := .working }
      else some { task with worker := .posting request }
  | .posting request => some { task with decision := some request, worker := .testing request }
  | .testing request =>
      if task.answer.isSome then some { task with worker := .accepting request }
      else if task.cancelled then
        some { task.note (.cancellationSeen request) with worker := .accepting request }
      else some { task with worker := .waiting request }
  | .waiting request => some { task with worker := .testing request }
  | .accepting request =>
      if task.cancelled then
        some { task.note (.cancellationSeen request) with worker := .answering request true }
      else some { task with worker := .answering request false }
  | .answering request cancelled => some (task.returnAnswer request cancelled)

/-- The next step of the terminal thread, when it waits for nobody. -/
def terminalStep : Option (NetworkTask R) :=
  match task.terminal with
  | .looping =>
      if task.worker = .done then
        some { task with
          terminal := .left
            (if task.error.isEmpty then .returned task.result else .threw task.error) }
      else some { task with terminal := .taking }
  | .taking =>
      if task.worker.locks then none
      else
        match task.decision with
        | some request => some { task with decision := none, terminal := .confirming request }
        | none => some { task with terminal := .polling }
  | .confirming request =>
      if task.hasConfirm then none
      else some { task with terminal := .storing { request, accepted := false } }
  | .storing answer =>
      if task.worker.locks then none
      else some { task with answer := some answer, terminal := .polling }
  | .polling | .left _ => none

def step : TaskEvent R → Option (NetworkTask R)
  | .call decision =>
      if task.worker = .working then
        some { task with
          worker := .locking { number := task.requests, decision }
          requests := task.requests + 1 }
      else none
  | .finish outcome =>
      if task.worker = .working then
        match outcome with
        | .ok result => some { task with result := some result, worker := .done }
        | .error error => some { task with error, worker := .done }
      else none
  | .worker => task.workerStep
  | .terminal => task.terminalStep
  | .confirm reply =>
      match task.terminal, task.hasConfirm with
      | .confirming request, true =>
          match reply with
          | .ok accepted =>
              some { task.note (.confirmed request accepted) with
                terminal := .storing { request, accepted } }
          | .error error => some { task with terminal := .left (.threw error) }
      | _, _ => none
  | .poll cancel =>
      match task.terminal with
      | .polling =>
          if cancel then
            some { task with cancelled := true, terminal := .left (.returned none) }
          else some { task with terminal := .looping }
      | _ => none

/-- The steps of the terminal thread by what they do to a question. -/
inductive TerminalMove : NetworkTask R → Prop where
  | turn {terminal : Terminal R} : task.terminal.carried = none → terminal.carried = none →
      TerminalMove { task with terminal }
  | take {request : Request} : task.terminal.carried = none → task.decision = some request →
      TerminalMove { task with decision := none, terminal := .confirming request }
  | confirm {request : Request} (accepted : Bool) : task.terminal = .confirming request →
      TerminalMove { task.note (.confirmed request accepted) with
        terminal := .storing { request, accepted } }
  | refuse {request : Request} : task.terminal = .confirming request →
      TerminalMove { task with terminal := .storing { request, accepted := false } }
  | throw {request : Request} (error : Bytes) : task.terminal = .confirming request →
      TerminalMove { task with terminal := .left (.threw error) }
  | store {answer : Answer} : task.terminal = .storing answer →
      TerminalMove { task with answer := some answer, terminal := .polling }
  | cancel : task.terminal = .polling →
      TerminalMove { task with cancelled := true, terminal := .left (.returned none) }

/-- Nobody has a question, and there is no answer. -/
structure Idle : Prop where
  decision : task.decision = none
  answer : task.answer = none
  terminal : task.terminal.carried = none

/-- Where the question of the call is, or its answer: waiting to be taken, with the terminal
thread, back as an answer, or lost with the terminal thread. -/
inductive Pending (request : Request) : Prop where
  | posted : task.decision = some request → task.answer = none → task.terminal.carried = none →
      Pending request
  | shown : task.decision = none → task.answer = none → task.terminal = .confirming request →
      Pending request
  | decided (accepted : Bool) : task.decision = none → task.answer = none →
      task.terminal = .storing { request, accepted } →
      (accepted = true → .confirmed request true ∈ task.log) → Pending request
  | answered (accepted : Bool) : task.decision = none → task.answer = some { request, accepted } →
      task.terminal.carried = none → (accepted = true → .confirmed request true ∈ task.log) →
      Pending request
  | lost (outcome : Outcome R) : task.decision = none → task.answer = none →
      task.terminal = .left outcome → Pending request

/-- What the place of the worker says of its question. -/
def Placed : Prop :=
  match task.worker with
  | .working | .locking _ | .checking _ | .done => task.cancelled = true ∨ task.Idle
  | .posting _ => task.Idle
  | .testing request | .waiting request => task.Pending request
  | .accepting request => task.Pending request ∧ (task.answer.isSome ∨ task.cancelled = true)
  | .answering request cancelled =>
      task.Pending request ∧ (task.answer.isSome ∨ task.cancelled = true) ∧
        (cancelled = false → .cancellationSeen request ∉ task.log)

end NetworkTask

/-- A call that returned true has the user's word for it, has seen no cancellation, and no
call has found the answer to another. -/
def TaskNote.Just (before : List TaskNote) : TaskNote → Prop
  | .returned request accepted answer =>
      (accepted = true → .confirmed request true ∈ before ∧ .cancellationSeen request ∉ before) ∧
        ∀ found, answer = some found → found.request = request
  | _ => True

/-- The number of the call whose answer was used up. -/
def TaskNote.used : TaskNote → Option Nat
  | .returned _ _ (some answer) => some answer.request.number
  | _ => none

structure NetworkTask.Sound {R : Type} (task : NetworkTask R) : Prop where
  left : task.cancelled = true → ∃ outcome, task.terminal = .left outcome
  seen : ∀ request, .cancellationSeen request ∈ task.log → task.cancelled = true
  placed : task.Placed
  justified : Log.Justified TaskNote.Just task.log
  used : ∀ number ∈ task.log.filterMap TaskNote.used, number < task.requests
  current : ∀ request, task.worker.request = some request →
    request.number < task.requests ∧ request.number ∉ task.log.filterMap TaskNote.used
  distinct : (task.log.filterMap TaskNote.used).Nodup

namespace NetworkTask

variable {R : Type} {task task' : NetworkTask R} {request : Request}
  {event : TaskEvent R} {hasConfirm : Bool}

section Terminal

theorem terminalStep_move (h : task.terminalStep = some task') :
    task.TerminalMove task' ∧ ∀ outcome, task.terminal ≠ .left outcome := by
  unfold terminalStep at h
  split at h
  · next here =>
      refine ⟨?_, fun _ e => by rw [here] at e; cases e⟩
      split at h
      · obtain rfl := Option.some.inj h
        exact .turn (by rw [here]; rfl) rfl
      · obtain rfl := Option.some.inj h
        exact .turn (by rw [here]; rfl) rfl
  · next here =>
      refine ⟨?_, fun _ e => by rw [here] at e; cases e⟩
      split at h
      · cases h
      · split at h
        · next posted =>
            obtain rfl := Option.some.inj h
            exact .take (by rw [here]; rfl) posted
        · obtain rfl := Option.some.inj h
          exact .turn (by rw [here]; rfl) rfl
  · next here =>
      refine ⟨?_, fun _ e => by rw [here] at e; cases e⟩
      split at h
      · cases h
      · obtain rfl := Option.some.inj h
        exact .refuse here
  · next here =>
      refine ⟨?_, fun _ e => by rw [here] at e; cases e⟩
      split at h
      · cases h
      · obtain rfl := Option.some.inj h
        exact .store here
  · cases h
  · cases h

theorem Idle.move (idle : task.Idle) (move : task.TerminalMove task') : task'.Idle := by
  cases move with
  | turn _ there => exact ⟨idle.decision, idle.answer, there⟩
  | take _ posted =>
      rw [idle.decision] at posted
      cases posted
  | confirm _ here | refuse here | throw _ here | store here =>
      have none := idle.terminal
      rw [here] at none
      cases none
  | cancel => exact ⟨idle.decision, idle.answer, rfl⟩

theorem carried_confirming (here : task.terminal = .confirming request) :
    task.terminal.carried = some request := by rw [here]; rfl

theorem carried_storing {answer : Answer} (here : task.terminal = .storing answer) :
    task.terminal.carried = some answer.request := by rw [here]; rfl

/-- A question goes on: it is taken, shown and answered, or the terminal thread ends. -/
theorem Pending.move (pending : task.Pending request) (move : task.TerminalMove task')
    (alive : ∀ outcome, task.terminal ≠ .left outcome) : task'.Pending request := by
  cases pending with
  | posted decision answer free =>
      cases move with
      | turn _ there => exact .posted decision answer there
      | take _ posted =>
          obtain rfl := Option.some.inj (decision.symm.trans posted)
          exact .shown rfl answer rfl
      | confirm _ here | refuse here | throw _ here =>
          rw [carried_confirming here] at free
          cases free
      | store here =>
          rw [carried_storing here] at free
          cases free
      | cancel => exact .posted decision answer rfl
  | shown decision answer shown =>
      cases move with
      | turn here _ =>
          rw [carried_confirming shown] at here
          cases here
      | take here _ =>
          rw [carried_confirming shown] at here
          cases here
      | confirm accepted here =>
          obtain rfl := Terminal.confirming.inj (shown.symm.trans here)
          refine .decided accepted decision answer rfl fun yes => ?_
          rw [yes]
          exact List.mem_append_right _ List.mem_cons_self
      | refuse here =>
          obtain rfl := Terminal.confirming.inj (shown.symm.trans here)
          exact .decided false decision answer rfl nofun
      | throw _ _ => exact .lost _ decision answer rfl
      | store here => cases shown.symm.trans here
      | cancel here => cases shown.symm.trans here
  | decided accepted decision answer decided word =>
      cases move with
      | turn here _ =>
          rw [carried_storing decided] at here
          cases here
      | take here _ =>
          rw [carried_storing decided] at here
          cases here
      | confirm _ here | refuse here | throw _ here => cases decided.symm.trans here
      | store here =>
          obtain rfl := Terminal.storing.inj (decided.symm.trans here)
          exact .answered accepted decision rfl rfl word
      | cancel here => cases decided.symm.trans here
  | answered accepted decision answer free word =>
      cases move with
      | turn _ there => exact .answered accepted decision answer there word
      | take _ posted => cases decision.symm.trans posted
      | confirm _ here | refuse here | throw _ here =>
          rw [carried_confirming here] at free
          cases free
      | store here =>
          rw [carried_storing here] at free
          cases free
      | cancel => exact .answered accepted decision answer rfl word
  | lost outcome _ _ gone => exact absurd gone (alive outcome)

theorem move_worker (move : task.TerminalMove task') : task'.worker = task.worker := by
  cases move <;> rfl

theorem move_requests (move : task.TerminalMove task') : task'.requests = task.requests := by
  cases move <;> rfl

theorem move_answer (move : task.TerminalMove task') (h : task.answer.isSome) :
    task'.answer.isSome := by
  cases move with
  | store => rfl
  | _ => exact h

theorem move_cancelled (move : task.TerminalMove task') (h : task.cancelled = true) :
    task'.cancelled = true := by
  cases move with
  | cancel => rfl
  | _ => exact h

/-- The terminal thread notes the words of the user and nothing else. -/
theorem move_log (move : task.TerminalMove task') :
    task'.log = task.log ∨
      ∃ request accepted, task'.log = task.log ++ [.confirmed request accepted] := by
  cases move with
  | confirm accepted _ => exact .inr ⟨_, accepted, rfl⟩
  | _ => exact .inl rfl

theorem move_seen (move : task.TerminalMove task') :
    .cancellationSeen request ∈ task'.log ↔ .cancellationSeen request ∈ task.log := by
  obtain same | ⟨_, _, same⟩ := move_log move
  · rw [same]
  · rw [same]
    simp

theorem move_used (move : task.TerminalMove task') :
    task'.log.filterMap TaskNote.used = task.log.filterMap TaskNote.used := by
  obtain same | ⟨_, _, same⟩ := move_log move
  · rw [same]
  · rw [same, List.filterMap_append]
    exact List.append_nil _

theorem Placed.move (placed : task.Placed) (move : task.TerminalMove task')
    (alive : ∀ outcome, task.terminal ≠ .left outcome) : task'.Placed := by
  unfold Placed at placed ⊢
  rw [move_worker move]
  cases here : task.worker with
  | working | locking _ | checking _ | done =>
      rw [here] at placed
      exact placed.imp (move_cancelled move) fun idle => idle.move move
  | posting _ =>
      rw [here] at placed
      exact Idle.move placed move
  | testing _ | waiting _ =>
      rw [here] at placed
      exact Pending.move placed move alive
  | accepting request =>
      rw [here] at placed
      obtain ⟨pending, reason⟩ := placed
      exact ⟨pending.move move alive, reason.imp (move_answer move) (move_cancelled move)⟩
  | answering request cancelled =>
      rw [here] at placed
      obtain ⟨pending, reason, unseen⟩ := placed
      refine ⟨pending.move move alive, reason.imp (move_answer move) (move_cancelled move), ?_⟩
      rw [move_seen move]
      exact unseen

theorem Sound.move (sound : task.Sound) (move : task.TerminalMove task')
    (alive : ∀ outcome, task.terminal ≠ .left outcome) : task'.Sound where
  left cancelled := by
    have before : task.cancelled = false := by
      cases flag : task.cancelled with
      | false => rfl
      | true =>
          obtain ⟨outcome, gone⟩ := sound.left flag
          exact absurd gone (alive outcome)
    cases move with
    | cancel => exact ⟨_, rfl⟩
    | _ => exact absurd (before.symm.trans cancelled) Bool.false_ne_true
  seen request mem := move_cancelled move (sound.seen request ((move_seen move).mp mem))
  placed := sound.placed.move move alive
  justified := by
    obtain same | ⟨_, _, same⟩ := move_log move
    · rw [same]
      exact sound.justified
    · rw [same]
      exact sound.justified.snoc _ trivial
  used number mem := by
    rw [move_used move] at mem
    rw [move_requests move]
    exact sound.used number mem
  current request here := by
    rw [move_worker move] at here
    rw [move_requests move, move_used move]
    exact sound.current request here
  distinct := by
    rw [move_used move]
    exact sound.distinct

end Terminal

section Worker

theorem used_append {log : List TaskNote} {entry : TaskNote} (quiet : entry.used = none) :
    (log ++ [entry]).filterMap TaskNote.used = log.filterMap TaskNote.used := by
  rw [List.filterMap_append, List.filterMap_cons_none quiet, List.filterMap_nil, List.append_nil]

theorem used_seen (log : List TaskNote) (request : Request) :
    (log ++ [TaskNote.cancellationSeen request]).filterMap TaskNote.used = log.filterMap TaskNote.used :=
  used_append rfl

theorem used_refused (log : List TaskNote) (request : Request) :
    (log ++ [TaskNote.cancellationSeen request] ++
      [TaskNote.returned request false none]).filterMap TaskNote.used = log.filterMap TaskNote.used :=
  (used_append rfl).trans (used_seen log request)

/-- A step of the worker that notes nothing. -/
theorem Sound.advance (sound : task.Sound) {worker : Worker} {decision : Option Request}
    (same : worker.request = task.worker.request)
    (placed : Placed { task with worker, decision }) :
    Sound { task with worker, decision } where
  left := sound.left
  seen := sound.seen
  placed := placed
  justified := sound.justified
  used := sound.used
  current request here := sound.current request (same ▸ here)
  distinct := sound.distinct

/-- A read of the flag that sees the cancellation. -/
theorem Sound.see (sound : task.Sound) {worker : Worker}
    (same : worker.request = task.worker.request) (cancelled : task.cancelled = true)
    (placed : Placed { task.note (.cancellationSeen request) with worker }) :
    Sound { task.note (.cancellationSeen request) with worker } where
  left := sound.left
  seen _ _ := cancelled
  placed := placed
  justified := sound.justified.snoc _ trivial
  used := by
    have used := sound.used
    rw [← used_seen task.log request] at used
    exact used
  current other here := by
    have current := sound.current other (same ▸ here)
    rw [← used_seen task.log request] at current
    exact current
  distinct := by
    have distinct := sound.distinct
    rw [← used_seen task.log request] at distinct
    exact distinct

theorem Idle.worker (idle : task.Idle) (worker : Worker) : Idle { task with worker } :=
  ⟨idle.decision, idle.answer, idle.terminal⟩

theorem Pending.worker (pending : task.Pending request) (worker : Worker) :
    Pending { task with worker } request := by
  cases pending with
  | posted decision answer free => exact .posted decision answer free
  | shown decision answer shown => exact .shown decision answer shown
  | decided accepted decision answer decided word =>
      exact .decided accepted decision answer decided word
  | answered accepted decision answer free word =>
      exact .answered accepted decision answer free word
  | lost outcome decision answer gone => exact .lost outcome decision answer gone

theorem Pending.note (pending : task.Pending request) (entry : TaskNote) :
    (task.note entry).Pending request := by
  cases pending with
  | posted decision answer free => exact .posted decision answer free
  | shown decision answer shown => exact .shown decision answer shown
  | decided accepted decision answer decided word =>
      exact .decided accepted decision answer decided fun yes =>
        List.mem_append_left _ (word yes)
  | answered accepted decision answer free word =>
      exact .answered accepted decision answer free fun yes => List.mem_append_left _ (word yes)
  | lost outcome decision answer gone => exact .lost outcome decision answer gone

/-- An answer is the answer to the call that finds it, and the user's word if it is yes. -/
theorem Pending.found (pending : task.Pending request) {answer : Answer}
    (found : task.answer = some answer) :
    task.decision = none ∧ task.terminal.carried = none ∧ answer.request = request ∧
      (answer.accepted = true → .confirmed request true ∈ task.log) := by
  cases pending with
  | answered accepted decision here free word =>
      obtain rfl := Option.some.inj (here.symm.trans found)
      exact ⟨decision, free, rfl, word⟩
  | posted _ none | shown _ none | decided _ _ none | lost _ _ none =>
      rw [none] at found
      cases found

/-- A call that finds the task cancelled asks nothing. -/
theorem Sound.refuse (sound : task.Sound) (cancelled : task.cancelled = true) :
    Sound { (task.note (.cancellationSeen request)).note (.returned request false none) with
      worker := .working } where
  left := sound.left
  seen _ _ := cancelled
  placed := .inl cancelled
  justified := (sound.justified.snoc (.cancellationSeen request) trivial).snoc
    (.returned request false none) ⟨nofun, nofun⟩
  used := by
    have used := sound.used
    rw [← used_refused task.log request] at used
    exact used
  current _ here := nomatch here
  distinct := by
    have distinct := sound.distinct
    rw [← used_refused task.log request] at distinct
    exact distinct

/-- The end of a call that has waited. -/
theorem Sound.returnAnswer (sound : task.Sound) {cancelled : Bool}
    (here : task.worker = .answering request cancelled) :
    (task.returnAnswer request cancelled).Sound := by
  have placed := sound.placed
  unfold Placed at placed
  rw [here] at placed
  obtain ⟨pending, reason, unseen⟩ := placed
  have current := sound.current request (by rw [here]; rfl)
  -- The number that is used up is that of the call.
  have number (accepted : Bool) (n : Nat)
      (used : (TaskNote.returned request accepted task.answer).used = some n) :
      n = request.number := by
    cases found : task.answer with
    | none =>
        rw [found] at used
        cases used
    | some answer =>
        rw [found] at used
        rw [← (pending.found found).2.2.1]
        exact (Option.some.inj used).symm
  exact {
    left := sound.left
    seen := fun other mem => sound.seen other (by
      simpa [NetworkTask.returnAnswer, NetworkTask.note] using mem)
    placed := by
      obtain found | flag := reason
      · obtain ⟨answer, found⟩ := Option.isSome_iff_exists.mp found
        obtain ⟨decision, free, -⟩ := pending.found found
        exact .inr ⟨decision, rfl, free⟩
      · exact .inl flag
    justified := by
      refine sound.justified.snoc _
        ⟨fun accepted => ?_, fun answer found => (pending.found found).2.2.1⟩
      simp only [Bool.and_eq_true, Bool.not_eq_true'] at accepted
      obtain ⟨flag, yes⟩ := accepted
      refine ⟨?_, unseen flag⟩
      cases found : task.answer with
      | none =>
          rw [found] at yes
          cases yes
      | some answer =>
          rw [found] at yes
          exact (pending.found found).2.2.2 yes
    used := fun n mem => by
      rw [NetworkTask.returnAnswer, NetworkTask.note, List.filterMap_append] at mem
      obtain mem | last := List.mem_append.mp mem
      · exact sound.used n mem
      · obtain ⟨entry, entryMem, used⟩ := List.mem_filterMap.mp last
        obtain rfl := List.mem_singleton.mp entryMem
        rw [number _ n used]
        exact current.1
    current := fun _ here => nomatch here
    distinct := Log.nodup_filterMap_snoc sound.distinct fun n used => by
      rw [number _ n used]
      exact current.2 }

theorem Sound.workerStep (sound : task.Sound) (h : task.workerStep = some task') :
    task'.Sound := by
  have placed := sound.placed
  unfold Placed at placed
  unfold NetworkTask.workerStep at h
  cases here : task.worker with
  | working | done =>
      rw [here] at h
      cases h
  | locking request =>
      rw [here] at h placed
      obtain rfl := Option.some.inj h
      exact sound.advance (by rw [here]; rfl) (placed.imp_right fun idle => idle.worker _)
  | checking request =>
      rw [here] at h placed
      simp only at h placed
      split at h
      · next cancelled =>
          obtain rfl := Option.some.inj h
          exact sound.refuse cancelled
      · next going =>
          obtain rfl := Option.some.inj h
          exact sound.advance (by rw [here]; rfl) ((placed.resolve_left going).worker _)
  | posting request =>
      rw [here] at h placed
      obtain rfl := Option.some.inj h
      have idle : task.Idle := placed
      exact sound.advance (by rw [here]; rfl) (Pending.posted rfl idle.answer idle.terminal)
  | testing request =>
      rw [here] at h placed
      have pending : task.Pending request := placed
      simp only at h
      split at h
      · next found =>
          obtain rfl := Option.some.inj h
          exact sound.advance (by rw [here]; rfl) ⟨pending.worker _, .inl found⟩
      · split at h
        · next cancelled =>
            obtain rfl := Option.some.inj h
            exact sound.see (by rw [here]; rfl) cancelled
              ⟨(pending.note _).worker _, .inr cancelled⟩
        · obtain rfl := Option.some.inj h
          exact sound.advance (by rw [here]; rfl) (pending.worker _)
  | waiting request =>
      rw [here] at h placed
      obtain rfl := Option.some.inj h
      exact sound.advance (by rw [here]; rfl) (Pending.worker placed _)
  | accepting request =>
      rw [here] at h placed
      obtain ⟨pending, reason⟩ := placed
      simp only at h
      split at h
      · next cancelled =>
          obtain rfl := Option.some.inj h
          exact sound.see (by rw [here]; rfl) cancelled
            ⟨(pending.note _).worker _, reason, nofun⟩
      · next going =>
          obtain rfl := Option.some.inj h
          exact sound.advance (by rw [here]; rfl)
            ⟨pending.worker _, reason, fun _ mem => going (sound.seen request mem)⟩
  | answering request cancelled =>
      rw [here] at h
      obtain rfl := Option.some.inj h
      exact sound.returnAnswer here

/-- A new call has a number that no call has had. -/
theorem Sound.call (sound : task.Sound) (here : task.worker = .working) (decision : Decision) :
    Sound { task with
      worker := .locking { number := task.requests, decision }
      requests := task.requests + 1 } where
  left := sound.left
  seen := sound.seen
  placed := by
    have placed := sound.placed
    unfold Placed at placed
    rw [here] at placed
    exact placed.imp_right fun idle => ⟨idle.decision, idle.answer, idle.terminal⟩
  justified := sound.justified
  used number mem := Nat.lt_succ_of_lt (sound.used number mem)
  current request same := by
    obtain rfl := Option.some.inj same
    exact ⟨Nat.lt_succ_self _, fun mem => Nat.lt_irrefl _ (sound.used _ mem)⟩
  distinct := sound.distinct

theorem Sound.finish (sound : task.Sound) (here : task.worker = .working) (result : Option R)
    (error : Bytes) : Sound { task with result, error, worker := .done } where
  left := sound.left
  seen := sound.seen
  placed := by
    have placed := sound.placed
    unfold Placed at placed
    rw [here] at placed
    exact placed.imp_right fun idle => ⟨idle.decision, idle.answer, idle.terminal⟩
  justified := sound.justified
  used := sound.used
  current _ same := nomatch same
  distinct := sound.distinct

end Worker

theorem Sound.step (sound : task.Sound) (h : task.step event = some task') :
    task'.Sound := by
  cases event with
  | call decision =>
      simp only [NetworkTask.step, Option.ite_none_right_eq_some] at h
      obtain ⟨here, h⟩ := h
      obtain rfl := Option.some.inj h
      exact sound.call here decision
  | finish outcome =>
      simp only [NetworkTask.step, Option.ite_none_right_eq_some] at h
      obtain ⟨here, h⟩ := h
      cases outcome with
      | ok result =>
          obtain rfl := Option.some.inj h
          exact sound.finish here (some result) task.error
      | error error =>
          obtain rfl := Option.some.inj h
          exact sound.finish here task.result error
  | worker => exact sound.workerStep h
  | terminal =>
      obtain ⟨move, alive⟩ := terminalStep_move h
      exact sound.move move alive
  | confirm reply =>
      simp only [NetworkTask.step] at h
      split at h
      · next request here _ =>
          have alive (outcome : Outcome R) : task.terminal ≠ .left outcome := by
            rw [here]
            nofun
          cases reply with
          | ok accepted =>
              obtain rfl := Option.some.inj h
              exact sound.move (.confirm accepted here) alive
          | error error =>
              obtain rfl := Option.some.inj h
              exact sound.move (.throw error here) alive
      · cases h
  | poll cancel =>
      simp only [NetworkTask.step] at h
      split at h
      · next here =>
          have alive (outcome : Outcome R) : task.terminal ≠ .left outcome := by
            rw [here]
            nofun
          split at h
          · obtain rfl := Option.some.inj h
            exact sound.move (.cancel here) alive
          · obtain rfl := Option.some.inj h
            exact sound.move (.turn (by rw [here]; rfl) rfl) alive
      · cases h

theorem sound_start : Sound ({ hasConfirm } : NetworkTask R) where
  left := nofun
  seen _ mem := nomatch mem
  placed := .inr ⟨rfl, rfl, rfl⟩
  justified := Log.justified_nil
  used _ mem := nomatch mem
  current _ same := nomatch same
  distinct := List.nodup_nil

theorem run_sound {events : List (TaskEvent R)}
    (h : Run.run step { hasConfirm } events = some task) :
    task.Sound :=
  Run.run_invariant (fun _ _ _ sound stepped => sound.step stepped) h sound_start

/-- The worker hears yes about a certificate only when the user has been asked about that very
certificate in that very call, has said yes, and the call has seen no cancellation; an answer
goes to the call that it was given to, and to no second one. -/
theorem run_confirmed {events : List (TaskEvent R)}
    (h : Run.run step { hasConfirm } events = some task) :
    (∀ before request answer after,
      task.log = before ++ .returned request true answer :: after →
        .confirmed request true ∈ before ∧ .cancellationSeen request ∉ before) ∧
      (∀ before request accepted answer after,
        task.log = before ++ .returned request accepted (some answer) :: after →
          answer.request = request) ∧
      (task.log.filterMap TaskNote.used).Nodup := by
  have sound := run_sound h
  refine ⟨fun before request answer after log => ?_,
    fun before request accepted answer after log => ?_, sound.distinct⟩
  · exact (sound.justified before _ after log).1 rfl
  · exact (sound.justified before _ after log).2 answer rfl

def askedRequest : Request := ⟨0, ascii "host|5000", ascii "AB", []⟩

/-- The user is asked once and says yes. -/
def askedOnce : List (TaskEvent Unit) :=
  [.call askedRequest.decision, .worker, .worker, .worker, .worker, .terminal, .terminal,
    .confirm (.ok true), .terminal, .worker, .worker, .worker, .worker]

theorem run_confirmed_once : ∃ (task : NetworkTask Unit) (before : List TaskNote)
      (request : Request) (answer : Option Answer),
    Run.run step { hasConfirm := true } askedOnce = some task ∧
      task.log = before ++ [.returned request true answer] ∧ .confirmed request true ∈ before := by
  cases h : Run.run step { hasConfirm := true } askedOnce with
  | none => cases h
  | some task =>
      have log : task.log = [.confirmed askedRequest true] ++
          [.returned askedRequest true (some ⟨askedRequest, true⟩)] := by
        obtain rfl := Option.some.inj h
        rfl
      exact ⟨task, _, _, _, rfl, log, ((run_confirmed h).1 _ _ _ [] log).1⟩

end NetworkTask

end Chatbox.Ui
