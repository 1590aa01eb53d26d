import Chatbox.Lib.Run
import Chatbox.Storage.Database

/-!
The queue of writes: threads that enqueue and flush, the worker that takes the writes
in batches, each one transaction, and the destructor. A step is one region under
`queue_mutex`, or one statement of the worker's connection. The statements are those
of any database.
-/

namespace Chatbox.Storage

open Text Protocol

def MAX_PENDING_WRITES : Nat := 4096

/-- The writes of one transaction at most. -/
def MAX_BATCH : Nat := 64

/-- Where the loop of `run` is; `batch` is its local variable. -/
inductive Worker (W D : Type) where
  | waiting
  | taken (batch : List W)
  | executing (batch left : List W) (changed : D)
  | failed (batch : List W) (detail : Bytes)
  | finished (batch : List W) (committed : Bool)
  | exited

/-- Who waits for the queue to drain. -/
inductive Caller where
  | thread (id : Nat)
  | destructor
deriving DecidableEq, Repr

/-- How far `~Impl` has come. -/
inductive Destructor where
  | notCalled
  | flushing
  | stopped
  | joined
deriving DecidableEq, Repr

/-- `accepted` and `executed` record what has been done: the writes for which `enqueue`
returned true, and the batches the worker is done with, committed or rolled back. -/
structure Impl (W D : Type) where
  db : D
  queue : List W := []
  writing : Bool := false
  stopping : Bool := false
  error : Bytes := []
  worker : Worker W D := .waiting
  flushing : Caller → Bool := fun _ => false
  destructor : Destructor := .notCalled
  accepted : List W := []
  executed : List (List W × Bool) := []

inductive QueueEvent (W : Type) where
  | enqueue (write : W)
  | flushCall (caller : Caller)
  | flushReturn (caller : Caller)
  | stop
  | join
  | take
  | begin (error : Option Bytes)
  | statement
  | commit (error : Option Bytes)
  | setError
  | finish

/-- What the worker puts to its connection, and whether it goes through. -/
inductive Sql (W : Type) where
  | begin (ok : Bool)
  | write (write : W) (ok : Bool)
  | commit (ok : Bool)
  | rollback
deriving DecidableEq, Repr

/-- A batch is put to the connection: all of it, or as far as it goes through and then a
rollback. -/
inductive Ran {W : Type} : List W × Bool → List (Sql W) → Prop where
  | committed (batch : List W) :
      Ran (batch, true) (.begin true :: batch.map (.write · true) ++ [.commit true])
  | unbegun (batch : List W) : Ran (batch, false) [.begin false, .rollback]
  | refused (done : List W) (write : W) (left : List W) :
      Ran (done ++ write :: left, false)
        (.begin true :: done.map (.write · true) ++ [.write write false, .rollback])
  | uncommitted (batch : List W) :
      Ran (batch, false) (.begin true :: batch.map (.write · true) ++ [.commit false, .rollback])

namespace Worker

variable {W D : Type}

/-- Between the first region of the loop and the last. -/
def busy : Worker W D → Bool
  | .waiting => false
  | .exited => false
  | _ => true

def batch : Worker W D → List W
  | .waiting => []
  | .taken batch => batch
  | .executing batch _ _ => batch
  | .failed batch _ => batch
  | .finished batch _ => batch
  | .exited => []

end Worker

namespace Impl

variable {W D : Type} (execute : D → W → Except Bytes D) (impl : Impl W D)

def start (db : D) : Impl W D := { db }

def enqueue (write : W) : Impl W D × Bool :=
  if impl.stopping || impl.queue.length ≥ MAX_PENDING_WRITES then
    ({ impl with error := ascii "SQLite write queue is full" }, false)
  else
    ({ impl with queue := impl.queue ++ [write], accepted := impl.accepted ++ [write] }, true)

/-- The condition `flush` waits for. -/
def drained : Bool := impl.queue.isEmpty && !impl.writing

def callFlush (caller : Caller) : Impl W D :=
  { impl with flushing := Function.update impl.flushing caller true }

def returnFlush (caller : Caller) : Impl W D :=
  { impl with flushing := Function.update impl.flushing caller false }

/-- The region in which the worker takes a batch or returns. -/
def takeBatch : Impl W D :=
  if impl.stopping && impl.queue.isEmpty then { impl with worker := .exited }
  else
    let count := min impl.queue.length MAX_BATCH
    { impl with
      writing := true
      queue := impl.queue.drop count
      worker := .taken (impl.queue.take count) }

/-- One step, nothing where the thread has to wait or is elsewhere. -/
def step (impl : Impl W D) : QueueEvent W → Option (Impl W D)
  | .enqueue write => some (impl.enqueue write).1
  | .flushCall (.thread id) =>
      if impl.flushing (.thread id) then none else some (impl.callFlush (.thread id))
  | .flushCall .destructor =>
      if impl.destructor = .notCalled then
        some { impl.callFlush .destructor with destructor := .flushing }
      else none
  | .flushReturn caller =>
      if impl.flushing caller && impl.drained then some (impl.returnFlush caller) else none
  | .stop =>
      if impl.destructor = .flushing ∧ impl.flushing .destructor = false then
        some { impl with stopping := true, destructor := .stopped }
      else none
  | .join =>
      match impl.worker with
      | .exited =>
          if impl.destructor = .stopped then some { impl with destructor := .joined } else none
      | _ => none
  | .take =>
      match impl.worker with
      | .waiting => if impl.stopping || !impl.queue.isEmpty then some impl.takeBatch else none
      | _ => none
  | .begin error =>
      match impl.worker with
      | .taken batch =>
          match error with
          | none => some { impl with worker := .executing batch batch impl.db }
          | some detail => some { impl with worker := .failed batch detail }
      | _ => none
  | .statement =>
      match impl.worker with
      | .executing batch (write :: left) changed =>
          match execute changed write with
          | .ok changed => some { impl with worker := .executing batch left changed }
          | .error detail => some { impl with worker := .failed batch detail }
      | _ => none
  | .commit error =>
      match impl.worker with
      | .executing batch [] changed =>
          match error with
          | none => some { impl with db := changed, worker := .finished batch true }
          | some detail => some { impl with worker := .failed batch detail }
      | _ => none
  | .setError =>
      match impl.worker with
      | .failed batch detail => some { impl with error := detail, worker := .finished batch false }
      | _ => none
  | .finish =>
      match impl.worker with
      | .finished batch committed =>
          some { impl with
            writing := false
            worker := .waiting
            executed := impl.executed ++ [(batch, committed)] }
      | _ => none

/-- The writes for which a call of `enqueue` returns true. -/
def answers : QueueEvent W → List W
  | .enqueue write => if (impl.enqueue write).2 then [write] else []
  | _ => []

/-- What a step of the worker puts to its connection; the catch rolls back. -/
def asks : QueueEvent W → List (Sql W)
  | .begin error =>
      match impl.worker with
      | .taken _ => [.begin error.isNone]
      | _ => []
  | .statement =>
      match impl.worker with
      | .executing _ (write :: _) changed =>
          match execute changed write with
          | .ok _ => [.write write true]
          | .error _ => [.write write false]
      | _ => []
  | .commit error =>
      match impl.worker with
      | .executing _ [] _ => [.commit error.isNone]
      | _ => []
  | .setError =>
      match impl.worker with
      | .failed _ _ => [.rollback]
      | _ => []
  | _ => []

/-- The batch that the worker is done with. -/
def settles : QueueEvent W → List (List W × Bool)
  | .finish =>
      match impl.worker with
      | .finished batch committed => [(batch, committed)]
      | _ => []
  | _ => []

/-- The writes the worker is done with. -/
def executedWrites : List W := (impl.executed.map Prod.fst).flatten

end Impl

/-- The step concerns neither the writes nor the flags. -/
structure SameWrites {W D : Type} (a b : Impl W D) : Prop where
  accepted : b.accepted = a.accepted
  executed : b.executed = a.executed
  queue : b.queue = a.queue
  writing : b.writing = a.writing
  batch : b.worker.batch = a.worker.batch
  busy : b.worker.busy = a.worker.busy
  stopping : a.stopping = true → b.stopping = true
  exited : b.worker = .exited → a.worker = .exited

/-- What the worker does between the region that takes a batch and the one that ends it, by
what it puts to the connection. -/
inductive Proceeds {W D : Type} : Worker W D → List (Sql W) → Worker W D → Prop where
  | still (worker : Worker W D) : Proceeds worker [] worker
  | begun (batch : List W) (db : D) :
      Proceeds (.taken batch) [.begin true] (.executing batch batch db)
  | unbegun (batch : List W) (detail : Bytes) :
      Proceeds (.taken batch) [.begin false] (.failed batch detail)
  | wrote (batch : List W) (write : W) (left : List W) (db db' : D) :
      Proceeds (.executing batch (write :: left) db) [.write write true]
        (.executing batch left db')
  | refused (batch : List W) (write : W) (left : List W) (db : D) (detail : Bytes) :
      Proceeds (.executing batch (write :: left) db) [.write write false] (.failed batch detail)
  | committed (batch : List W) (db : D) :
      Proceeds (.executing batch [] db) [.commit true] (.finished batch true)
  | uncommitted (batch : List W) (db : D) (detail : Bytes) :
      Proceeds (.executing batch [] db) [.commit false] (.failed batch detail)
  | rolledBack (batch : List W) (detail : Bytes) :
      Proceeds (.failed batch detail) [.rollback] (.finished batch false)

/-- The worker goes on with its batch. -/
theorem Proceeds.goesOn {W D : Type} {impl : Impl W D} {worker : Worker W D} {db : D}
    {error : Bytes} {asked : List (Sql W)} (proceeds : Proceeds impl.worker asked worker) :
    SameWrites impl { impl with worker, db, error } ∧ Proceeds impl.worker asked worker := by
  refine ⟨⟨rfl, rfl, rfl, rfl, ?_, ?_, id, fun exited => ?_⟩, proceeds⟩
  · generalize impl.worker = before at proceeds ⊢
    cases proceeds <;> rfl
  · generalize impl.worker = before at proceeds ⊢
    cases proceeds <;> rfl
  · obtain rfl : worker = .exited := exited
    generalize impl.worker = before at proceeds ⊢
    cases proceeds
    rfl

section Steps

variable {W D : Type} {execute : D → W → Except Bytes D} {impl impl' : Impl W D}
  {event : QueueEvent W}

open Impl

/-- All that a step can do to the writes and to the worker. -/
theorem step_cases (h : step execute impl event = some impl') :
    SameWrites impl impl' ∧ Proceeds impl.worker (impl.asks execute event) impl'.worker ∨
    (∃ write, event = .enqueue write ∧ impl.stopping = false ∧
      impl.queue.length < MAX_PENDING_WRITES ∧
      impl' = { impl with queue := impl.queue ++ [write], accepted := impl.accepted ++ [write] }) ∨
    (event = .take ∧ impl.worker = .waiting ∧ impl.stopping = true ∧ impl.queue = [] ∧
      impl' = { impl with worker := .exited }) ∨
    (∃ batch left, event = .take ∧ impl.worker = .waiting ∧ impl.queue = batch ++ left ∧
      batch ≠ [] ∧ batch.length ≤ MAX_BATCH ∧
      impl' = { impl with writing := true, queue := left, worker := .taken batch }) ∨
    (∃ batch committed, event = .finish ∧ impl.worker = .finished batch committed ∧
      impl' = { impl with writing := false, worker := .waiting,
                          executed := impl.executed ++ [(batch, committed)] }) := by
  cases event with
  | enqueue write =>
      obtain rfl := Option.some.inj h
      by_cases full : (impl.stopping || impl.queue.length ≥ MAX_PENDING_WRITES) = true
      · rw [enqueue, if_pos full]
        exact .inl ⟨⟨rfl, rfl, rfl, rfl, rfl, rfl, id, id⟩, .still _⟩
      · rw [enqueue, if_neg full]
        simp only [Bool.or_eq_true, decide_eq_true_eq, not_or, Bool.not_eq_true, not_le] at full
        exact .inr (.inl ⟨write, rfl, full.1, full.2, rfl⟩)
  | flushCall caller =>
      cases caller with
      | thread number =>
          simp only [step, Option.ite_none_left_eq_some] at h
          obtain rfl := Option.some.inj h.2
          exact .inl ⟨⟨rfl, rfl, rfl, rfl, rfl, rfl, id, id⟩, .still _⟩
      | destructor =>
          simp only [step, Option.ite_none_right_eq_some] at h
          obtain rfl := Option.some.inj h.2
          exact .inl ⟨⟨rfl, rfl, rfl, rfl, rfl, rfl, id, id⟩, .still _⟩
  | flushReturn caller =>
      simp only [step, Option.ite_none_right_eq_some] at h
      obtain rfl := Option.some.inj h.2
      exact .inl ⟨⟨rfl, rfl, rfl, rfl, rfl, rfl, id, id⟩, .still _⟩
  | stop =>
      simp only [step, Option.ite_none_right_eq_some] at h
      obtain rfl := Option.some.inj h.2
      exact .inl ⟨⟨rfl, rfl, rfl, rfl, rfl, rfl, fun _ => rfl, id⟩, .still _⟩
  | join =>
      simp only [step] at h
      split at h
      · simp only [Option.ite_none_right_eq_some] at h
        obtain rfl := Option.some.inj h.2
        exact .inl ⟨⟨rfl, rfl, rfl, rfl, rfl, rfl, id, id⟩, .still _⟩
      · cases h
  | take =>
      simp only [step] at h
      split at h
      · next waiting =>
          simp only [Option.ite_none_right_eq_some] at h
          obtain ⟨ready, h⟩ := h
          obtain rfl := Option.some.inj h
          by_cases exits : (impl.stopping && impl.queue.isEmpty) = true
          · rw [takeBatch, if_pos exits]
            simp only [Bool.and_eq_true, List.isEmpty_iff] at exits
            exact .inr (.inr (.inl ⟨rfl, waiting, exits.1, exits.2, rfl⟩))
          · rw [takeBatch, if_neg exits]
            have nonempty : impl.queue ≠ [] := by
              rintro empty
              simp [empty] at exits ready
              exact absurd ready (by simp [exits])
            have positive : 0 < impl.queue.length := List.length_pos_iff.mpr nonempty
            refine .inr (.inr (.inr (.inl ⟨_, _, rfl, waiting, (List.take_append_drop _ _).symm,
              ?_, ?_, rfl⟩)))
            · apply List.ne_nil_of_length_pos
              rw [List.length_take]
              have : MAX_BATCH = 64 := rfl
              omega
            · rw [List.length_take]
              omega
      · cases h
  | begin error =>
      simp only [step] at h
      split at h
      · next batch taken =>
          cases error with
          | none =>
              obtain rfl := Option.some.inj h
              exact .inl (Proceeds.goesOn (by rw [asks, taken]; exact .begun batch impl.db))
          | some detail =>
              obtain rfl := Option.some.inj h
              exact .inl (Proceeds.goesOn (by rw [asks, taken]; exact .unbegun batch detail))
      · cases h
  | statement =>
      simp only [step] at h
      split at h
      · next batch write left db executing =>
          split at h
          · next db' ok =>
              obtain rfl := Option.some.inj h
              exact .inl (Proceeds.goesOn
                (by simp only [asks, executing, ok]; exact .wrote batch write left db db'))
          · next detail error =>
              obtain rfl := Option.some.inj h
              exact .inl (Proceeds.goesOn
                (by simp only [asks, executing, error]; exact .refused batch write left db detail))
      · cases h
  | commit error =>
      simp only [step] at h
      split at h
      · next batch db executing =>
          cases error with
          | none =>
              obtain rfl := Option.some.inj h
              exact .inl (Proceeds.goesOn (by rw [asks, executing]; exact .committed batch db))
          | some detail =>
              obtain rfl := Option.some.inj h
              exact .inl (Proceeds.goesOn
                (by rw [asks, executing]; exact .uncommitted batch db detail))
      · cases h
  | setError =>
      simp only [step] at h
      split at h
      · next batch detail failed =>
          obtain rfl := Option.some.inj h
          exact .inl (Proceeds.goesOn (by rw [asks, failed]; exact .rolledBack batch detail))
      · cases h
  | finish =>
      simp only [step] at h
      split at h
      · next batch committed finished =>
          obtain rfl := Option.some.inj h
          exact .inr (.inr (.inr (.inr ⟨batch, committed, rfl, finished, rfl⟩)))
      · cases h

/-- Where the accepted writes are. -/
structure Placed (impl : Impl W D) : Prop where
  accepted : impl.accepted = impl.executedWrites ++ impl.worker.batch ++ impl.queue
  writing : impl.writing = impl.worker.busy
  bound : impl.queue.length ≤ MAX_PENDING_WRITES
  batch : impl.worker.busy = true → impl.worker.batch ≠ []
  batchSize : impl.worker.batch.length ≤ MAX_BATCH
  executed : ∀ item ∈ impl.executed, item.1 ≠ [] ∧ item.1.length ≤ MAX_BATCH
  exited : impl.worker = .exited → impl.stopping = true ∧ impl.queue = []

theorem start_placed (db : D) : Placed (start db : Impl W D) :=
  ⟨rfl, rfl, Nat.zero_le _, nofun, Nat.zero_le _, nofun, nofun⟩

theorem step_placed (h : step execute impl event = some impl') (hp : Placed impl) :
    Placed impl' := by
  rcases step_cases h with ⟨same, -⟩ | ⟨write, -, running, room, rfl⟩ |
    ⟨-, waiting, stopping, empty, rfl⟩ | ⟨batch, left, -, waiting, queue, nonempty, size, rfl⟩ |
    ⟨batch, committed, -, finished, rfl⟩
  · refine ⟨?_, ?_, ?_, ?_, ?_, ?_, fun exited => ?_⟩
    · rw [same.accepted, same.queue, same.batch, executedWrites, same.executed]
      exact hp.accepted
    · rw [same.writing, same.busy]
      exact hp.writing
    · rw [same.queue]
      exact hp.bound
    · rw [same.busy, same.batch]
      exact hp.batch
    · rw [same.batch]
      exact hp.batchSize
    · rw [same.executed]
      exact hp.executed
    · obtain ⟨stopping, empty⟩ := hp.exited (same.exited exited)
      exact ⟨same.stopping stopping, same.queue.trans empty⟩
  · refine ⟨?_, hp.writing, ?_, hp.batch, hp.batchSize, hp.executed, fun exited => ?_⟩
    · simp only [hp.accepted, executedWrites, List.append_assoc]
    · rw [List.length_append]
      exact room
    · have stopping := (hp.exited exited).1
      rw [running] at stopping
      cases stopping
  · have accepted := hp.accepted
    rw [waiting] at accepted
    have idle : impl.writing = false := by rw [hp.writing, waiting]; rfl
    exact ⟨accepted, idle, hp.bound, nofun, Nat.zero_le _, hp.executed, fun _ => ⟨stopping, empty⟩⟩
  · have accepted := hp.accepted
    have bound := hp.bound
    rw [queue] at accepted bound
    rw [waiting] at accepted
    refine ⟨?_, rfl, ?_, fun _ => nonempty, size, hp.executed, nofun⟩
    · simpa [Worker.batch, executedWrites] using accepted
    · rw [List.length_append] at bound
      exact le_of_add_le_right bound
  · have accepted := hp.accepted
    have done := hp.batch
    have size := hp.batchSize
    rw [finished] at accepted done size
    refine ⟨?_, rfl, hp.bound, nofun, Nat.zero_le _, ?_, nofun⟩
    · simpa [Worker.batch, executedWrites] using accepted
    · intro item h
      rcases List.mem_append.mp h with h | h
      · exact hp.executed item h
      · obtain rfl := List.mem_singleton.mp h
        exact ⟨done rfl, size⟩

theorem run_placed {db : D} {events : List (QueueEvent W)}
    (h : Run.run (step execute) (start db) events = some impl) : Placed impl :=
  Run.run_invariant (fun _ _ _ hp hs => step_placed hs hp) h (start_placed db)

/-- Nothing that has been accepted is forgotten. -/
theorem run_accepted {events : List (QueueEvent W)}
    (h : Run.run (step execute) impl events = some impl') : impl.accepted <+: impl'.accepted := by
  have each (a : Impl W D) (event : QueueEvent W) (b : Impl W D)
      (hs : step execute a event = some b) : a.accepted <+: b.accepted := by
    rcases step_cases hs with ⟨same, -⟩ | ⟨write, -, -, -, rfl⟩ | ⟨-, -, -, -, rfl⟩ |
      ⟨-, -, -, -, -, -, -, rfl⟩ | ⟨-, -, -, -, rfl⟩
    · exact same.accepted ▸ List.prefix_rfl
    · exact List.prefix_append _ _
    · exact List.prefix_rfl
    · exact List.prefix_rfl
    · exact List.prefix_rfl
  exact @Run.run_relation _ _ (step execute) (fun a b => a.accepted <+: b.accepted)
    (fun _ => List.prefix_rfl) (fun _ _ _ => List.IsPrefix.trans) each _ _ _ h

/-- When a flush returns, all that has been accepted has been executed. -/
theorem flushReturn_executed {caller : Caller} (hp : Placed impl)
    (h : step execute impl (.flushReturn caller) = some impl') :
    impl.accepted = impl.executedWrites ∧ impl' = impl.returnFlush caller := by
  simp only [step, Option.ite_none_right_eq_some, Bool.and_eq_true, drained,
    List.isEmpty_iff, Bool.not_eq_true'] at h
  obtain ⟨⟨-, empty, quiet⟩, h⟩ := h
  have idle : impl.worker.batch = [] := by
    have free := hp.writing.symm.trans quiet
    cases worker : impl.worker with
    | waiting | exited => rfl
    | taken | executing | failed | finished =>
        rw [worker] at free
        cases free
  have accepted := hp.accepted
  rw [idle, empty, List.append_nil, List.append_nil] at accepted
  exact ⟨accepted, (Option.some.inj h).symm⟩

end Steps

section Transcript

variable {W D : Type} {execute : D → W → Except Bytes D} {impl impl' : Impl W D}
  {event : QueueEvent W} {log : List (Sql W)}

open Impl

/-- What is accepted is what `enqueue` returned true for. -/
theorem step_answers (h : step execute impl event = some impl') :
    impl'.accepted = impl.accepted ++ impl.answers event := by
  by_cases enqueues : ∃ write, event = .enqueue write
  · obtain ⟨write, rfl⟩ := enqueues
    obtain rfl := Option.some.inj h
    unfold answers enqueue
    split <;> simp
  · have silent : impl.answers event = [] := by
      cases event with
      | enqueue write => exact absurd ⟨write, rfl⟩ enqueues
      | _ => rfl
    rw [silent, List.append_nil]
    rcases step_cases h with ⟨same, -⟩ | ⟨write, enqueued, -⟩ | ⟨-, -, -, -, rfl⟩ |
      ⟨-, -, -, -, -, -, -, rfl⟩ | ⟨-, -, -, -, rfl⟩
    · exact same.accepted
    · exact absurd ⟨write, enqueued⟩ enqueues
    · rfl
    · rfl
    · rfl

theorem step_settles (h : step execute impl event = some impl') :
    impl'.executed = impl.executed ++ impl.settles event := by
  by_cases finishes : event = .finish
  · subst finishes
    simp only [step] at h
    split at h
    · next batch committed finished =>
        obtain rfl := Option.some.inj h
        simp only [settles, finished]
    · cases h
  · have silent : impl.settles event = [] := by
      cases event with
      | finish => exact absurd rfl finishes
      | _ => rfl
    rw [silent, List.append_nil]
    rcases step_cases h with ⟨same, -⟩ | ⟨-, -, -, -, rfl⟩ | ⟨-, -, -, -, rfl⟩ |
      ⟨-, -, -, -, -, -, -, rfl⟩ | ⟨-, -, finished, -, -⟩
    · exact same.executed
    · rfl
    · rfl
    · rfl
    · exact absurd finished finishes

theorem run_answers {db : D} {events : List (QueueEvent W)}
    (h : Run.run (step execute) (start db) events = some impl) :
    impl.accepted = Run.outputs (step execute) answers (start db) events := by
  have keeps (a : Impl W D) (done : List W) (event : QueueEvent W) (b : Impl W D)
      (same : a.accepted = done) (stepped : step execute a event = some b) :
      b.accepted = done ++ a.answers event := same ▸ step_answers stepped
  exact Run.run_outputs keeps h rfl

theorem run_settles {db : D} {events : List (QueueEvent W)}
    (h : Run.run (step execute) (start db) events = some impl) :
    impl.executed = Run.outputs (step execute) settles (start db) events := by
  have keeps (a : Impl W D) (done : List (List W × Bool)) (event : QueueEvent W) (b : Impl W D)
      (same : a.executed = done) (stepped : step execute a event = some b) :
      b.executed = done ++ a.settles event := same ▸ step_settles stepped
  exact Run.run_outputs keeps h rfl

/-- What has been put to the connection for the batch in progress. -/
def Worker.Underway : Worker W D → List (Sql W) → Prop
  | .executing batch left _, log =>
      ∃ done, batch = done ++ left ∧ log = .begin true :: done.map (.write · true)
  | .failed batch _, log => Ran (batch, false) (log ++ [.rollback])
  | .finished batch committed, log => Ran (batch, committed) log
  | _, log => log = []

/-- The connection has been asked for the executed batches, one after the other, and for what
is done of the one in progress. -/
def Logged (executed : List (List W × Bool)) (worker : Worker W D) (log : List (Sql W)) : Prop :=
  ∃ transcripts rest, List.Forall₂ Ran executed transcripts ∧ worker.Underway rest ∧
    log = transcripts.flatten ++ rest

/-- The worker goes on with its batch. -/
theorem Logged.goOn {executed : List (List W × Bool)} {worker worker' : Worker W D}
    (logged : Logged executed worker log) {asked : List (Sql W)}
    (further : ∀ rest, worker.Underway rest → worker'.Underway (rest ++ asked)) :
    Logged executed worker' (log ++ asked) := by
  obtain ⟨transcripts, rest, ran, underway, rfl⟩ := logged
  exact ⟨transcripts, rest ++ asked, ran, further rest underway, List.append_assoc _ _ _⟩

theorem Proceeds.underway {worker worker' : Worker W D} {asked rest : List (Sql W)}
    (proceeds : Proceeds worker asked worker') (underway : worker.Underway rest) :
    worker'.Underway (rest ++ asked) := by
  cases proceeds with
  | still => rwa [List.append_nil]
  | begun batch db =>
      rw [show rest = [] from underway]
      exact ⟨[], rfl, rfl⟩
  | unbegun batch detail =>
      rw [show rest = [] from underway]
      exact .unbegun batch
  | wrote batch write left db db' =>
      obtain ⟨done, rfl, rfl⟩ := underway
      exact ⟨done ++ [write], by simp, by simp⟩
  | refused batch write left db detail =>
      obtain ⟨done, rfl, rfl⟩ := underway
      have ran := Ran.refused done write left
      simpa [Worker.Underway] using ran
  | committed batch db =>
      obtain ⟨done, rfl, rfl⟩ := underway
      have ran := Ran.committed done
      simpa [Worker.Underway] using ran
  | uncommitted batch db detail =>
      obtain ⟨done, rfl, rfl⟩ := underway
      have ran := Ran.uncommitted done
      simpa [Worker.Underway] using ran
  | rolledBack batch detail => exact underway

theorem step_logged (h : step execute impl event = some impl')
    (logged : Logged impl.executed impl.worker log) :
    Logged impl'.executed impl'.worker (log ++ impl.asks execute event) := by
  rcases step_cases h with ⟨same, proceeds⟩ | ⟨write, rfl, -, -, rfl⟩ | ⟨rfl, waiting, -, -, rfl⟩ |
    ⟨batch, left, rfl, waiting, -, -, -, rfl⟩ | ⟨batch, committed, rfl, finished, rfl⟩
  · rw [same.executed]
    exact logged.goOn fun _ => proceeds.underway
  · exact logged.goOn fun _ => (Proceeds.still _).underway
  · rw [waiting] at logged
    exact logged.goOn fun rest underway => by rw [underway]; rfl
  · rw [waiting] at logged
    exact logged.goOn fun rest underway => by rw [underway]; rfl
  · rw [finished] at logged
    obtain ⟨transcripts, rest, ran, underway, rfl⟩ := logged
    refine ⟨transcripts ++ [rest], [], ?_, rfl, by simp [asks]⟩
    exact List.rel_append ran (.cons underway .nil)

theorem run_logged {db : D} {events : List (QueueEvent W)}
    (h : Run.run (step execute) (start db) events = some impl) :
    Logged impl.executed impl.worker
      (Run.outputs (step execute) (asks execute) (start db) events) := by
  have keeps (a : Impl W D) (log : List (Sql W)) (event : QueueEvent W) (b : Impl W D)
      (logged : Logged a.executed a.worker log) (stepped : step execute a event = some b) :
      Logged b.executed b.worker (log ++ a.asks execute event) := step_logged stepped logged
  have fresh : Logged (start db : Impl W D).executed (start db : Impl W D).worker [] :=
    ⟨[], [], .nil, rfl, rfl⟩
  exact Run.run_outputs keeps h fresh

end Transcript

/-- In every run the writes that `enqueue` returned true for are those of the batches that the
worker has put to its connection, committed or rolled back, then those of the batch it holds,
then the queue, in the order in which they were accepted; and a flush returns only when all
that had been accepted before it was called has been executed. -/
theorem run_writes {W D : Type} (execute : D → W → Except Bytes D) (db : D)
    (events : List (QueueEvent W)) (impl : Impl W D)
    (h : Run.run (Impl.step execute) (Impl.start db) events = some impl) :
    let accepted := Run.outputs (Impl.step execute) Impl.answers (Impl.start db)
    let executed := Run.outputs (Impl.step execute) Impl.settles (Impl.start db)
    let log := Run.outputs (Impl.step execute) (Impl.asks execute) (Impl.start db)
    Logged (executed events) impl.worker (log events) ∧
      accepted events = (executed events).flatMap Prod.fst ++ impl.worker.batch ++ impl.queue ∧
      (impl.writing = true ↔ impl.worker.batch ≠ []) ∧
      impl.queue.length ≤ MAX_PENDING_WRITES ∧
      (impl.worker = .exited → impl.queue = []) ∧
      ∀ (caller : Caller) (during : List (QueueEvent W)) (after : Impl W D),
        let flushed := events ++ .flushCall caller :: during ++ [.flushReturn caller]
        Run.run (Impl.step execute) (Impl.start db) flushed = some after →
        accepted events <+: (executed flushed).flatMap Prod.fst := by
  intro accepted executed log
  have placed := run_placed h
  have logged := run_logged h
  rw [run_settles h] at logged
  have cut := placed.accepted
  rw [Impl.executedWrites, run_answers h, run_settles h, ← List.flatMap_def] at cut
  refine ⟨logged, cut, ?_, placed.bound, fun exited => (placed.exited exited).2, ?_⟩
  · rw [placed.writing]
    constructor
    · exact placed.batch
    · intro nonempty
      cases worker : impl.worker with
      | waiting | exited =>
          rw [worker] at nonempty
          exact absurd rfl nonempty
      | taken | executing | failed | finished => rfl
  · intro caller during after flushed hrun
    obtain ⟨last, hlast, hreturn⟩ := Run.run_snoc.mp hrun
    obtain ⟨middle, first, rest⟩ := Run.run_append.mp hlast
    obtain rfl := Option.some.inj (h.symm.trans first)
    obtain ⟨all, same⟩ := flushReturn_executed (run_placed hlast) hreturn
    have kept := run_accepted rest
    have done : after.executedWrites = last.executedWrites := by rw [same]; rfl
    rw [all, ← done, Impl.executedWrites, run_settles hrun, ← List.flatMap_def,
      run_answers h] at kept
    exact kept

/-- A database with nothing but the lobby. -/
def lobbyDatabase : Database where
  rooms := [{ id := 1, name := ascii "lobby", topic := ascii "Welcome to the lobby",
              ownerNickname := [], createdAt := 0 }]
  identities := []
  bans := []
  messages := []
  roomIds := by decide
  roomNames := by decide
  nicknames := by decide
  banned := by decide
  messageIds := by decide
  messageRooms := by decide

/-- A message of an unknown room, and an identity. -/
def unluckyWrites : List Write :=
  [.storeMessage { id := ascii "m", roomId := 9, nickname := [], body := [], sentAt := 1 },
    .storeIdentity (ascii "ann") (ascii "key")]

/-- Both are enqueued before the worker takes its first batch. -/
def unluckyEvents : List (QueueEvent Write) :=
  unluckyWrites.map .enqueue ++
    [.take, .begin none, .statement, .setError, .finish, .flushCall (.thread 0)]

theorem unlucky_run : ∃ impl impl' : Impl Write Database,
    Run.run (Impl.step Database.executeWrite) (Impl.start lobbyDatabase) unluckyEvents = some impl ∧
      Impl.step Database.executeWrite impl (.flushReturn (.thread 0)) = some impl' ∧
      impl'.accepted = unluckyWrites ∧ impl'.db.identities = [] := by
  exact ⟨_, _, rfl, rfl, rfl, rfl⟩

/-- Both writes are accepted, the flush is called, and its batch is rolled back. -/
theorem run_writes_unlucky :
    let step := Impl.step Database.executeWrite
    let start : Impl Write Database := Impl.start lobbyDatabase
    let flushed := unluckyWrites.map .enqueue ++ .flushCall (.thread 0) ::
      [.take, .begin none, .statement, .setError, .finish] ++ [.flushReturn (.thread 0)]
    Run.outputs step Impl.answers start (unluckyWrites.map .enqueue) = unluckyWrites ∧
      Run.outputs step Impl.settles start flushed = [(unluckyWrites, false)] ∧
      unluckyWrites <+: (Run.outputs step Impl.settles start flushed).flatMap Prod.fst :=
  ⟨rfl, rfl, (run_writes Database.executeWrite lobbyDatabase (unluckyWrites.map .enqueue) _
    rfl).2.2.2.2.2 (.thread 0) _ _ rfl⟩

end Chatbox.Storage
