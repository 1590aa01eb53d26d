import Chatbox.Storage.WriteQueue

/-!
What the writes do to the database. Each batch is a transaction: it takes effect as a
whole or not at all, and a write that fails takes the others of its batch with it.
-/

namespace Chatbox.Storage

open Text Protocol

section Replay

variable {W D : Type} (execute : D → W → Except Bytes D)

/-- The statements of a batch one after the other, up to the first that fails. -/
def applyBatch (db : D) (batch : List W) : Except Bytes D := batch.foldlM execute db

/-- Batch after batch, those with a failing statement without effect. -/
def replay (db : D) (batches : List (List W)) : D :=
  batches.foldl
    (fun db batch =>
      match applyBatch execute db batch with
      | .ok changed => changed
      | .error _ => db)
    db

/-- Write after write, each on its own. -/
def applyEach (db : D) (writes : List W) : D := replay execute db (writes.map fun write => [write])

variable {execute} {db changed : D} {batch : List W} {batches : List (List W)} {detail : Bytes}

theorem replay_ok (h : applyBatch execute (replay execute db batches) batch = .ok changed) :
    replay execute db (batches ++ [batch]) = changed := by
  rw [replay, List.foldl_append]
  change (match applyBatch execute (replay execute db batches) batch with
    | .ok changed => changed
    | .error _ => replay execute db batches) = changed
  rw [h]

theorem replay_error (h : applyBatch execute (replay execute db batches) batch = .error detail) :
    replay execute db (batches ++ [batch]) = replay execute db batches := by
  conv_lhs => rw [replay, List.foldl_append]
  change (match applyBatch execute (replay execute db batches) batch with
    | .ok changed => changed
    | .error _ => replay execute db batches) = _
  rw [h]

theorem applyBatch_append {done left : List W} (h : applyBatch execute db done = .ok changed) :
    applyBatch execute db (done ++ left) = applyBatch execute changed left := by
  rw [applyBatch, applyBatch, List.foldlM_append, ← applyBatch, h]
  rfl

end Replay

section Runs

variable {W D : Type} {execute : D → W → Except Bytes D} {db : D} {impl impl' : Impl W D}
  {event : QueueEvent W}

open Impl

/-- BEGIN and COMMIT do not fail. -/
def QueueEvent.reliable : QueueEvent W → Bool
  | .begin error => error.isNone
  | .commit error => error.isNone
  | _ => true

/-- What the worker has done of its batch, which it took from the state `db`. -/
def Progress (execute : D → W → Except Bytes D) (db last : D) : Worker W D → Prop
  | .executing batch left changed =>
      last = db ∧ ∃ done, batch = done ++ left ∧ applyBatch execute db done = .ok changed
  | .failed batch _ => last = db ∧ ∃ detail, applyBatch execute db batch = .error detail
  | .finished batch committed =>
      if committed then applyBatch execute db batch = .ok last
      else last = db ∧ ∃ detail, applyBatch execute db batch = .error detail
  | _ => last = db

/-- The database holds what the executed batches have left, and what the worker's own
batch has done to it. -/
def Replayed (execute : D → W → Except Bytes D) (db : D) (impl : Impl W D) : Prop :=
  Progress execute (replay execute db (impl.executed.map Prod.fst)) impl.db impl.worker

theorem step_replayed (reliable : event.reliable = true)
    (h : step execute impl event = some impl') (hr : Replayed execute db impl) :
    Replayed execute db impl' := by
  cases event with
  | enqueue write =>
      obtain rfl := Option.some.inj h
      unfold enqueue
      split
      · exact hr
      · exact hr
  | flushCall caller =>
      cases caller with
      | thread number =>
          simp only [step, Option.ite_none_left_eq_some] at h
          obtain rfl := Option.some.inj h.2
          exact hr
      | destructor =>
          simp only [step, Option.ite_none_right_eq_some] at h
          obtain rfl := Option.some.inj h.2
          exact hr
  | flushReturn caller =>
      simp only [step, Option.ite_none_right_eq_some] at h
      obtain rfl := Option.some.inj h.2
      exact hr
  | stop =>
      simp only [step, Option.ite_none_right_eq_some] at h
      obtain rfl := Option.some.inj h.2
      exact hr
  | join =>
      simp only [step] at h
      split at h
      · simp only [Option.ite_none_right_eq_some] at h
        obtain rfl := Option.some.inj h.2
        exact hr
      · cases h
  | take =>
      simp only [step] at h
      split at h
      · next waiting =>
          simp only [Option.ite_none_right_eq_some] at h
          obtain rfl := Option.some.inj h.2
          rw [Replayed, waiting] at hr
          unfold takeBatch
          split
          · exact hr
          · exact hr
      · cases h
  | begin error =>
      simp only [step] at h
      split at h
      · next batch taken =>
          rw [Replayed, taken] at hr
          cases error with
          | none =>
              obtain rfl := Option.some.inj h
              refine ⟨hr, [], rfl, ?_⟩
              rw [show impl.db = _ from hr]
              rfl
          | some detail => cases reliable
      · cases h
  | statement =>
      simp only [step] at h
      split at h
      · next batch write left changed executing =>
          rw [Replayed, executing] at hr
          obtain ⟨same, done, rfl, applied⟩ := hr
          have next := @applyBatch_append _ _ execute _ _ done (write :: left) applied
          split at h
          · next changed' ok =>
              obtain rfl := Option.some.inj h
              refine ⟨same, done ++ [write], by simp, ?_⟩
              rw [applyBatch_append applied, applyBatch, List.foldlM_cons, ok]
              rfl
          · next detail error =>
              obtain rfl := Option.some.inj h
              refine ⟨same, detail, ?_⟩
              rw [next, applyBatch, List.foldlM_cons, error]
              rfl
      · cases h
  | commit error =>
      simp only [step] at h
      split at h
      · next batch changed executing =>
          rw [Replayed, executing] at hr
          obtain ⟨-, done, rfl, applied⟩ := hr
          cases error with
          | none =>
              obtain rfl := Option.some.inj h
              rw [← List.append_nil done] at applied
              exact applied
          | some detail => cases reliable
      · cases h
  | setError =>
      simp only [step] at h
      split at h
      · next batch detail failed =>
          rw [Replayed, failed] at hr
          obtain rfl := Option.some.inj h
          exact hr
      · cases h
  | finish =>
      simp only [step] at h
      split at h
      · next batch committed finished =>
          rw [Replayed, finished] at hr
          obtain rfl := Option.some.inj h
          change impl.db = _
          rw [List.map_append]
          cases committed with
          | true => exact (replay_ok hr).symm
          | false =>
              obtain ⟨same, detail, failed⟩ := hr
              exact same.trans (replay_error failed).symm
      · cases h

end Runs

/-- When a flush returns, the accepted writes have been cut, in their order, into
batches, and the database is what the batches have left of it: each without a failing
statement has taken effect, each with one has not. -/
theorem flush_replay {W D : Type} (execute : D → W → Except Bytes D) (db : D)
    (events : List (QueueEvent W)) (reliable : ∀ event ∈ events, event.reliable = true)
    (impl impl' : Impl W D) (caller : Caller)
    (h : Run.run (Impl.step execute) (Impl.start db) events = some impl)
    (returns : Impl.step execute impl (.flushReturn caller) = some impl') :
    ∃ batches : List (List W), batches.flatten = impl'.accepted ∧
      (∀ batch ∈ batches, batch ≠ [] ∧ batch.length ≤ MAX_BATCH) ∧
      impl'.db = replay execute db batches := by
  have placed := run_placed h
  obtain ⟨all, rfl⟩ := flushReturn_executed placed returns
  have replayed : Replayed execute db impl := by
    have keeps (a : Impl W D) (event : QueueEvent W) (b : Impl W D) (hr : Replayed execute db a)
        (reliable : event.reliable = true) (hs : Impl.step execute a event = some b) :
        Replayed execute db b := step_replayed reliable hs hr
    exact Run.run_invariant_of keeps (Run.always_of_forall reliable) h rfl
  refine ⟨impl.executed.map Prod.fst, all.symm, ?_, ?_⟩
  · intro batch hbatch
    obtain ⟨item, hitem, rfl⟩ := List.mem_map.mp hbatch
    exact placed.executed item hitem
  · simp only [Impl.step, Option.ite_none_right_eq_some, Bool.and_eq_true, Impl.drained,
      Bool.not_eq_true'] at returns
    have free := placed.writing.symm.trans returns.1.2.2
    rw [Replayed] at replayed
    cases worker : impl.worker with
    | waiting | exited =>
        rw [worker] at replayed
        exact replayed
    | taken | executing | failed | finished =>
        rw [worker] at free
        cases free

theorem unlucky_reliable : ∀ event ∈ unluckyEvents, event.reliable = true := by
  simp [unluckyEvents, unluckyWrites, QueueEvent.reliable]

/-- The identity is lost with the message, though its own statement would succeed. -/
theorem not_flush_applyEach :
    ¬ ∀ (events : List (QueueEvent Write)) (impl impl' : Impl Write Database) (caller : Caller),
      (∀ event ∈ events, event.reliable = true) →
      Run.run (Impl.step Database.executeWrite) (Impl.start lobbyDatabase) events = some impl →
      Impl.step Database.executeWrite impl (.flushReturn caller) = some impl' →
      impl'.db = applyEach Database.executeWrite lobbyDatabase impl'.accepted := by
  intro each
  obtain ⟨impl, impl', hrun, returns, accepted, lost⟩ := unlucky_run
  have kept := each unluckyEvents impl impl' (.thread 0) unlucky_reliable hrun returns
  rw [accepted] at kept
  rw [kept] at lost
  exact absurd lost (by decide)

theorem flush_replay_unlucky : ∃ impl' : Impl Write Database,
    impl'.accepted = unluckyWrites ∧ impl'.db.identities = [] ∧
      ∃ batches : List (List Write), batches.flatten = impl'.accepted ∧
        (∀ batch ∈ batches, batch ≠ [] ∧ batch.length ≤ MAX_BATCH) ∧
        impl'.db = replay Database.executeWrite lobbyDatabase batches := by
  obtain ⟨impl, impl', hrun, returns, accepted, lost⟩ := unlucky_run
  exact ⟨impl', accepted, lost, flush_replay Database.executeWrite lobbyDatabase unluckyEvents
    unlucky_reliable impl impl' (.thread 0) hrun returns⟩

end Chatbox.Storage
