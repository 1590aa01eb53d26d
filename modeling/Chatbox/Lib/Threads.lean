import Mathlib.Logic.Function.Basic
import Chatbox.Lib.Run

/-!
Threads over a shared state. A thread is the list of the atomic actions it still has
to do; an action changes the shared state and may put further actions before the rest
of its thread. A schedule names the thread of each step, so that a run of the steps is
an interleaving.
-/

structure Threads (ι σ α : Type) where
  shared : σ
  todo : ι → List α

namespace Threads

variable {ι σ α : Type} (perform : α → σ → σ × List α)

/-- The state after the thread's next action. -/
def after [DecidableEq ι] (state : Threads ι σ α) (i : ι) (action : α) (rest : List α) :
    Threads ι σ α :=
  let (shared, more) := perform action state.shared
  { shared, todo := Function.update state.todo i (more ++ rest) }

def step [DecidableEq ι] (state : Threads ι σ α) (i : ι) : Option (Threads ι σ α) :=
  match state.todo i with
  | [] => none
  | action :: rest => some (after perform state i action rest)

def Finished (state : Threads ι σ α) : Prop := ∀ i, state.todo i = []

variable {perform} {state state' : Threads ι σ α} {i : ι}

section After

variable [DecidableEq ι] {j : ι} {action other : α} {rest : List α}

theorem step_cases (h : step perform state i = some state') :
    ∃ action rest, state.todo i = action :: rest ∧ state' = after perform state i action rest := by
  cases todo : state.todo i with
  | nil => simp [step, todo] at h
  | cons action rest =>
      simp only [step, todo, Option.some.injEq] at h
      exact ⟨action, rest, rfl, h.symm⟩

theorem after_shared :
    (after perform state i action rest).shared = (perform action state.shared).1 := rfl

theorem after_todo_self :
    (after perform state i action rest).todo i = (perform action state.shared).2 ++ rest :=
  Function.update_self i _ state.todo

theorem after_todo_of_ne (h : j ≠ i) :
    (after perform state i action rest).todo j = state.todo j :=
  Function.update_of_ne h _ state.todo

/-- An action that is not the one performed is still to be done. -/
theorem mem_after_of_ne (head : state.todo i = action :: rest) (h : other ∈ state.todo j)
    (ne : other ≠ action) : other ∈ (after perform state i action rest).todo j := by
  by_cases same : j = i
  · subst same
    rw [head] at h
    rw [after_todo_self]
    exact List.mem_append_right _ ((List.mem_cons.mp h).resolve_left ne)
  · rwa [after_todo_of_ne same]

/-- What the performed action puts before the rest is to be done. -/
theorem mem_after_of_more (h : other ∈ (perform action state.shared).2) :
    other ∈ (after perform state i action rest).todo i := by
  rw [after_todo_self]
  exact List.mem_append_left rest h

/-- What is to be done after a step was so before, or the step has put it there. -/
theorem mem_of_mem_after (head : state.todo i = action :: rest)
    (h : other ∈ (after perform state i action rest).todo j) :
    other ∈ state.todo j ∨ j = i ∧ other ∈ (perform action state.shared).2 := by
  by_cases same : j = i
  · subst same
    rw [after_todo_self] at h
    rw [head]
    exact (List.mem_append.mp h).symm.imp (List.mem_cons_of_mem action) fun more => ⟨rfl, more⟩
  · rw [after_todo_of_ne same] at h
    exact .inl h

end After

section Alone

variable (perform) in
/-- The actions, done by one thread while no other runs, lead from one shared state to
another. -/
inductive Alone : List α → σ → σ → Prop
  | done (shared : σ) : Alone [] shared shared
  | next {action : α} {rest : List α} {shared shared' : σ}
      (h : Alone ((perform action shared).2 ++ rest) (perform action shared).1 shared') :
      Alone (action :: rest) shared shared'

namespace Alone

theorem append {actions more : List α} {a b c : σ} (hab : Alone perform actions a b)
    (hbc : Alone perform more b c) : Alone perform (actions ++ more) a c := by
  induction hab with
  | done shared => exact hbc
  | next _ ih =>
      apply Alone.next
      have rest := ih hbc
      rwa [List.append_assoc] at rest

/-- An action and what it puts before the rest. -/
theorem cons {action : α} {actions : List α} {a b c : σ}
    (hab : Alone perform (perform action a).2 (perform action a).1 b)
    (hbc : Alone perform actions b c) : Alone perform (action :: actions) a c :=
  .next (hab.append hbc)

theorem single {action : α} {a b : σ}
    (hab : Alone perform (perform action a).2 (perform action a).1 b) :
    Alone perform [action] a b :=
  hab.cons (.done b)

/-- An action that puts nothing before the rest. -/
theorem act {action : α} {actions : List α} {a b : σ} (more : (perform action a).2 = [])
    (h : Alone perform actions (perform action a).1 b) : Alone perform (action :: actions) a b := by
  apply Alone.next
  rwa [more, List.nil_append]

/-- Such a thread is a run in which only it is scheduled. -/
theorem run [DecidableEq ι] {actions : List α} {a b : σ} (h : Alone perform actions a b)
    (todo : ι → List α) (i : ι) :
    ∃ n, Run.run (step perform) ⟨a, Function.update todo i actions⟩ (List.replicate n i) =
      some ⟨b, Function.update todo i []⟩ := by
  induction h with
  | done shared => exact ⟨0, rfl⟩
  | @next action rest shared shared' _ ih =>
      obtain ⟨n, hn⟩ := ih
      refine ⟨n + 1, ?_⟩
      rw [List.replicate_succ, Run.run_cons]
      refine ⟨_, ?_, hn⟩
      simp [step, after]

end Alone

end Alone

end Threads
