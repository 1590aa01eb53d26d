import Mathlib.Data.List.Basic
import Mathlib.Logic.Function.Basic

/-!
Values that are put under keys for a time. The history of puts and removals tells what
is there: under a key the value that was put last, if no removal has followed and it is
still alive. A store has every value that is alive, and drops the others when it likes.
-/

namespace Lease

variable {κ β : Type}

inductive Operation (κ β : Type) where
  | put (key : κ) (value : β)
  | remove (key : κ)

namespace Operation

def key : Operation κ β → κ
  | .put key _ | .remove key => key

def value : Operation κ β → Option β
  | .put _ value => some value
  | .remove _ => none

end Operation

variable [DecidableEq κ]

/-- What the last operation on the key has left. -/
def latest (history : List (Operation κ β)) (key : κ) : Option β :=
  (history.filter fun operation => operation.key = key).getLast?.bind Operation.value

theorem latest_append (history : List (Operation κ β)) (operation : Operation κ β) (key : κ) :
    latest (history ++ [operation]) key =
      if operation.key = key then operation.value else latest history key := by
  rw [latest, List.filter_append, List.filter_singleton]
  by_cases own : operation.key = key
  · simp [own]
  · simp [own, latest]

/-- The store has what is latest and alive, and nothing that is not latest. -/
structure Keeps (live : β → Bool) (history : List (Operation κ β)) (store : κ → Option β) :
    Prop where
  sound : ∀ key value, store key = some value → latest history key = some value
  complete : ∀ key value, latest history key = some value → live value = true →
    store key = some value

namespace Keeps

variable {live live' : β → Bool} {history : List (Operation κ β)} {store : κ → Option β}

theorem empty (live : β → Bool) : Keeps live [] fun _ : κ => none :=
  ⟨nofun, nofun⟩

/-- What has died stays dead. -/
theorem later (keeps : Keeps live history store)
    (dies : ∀ value, live' value = true → live value = true) : Keeps live' history store :=
  ⟨keeps.sound, fun key value last alive => keeps.complete key value last (dies value alive)⟩

theorem prune (keeps : Keeps live history store) :
    Keeps live history fun key => (store key).filter live := by
  refine ⟨?_, ?_⟩
  · intro key value kept
    exact keeps.sound key value (Option.filter_eq_some_iff.mp kept).1
  · intro key value last alive
    exact Option.filter_eq_some_iff.mpr ⟨keeps.complete key value last alive, alive⟩

/-- An operation on the store is the operation on the history. -/
theorem append (keeps : Keeps live history store) (operation : Operation κ β) :
    Keeps live (history ++ [operation])
      (Function.update store operation.key operation.value) := by
  refine ⟨?_, ?_⟩
  · intro key value kept
    rw [latest_append]
    by_cases own : operation.key = key
    · subst own
      rw [if_pos rfl]
      rwa [Function.update_self] at kept
    · rw [if_neg own]
      rw [Function.update_of_ne (Ne.symm own)] at kept
      exact keeps.sound key value kept
  · intro key value last alive
    rw [latest_append] at last
    by_cases own : operation.key = key
    · subst own
      rw [if_pos rfl] at last
      rwa [Function.update_self]
    · rw [if_neg own] at last
      rw [Function.update_of_ne (Ne.symm own)]
      exact keeps.complete key value last alive

end Keeps

end Lease
