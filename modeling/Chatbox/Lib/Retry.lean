import Mathlib.Logic.Function.Basic
import Chatbox.Lib.Log
import Chatbox.Lib.Run

/-!
A retry loop on a shared cell. A call has an input. It loads the cell, computes a new value
from the input and what it has observed, and exchanges the cell's value for it if that is
still what was observed; otherwise, and sometimes for no reason, it goes on with what the
failed exchange has observed. A load and a failed exchange may observe any value that the
cell has had. Whatever the interleaving, the calls change the cell one after the other, each
as if it were alone.
-/

namespace Retry

variable {α ρ : Type}

/-- A call before it starts, before it loads the cell, before an exchange and at its end. -/
inductive Call (α ρ : Type) where
  | idle
  | loading (input : ρ)
  | trying (input : ρ) (observed : α)
  | finished (value : α)
deriving DecidableEq, Repr

inductive Note (α ρ : Type) where
  | started (call : Nat) (input : ρ)
  | finished (call : Nat) (input : ρ) (value : α)
deriving DecidableEq, Repr

/-- The calls on a cell, with the values that it has had. -/
structure Calls (α ρ : Type) where
  cell : α
  written : List α := [cell]
  call : Nat → Call α ρ := fun _ => .idle
  log : List (Note α ρ) := []

/-- A step of a call. `fail` is an exchange that another call has anticipated, or one that
fails spuriously. -/
inductive Event (α ρ : Type) where
  | start (call : Nat) (input : ρ)
  | load (call : Nat) (observed : α)
  | exchange (call : Nat)
  | fail (call : Nat) (observed : α)
deriving DecidableEq, Repr

/-- The input of a call that has finished, and the value. -/
def Note.update : Note α ρ → Option (ρ × α)
  | .started _ _ => none
  | .finished _ input value => some (input, value)

def Note.value : Note α ρ → Option α
  | .started _ _ => none
  | .finished _ _ value => some value

theorem filterMap_value (log : List (Note α ρ)) :
    log.filterMap Note.value = (log.filterMap Note.update).map Prod.snd := by
  rw [List.map_filterMap]
  congr 1
  funext entry
  cases entry <;> rfl

section Step

variable [DecidableEq α] (next : ρ → α → α)

def step (calls : Calls α ρ) : Event α ρ → Option (Calls α ρ)
  | .start i input =>
      match calls.call i with
      | .idle =>
          some { calls with
            call := Function.update calls.call i (.loading input)
            log := calls.log ++ [.started i input] }
      | _ => none
  | .load i observed =>
      match calls.call i with
      | .loading input =>
          if observed ∈ calls.written then
            some { calls with call := Function.update calls.call i (.trying input observed) }
          else none
      | _ => none
  | .exchange i =>
      match calls.call i with
      | .trying input observed =>
          if calls.cell = observed then
            let value := next input observed
            some {
              cell := value
              written := value :: calls.written
              call := Function.update calls.call i (.finished value)
              log := calls.log ++ [.finished i input value] }
          else none
      | _ => none
  | .fail i observed =>
      match calls.call i with
      | .trying input _ =>
          if observed ∈ calls.written then
            some { calls with call := Function.update calls.call i (.trying input observed) }
          else none
      | _ => none

/-- The updates lead from one value to the other, one after the other. -/
def Updates : α → List (ρ × α) → α → Prop
  | a, [], b => a = b
  | a, (input, value) :: rest, b => value = next input a ∧ Updates value rest b

end Step

/-- A call that finishes has started before, with the same input. -/
def Note.Just (before : List (Note α ρ)) : Note α ρ → Prop
  | .started _ _ => True
  | .finished i input _ =>
      .started i input ∈ before ∧ ∀ other, .started i other ∈ before → other = input

/-- What the log says of a call in its place. -/
def Call.Placed (log : List (Note α ρ)) (i : Nat) : Call α ρ → Prop
  | .idle => ∀ input, .started i input ∉ log
  | .loading input | .trying input _ =>
      .started i input ∈ log ∧ ∀ other, .started i other ∈ log → other = input
  | .finished _ => True

structure Sound (next : ρ → α → α) (first : α) (calls : Calls α ρ) : Prop where
  updates : Updates next first (calls.log.filterMap Note.update) calls.cell
  justified : Log.Justified Note.Just calls.log
  placed : ∀ i, (calls.call i).Placed calls.log i

section Updates

variable {next : ρ → α → α} {a b : α} {updates : List (ρ × α)}

theorem Updates.snoc (h : Updates next a updates b) (input : ρ) :
    Updates next a (updates ++ [(input, next input b)]) (next input b) := by
  induction updates generalizing a with
  | nil =>
      obtain rfl : a = b := h
      exact ⟨rfl, rfl⟩
  | cons update rest ih => exact ⟨h.1, ih h.2⟩

end Updates

section Steps

variable {next : ρ → α → α} {first : α} {calls calls' : Calls α ρ} {i j : Nat}
  {call : Call α ρ} {log : List (Note α ρ)} {entry : Note α ρ}

/-- A note of another call changes nothing for this one. -/
theorem Call.Placed.snoc (placed : call.Placed log j)
    (other : ∀ input, entry ≠ .started j input) : call.Placed (log ++ [entry]) j := by
  have same (input : ρ) : .started j input ∈ log ++ [entry] ↔ .started j input ∈ log := by
    rw [List.mem_append, List.mem_singleton, or_iff_left (other input).symm]
  cases call with
  | idle => exact fun input mem => placed input ((same input).mp mem)
  | loading input | trying input observed =>
      exact ⟨(same input).mpr placed.1, fun value mem => placed.2 value ((same value).mp mem)⟩
  | finished value => trivial

theorem placed_update (self : call.Placed log i)
    (others : ∀ j, j ≠ i → (calls.call j).Placed log j) :
    ∀ j, (Function.update calls.call i call j).Placed log j :=
  (Function.forall_update_iff calls.call fun j call => call.Placed log j).mpr ⟨self, others⟩

theorem Sound.step [DecidableEq α] (sound : Sound next first calls) {event : Event α ρ}
    (h : Retry.step next calls event = some calls') : Sound next first calls' := by
  cases event with
  | start i input =>
      simp only [Retry.step] at h
      split at h
      · next idle =>
          obtain rfl := Option.some.inj h
          have placed := sound.placed i
          rw [idle] at placed
          refine ⟨?_, sound.justified.snoc _ trivial, placed_update ⟨by simp, ?_⟩ ?_⟩
          · rw [List.filterMap_append]
            exact (List.append_nil _).symm ▸ sound.updates
          · intro other mem
            simpa [placed other] using mem
          · exact fun j ne => (sound.placed j).snoc fun input e => ne (Note.started.inj e).1.symm
      · cases h
  | load i observed =>
      simp only [Retry.step] at h
      split at h
      · next input loading =>
          have placed := sound.placed i
          rw [loading] at placed
          split at h
          · obtain rfl := Option.some.inj h
            exact ⟨sound.updates, sound.justified,
              placed_update placed fun j _ => sound.placed j⟩
          · cases h
      · cases h
  | exchange i =>
      simp only [Retry.step] at h
      split at h
      · next input observed trying =>
          have placed := sound.placed i
          rw [trying] at placed
          split at h
          · next current =>
              obtain rfl := Option.some.inj h
              subst current
              refine ⟨?_, sound.justified.snoc _ placed, placed_update trivial ?_⟩
              · rw [List.filterMap_append]
                exact sound.updates.snoc input
              · exact fun j _ => (sound.placed j).snoc nofun
          · cases h
      · cases h
  | fail i observed =>
      simp only [Retry.step] at h
      split at h
      · next input before trying =>
          have placed := sound.placed i
          rw [trying] at placed
          split at h
          · obtain rfl := Option.some.inj h
            exact ⟨sound.updates, sound.justified,
              placed_update placed fun j _ => sound.placed j⟩
          · cases h
      · cases h

end Steps

/-- Whatever the interleaving, the calls that have finished have made their updates in the
order in which they have finished, each between its start and its end. -/
theorem run_sound [DecidableEq α] {next : ρ → α → α} {first : α} {calls : Calls α ρ}
    {events : List (Event α ρ)} (h : Run.run (step next) { cell := first } events = some calls) :
    Sound next first calls :=
  Run.run_invariant (fun _ _ _ sound h => sound.step h) h
    ⟨rfl, Log.justified_nil, fun _ _ => List.not_mem_nil⟩

end Retry
