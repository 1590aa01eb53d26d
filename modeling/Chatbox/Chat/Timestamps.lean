import Chatbox.Chat.Server
import Chatbox.Lib.Retry

/-!
The timestamps of stored messages. `next_message_timestamp` may run on any number of threads
at once; it reads the clock and then tries to move the last timestamp on, until no other call
has come in between. The sums are those of 64 bits, which they do not leave before the clock
does.
-/

namespace Chatbox.Chat

open Retry

/-- `std::max(now, observed + 1)` -/
def nextTimestamp (now observed : Int) : Int := max now (observed + 1)

section Updates

variable {first last bound : Int} {updates : List (Int × Int)}

theorem updates_increase (h : Updates nextTimestamp first updates last) :
    (∀ update ∈ updates, first < update.2 ∧ update.1 ≤ update.2) ∧
      (updates.map Prod.snd).Pairwise (· < ·) := by
  induction updates generalizing first with
  | nil => exact ⟨nofun, .nil⟩
  | cons update rest ih =>
      obtain ⟨value, h⟩ := h
      obtain ⟨above, increase⟩ := ih h
      have later : first < update.2 ∧ update.1 ≤ update.2 := by
        rw [value, nextTimestamp]
        omega
      refine ⟨?_, ?_⟩
      · rw [List.forall_mem_cons]
        exact ⟨later, fun other mem => ⟨later.1.trans (above other mem).1, (above other mem).2⟩⟩
      · rw [List.map_cons, List.pairwise_cons, List.forall_mem_map]
        exact ⟨fun other mem => (above other mem).1, increase⟩

/-- Every call moves the last timestamp at most one beyond what the clock or the calls before
have made of it. -/
theorem updates_bounded (h : Updates nextTimestamp first updates last) (start : first ≤ bound)
    (clock : ∀ update ∈ updates, update.1 ≤ bound) :
    ∀ update ∈ updates, update.2 ≤ bound + updates.length := by
  induction updates generalizing first bound with
  | nil => nofun
  | cons update rest ih =>
      obtain ⟨value, h⟩ := h
      rw [List.forall_mem_cons] at clock ⊢
      have reached : update.2 ≤ bound + 1 := by
        rw [value, nextTimestamp]
        omega
      rw [List.length_cons]
      refine ⟨by omega, fun other mem => ?_⟩
      have := ih h reached (fun other mem => (clock.2 other mem).trans (by omega)) other mem
      omega

end Updates

/-- Alone, a call does what the sequential model of the server does. -/
theorem nextMessageTimestamp_eq (env : Env) (server : ChatServer) :
    (server.nextMessageTimestamp env).1 =
      nextTimestamp (env.systemNow server.output.readings) server.output.lastTimestamp := rfl

section Runs

variable {calls : Calls Int Int} {events : List (Retry.Event Int Int)}

/-- No two calls return the same timestamp. A call returns one that is not before its own
reading of the clock, and after those of all calls that have finished before it has started;
and no timestamp is further ahead of all clocks than there have been calls. -/
theorem run_timestamps
    (h : Run.run (Retry.step nextTimestamp) { cell := 0 } events = some calls) :
    (calls.log.filterMap Note.value).Nodup ∧
      (∀ before i now during input value after,
        calls.log = before ++ .started i now :: (during ++ .finished i input value :: after) →
          now ≤ value ∧ ∀ j reading earlier, .finished j reading earlier ∈ before →
            earlier < value) ∧
      ∀ bound : Int, 0 ≤ bound → (∀ i now, .started i now ∈ calls.log → now ≤ bound) →
        ∀ i now value, .finished i now value ∈ calls.log →
          value ≤ bound + (calls.log.filterMap Note.value).length := by
  have sound := run_sound h
  obtain ⟨above, increase⟩ := updates_increase sound.updates
  rw [← filterMap_value] at increase
  refine ⟨increase.imp fun less => less.ne, ?_, ?_⟩
  · intro before i now during input value after log
    have split : calls.log = (before ++ .started i now :: during) ++
        .finished i input value :: after := by simp [log]
    obtain ⟨-, same⟩ := sound.justified _ _ _ split
    obtain rfl := same now (by simp)
    refine ⟨(above (now, value) ?_).2, fun j reading earlier mem => ?_⟩
    · exact List.mem_filterMap.mpr ⟨.finished i now value, by simp [split], rfl⟩
    · rw [split, List.filterMap_append, List.pairwise_append] at increase
      refine increase.2.2 earlier ?_ value ?_
      · exact List.mem_filterMap.mpr ⟨_, List.mem_append_left _ mem, rfl⟩
      · exact List.mem_cons_self
  · intro bound positive clock i now value mem
    have readings : ∀ update ∈ calls.log.filterMap Note.update, update.1 ≤ bound := by
      intro update listed
      obtain ⟨entry, there, same⟩ := List.mem_filterMap.mp listed
      cases entry with
      | started => cases same
      | finished j input other =>
          obtain rfl := Option.some.inj same
          obtain ⟨front, back, log⟩ := List.append_of_mem there
          have started := (sound.justified _ _ _ log).1
          exact clock j input (log ▸ List.mem_append_left _ started)
    have reached := updates_bounded sound.updates positive readings (now, value)
      (List.mem_filterMap.mpr ⟨_, mem, rfl⟩)
    rwa [filterMap_value, List.length_map]

/-- The clock of the second call is behind that of the first, whose exchange comes first. -/
def decreasingClocks : List (Retry.Event Int Int) :=
  [.start 0 5, .load 0 0, .start 1 3, .load 1 0, .exchange 0, .fail 1 5, .exchange 1]

theorem run_timestamps_decreasing : ∃ calls : Calls Int Int,
    Run.run (Retry.step nextTimestamp) { cell := 0 } decreasingClocks = some calls ∧
      calls.log.filterMap Note.value = [5, 6] ∧ (calls.log.filterMap Note.value).Nodup :=
  ⟨_, rfl, rfl, (@run_timestamps _ decreasingClocks rfl).1⟩

end Runs

end Chatbox.Chat
