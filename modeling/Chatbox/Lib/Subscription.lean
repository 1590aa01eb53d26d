import Mathlib.Data.List.Basic
import Chatbox.Lib.Run

/-!
A subscriber joins and leaves topics. A topic remembers its latest messages and gives
them to the subscriber that joins; while it stays, the subscriber receives what is
published. Two acceptors read the marks of one subscriber: one follows where it is and
what it is owed, the other what a topic remembers.
-/

namespace Subscription

variable {τ μ : Type}

/-- What concerns one subscriber: its own joining, leaving and receiving, and all
that is published. -/
inductive Mark (τ μ : Type) where
  | join (topic : τ) (history : List μ)
  | leave (topic : τ)
  | publish (topic : τ) (message : μ)
  | receive (topic : τ) (message : μ)

structure Seat (τ μ : Type) where
  topic : Option τ := none
  owed : List μ := []

/-- The newest messages, at most `limit` of them if there were not more before. -/
def remember (limit : Nat) (history : List μ) (message : μ) : List μ :=
  if (history ++ [message]).length > limit then (history ++ [message]).drop 1
  else history ++ [message]

/-- Where the marks lead, whether or not they are in order. -/
def follow (topic : Option τ) : Mark τ μ → Option τ
  | .join topic _ => some topic
  | .leave _ => none
  | _ => topic

def received (marks : List (Mark τ μ)) : List (τ × μ) :=
  marks.filterMap fun
    | .receive topic message => some (topic, message)
    | _ => none

variable [DecidableEq τ] [DecidableEq μ]

def observe (seat : Seat τ μ) : Mark τ μ → Option (Seat τ μ)
  | .join topic history => if seat.topic = none then some ⟨some topic, history⟩ else none
  | .leave topic => if seat.topic = some topic ∧ seat.owed = [] then some {} else none
  | .publish topic message =>
      if seat.topic = some topic then some { seat with owed := seat.owed ++ [message] }
      else some seat
  | .receive topic message =>
      match seat.owed with
      | [] => none
      | next :: owed =>
          if seat.topic = some topic ∧ next = message then some { seat with owed } else none

def retain (limit : Nat) (topic : τ) (history : List μ) : Mark τ μ → Option (List μ)
  | .join topic' history' =>
      if topic' = topic ∧ history' ≠ history then none else some history
  | .publish topic' message =>
      some (if topic' = topic then remember limit history message else history)
  | _ => some history

def published (topic : τ) (marks : List (Mark τ μ)) : List μ :=
  marks.filterMap fun
    | .publish topic' message => if topic' = topic then some message else none
    | _ => none

section Observe

theorem observe_follow {seat seat' : Seat τ μ} {mark : Mark τ μ}
    (h : observe seat mark = some seat') : seat'.topic = follow seat.topic mark := by
  cases mark with
  | join topic history =>
      simp only [observe, Option.ite_none_right_eq_some, Option.some.injEq] at h
      rw [← h.2]
      rfl
  | leave topic =>
      simp only [observe, Option.ite_none_right_eq_some, Option.some.injEq] at h
      rw [← h.2]
      rfl
  | publish topic message =>
      simp only [observe] at h
      split at h <;> exact (Option.some.inj h) ▸ rfl
  | receive topic message =>
      simp only [observe] at h
      split at h
      · cases h
      · simp only [Option.ite_none_right_eq_some, Option.some.injEq] at h
        rw [← h.2]
        rfl

/-- The seat the acceptor ends with is where the marks lead. -/
theorem run_follow {seat seat' : Seat τ μ} {marks : List (Mark τ μ)}
    (h : Run.run observe seat marks = some seat') :
    seat'.topic = marks.foldl follow seat.topic := by
  induction marks generalizing seat with
  | nil =>
      obtain rfl : seat = seat' := by simpa [Run.run] using h
      rfl
  | cons mark marks ih =>
      obtain ⟨middle, hm, hrun⟩ := Run.run_cons.mp h
      rw [List.foldl_cons, ← observe_follow hm]
      exact ih hrun

/-- Nothing is received but by a subscriber of the topic. -/
theorem receive_seated {seat seat' : Seat τ μ} {before after : List (Mark τ μ)} {topic : τ}
    {message : μ}
    (h : Run.run observe seat (before ++ .receive topic message :: after) = some seat') :
    before.foldl follow seat.topic = some topic := by
  obtain ⟨middle, hbefore, hrest⟩ := Run.run_append.mp h
  obtain ⟨next, hnext, -⟩ := Run.run_cons.mp hrest
  rw [← run_follow hbefore]
  simp only [observe] at hnext
  split at hnext
  · cases hnext
  · simp only [Option.ite_none_right_eq_some] at hnext
    exact hnext.1.1

/-- While a subscriber stays, what it receives and what it is still owed is what it
was owed at first and what has been published since. -/
theorem run_staying {topic : τ} {owed : List μ} {seat : Seat τ μ} {marks : List (Mark τ μ)}
    (h : Run.run observe ⟨some topic, owed⟩ marks = some seat)
    (stays : ∀ topic', Mark.leave topic' ∉ marks) :
    seat.topic = some topic ∧
      received marks ++ seat.owed.map (Prod.mk topic) =
        (owed ++ published topic marks).map (Prod.mk topic) := by
  induction marks generalizing owed with
  | nil =>
      obtain rfl : ⟨some topic, owed⟩ = seat := by simpa [Run.run] using h
      simp [received, published]
  | cons mark marks ih =>
      obtain ⟨middle, hm, hrun⟩ := Run.run_cons.mp h
      have stays' : ∀ topic', Mark.leave topic' ∉ marks := fun topic' hmem =>
        stays topic' (List.mem_cons_of_mem _ hmem)
      cases mark with
      | join topic' history => simp [observe] at hm
      | leave topic' => exact absurd List.mem_cons_self (stays topic')
      | publish topic' message =>
          by_cases e : topic' = topic
          · subst e
            obtain rfl : middle = ⟨some topic', owed ++ [message]⟩ := by
              simpa [observe, eq_comm] using hm
            obtain ⟨hseat, hall⟩ := ih hrun stays'
            refine ⟨hseat, ?_⟩
            simpa [received, published] using hall
          · obtain rfl : middle = ⟨some topic, owed⟩ := by
              simpa [observe, Ne.symm e, eq_comm] using hm
            obtain ⟨hseat, hall⟩ := ih hrun stays'
            refine ⟨hseat, ?_⟩
            simpa [received, published, e] using hall
      | receive topic' message =>
          cases owed with
          | nil => simp [observe] at hm
          | cons next owed =>
              simp only [observe, Option.ite_none_right_eq_some, Option.some.injEq] at hm
              obtain ⟨⟨rfl, rfl⟩, rfl⟩ := hm
              obtain ⟨hseat, hall⟩ := ih hrun stays'
              refine ⟨hseat, ?_⟩
              simpa [received, published] using hall

/-- Over a whole stay, from the joining to the leaving or to an end with nothing owed,
a subscriber receives the history and then what is published, in order, once. -/
theorem run_stay {start seat : Seat τ μ} {before marks after : List (Mark τ μ)} {topic : τ}
    {history : List μ}
    (h : Run.run observe start (before ++ .join topic history :: (marks ++ after)) = some seat)
    (stays : ∀ topic', Mark.leave topic' ∉ marks)
    (ends : after = [] ∧ seat.owed = [] ∨ ∃ topic' rest, after = .leave topic' :: rest) :
    received marks = (history ++ published topic marks).map (Prod.mk topic) := by
  obtain ⟨first, -, hrest⟩ := Run.run_append.mp h
  obtain ⟨joined, hjoin, hrest⟩ := Run.run_cons.mp hrest
  obtain ⟨last, hmarks, hafter⟩ := Run.run_append.mp hrest
  simp only [observe, Option.ite_none_right_eq_some, Option.some.injEq] at hjoin
  obtain ⟨-, rfl⟩ := hjoin
  obtain ⟨-, hall⟩ := run_staying hmarks stays
  have settled : last.owed = [] := by
    rcases ends with ⟨rfl, howed⟩ | ⟨topic', rest, rfl⟩
    · obtain rfl : last = seat := by simpa [Run.run] using hafter
      exact howed
    · obtain ⟨gone, hleave, -⟩ := Run.run_cons.mp hafter
      simp only [observe, Option.ite_none_right_eq_some] at hleave
      exact hleave.1.2
  simpa [settled] using hall

end Observe

section Retain

variable {limit : Nat} {topic : τ}

theorem run_retain {history history' : List μ} {marks : List (Mark τ μ)}
    (h : Run.run (retain limit topic) history marks = some history') :
    history' = (published topic marks).foldl (remember limit) history := by
  induction marks generalizing history with
  | nil =>
      obtain rfl : history = history' := by simpa [Run.run] using h
      rfl
  | cons mark marks ih =>
      obtain ⟨middle, hm, hrun⟩ := Run.run_cons.mp h
      rw [ih hrun]
      cases mark with
      | join topic' history'' =>
          simp only [retain, Option.ite_none_left_eq_some, Option.some.injEq] at hm
          rw [← hm.2]
          simp [published]
      | leave topic' =>
          obtain rfl := Option.some.inj hm
          simp [published]
      | publish topic' message =>
          obtain rfl := Option.some.inj hm
          by_cases e : topic' = topic
          · simp [published, e]
          · simp [published, e]
      | receive topic' message =>
          obtain rfl := Option.some.inj hm
          simp [published]

/-- The history a subscriber is given is what the topic remembers when it joins. -/
theorem join_retained {history history' given : List μ} {before after : List (Mark τ μ)}
    (h : Run.run (retain limit topic) history (before ++ .join topic given :: after) =
      some history') :
    given = (published topic before).foldl (remember limit) history := by
  obtain ⟨middle, hbefore, hrest⟩ := Run.run_append.mp h
  obtain ⟨next, hnext, -⟩ := Run.run_cons.mp hrest
  rw [← run_retain hbefore]
  simp only [retain, true_and, Option.ite_none_left_eq_some, not_not] at hnext
  exact hnext.1

end Retain

end Subscription
