import Mathlib.Data.List.Induction
import Mathlib.Order.Basic
import Mathlib.Algebra.Order.Group.Int
import Mathlib.Data.List.Sort

/-!
A limit on how many requests of one kind are accepted within a window of time. The
rule looks at the whole history; an implementation keeps for each kind a queue of
acceptance times and drops what is too old from its front.
-/

namespace SlidingWindow

variable {κ : Type}

/-- An answered request. -/
structure Answer (κ : Type) where
  kind : κ
  time : Int
  accepted : Bool
deriving DecidableEq

/-- The times do not go back. -/
def Chronological (history : List (Answer κ)) : Prop :=
  (history.map Answer.time).Pairwise (· ≤ ·)

theorem Chronological.initial {before after : List (Answer κ)}
    (h : Chronological (before ++ after)) : Chronological before := by
  unfold Chronological at h ⊢
  rw [List.map_append] at h
  exact (List.pairwise_append.mp h).1

theorem Chronological.snoc {history : List (Answer κ)} {answer : Answer κ}
    (h : Chronological history) (late : ∀ other ∈ history, other.time ≤ answer.time) :
    Chronological (history ++ [answer]) := by
  unfold Chronological at h ⊢
  rw [List.map_append]
  refine List.pairwise_append.mpr ⟨h, by simp, ?_⟩
  intro time mem last final
  obtain ⟨other, kept, rfl⟩ := List.mem_map.mp mem
  obtain rfl : last = answer.time := by simpa using final
  exact late other kept

variable [DecidableEq κ]

/-- The times of the accepted requests of a kind, from a time on. -/
def since (history : List (Answer κ)) (kind : κ) (start : Int) : List Int :=
  ((history.filter fun answer => answer.accepted && answer.kind = kind).map Answer.time).filter
    fun time => start ≤ time

/-- Every answer is what the accepted requests before it make it. -/
def Limited (limit : Nat) (window : Int) (history : List (Answer κ)) : Prop :=
  ∀ before answer after, history = before ++ answer :: after →
    (answer.accepted = true ↔ (since before answer.kind (answer.time - window)).length < limit)

section Since

variable {history before after : List (Answer κ)} {answer : Answer κ} {kind : κ} {start : Int}

theorem since_append (before after : List (Answer κ)) (kind : κ) (start : Int) :
    since (before ++ after) kind start = since before kind start ++ since after kind start := by
  simp [since]

theorem since_rejected (rejected : answer.accepted = false) : since [answer] kind start = [] := by
  simp [since, rejected]

theorem since_other (other : answer.kind ≠ kind) : since [answer] kind start = [] := by
  simp [since, other]

theorem since_accepted (accepted : answer.accepted = true) (late : start ≤ answer.time) :
    since [answer] answer.kind start = [answer.time] := by
  simp [since, accepted, late]

theorem mem_since {time : Int} (h : time ∈ since history kind start) :
    start ≤ time ∧ ∃ answer ∈ history, answer.time = time := by
  obtain ⟨mem, late⟩ := List.mem_filter.mp h
  obtain ⟨answer, kept, rfl⟩ := List.mem_map.mp mem
  exact ⟨by simpa using late, answer, (List.mem_filter.mp kept).1, rfl⟩

/-- Later counts leave out the times before them. -/
theorem filter_since {later : Int} (h : start ≤ later) :
    (since history kind start).filter (fun time => later ≤ time) = since history kind later := by
  rw [since, since, List.filter_filter]
  refine List.filter_congr fun time _ => ?_
  have := h
  by_cases late : later ≤ time
  · simp [late, h.trans late]
  · simp [late]

/-- The accepted requests of one kind in one window, told by kind and time. -/
theorem length_filter_since (history : List (Answer κ)) (kind : κ) (start stop : Int) :
    ((since history kind start).filter fun time => time ≤ stop).length =
      (((history.filter Answer.accepted).map fun answer => (answer.kind, answer.time)).filter
        fun request => request.1 = kind ∧ start ≤ request.2 ∧ request.2 ≤ stop).length := by
  induction history with
  | nil => rfl
  | cons answer history ih =>
      rw [since] at ih ⊢
      cases accepted : answer.accepted with
      | false => simpa [accepted] using ih
      | true =>
          by_cases same : answer.kind = kind
          · by_cases late : start ≤ answer.time
            · by_cases early : answer.time ≤ stop <;> simp_all
            · simp_all
          · simp_all

theorem Chronological.since_sorted (h : Chronological history) (kind : κ) (start : Int) :
    (since history kind start).Pairwise (· ≤ ·) := by
  unfold since
  exact List.Pairwise.sublist (List.filter_sublist.trans (List.filter_sublist.map _)) h

/-- From the front of a queue in order of time exactly the old ones are dropped. -/
theorem dropWhile_eq_filter {times : List Int} (sorted : times.Pairwise (· ≤ ·)) (start : Int) :
    times.dropWhile (fun time => time < start) = times.filter fun time => start ≤ time := by
  induction times with
  | nil => rfl
  | cons time times ih =>
      obtain ⟨first, rest⟩ := List.pairwise_cons.mp sorted
      by_cases old : time < start
      · rw [List.dropWhile_cons_of_pos (by simpa using old),
          List.filter_cons_of_neg (by simpa using old), ih rest]
      · rw [List.dropWhile_cons_of_neg (by simpa using old), eq_comm, List.filter_eq_self]
        intro other mem
        obtain rfl | mem := List.mem_cons.mp mem
        · simpa using old
        · have := first other mem
          simp only [decide_eq_true_eq]
          omega

end Since

section Rule

variable {limit : Nat} {window : Int} {history before after : List (Answer κ)}
  {answer : Answer κ}

theorem Limited.initial (h : Limited limit window (before ++ after)) :
    Limited limit window before := by
  intro before' answer after' same
  refine h before' answer (after' ++ after) ?_
  rw [same]
  simp

theorem limited_snoc : Limited limit window (history ++ [answer]) ↔
    Limited limit window history ∧ (answer.accepted = true ↔
      (since history answer.kind (answer.time - window)).length < limit) := by
  constructor
  · intro h
    exact ⟨h.initial, h history answer [] rfl⟩
  · rintro ⟨h, last⟩ before answer' after same
    cases List.eq_nil_or_concat after with
    | inl empty =>
        subst empty
        obtain ⟨rfl, rfl⟩ : history = before ∧ answer = answer' := by simpa using same
        exact last
    | inr some =>
        obtain ⟨front, final, rfl⟩ := some
        have split : history = before ++ answer' :: front ∧ answer = final := by
          rw [List.concat_eq_append, ← List.cons_append, ← List.append_assoc] at same
          simpa using List.append_inj' same rfl
        exact h before answer' front split.1

/-- No window of time holds more accepted requests of a kind than the limit. -/
theorem Limited.window_le (h : Limited limit window history) (timely : Chronological history)
    (kind : κ) (start : Int) :
    ((since history kind start).filter fun time => time ≤ start + window).length ≤ limit := by
  induction history using List.reverseRecOn with
  | nil => simp [since]
  | append_singleton history answer ih =>
      have earlier := ih h.initial timely.initial
      rw [since_append, List.filter_append, List.length_append]
      by_cases counted : answer.accepted = true ∧ answer.kind = kind ∧ start ≤ answer.time ∧
          answer.time ≤ start + window
      · obtain ⟨accepted, rfl, late, early⟩ := counted
        have room := (limited_snoc.mp h).2.mp accepted
        have wider : (since history answer.kind start).length ≤
            (since history answer.kind (answer.time - window)).length := by
          have narrower : answer.time - window ≤ start := by omega
          rw [← filter_since narrower]
          exact List.length_filter_le _ _
        have one : ((since [answer] answer.kind start).filter
            fun time => time ≤ start + window).length ≤ 1 := by
          rw [since_accepted accepted late]
          exact List.length_filter_le _ _
        have all := List.length_filter_le (fun time => decide (time ≤ start + window))
          (since history answer.kind start)
        omega
      · have none : (since [answer] kind start).filter (fun time => time ≤ start + window) = [] := by
          rw [List.filter_eq_nil_iff]
          intro time mem
          obtain ⟨late, answer', mem', rfl⟩ := mem_since mem
          obtain rfl := List.mem_singleton.mp mem'
          intro early
          apply counted
          refine ⟨?_, ?_, late, by simpa using early⟩
          · by_contra rejected
            simp [since_rejected (Bool.not_eq_true _ ▸ rejected)] at mem
          · by_contra other
            simp [since_other other] at mem
        rw [none]
        simpa using earlier

/-- Histories of the same requests are the same. -/
theorem Limited.unique {history' : List (Answer κ)} (h : Limited limit window history)
    (h' : Limited limit window history')
    (same : history'.map (fun answer => (answer.kind, answer.time)) =
      history.map fun answer => (answer.kind, answer.time)) : history' = history := by
  induction history using List.reverseRecOn generalizing history' with
  | nil => simpa using same
  | append_singleton history answer ih =>
      cases List.eq_nil_or_concat history' with
      | inl empty => simp [empty] at same
      | inr some =>
          obtain ⟨front, final, rfl⟩ := some
          rw [List.concat_eq_append] at h' same ⊢
          simp only [List.map_append, List.map_cons, List.map_nil] at same
          obtain ⟨front_same, final_same⟩ := List.append_inj' same rfl
          obtain rfl := ih h.initial h'.initial front_same
          simp only [List.cons.injEq, Prod.mk.injEq, and_true] at final_same
          have answers := (limited_snoc.mp h).2
          have answers' := (limited_snoc.mp h').2
          rw [final_same.1, final_same.2, ← answers, ← Bool.eq_iff_iff] at answers'
          obtain ⟨kind, time, accepted⟩ := answer
          obtain ⟨kind', time', accepted'⟩ := final
          simp only at final_same answers'
          simp [final_same, answers']

/-- A rejected request changes no later answer. -/
theorem Limited.erase (h : Limited limit window (before ++ answer :: after))
    (rejected : answer.accepted = false) : Limited limit window (before ++ after) := by
  induction after using List.reverseRecOn with
  | nil => simpa using h.initial
  | append_singleton after last ih =>
      rw [← List.cons_append, ← List.append_assoc, limited_snoc] at h
      rw [← List.append_assoc, limited_snoc]
      refine ⟨ih h.1, ?_⟩
      rw [h.2, since_append, since_append, ← List.singleton_append, since_append,
        since_rejected rejected, List.nil_append]

end Rule

section Queue

/-- The queue of each kind is as good as the history: what it still holds at the next
request are the accepted requests within the window. -/
def Kept (window : Int) (history : List (Answer κ)) (queue : κ → List Int) : Prop :=
  ∀ kind now, (∀ answer ∈ history, answer.time ≤ now) →
    (queue kind).dropWhile (fun time => now - time > window) = since history kind (now - window)

variable {limit : Nat} {window : Int} {history : List (Answer κ)} {queue : κ → List Int}

theorem kept_nil (window : Int) : Kept window ([] : List (Answer κ)) fun _ => [] := by
  intro kind now _
  simp [since]

theorem Kept.push (h : Kept window history queue) (timely : Chronological history) {kind : κ}
    {now : Int} (late : ∀ answer ∈ history, answer.time ≤ now) (accepted : Bool) :
    Kept window (history ++ [⟨kind, now, accepted⟩])
      (Function.update queue kind
        (since history kind (now - window) ++ if accepted then [now] else [])) := by
  intro kind' now' late'
  have order : now ≤ now' := late' ⟨kind, now, accepted⟩ (by simp)
  have drop (times : List Int) : times.dropWhile (fun time => decide (now' - time > window)) =
      times.dropWhile fun time => decide (time < now' - window) := by
    congr 1
    funext time
    simp only [gt_iff_lt, decide_eq_decide]
    omega
  rw [drop, since_append]
  by_cases same : kind' = kind
  · subst same
    have sorted : (since history kind' (now - window) ++ if accepted then [now] else []).Pairwise
        (· ≤ ·) := by
      refine List.pairwise_append.mpr ⟨timely.since_sorted _ _, by cases accepted <;> simp, ?_⟩
      intro time mem other mem'
      obtain ⟨-, answer, ha, rfl⟩ := mem_since mem
      have : other = now := by cases accepted <;> simp_all
      rw [this]
      exact late answer ha
    rw [Function.update_self, dropWhile_eq_filter sorted, List.filter_append,
      filter_since (by omega)]
    cases accepted <;> simp [since]
  · rw [Function.update_of_ne same, since_other (Ne.symm same), List.append_nil, ← drop]
    exact h kind' now' fun answer mem => late' answer (List.mem_append_left _ mem)

end Queue

end SlidingWindow
