import Mathlib.Data.List.Infix

/-!
Prefixes of lists, shortened at the end until they will do. What is left is the longest one that
does; taken against one list after the other it is the longest prefix common to all.
-/

namespace Prefix

variable {α : Type}

/-- `while (more(text)) text.pop_back();`, for the first `count` elements of the text. -/
def popWhile (more : List α → Bool) (text : List α) : Nat → List α
  | 0 => []
  | count + 1 =>
      if more (text.take (count + 1)) then popWhile more text count else text.take (count + 1)

/-- The longest prefix of the first list that is one of all others. -/
def common [BEq α] (first : List α) (others : List (List α)) : List α :=
  others.foldl
    (fun text other => popWhile (fun text => !text.isPrefixOf other) text text.length) first

section Pop

variable {more : List α → Bool} {text short : List α}

theorem popWhile_le (text : List α) (count : Nat) : popWhile more text count <+: text := by
  induction count with
  | zero => exact List.nil_prefix
  | succ count ih =>
      rw [popWhile]
      split
      · exact ih
      · exact List.take_prefix _ _

/-- The end of the loop is that of its condition, and not that of the text. -/
theorem popWhile_done (stop : more [] = false) (count : Nat) :
    more (popWhile more text count) = false := by
  induction count with
  | zero => exact stop
  | succ count ih =>
      rw [popWhile]
      split
      · exact ih
      · next done => exact Bool.eq_false_iff.mpr done

theorem le_popWhile (sub : short <+: text) (done : more short = false) {count : Nat}
    (length : short.length ≤ count) : short <+: popWhile more text count := by
  induction count with
  | zero => exact List.eq_nil_of_length_eq_zero (Nat.le_zero.mp length) ▸ List.nil_prefix
  | succ count ih =>
      rw [popWhile]
      split
      · next again =>
          refine ih (Nat.le_of_lt_add_one (Nat.lt_of_le_of_ne length fun same => ?_))
          rw [← same, ← List.prefix_iff_eq_take.mp sub, done] at again
          cases again
      · exact List.prefix_of_prefix_length_le sub (List.take_prefix _ _) (by
          rw [List.length_take]
          exact Nat.le_min.mpr ⟨length, sub.length_le⟩)

theorem le_popWhile_length (sub : short <+: text) (done : more short = false) :
    short <+: popWhile more text text.length :=
  le_popWhile sub done sub.length_le

end Pop

section Common

variable [BEq α] [LawfulBEq α] {first short : List α} {others : List (List α)}

theorem common_le (first : List α) (others : List (List α)) :
    common first others <+: first ∧ ∀ other ∈ others, common first others <+: other := by
  induction others generalizing first with
  | nil => exact ⟨List.prefix_rfl, nofun⟩
  | cons other others ih =>
      rw [common, List.foldl_cons]
      obtain ⟨rest, all⟩ := ih (popWhile (fun text => !text.isPrefixOf other) first first.length)
      refine ⟨rest.trans (popWhile_le _ _), List.forall_mem_cons.mpr ⟨rest.trans ?_, all⟩⟩
      have done := @popWhile_done α (fun text => !text.isPrefixOf other) first rfl first.length
      simpa using done

theorem le_common (sub : short <+: first) (all : ∀ other ∈ others, short <+: other) :
    short <+: common first others := by
  induction others generalizing first with
  | nil => exact sub
  | cons other others ih =>
      rw [List.forall_mem_cons] at all
      rw [common, List.foldl_cons]
      refine ih (le_popWhile_length sub ?_) all.2
      simpa using all.1

end Common

end Prefix
