import Mathlib.Order.Basic

/-!
The search for the boundary in a list, first the elements that are less and then the others, by
halves. It looks only inside the list; where there is a boundary it ends there.
-/

namespace BinarySearch

variable {α : Type} (less : α → Bool) (xs : List α)

/-- The loop of `std::lower_bound`, over `count` elements from `first` on. -/
def search (first count : Nat) (inside : first + count ≤ xs.length) : Nat :=
  if some_ : 0 < count then
    let half := count / 2
    if less (xs.get ⟨first + half, by omega⟩) then
      search (first + half + 1) (count - half - 1) (by omega)
    else search first half (by omega)
  else first
termination_by count

def lowerBound : Nat := search less xs 0 xs.length (by omega)

/-- Before the index all elements are less, and from it on none is. -/
structure Boundary (i : Nat) : Prop where
  le : i ≤ xs.length
  before : ∀ j (h : j < xs.length), j < i → less xs[j] = true
  after : ∀ j (h : j < xs.length), i ≤ j → less xs[j] = false

variable {less xs}

/-- What is left of the range holds the boundary. -/
theorem search_boundary {i : Nat} (boundary : Boundary less xs i) (first count : Nat)
    (inside : first + count ≤ xs.length) (low : first ≤ i) (high : i ≤ first + count) :
    search less xs first count inside = i := by
  fun_induction search less xs first count inside with
  | case1 first count inside some_ half less_ ih =>
      have : first + half < i := by
        by_contra far
        have not_less := boundary.after (first + half) (by omega) (by omega)
        exact Bool.false_ne_true (not_less.symm.trans less_)
      exact ih (by omega) (by omega)
  | case2 first count inside some_ half not_less ih =>
      have : i ≤ first + half := by
        by_contra far
        exact not_less (boundary.before (first + half) (by omega) (by omega))
      exact ih low this
  | case3 first count inside none => omega

theorem lowerBound_eq {i : Nat} (boundary : Boundary less xs i) : lowerBound less xs = i :=
  search_boundary boundary 0 xs.length _ (Nat.zero_le i) (by have := boundary.le; omega)

theorem lowerBound_append {front back : List α} (before : ∀ x ∈ front, less x = true)
    (after : ∀ x ∈ back, less x = false) : lowerBound less (front ++ back) = front.length := by
  refine lowerBound_eq ⟨by simp, fun j h low => ?_, fun j h high => ?_⟩
  · rw [List.getElem_append_left low]
    exact before _ (List.getElem_mem low)
  · rw [List.getElem_append_right high]
    exact after _ (List.getElem_mem _)

end BinarySearch
