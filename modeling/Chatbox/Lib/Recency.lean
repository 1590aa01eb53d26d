import Mathlib.Data.List.Induction
import Mathlib.Data.List.Nodup

/-!
A bounded list of the entries that were used last, the latest first. An entry that is
used again moves to the front, where the old one is merged into the new one; what does
not fit falls off the end. Falling off is forgotten: the list is at any time the front of
the one that has no bound.
-/

namespace Recency

variable {ρ κ : Type} [DecidableEq κ] (key : ρ → κ) (merge : ρ → ρ → ρ) (capacity : Nat)

/-- The entry that goes to the front: an old one with the same key is merged into it. -/
def renewed (entries : List ρ) (entry : ρ) : ρ :=
  match entries.find? fun other => decide (key other = key entry) with
  | none => entry
  | some old => merge old entry

def touch (entries : List ρ) (entry : ρ) : List ρ :=
  (renewed key merge entries entry ::
    entries.eraseP fun other => decide (key other = key entry)).take capacity

def touchAll (history : List ρ) : List ρ := history.foldl (touch key merge capacity) []

/-- The keys in the order of their last use. -/
def recents (history : List ρ) : List κ := (history.map key).reverse.eraseDups

section Order

theorem eraseDups_filter (p : κ → Bool) (ks : List κ) :
    (ks.filter p).eraseDups = ks.eraseDups.filter p := by
  cases ks with
  | nil => rfl
  | cons k ks =>
      have rest := eraseDups_filter p (ks.filter fun other => !other == k)
      rw [List.eraseDups_cons]
      by_cases keep : p k = true
      · rw [List.filter_cons_of_pos keep, List.filter_cons_of_pos keep, List.eraseDups_cons,
          ← rest, List.filter_filter, List.filter_filter]
        simp only [Bool.and_comm]
      · rw [List.filter_cons_of_neg keep, List.filter_cons_of_neg keep, ← rest,
          List.filter_filter]
        congr 1
        apply List.filter_congr
        intro other _
        cases kept : p other with
        | false => rfl
        | true =>
            have other_ne : other ≠ k := fun e => keep (e ▸ kept)
            simpa using other_ne
termination_by ks.length
decreasing_by
  have := List.length_filter_le (fun other => !other == k) ks
  rw [List.length_cons]
  omega

theorem nodup_eraseDups (ks : List κ) : ks.eraseDups.Nodup := by
  cases ks with
  | nil => exact List.nodup_nil
  | cons k ks =>
      rw [List.eraseDups_cons, List.nodup_cons]
      exact ⟨by simp, nodup_eraseDups _⟩
termination_by ks.length
decreasing_by
  have := List.length_filter_le (fun other => !other == k) ks
  rw [List.length_cons]
  omega

/-- A key that is used comes to the front. -/
theorem recents_concat (history : List ρ) (entry : ρ) :
    recents key (history ++ [entry]) =
      key entry :: (recents key history).erase (key entry) := by
  rw [recents, recents, List.map_append, List.reverse_append, List.map_singleton,
    List.reverse_singleton, List.singleton_append, List.eraseDups_cons, eraseDups_filter,
    (nodup_eraseDups _).erase_eq_filter]
  rfl

/-- The front of a list without one key. -/
theorem take_erase_take (k : κ) (ks : List κ) (n : Nat) :
    ((ks.take (n + 1)).erase k).take n = (ks.erase k).take n := by
  induction ks generalizing n with
  | nil => rfl
  | cons k' ks ih =>
      rw [List.take_succ_cons]
      by_cases same : k' = k
      · rw [same, List.erase_cons_head, List.erase_cons_head, List.take_take, Nat.min_self]
      · rw [List.erase_cons_tail (by simpa using same), List.erase_cons_tail (by simpa using same)]
        cases n with
        | zero => rfl
        | succ n => rw [List.take_succ_cons, List.take_succ_cons, ih n]

end Order

section Keys

variable {key merge capacity} {entries history : List ρ} {entry : ρ}

theorem renewed_key (kept : ∀ old entry, key (merge old entry) = key entry) :
    key (renewed key merge entries entry) = key entry := by
  rw [renewed]
  split
  · rfl
  · exact kept _ _

theorem map_eraseP (k : κ) (entries : List ρ) :
    (entries.eraseP fun other => decide (key other = k)).map key = (entries.map key).erase k := by
  induction entries with
  | nil => rfl
  | cons other entries ih =>
      rw [List.map_cons, List.erase_cons, List.eraseP_cons]
      by_cases same : key other = k
      · simp [same]
      · simp [same, ih]

theorem touch_keys (kept : ∀ old entry, key (merge old entry) = key entry) :
    (touch key merge capacity entries entry).map key =
      (key entry :: (entries.map key).erase (key entry)).take capacity := by
  rw [touch, List.map_take, List.map_cons, renewed_key kept, map_eraseP]

theorem touchAll_concat (history : List ρ) (entry : ρ) :
    touchAll key merge capacity (history ++ [entry]) =
      touch key merge capacity (touchAll key merge capacity history) entry := by
  rw [touchAll, List.foldl_append]
  rfl

/-- The list has the keys that were used last, in that order. -/
theorem touchAll_keys (kept : ∀ old entry, key (merge old entry) = key entry)
    (history : List ρ) :
    (touchAll key merge capacity history).map key = (recents key history).take capacity := by
  induction history using List.reverseRecOn with
  | nil => simp [touchAll, recents]
  | append_singleton history entry ih =>
      rw [touchAll_concat, touch_keys kept, ih, recents_concat]
      cases capacity with
      | zero => rfl
      | succ n => rw [List.take_succ_cons, List.take_succ_cons, take_erase_take]

theorem touchAll_nodup (kept : ∀ old entry, key (merge old entry) = key entry)
    (history : List ρ) : ((touchAll key merge capacity history).map key).Nodup := by
  rw [touchAll_keys kept]
  exact (nodup_eraseDups _).sublist (List.take_sublist _ _)

end Keys

section Entries

variable {key merge capacity} {entries history : List ρ} {entry : ρ}

theorem renewed_cases (entries : List ρ) (entry : ρ) :
    key entry ∉ entries.map key ∧ renewed key merge entries entry = entry ∨
      ∃ old ∈ entries, key old = key entry ∧
        renewed key merge entries entry = merge old entry := by
  rw [renewed]
  split
  · next none =>
      refine .inl ⟨fun mem => ?_, rfl⟩
      obtain ⟨other, there, same⟩ := List.mem_map.mp mem
      exact List.find?_eq_none.mp none other there (by simpa using same)
  · next old found =>
      exact .inr ⟨old, List.mem_of_find?_eq_some found, by simpa using List.find?_some found, rfl⟩

/-- What is in the list after a use: the entry that was used, and others from before. -/
theorem mem_touch (unique : (entries.map key).Nodup) {e : ρ}
    (h : e ∈ touch key merge capacity entries entry) :
    e = renewed key merge entries entry ∨ e ∈ entries ∧ key e ≠ key entry := by
  obtain rfl | h := List.mem_cons.mp (List.mem_of_mem_take h)
  · exact .inl rfl
  · refine .inr ⟨List.mem_of_mem_eraseP h, ?_⟩
    have erased : key e ∈ (entries.eraseP fun other => decide (key other = key entry)).map key :=
      List.mem_map_of_mem h
    rw [map_eraseP, unique.mem_erase_iff] at erased
    exact erased.1

/-- What a merge takes from the new entry is that of the last use. -/
theorem touchAll_fresh {α : Type} (fresh : ρ → α)
    (kept : ∀ old entry, key (merge old entry) = key entry)
    (renews : ∀ old entry, fresh (merge old entry) = fresh entry) {e : ρ}
    (h : e ∈ touchAll key merge capacity history) :
    ∃ before call after, history = before ++ call :: after ∧ key call = key e ∧
      (∀ later ∈ after, key later ≠ key e) ∧ fresh e = fresh call := by
  induction history using List.reverseRecOn with
  | nil => cases h
  | append_singleton history entry ih =>
      rw [touchAll_concat] at h
      obtain rfl | ⟨before, other⟩ := mem_touch (touchAll_nodup kept history) h
      · refine ⟨history, entry, [], rfl, (renewed_key kept).symm, nofun, ?_⟩
        obtain ⟨-, same⟩ | ⟨old, -, -, same⟩ :=
          @renewed_cases _ _ _ key merge (touchAll key merge capacity history) entry
        · rw [same]
        · rw [same, renews]
      · obtain ⟨front, call, after, rfl, same, last, value⟩ := ih before
        refine ⟨front, call, after ++ [entry], by simp, same, ?_, value⟩
        intro later mem
        obtain mem | mem := List.mem_append.mp mem
        · exact last later mem
        · obtain rfl := List.mem_singleton.mp mem
          exact Ne.symm other

/-- What a merge takes from the old entry is that of the use which put the key into the list
when it was not there; every later use has found it there. -/
theorem touchAll_kept {α : Type} (held : ρ → α)
    (kept : ∀ old entry, key (merge old entry) = key entry)
    (holds : ∀ old entry, held (merge old entry) = held old) {e : ρ}
    (h : e ∈ touchAll key merge capacity history) :
    ∃ before call after, history = before ++ call :: after ∧ key call = key e ∧
      key e ∉ (touchAll key merge capacity before).map key ∧
      (∀ front later rest, after = front ++ later :: rest → key later = key e →
        key e ∈ (touchAll key merge capacity (before ++ call :: front)).map key) ∧
      held e = held call := by
  induction history using List.reverseRecOn generalizing e with
  | nil => cases h
  | append_singleton history entry ih =>
      -- The use that is added last has found the key, or it is not of that key.
      have extend {e' : ρ} (there : e' ∈ touchAll key merge capacity history)
          (sameKey : key e' = key e) (value : held e = held e') :
          ∃ before call after, history ++ [entry] = before ++ call :: after ∧ key call = key e ∧
            key e ∉ (touchAll key merge capacity before).map key ∧
            (∀ front later rest, after = front ++ later :: rest → key later = key e →
              key e ∈ (touchAll key merge capacity (before ++ call :: front)).map key) ∧
            held e = held call := by
        obtain ⟨before, call, after, rfl, same, absent, present, first⟩ := ih there
        rw [sameKey] at same absent present
        refine ⟨before, call, after ++ [entry], by simp, same, absent, ?_, value.trans first⟩
        intro front later rest split own
        cases rest using List.reverseRecOn with
        | nil =>
            obtain ⟨rfl, -⟩ := List.append_inj' split rfl
            exact sameKey ▸ List.mem_map_of_mem there
        | append_singleton rest last _ =>
            rw [← List.cons_append, ← List.append_assoc] at split
            obtain ⟨split, -⟩ := List.append_inj' split rfl
            exact present front later rest split own
      rw [touchAll_concat] at h
      obtain rfl | ⟨before, other⟩ := mem_touch (touchAll_nodup kept history) h
      · obtain ⟨absent, same⟩ | ⟨old, there, sameKey, same⟩ :=
          @renewed_cases _ _ _ key merge (touchAll key merge capacity history) entry
        · refine ⟨history, entry, [], rfl, (renewed_key kept).symm, ?_, ?_, by rw [same]⟩
          · rwa [renewed_key kept]
          · intro front later rest split
            simp at split
        · exact extend there (by rw [same, kept, sameKey]) (by rw [same, holds])
      · exact extend before rfl rfl

end Entries

end Recency
