import Mathlib

/-!
Ordered maps and sets whose comparison decides equality: the lookup lemmas of the
standard library with an equation in the place of a comparison, and changing all
values at once.
-/

namespace OrderedMap

open Std

variable {α β γ : Type} [Ord α] [TransOrd α] [LawfulEqOrd α] [DecidableEq α]

theorem getElem?_modify (t : ExtTreeMap α β) (k k' : α) (f : β → β) :
    (t.modify k f)[k']? = if k = k' then t[k']?.map f else t[k']? := by
  rw [ExtTreeMap.getElem?_modify]
  by_cases h : k = k'
  · simp [h]
  · simp [h]

theorem getElem?_insert (t : ExtTreeMap α β) (k k' : α) (v : β) :
    (t.insert k v)[k']? = if k = k' then some v else t[k']? := by
  rw [ExtTreeMap.getElem?_insert]
  by_cases h : k = k'
  · simp [h]
  · simp [h]

theorem getElem?_insertIfNew (t : ExtTreeMap α β) (k k' : α) (v : β) :
    (t.insertIfNew k v)[k']? = if k = k' then some (t[k']?.getD v) else t[k']? := by
  rw [ExtTreeMap.getElem?_insertIfNew]
  by_cases h : k = k'
  · subst h
    by_cases hk : k ∈ t
    · simp [hk]
    · simp [hk]
  · simp [h]

theorem map_modify (t : ExtTreeMap α β) (k : α) {f : β → β} {g : β → γ} {f' : γ → γ}
    (h : ∀ v, g (f v) = f' (g v)) :
    (t.modify k f).map (fun _ => g) = (t.map fun _ => g).modify k f' := by
  refine ExtTreeMap.ext_getElem? fun k' => ?_
  simp only [ExtTreeMap.getElem?_map, getElem?_modify]
  by_cases hk : k = k'
  · cases hv : t[k']? <;> simp [hk, h]
  · simp [hk]

/-- Changing a value into one that looks the same changes no look. -/
theorem map_modify_same (t : ExtTreeMap α β) (k : α) {f : β → β} {g : β → γ}
    (h : ∀ v, g (f v) = g v) : (t.modify k f).map (fun _ => g) = t.map fun _ => g := by
  refine ExtTreeMap.ext_getElem? fun k' => ?_
  simp only [ExtTreeMap.getElem?_map, getElem?_modify]
  by_cases hk : k = k'
  · cases hv : t[k']? <;> simp [hk, h]
  · simp [hk]

theorem map_insertIfNew (t : ExtTreeMap α β) (k : α) (v : β) (g : β → γ) :
    (t.insertIfNew k v).map (fun _ => g) = (t.map fun _ => g).insertIfNew k (g v) := by
  refine ExtTreeMap.ext_getElem? fun k' => ?_
  simp only [ExtTreeMap.getElem?_map, getElem?_insertIfNew]
  by_cases hk : k = k'
  · cases hv : t[k']? <;> simp [hk]
  · simp [hk]

/-- Replacing a value by one that looks the same changes no look. -/
theorem map_insert_same {t : ExtTreeMap α β} {k : α} {v w : β} {g : β → γ}
    (hv : t[k]? = some v) (h : g w = g v) :
    (t.insert k w).map (fun _ => g) = t.map fun _ => g := by
  refine ExtTreeMap.ext_getElem? fun k' => ?_
  simp only [ExtTreeMap.getElem?_map, getElem?_insert]
  by_cases hk : k = k'
  · subst hk
    simp [hv, h]
  · simp [hk]

/-- A map listed and read again is the map. -/
theorem ofList_toList (t : ExtTreeMap α β) :
    t.toList.foldl (fun t entry => t.insert entry.1 entry.2) ∅ = t := by
  rw [← ExtTreeMap.ofList_eq_foldl]
  refine ExtTreeMap.ext_getElem? fun k => ?_
  cases hk : t[k]? with
  | some v =>
      have mem : (k, v) ∈ t.toList := ExtTreeMap.mem_toList_iff_getElem?_eq_some.mpr hk
      exact ExtTreeMap.getElem?_ofList_of_mem compare_self t.distinct_keys_toList mem
  | none =>
      have absent : k ∉ t := by simpa using hk
      refine ExtTreeMap.getElem?_ofList_of_contains_eq_false ?_
      simpa using absent

theorem find?_toList (t : ExtTreeMap α β) (k : α) :
    (t.toList.find? fun entry => entry.1 = k).map (fun entry => entry.2) = t[k]? := by
  cases found : t.toList.find? fun entry => entry.1 = k with
  | some entry =>
      have mem := ExtTreeMap.mem_toList_iff_getElem?_eq_some.mp (List.mem_of_find?_eq_some found)
      have key : entry.1 = k := by simpa using List.find?_some found
      rw [Option.map_some, ← mem, key]
  | none =>
      cases hk : t[k]? with
      | none => rfl
      | some v =>
          have mem : (k, v) ∈ t.toList := ExtTreeMap.mem_toList_iff_getElem?_eq_some.mpr hk
          have other := List.find?_eq_none.mp found (k, v) mem
          simp at other

theorem getElem?_foldl_insertIfNew (entries : List (α × β)) (t : ExtTreeMap α β) (k : α) :
    (entries.foldl (fun t entry => t.insertIfNew entry.1 entry.2) t)[k]? =
      t[k]?.or ((entries.find? fun entry => entry.1 = k).map fun entry => entry.2) := by
  induction entries generalizing t with
  | nil => simp
  | cons entry entries ih =>
      rw [List.foldl_cons, ih, getElem?_insertIfNew, List.find?_cons]
      by_cases hk : entry.1 = k
      · cases hv : t[k]? <;> simp [hk]
      · simp [hk]

/-- The entries of `u` that are new are added to `t`. -/
theorem getElem?_insertNew (t u : ExtTreeMap α β) (k : α) :
    (u.toList.foldl (fun t entry => t.insertIfNew entry.1 entry.2) t)[k]? = t[k]?.or u[k]? := by
  rw [getElem?_foldl_insertIfNew, find?_toList]

/-- Entries with distinct keys, inserted one after the other. -/
theorem getElem?_foldl_insert (entries : List (α × β)) (t : ExtTreeMap α β) (k : α)
    (distinct : (entries.map Prod.fst).Nodup) :
    (entries.foldl (fun t entry => t.insert entry.1 entry.2) t)[k]? =
      ((entries.find? fun entry => entry.1 = k).map Prod.snd).or t[k]? := by
  induction entries generalizing t with
  | nil => simp
  | cons entry entries ih =>
      rw [List.map_cons, List.nodup_cons] at distinct
      rw [List.foldl_cons, ih _ distinct.2, getElem?_insert, List.find?_cons]
      by_cases same : entry.1 = k
      · have absent : entries.find? (fun entry => entry.1 = k) = none := by
          rw [List.find?_eq_none]
          intro other mem equal
          exact distinct.1 (same ▸ of_decide_eq_true equal ▸ List.mem_map_of_mem mem)
        simp [same, absent]
      · simp [same]

omit [DecidableEq α]

theorem mem_insert {t : ExtTreeSet α} {k a : α} : a ∈ t.insert k ↔ a = k ∨ a ∈ t := by
  rw [ExtTreeSet.mem_insert, LawfulEqCmp.compare_eq_iff_eq, eq_comm]

theorem mem_erase {t : ExtTreeSet α} {k a : α} : a ∈ t.erase k ↔ a ≠ k ∧ a ∈ t := by
  rw [ExtTreeSet.mem_erase, ne_eq, LawfulEqCmp.compare_eq_iff_eq, eq_comm]

theorem mem_foldl_insert {keys : List α} {t : ExtTreeSet α} {a : α} :
    a ∈ keys.foldl (fun t key => t.insert key) t ↔ a ∈ keys ∨ a ∈ t := by
  induction keys generalizing t with
  | nil => simp
  | cons key keys ih =>
      rw [List.foldl_cons, ih, mem_insert, List.mem_cons]
      constructor
      · rintro (later | same | before)
        · exact .inl (.inr later)
        · exact .inl (.inl same)
        · exact .inr before
      · rintro ((same | later) | before)
        · exact .inr (.inl same)
        · exact .inl later
        · exact .inr (.inr before)

theorem nodup_toList (t : ExtTreeSet α) : t.toList.Nodup :=
  t.distinct_toList.imp fun h => by simpa using h

end OrderedMap
