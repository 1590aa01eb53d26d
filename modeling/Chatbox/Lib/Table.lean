import Mathlib.Data.List.Nodup

/-!
Tables with a unique key as lists of rows, and the statements that change them:
insert or update, update, delete. Each keeps the keys distinct, and says of every key
what row is found afterwards.
-/

namespace Table

variable {ρ κ : Type} [DecidableEq κ] (key : ρ → κ)

/-- The row with the key, if there is one. -/
def find (k : κ) (rows : List ρ) : Option ρ := rows.find? fun row => key row = k

/-- `INSERT … ON CONFLICT(key) DO UPDATE`: the old row is merged with the new one. -/
def upsert (merge : ρ → ρ → ρ) (row : ρ) : List ρ → List ρ
  | [] => [row]
  | old :: rows => if key old = key row then merge old row :: rows else old :: upsert merge row rows

/-- `INSERT OR IGNORE` -/
def insert (rows : List ρ) (row : ρ) : List ρ :=
  if key row ∈ rows.map key then rows else rows ++ [row]

/-- The number of rows that `INSERT OR IGNORE` changes. -/
def changes (rows : List ρ) (row : ρ) : Nat := if key row ∈ rows.map key then 0 else 1

/-- The entries that are inserted when all are, one after the other. -/
def fresh (rows : List ρ) : List ρ → List ρ
  | [] => []
  | entry :: entries =>
      if key entry ∈ rows.map key then fresh rows entries
      else entry :: fresh (rows ++ [entry]) entries

/-- `UPDATE … WHERE key = k` -/
def update (k : κ) (change : ρ → ρ) (rows : List ρ) : List ρ :=
  rows.map fun row => if key row = k then change row else row

/-- `DELETE … WHERE key = k` -/
def remove (k : κ) (rows : List ρ) : List ρ := rows.filter fun row => key row ≠ k

variable {key} {k : κ} {row : ρ} {rows rows' : List ρ} {merge : ρ → ρ → ρ} {change : ρ → ρ}

section Find

theorem find_some (h : find key k rows = some row) : row ∈ rows ∧ key row = k :=
  ⟨List.mem_of_find?_eq_some h, by simpa using List.find?_some h⟩

theorem find_none : find key k rows = none ↔ k ∉ rows.map key := by
  simp [find, List.find?_eq_none]

/-- Among distinct keys the row with a key is found. -/
theorem find_of_mem (unique : (rows.map key).Nodup) (h : row ∈ rows) :
    find key (key row) rows = some row := by
  cases found : find key (key row) rows with
  | none => exact absurd (List.mem_map_of_mem h) (find_none.mp found)
  | some row' =>
      obtain ⟨hrow', same⟩ := find_some found
      rw [List.inj_on_of_nodup_map unique hrow' h same]

theorem find_iff (unique : (rows.map key).Nodup) :
    find key k rows = some row ↔ row ∈ rows ∧ key row = k := by
  constructor
  · exact find_some
  · rintro ⟨h, rfl⟩
    exact find_of_mem unique h

/-- Where the rows are stored does not matter. -/
theorem find_perm (perm : rows.Perm rows') (unique : (rows.map key).Nodup) :
    find key k rows = find key k rows' := by
  have unique' : (rows'.map key).Nodup := ((perm.map key).nodup_iff).mp unique
  apply Option.ext
  intro row
  rw [find_iff unique, find_iff unique', perm.mem_iff]

end Find

section Upsert

omit [DecidableEq κ] in
theorem append_nodup (unique : (rows.map key).Nodup) (absent : key row ∉ rows.map key) :
    ((rows ++ [row]).map key).Nodup := by
  rw [List.map_append, List.nodup_append]
  refine ⟨unique, by simp, ?_⟩
  rintro a ha b hb rfl
  obtain rfl : a = key row := by simpa using hb
  exact absent ha

theorem upsert_keys (kept : ∀ old row, key (merge old row) = key old) :
    (upsert key merge row rows).map key =
      if key row ∈ rows.map key then rows.map key else rows.map key ++ [key row] := by
  induction rows with
  | nil => simp [upsert]
  | cons old rows ih =>
      by_cases same : key old = key row
      · simp [upsert, same, kept]
      · have other : ¬ key row = key old := fun e => same e.symm
        simp only [upsert, same, if_false, List.map_cons, ih, List.mem_cons, other, false_or]
        split <;> rfl

theorem upsert_nodup (kept : ∀ old row, key (merge old row) = key old)
    (unique : (rows.map key).Nodup) : ((upsert key merge row rows).map key).Nodup := by
  rw [upsert_keys kept]
  split
  · exact unique
  · next absent =>
      have added := append_nodup unique absent
      rwa [List.map_append] at added

theorem mem_upsert_keys (kept : ∀ old row, key (merge old row) = key old)
    (h : k ∈ rows.map key) : k ∈ (upsert key merge row rows).map key := by
  rw [upsert_keys kept]
  split
  · exact h
  · exact List.mem_append_left _ h

theorem mem_upsert {row' : ρ} (h : row' ∈ upsert key merge row rows) :
    row' ∈ rows ∨ row' = row ∨ ∃ old ∈ rows, row' = merge old row := by
  induction rows with
  | nil => exact .inr (.inl (List.mem_singleton.mp h))
  | cons old rows ih =>
      rw [upsert] at h
      split at h
      · obtain rfl | h := List.mem_cons.mp h
        · exact .inr (.inr ⟨old, List.mem_cons_self, rfl⟩)
        · exact .inl (List.mem_cons_of_mem old h)
      · obtain rfl | h := List.mem_cons.mp h
        · exact .inl List.mem_cons_self
        · obtain before | same | ⟨old', mem, merged⟩ := ih h
          · exact .inl (List.mem_cons_of_mem old before)
          · exact .inr (.inl same)
          · exact .inr (.inr ⟨old', List.mem_cons_of_mem old mem, merged⟩)

theorem find_upsert (kept : ∀ old row, key (merge old row) = key old) :
    find key k (upsert key merge row rows) =
      if key row = k then some ((find key k rows).elim row fun old => merge old row)
      else find key k rows := by
  induction rows with
  | nil =>
      by_cases same : key row = k
      · simp [upsert, find, same]
      · simp [upsert, find, same]
  | cons old rows ih =>
      unfold find at ih ⊢
      by_cases same : key old = key row
      · by_cases hk : key row = k
        · simp [upsert, same, kept, hk]
        · simp [upsert, same, kept, hk]
      · by_cases hk : key old = k
        · have other : ¬ key row = k := fun e => same (hk.trans e.symm)
          rw [upsert, if_neg same]
          simp [hk, other]
        · rw [upsert, if_neg same]
          simpa [hk] using ih

end Upsert

section Insert

variable {entry : ρ} {entries : List ρ}

theorem insert_nodup (unique : (rows.map key).Nodup) : ((insert key rows row).map key).Nodup := by
  unfold insert
  split
  · exact unique
  · next absent => exact append_nodup unique absent

theorem append_fresh : insert key rows entry ++ fresh key (insert key rows entry) entries =
    rows ++ fresh key rows (entry :: entries) := by
  rw [insert, fresh]
  split
  · rfl
  · rw [List.append_assoc, List.singleton_append]

/-- The first entry of each key that has no row is inserted, and no other. -/
theorem mem_fresh : row ∈ fresh key rows entries ↔
    key row ∉ rows.map key ∧ find key (key row) entries = some row := by
  induction entries generalizing rows with
  | nil => simp [fresh, find]
  | cons entry entries ih =>
      rw [fresh]
      by_cases there : key entry ∈ rows.map key
      · rw [if_pos there, ih]
        refine and_congr_right fun absent => ?_
        have other : ¬ key entry = key row := fun e => absent (e ▸ there)
        simp [find, other]
      · rw [if_neg there, List.mem_cons, ih]
        by_cases same : key entry = key row
        · have found : find key (key row) (entry :: entries) = some entry := by simp [find, same]
          rw [found, List.map_append, List.mem_append, ← same]
          simp [there, eq_comm]
        · have found : find key (key row) (entry :: entries) = find key (key row) entries := by
            simp [find, same]
          have other : row ≠ entry := fun e => same (e ▸ rfl)
          rw [found, List.map_append, List.mem_append]
          simp [other, Ne.symm same]

theorem fresh_nodup (unique : (rows.map key).Nodup) :
    ((rows ++ fresh key rows entries).map key).Nodup := by
  induction entries generalizing rows with
  | nil => simpa [fresh] using unique
  | cons entry entries ih =>
      rw [← append_fresh]
      exact ih (insert_nodup unique)

end Insert

section Update

theorem update_keys (kept : ∀ row, key (change row) = key row) :
    (update key k change rows).map key = rows.map key := by
  rw [update, List.map_map]
  apply List.map_congr_left
  intro row _
  simp only [Function.comp_apply]
  split
  · exact kept row
  · rfl

theorem mem_update {row' : ρ} (h : row' ∈ update key k change rows) :
    row' ∈ rows ∨ ∃ old ∈ rows, row' = change old := by
  obtain ⟨old, mem, rfl⟩ := List.mem_map.mp h
  split
  · exact .inr ⟨old, mem, rfl⟩
  · exact .inl mem

theorem find_update (kept : ∀ row, key (change row) = key row) (k' : κ) :
    find key k' (update key k change rows) =
      if k' = k then (find key k' rows).map change else find key k' rows := by
  induction rows with
  | nil => simp [update, find]
  | cons row rows ih =>
      unfold find update at ih ⊢
      by_cases hk : key row = k'
      · by_cases hk' : k' = k
        · simp [hk, hk', kept]
        · simp [hk, hk']
      · by_cases hr : key row = k
        · have other : ¬ k = k' := fun e => hk (hr.trans e)
          simpa [hr, kept, other, Ne.symm other] using ih
        · simpa [hk, hr] using ih

theorem remove_nodup (unique : (rows.map key).Nodup) : ((remove key k rows).map key).Nodup :=
  unique.sublist (List.filter_sublist.map key)

theorem find_remove (k' : κ) :
    find key k' (remove key k rows) = if k' = k then none else find key k' rows := by
  induction rows with
  | nil => simp [remove, find]
  | cons row rows ih =>
      unfold find remove at ih ⊢
      by_cases gone : key row = k
      · by_cases hk : k' = k
        · simp [hk]
        · have other : ¬ k = k' := fun e => hk e.symm
          simpa [gone, hk, other] using ih
      · by_cases hk : key row = k'
        · have other : ¬ k' = k := fun e => gone (hk.trans e)
          simp [hk, other]
        · simpa [gone, hk] using ih

end Update

end Table
