import Mathlib.Data.List.Nodup
import Mathlib.Data.List.TakeDrop

/-!
Logs whose entries are justified by what stands before them, and logs in which an entry's
key does not come twice.
-/

namespace Log

variable {α κ : Type} {just : List α → α → Prop} {log : List α} {entry : α}

/-- Every entry is justified by the entries before it. -/
def Justified (just : List α → α → Prop) (log : List α) : Prop :=
  ∀ before entry after, log = before ++ entry :: after → just before entry

theorem justified_nil : Justified just [] := fun before entry after h => by
  simp at h

theorem Justified.snoc (justified : Justified just log) (entry : α) (h : just log entry) :
    Justified just (log ++ [entry]) := by
  intro before other after same
  obtain rfl | ⟨front, last, rfl⟩ := List.eq_nil_or_concat after
  · obtain ⟨rfl, rfl⟩ := List.concat_inj.mp (by simpa using same)
    exact h
  · refine justified before other front ?_
    have : log ++ [entry] = (before ++ other :: front) ++ [last] := by simpa using same
    exact (List.append_inj' this rfl).1

/-- A new key may be added. -/
theorem nodup_filterMap_snoc {key : α → Option κ} (distinct : (log.filterMap key).Nodup)
    (fresh : ∀ k, key entry = some k → k ∉ log.filterMap key) :
    ((log ++ [entry]).filterMap key).Nodup := by
  rw [List.filterMap_append]
  cases h : key entry with
  | none => simpa [h] using distinct
  | some k =>
      rw [List.filterMap_cons_some h, List.filterMap_nil]
      exact List.nodup_append.mpr ⟨distinct, List.nodup_singleton k, fun a mem b last => by
        obtain rfl := List.mem_singleton.mp last
        rintro rfl
        exact fresh a h mem⟩

end Log
