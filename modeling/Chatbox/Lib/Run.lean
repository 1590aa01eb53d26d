import Mathlib.Data.List.Induction

/-!
Runs of a deterministic system that may refuse an input, and the induction rules
over them: what every step keeps, every run keeps.
-/

namespace Run

variable {σ ι : Type} (step : σ → ι → Option σ)

def run : σ → List ι → Option σ
  | s, [] => some s
  | s, i :: is => (step s i).bind fun s' => run s' is

/-- Every step of the run is taken from a state and an input that satisfy `P`. -/
def Always (P : σ → ι → Prop) : σ → List ι → Prop
  | _, [] => True
  | s, i :: is => P s i ∧ ∀ s', step s i = some s' → Always P s' is

/-- What the steps of a run put out, one after the other. -/
def outputs {α : Type} (out : σ → ι → List α) : σ → List ι → List α
  | _, [] => []
  | s, i :: is => out s i ++ (step s i).elim [] fun s' => outputs out s' is

instance decidableAlways (P : σ → ι → Prop) [∀ s i, Decidable (P s i)] :
    ∀ s is, Decidable (Always step P s is)
  | _, [] => isTrue trivial
  | s, i :: is =>
      match h : step s i with
      | none => decidable_of_iff (P s i) (by simp [Always, h])
      | some s' =>
          have := decidableAlways P s' is
          decidable_of_iff (P s i ∧ Always step P s' is) (by simp [Always, h])

variable {step}

theorem run_cons {s s' : σ} {i : ι} {is : List ι} :
    run step s (i :: is) = some s' ↔ ∃ m, step s i = some m ∧ run step m is = some s' := by
  simp [run, Option.bind_eq_some_iff]

theorem run_append {s s' : σ} {is js : List ι} :
    run step s (is ++ js) = some s' ↔ ∃ m, run step s is = some m ∧ run step m js = some s' := by
  induction is generalizing s with
  | nil => simp [run]
  | cons i is ih =>
      simp only [List.cons_append, run_cons, ih]
      constructor
      · rintro ⟨a, ha, b, hb, h⟩
        exact ⟨b, ⟨a, ha, hb⟩, h⟩
      · rintro ⟨b, ⟨a, ha, hb⟩, h⟩
        exact ⟨a, ha, b, hb, h⟩

theorem run_snoc {s s' : σ} {is : List ι} {i : ι} :
    run step s (is ++ [i]) = some s' ↔ ∃ m, run step s is = some m ∧ step m i = some s' := by
  simp [run_append, run]

/-- A relation that every good step satisfies, reflexive and transitive, holds
from one end of a good run to the other. -/
theorem run_relation_of {R : σ → σ → Prop} {P : σ → ι → Prop} (refl : ∀ s, R s s)
    (trans : ∀ a b c, R a b → R b c → R a c)
    (keeps : ∀ s i s', P s i → step s i = some s' → R s s')
    {s s' : σ} {is : List ι} (good : Always step P s is) (h : run step s is = some s') :
    R s s' := by
  induction is generalizing s with
  | nil =>
      obtain rfl : s = s' := by simpa [run] using h
      exact refl s
  | cons i is ih =>
      obtain ⟨m, hm, h⟩ := run_cons.mp h
      exact trans _ _ _ (keeps s i m good.1 hm) (ih (good.2 m hm) h)

/-- What every good step keeps holds after a good run if it holds before. -/
theorem run_invariant_of {Inv : σ → Prop} {P : σ → ι → Prop}
    (keeps : ∀ s i s', Inv s → P s i → step s i = some s' → Inv s')
    {s s' : σ} {is : List ι} (good : Always step P s is) (h : run step s is = some s')
    (start : Inv s) : Inv s' :=
  run_relation_of (fun _ => id) (fun _ _ _ hab hbc ha => hbc (hab ha))
    (fun s i s' hp hs hi => keeps s i s' hi hp hs) good h start

theorem always_true (s : σ) (is : List ι) : Always step (fun _ _ => True) s is := by
  induction is generalizing s with
  | nil => trivial
  | cons i is ih => exact ⟨trivial, fun s' _ => ih s'⟩

theorem always_of_forall {P : ι → Prop} {s : σ} {is : List ι} (h : ∀ i ∈ is, P i) :
    Always step (fun _ i => P i) s is := by
  induction is generalizing s with
  | nil => trivial
  | cons i is ih =>
      exact ⟨h i List.mem_cons_self, fun _ _ => ih fun j hj => h j (List.mem_cons_of_mem i hj)⟩

theorem Always.mono {P Q : σ → ι → Prop} (weaker : ∀ s i, P s i → Q s i) {s : σ} {is : List ι}
    (h : Always step P s is) : Always step Q s is := by
  induction is generalizing s with
  | nil => trivial
  | cons i is ih => exact ⟨weaker s i h.1, fun s' hs => ih (h.2 s' hs)⟩

theorem run_relation {R : σ → σ → Prop} (refl : ∀ s, R s s)
    (trans : ∀ a b c, R a b → R b c → R a c)
    (keeps : ∀ s i s', step s i = some s' → R s s')
    {s s' : σ} {is : List ι} (h : run step s is = some s') : R s s' :=
  run_relation_of refl trans (fun s i s' _ => keeps s i s') (always_true s is) h

theorem run_invariant {Inv : σ → Prop}
    (keeps : ∀ s i s', Inv s → step s i = some s' → Inv s')
    {s s' : σ} {is : List ι} (h : run step s is = some s') (start : Inv s) : Inv s' :=
  run_invariant_of (fun s i s' hi _ => keeps s i s' hi) (always_true s is) h start

section Outputs

variable {α : Type} {out : σ → ι → List α}

theorem outputs_append {s s' : σ} {is : List ι} (h : run step s is = some s') (js : List ι) :
    outputs step out s (is ++ js) = outputs step out s is ++ outputs step out s' js := by
  induction is generalizing s with
  | nil =>
      obtain rfl : s = s' := by simpa [run] using h
      rfl
  | cons i is ih =>
      obtain ⟨m, hm, h⟩ := run_cons.mp h
      simp only [List.cons_append, outputs, hm, Option.elim_some, ih h, List.append_assoc]

theorem outputs_snoc {s s' : σ} {is : List ι} (h : run step s is = some s') (i : ι) :
    outputs step out s (is ++ [i]) = outputs step out s is ++ out s' i := by
  have last : outputs step out s' [i] = out s' i := by
    cases next : step s' i <;> simp [outputs, next]
  rw [outputs_append h, last]

/-- What every step keeps, together with what it puts out, every run keeps. -/
theorem run_outputs {Inv : σ → List α → Prop}
    (keeps : ∀ s done i s', Inv s done → step s i = some s' → Inv s' (done ++ out s i))
    {s s' : σ} {is : List ι} (h : run step s is = some s') (start : Inv s []) :
    Inv s' (outputs step out s is) := by
  induction is using List.reverseRecOn generalizing s' with
  | nil =>
      obtain rfl : s = s' := by simpa [run] using h
      exact start
  | append_singleton is i ih =>
      obtain ⟨m, hm, hs⟩ := run_snoc.mp h
      rw [outputs_snoc hm]
      exact keeps m _ i s' (ih hm) hs

end Outputs

/-- Where a bad step leads to `Bad` and `Bad` stays, a run is good or ends there. -/
theorem run_always_or {Inv Bad : σ → Prop} {P : σ → ι → Prop} [∀ s i, Decidable (P s i)]
    (keeps : ∀ s i s', Inv s → step s i = some s' → Inv s')
    (falls : ∀ s i s', Inv s → ¬ P s i → step s i = some s' → Bad s')
    (stays : ∀ s i s', Bad s → step s i = some s' → Bad s')
    {s s' : σ} {is : List ι} (h : run step s is = some s') (start : Inv s) :
    Always step P s is ∨ Bad s' := by
  induction is generalizing s with
  | nil => exact .inl trivial
  | cons i is ih =>
      obtain ⟨m, hm, h⟩ := run_cons.mp h
      by_cases good : P s i
      · refine (ih h (keeps s i m start hm)).imp (fun rest => ⟨good, fun m' hm' => ?_⟩) id
        obtain rfl : m = m' := Option.some.inj (hm.symm.trans hm')
        exact rest
      · exact .inr (run_invariant stays h (falls s i m start good hm))

/-- Where a step turns out bad exactly when it is, and `Bad` stays, a run from a state that is
not bad is good exactly when its end is not. -/
theorem run_always_iff {Inv Bad : σ → Prop} {P : σ → ι → Prop}
    (keeps : ∀ s i s', Inv s → step s i = some s' → Inv s')
    (turns : ∀ s i s', Inv s → step s i = some s' → (Bad s' ↔ Bad s ∨ ¬ P s i))
    {s s' : σ} {is : List ι} (h : run step s is = some s') (start : Inv s) :
    ¬ Bad s ∧ Always step P s is ↔ ¬ Bad s' := by
  induction is generalizing s with
  | nil =>
      obtain rfl : s = s' := by simpa [run] using h
      exact and_iff_left trivial
  | cons i is ih =>
      obtain ⟨m, hm, h⟩ := run_cons.mp h
      rw [← ih h (keeps s i m start hm), turns s i m start hm, not_or, not_not, and_assoc]
      refine and_congr_right fun _ => and_congr_right fun _ => ⟨fun rest => rest m hm, ?_⟩
      intro rest m' hm'
      obtain rfl : m = m' := Option.some.inj (hm.symm.trans hm')
      exact rest

/-- What every step asks of its input holds of all inputs of a run. -/
theorem run_forall {P : ι → Prop} (needs : ∀ s i s', step s i = some s' → P i) {s s' : σ}
    {is : List ι} (h : run step s is = some s') : ∀ i ∈ is, P i := by
  induction is generalizing s with
  | nil => simp
  | cons i is ih =>
      obtain ⟨m, hm, h⟩ := run_cons.mp h
      intro j member
      obtain rfl | member := List.mem_cons.mp member
      · exact needs s j m hm
      · exact ih h j member

/-- Where a second system matches every step, it matches every run. -/
theorem run_simulation {τ : Type} {step' : τ → ι → Option τ} {R : σ → τ → Prop}
    (matched : ∀ a b i a', R a b → step a i = some a' → ∃ b', step' b i = some b' ∧ R a' b')
    {a a' : σ} {b : τ} {is : List ι} (h : run step a is = some a') (start : R a b) :
    ∃ b', run step' b is = some b' ∧ R a' b' := by
  induction is generalizing a b with
  | nil =>
      obtain rfl : a = a' := by simpa [run] using h
      exact ⟨b, rfl, start⟩
  | cons i is ih =>
      obtain ⟨m, hm, h⟩ := run_cons.mp h
      obtain ⟨n, hn, related⟩ := matched a b i m start hm
      obtain ⟨b', hb', related'⟩ := ih h related
      exact ⟨b', run_cons.mpr ⟨n, hn, hb'⟩, related'⟩

/-- Where a second system matches every step by a run of its own, it matches every run. -/
theorem run_expansion {τ κ : Type} {step' : τ → κ → Option τ} {R : σ → τ → Prop}
    (steps : ι → List κ)
    (matched : ∀ a b i a', R a b → step a i = some a' →
      ∃ b', run step' b (steps i) = some b' ∧ R a' b')
    {a a' : σ} {b : τ} {is : List ι} (h : run step a is = some a') (start : R a b) :
    ∃ b', run step' b (is.flatMap steps) = some b' ∧ R a' b' := by
  induction is generalizing a b with
  | nil =>
      obtain rfl : a = a' := by simpa [run] using h
      exact ⟨b, rfl, start⟩
  | cons i is ih =>
      obtain ⟨m, hm, h⟩ := run_cons.mp h
      obtain ⟨n, hn, related⟩ := matched a b i m start hm
      obtain ⟨b', hb', related'⟩ := ih h related
      rw [List.flatMap_cons]
      exact ⟨b', run_append.mpr ⟨n, hn, hb'⟩, related'⟩

end Run
