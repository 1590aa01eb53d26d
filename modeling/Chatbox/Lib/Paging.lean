import Mathlib.Data.List.Sort
import Mathlib.Order.Basic

/-!
Reading a table page by page, the greatest rows first: a page is what lies below a
cursor, cut off at a limit, and the next cursor is the last row kept. One row more
than the limit is fetched to learn whether there is a next page. The rows may become
more between the pages as long as the new ones are above all the old ones.
-/

namespace Paging

variable {ρ κ : Type} [LinearOrder κ] (key : ρ → κ)

def descending (rows : List ρ) : List ρ := rows.insertionSort fun a b => key b ≤ key a

/-- The rows below the cursor, all of them without one. -/
def below (before : Option κ) (rows : List ρ) : List ρ :=
  match before with
  | none => rows
  | some cursor => rows.filter fun row => key row < cursor

def page (limit : Nat) (before : Option κ) (rows : List ρ) : List ρ × Option κ :=
  let fetched := (descending key (below key before rows)).take (limit + 1)
  if fetched.length > limit then
    (fetched.dropLast, fetched.dropLast.getLast?.map key)
  else (fetched, none)

/-- Page after page from the `i`th table on, until there is no next one. -/
def pages (limit : Nat) (rows : Nat → List ρ) : Nat → Nat → Option κ → Option (List (List ρ))
  | 0, _, _ => none
  | fuel + 1, i, before =>
      match page key limit before (rows i) with
      | (kept, none) => some [kept]
      | (kept, some cursor) => (pages limit rows fuel (i + 1) (some cursor)).map (kept :: ·)

/-- Rows have been added above all that were there. -/
def Grows (rows rows' : List ρ) : Prop :=
  ∃ new, rows'.Perm (new ++ rows) ∧ ∀ n ∈ new, ∀ o ∈ rows, key o < key n

section Order

variable {key} {rows rows' : List ρ}

theorem descending_perm : (descending key rows).Perm rows := List.perm_insertionSort _ rows

theorem descending_sorted : (descending key rows).Pairwise fun a b => key b ≤ key a := by
  have total : Std.Total fun a b : ρ => key b ≤ key a := ⟨fun a b => le_total (key b) (key a)⟩
  have trans : IsTrans ρ fun a b => key b ≤ key a := ⟨fun _ _ _ hab hbc => hbc.trans hab⟩
  exact List.pairwise_insertionSort _ rows

theorem descending_of_sorted (sorted : rows.Pairwise fun a b => key b ≤ key a) :
    descending key rows = rows := sorted.insertionSort_eq

/-- Rows with distinct keys are strictly ordered. -/
theorem descending_strict (unique : (rows.map key).Nodup) :
    (descending key rows).Pairwise fun a b => key b < key a := by
  have distinct : (descending key rows).Pairwise fun a b => key a ≠ key b := by
    rw [← @List.pairwise_map _ _ key (fun a b => a ≠ b)]
    exact ((descending_perm.map key).nodup_iff).mpr unique
  exact (descending_sorted.and distinct).imp fun h => lt_of_le_of_ne h.1 h.2.symm

/-- The order depends on the rows alone, not on where they are stored. -/
theorem descending_congr (perm : rows.Perm rows') (unique : (rows.map key).Nodup) :
    descending key rows = descending key rows' := by
  have same (a b : ρ) (ha : a ∈ descending key rows) (hb : b ∈ descending key rows')
      (hba : key b ≤ key a) (hab : key a ≤ key b) : a = b := by
    have hb' : b ∈ rows := perm.mem_iff.mpr (descending_perm.mem_iff.mp hb)
    exact List.inj_on_of_nodup_map unique (descending_perm.mem_iff.mp ha) hb'
      (le_antisymm hab hba)
  exact List.Perm.eq_of_pairwise same descending_sorted descending_sorted
    ((descending_perm.trans perm).trans descending_perm.symm)

/-- A row above all the others comes first. -/
theorem descending_append {row : ρ} (unique : ((rows ++ [row]).map key).Nodup)
    (above : ∀ old ∈ rows, key old < key row) :
    descending key (rows ++ [row]) = row :: descending key rows := by
  have perm : (rows ++ [row]).Perm (row :: descending key rows) :=
    List.perm_append_comm.trans (descending_perm.symm.cons row)
  rw [descending_congr perm unique]
  apply descending_of_sorted
  refine List.pairwise_cons.mpr ⟨?_, descending_sorted⟩
  intro old h
  exact (above old (descending_perm.mem_iff.mp h)).le

variable (key) in
/-- The greatest rows, at most `limit` of them, in ascending order. -/
def latest (limit : Nat) (rows : List ρ) : List ρ := ((descending key rows).take limit).reverse

/-- A row above all the others is put last, and the first one goes when there are too
many. -/
theorem latest_append {limit : Nat} {row : ρ} (positive : 0 < limit)
    (unique : ((rows ++ [row]).map key).Nodup) (above : ∀ old ∈ rows, key old < key row) :
    latest key limit (rows ++ [row]) =
      if (latest key limit rows ++ [row]).length > limit then
        (latest key limit rows ++ [row]).drop 1
      else latest key limit rows ++ [row] := by
  obtain ⟨limit, rfl⟩ := Nat.exists_eq_succ_of_ne_zero positive.ne'
  rw [latest, latest, descending_append unique above, List.take_succ_cons, List.reverse_cons]
  generalize descending key rows = sorted
  rw [List.length_append, List.length_reverse, List.length_take, List.length_singleton]
  by_cases full : limit < sorted.length
  · obtain ⟨last, hlast⟩ : ∃ last, sorted[limit]? = some last :=
      ⟨_, List.getElem?_eq_getElem full⟩
    rw [if_pos (by omega), List.take_add_one, hlast, Option.toList_some, List.reverse_append]
    rfl
  · rw [if_neg (by omega), List.take_of_length_le (by omega), List.take_of_length_le (by omega)]

end Order

namespace Grows

variable {key} {a b c : List ρ}

theorem refl (a : List ρ) : Grows key a a := ⟨[], .refl a, by simp⟩

theorem trans (hab : Grows key a b) (hbc : Grows key b c) : Grows key a c := by
  obtain ⟨new, hb, above⟩ := hab
  obtain ⟨new', hc, above'⟩ := hbc
  refine ⟨new' ++ new, ?_, fun n hn o ho => ?_⟩
  · rw [List.append_assoc]
    exact hc.trans (hb.append_left new')
  · rcases List.mem_append.mp hn with hn | hn
    · exact above' n hn o (hb.mem_iff.mpr (List.mem_append_right new ho))
    · exact above n hn o ho

theorem chain {rows : Nat → List ρ} (grows : ∀ i, Grows key (rows i) (rows (i + 1))) (i : Nat) :
    Grows key (rows 0) (rows i) := by
  induction i with
  | zero => exact refl (rows 0)
  | succ i ih => exact ih.trans (grows i)

end Grows

section Pages

variable {key} {rows rows' : List ρ} {limit : Nat}

/-- The rows below the last of an initial part are the rest. -/
theorem descending_below {done rest : List ρ} {last : ρ} (unique : (rows.map key).Nodup)
    (split : descending key rows = done ++ rest) (h : done.getLast? = some last) :
    descending key (below key (some (key last)) rows) = rest := by
  have strict := descending_strict unique
  rw [split, List.pairwise_append] at strict
  obtain ⟨sortedDone, sortedRest, apart⟩ := strict
  have atLast : last ∈ done := List.mem_of_getLast? h
  have kept : (done ++ rest).filter (fun row => decide (key row < key last)) = rest := by
    rw [List.filter_append, List.filter_eq_nil_iff.mpr, List.filter_eq_self.mpr, List.nil_append]
    · intro row hrow
      exact decide_eq_true (apart last atLast row hrow)
    · intro row hrow
      obtain ⟨front, rfl⟩ := List.getLast?_eq_some_iff.mp h
      rcases List.mem_append.mp hrow with hrow | hrow
      · have := (List.pairwise_append.mp sortedDone).2.2 row hrow last (by simp)
        simpa using this.le
      · simp [List.mem_singleton.mp hrow]
  have perm : (below key (some (key last)) rows).Perm rest := by
    have := (@descending_perm ρ κ _ key rows).symm.filter
      fun row => decide (key row < key last)
    rwa [split, kept] at this
  have uniqueBelow : ((below key (some (key last)) rows).map key).Nodup :=
    unique.sublist (List.filter_sublist.map key)
  rw [descending_congr perm uniqueBelow]
  exact descending_of_sorted (sortedRest.imp le_of_lt)

/-- New rows above the cursor's row do not show below the cursor. -/
theorem Grows.descending_below (grows : Grows key rows rows') (unique : (rows.map key).Nodup)
    {last : ρ} (h : last ∈ rows) :
    descending key (below key (some (key last)) rows') =
      descending key (below key (some (key last)) rows) := by
  obtain ⟨new, perm, above⟩ := grows
  have none : new.filter (fun row => decide (key row < key last)) = [] := by
    rw [List.filter_eq_nil_iff]
    intro row hrow
    simpa using (above row hrow last h).le
  have perm' : (below key (some (key last)) rows').Perm (below key (some (key last)) rows) := by
    have := perm.filter fun row => decide (key row < key last)
    rwa [List.filter_append, none, List.nil_append] at this
  have uniqueBelow : ((below key (some (key last)) rows).map key).Nodup :=
    unique.sublist (List.filter_sublist.map key)
  exact (descending_congr perm'.symm uniqueBelow).symm

/-- What a page is, when `rest` is what lies below the cursor. -/
theorem page_eq {before : Option κ} {rest : List ρ}
    (h : descending key (below key before rows) = rest) :
    page key limit before rows =
      if limit < rest.length then (rest.take limit, (rest.take limit).getLast?.map key)
      else (rest, none) := by
  unfold page
  simp only [h, List.length_take]
  by_cases more : limit < rest.length
  · have cut : (rest.take (limit + 1)).dropLast = rest.take limit := by
      rw [List.dropLast_eq_take, List.take_take, List.length_take]
      congr 1
      omega
    rw [if_pos (by omega), if_pos more, cut]
  · rw [if_neg (by omega), if_neg more, List.take_of_length_le (by omega)]

/-- The first page, read backwards, is what is newest. -/
theorem page_reverse {limit : Nat} :
    (page key limit none rows).1.reverse = latest key limit rows := by
  have whole : descending key (below key none rows) = descending key rows := rfl
  rw [page_eq whole, latest]
  split
  · rfl
  · next short => rw [List.take_of_length_le (Nat.le_of_not_lt short)]

/-- How far the reading has come: what has been read, and the cursor after it. -/
def Reached (key : ρ → κ) (i : Nat) (before : Option κ) (done : List ρ) : Prop :=
  (i = 0 ∧ before = none ∧ done = []) ∨
    ∃ last, done.getLast? = some last ∧ before = some (key last)

theorem Reached.descending_below {rows : Nat → List ρ} {i : Nat} {before : Option κ}
    {done rest : List ρ} (reached : Reached key i before done)
    (grows : ∀ i, Grows key (rows i) (rows (i + 1))) (unique : ((rows 0).map key).Nodup)
    (split : descending key (rows 0) = done ++ rest) :
    descending key (below key before (rows i)) = rest := by
  rcases reached with ⟨rfl, rfl, rfl⟩ | ⟨last, h, rfl⟩
  · exact split
  · have read : last ∈ rows 0 := by
      rw [← (@descending_perm ρ κ _ key (rows 0)).mem_iff, split]
      exact List.mem_append_left rest (List.mem_of_getLast? h)
    rw [(Grows.chain grows i).descending_below unique read]
    exact Paging.descending_below unique split h

/-- Reading on, with enough fuel, gives the rest in full pages but the last. -/
theorem pages_from {rows : Nat → List ρ} (grows : ∀ i, Grows key (rows i) (rows (i + 1)))
    (unique : ((rows 0).map key).Nodup) (positive : 0 < limit) {fuel i : Nat}
    {before : Option κ} {done rest : List ρ} (reached : Reached key i before done)
    (split : descending key (rows 0) = done ++ rest) (enough : rest.length < fuel) :
    ∃ read, pages key limit rows fuel i before = some read ∧ read ≠ [] ∧ read.flatten = rest ∧
      ∀ p ∈ read.dropLast, p.length = limit := by
  induction fuel generalizing i before done rest with
  | zero => omega
  | succ fuel ih =>
      have this := @page_eq ρ κ _ key (rows i) limit before rest
        (reached.descending_below grows unique split)
      by_cases more : limit < rest.length
      · have nonempty : rest.take limit ≠ [] := by
          apply List.ne_nil_of_length_pos
          rw [List.length_take]
          omega
        obtain ⟨last, hlast⟩ : ∃ last, (rest.take limit).getLast? = some last :=
          ⟨_, List.getLast?_eq_some_getLast nonempty⟩
        rw [if_pos more, hlast, Option.map_some] at this
        have reached' : Reached key (i + 1) (some (key last)) (done ++ rest.take limit) := by
          refine .inr ⟨last, ?_, rfl⟩
          rw [List.getLast?_append, hlast]
          rfl
        have split' : descending key (rows 0) = (done ++ rest.take limit) ++ rest.drop limit := by
          rw [split, List.append_assoc, List.take_append_drop]
        obtain ⟨read, hread, nonempty, hflat, hfull⟩ := ih reached' split' (by
          rw [List.length_drop]
          omega)
        refine ⟨rest.take limit :: read, ?_, by simp, ?_, ?_⟩
        · simp only [pages, this, hread, Option.map_some]
        · rw [List.flatten_cons, hflat, List.take_append_drop]
        · rw [List.dropLast_cons_of_ne_nil nonempty]
          intro p hp
          rcases List.mem_cons.mp hp with rfl | hp
          · rw [List.length_take]
            omega
          · exact hfull p hp
      · rw [if_neg more] at this
        exact ⟨[rest], by simp only [pages, this], by simp, by simp, by simp⟩

/-- All rows that were there at the first page come, each once, in descending order,
on full pages but the last. -/
theorem pages_all {rows : Nat → List ρ} (grows : ∀ i, Grows key (rows i) (rows (i + 1)))
    (unique : ((rows 0).map key).Nodup) (positive : 0 < limit) {fuel : Nat}
    (enough : (rows 0).length < fuel) :
    ∃ read, pages key limit rows fuel 0 none = some read ∧
      read.flatten = descending key (rows 0) ∧ ∀ p ∈ read.dropLast, p.length = limit := by
  have length : (descending key (rows 0)).length = (rows 0).length := descending_perm.length_eq
  obtain ⟨read, hread, -, hflat, hfull⟩ :=
    pages_from grows unique positive (.inl ⟨rfl, rfl, rfl⟩) (List.nil_append _).symm
      (length ▸ enough)
  exact ⟨read, hread, hflat, hfull⟩

end Pages

end Paging
