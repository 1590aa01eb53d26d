import Mathlib.Data.Nat.Digits.Lemmas

/-!
Byte strings as the C and C++ standard libraries see them: the `<cctype>`
classes of the "C" locale, unsigned decimal printing and `std::from_chars`, and
splitting at a delimiter with `std::getline`, where one at the end opens no item.
Nothing here knows a protocol.
-/

namespace Text

abbrev Bytes := List UInt8

/-- The bytes of an ASCII literal. -/
def ascii (s : String) : Bytes := s.toList.map fun c => c.toNat.toUInt8

def isCntrl (c : UInt8) : Bool := c < 32 || c == 127

def isSpace (c : UInt8) : Bool := c == 32 || (9 ≤ c && c ≤ 13)

def isDigit (c : UInt8) : Bool := 48 ≤ c && c ≤ 57

def isUpper (c : UInt8) : Bool := 65 ≤ c && c ≤ 90

def isLower (c : UInt8) : Bool := 97 ≤ c && c ≤ 122

def isAlnum (c : UInt8) : Bool := isDigit c || isUpper c || isLower c

def isXDigit (c : UInt8) : Bool :=
  isDigit c || (65 ≤ c && c ≤ 70) || (97 ≤ c && c ≤ 102)

def toLower (c : UInt8) : UInt8 := if isUpper c then c + 32 else c

def toUpper (c : UInt8) : UInt8 := if isLower c then c - 32 else c

/-- `std::to_string` of an unsigned number. -/
def toDecimal (n : Nat) : Bytes :=
  if n = 0 then [48] else (Nat.digits 10 n).reverse.map fun d => UInt8.ofNat (48 + d)

def decimalValue (digits : Bytes) : Nat :=
  digits.foldl (fun value c => value * 10 + (c.toNat - 48)) 0

/-- `std::from_chars` into an unsigned type of the given width: the value and
the text after the last digit, or nothing when the error code is set. -/
def fromChars (width : Nat) (text : Bytes) : Option (Nat × Bytes) :=
  let digits := text.takeWhile isDigit
  if digits = [] then none
  else if decimalValue digits < 2 ^ width then
    some (decimalValue digits, text.dropWhile isDigit)
  else none

/-- `text.find(c, start)`. -/
def findFrom (text : Bytes) (c : UInt8) (start : Nat) : Option Nat :=
  ((text.drop start).idxOf? c).map (· + start)

/-- `text.rfind(c)`. -/
def rfind : Bytes → UInt8 → Option Nat
  | [], _ => none
  | x :: text, c => ((rfind text c).map (· + 1)).or (if x = c then some 0 else none)

/-- `while (std::getline(ss, item, delim)) out.push_back(item);` -/
def split (delim : UInt8) : Bytes → List Bytes
  | [] => []
  | c :: rest =>
      if c = delim then [] :: split delim rest
      else
        match split delim rest with
        | [] => [[c]]
        | item :: more => (c :: item) :: more

/-- The lines of a file, as `std::getline` reads them. -/
abbrev lines (text : Bytes) : List Bytes := split 10 text

/-- Every byte can be checked by running through the 256 values. -/
theorem forall_byte {P : UInt8 → Prop} (h : ∀ n < 256, P (UInt8.ofNat n)) (c : UInt8) : P c := by
  have := h c.toNat c.toNat_lt
  rwa [UInt8.ofNat_toNat] at this

section Decimal

theorem toDecimal_ne_nil (n : Nat) : toDecimal n ≠ [] := by
  unfold toDecimal
  split
  · simp
  · next h => simpa using Nat.digits_ne_nil_iff_ne_zero.mpr h

theorem toDecimal_isDigit {n : Nat} {c : UInt8} (h : c ∈ toDecimal n) : isDigit c = true := by
  unfold toDecimal at h
  split at h
  · obtain rfl := List.mem_singleton.mp h
    rfl
  · obtain ⟨d, hd, rfl⟩ := List.mem_map.mp h
    have small : d < 10 := Nat.digits_lt_base (by omega) (List.mem_reverse.mp hd)
    have all : ∀ d < 10, isDigit (UInt8.ofNat (48 + d)) = true := by decide
    exact all d small

/-- A number below a power of ten has no more digits than that. -/
theorem length_toDecimal_le {n k : Nat} (pos : 0 < k) (h : n < 10 ^ k) :
    (toDecimal n).length ≤ k := by
  unfold toDecimal
  split
  · exact pos
  · simpa using (Nat.digits_length_le_iff (by omega) n).mpr h

theorem decimalValue_digits (ds : List Nat) (h : ∀ d ∈ ds, d < 10) :
    decimalValue (ds.reverse.map fun d => UInt8.ofNat (48 + d)) = Nat.ofDigits 10 ds := by
  unfold decimalValue
  rw [List.foldl_map, List.foldl_reverse]
  induction ds with
  | nil => rfl
  | cons d ds ih =>
      have small : d < 10 := h d (by simp)
      have value : (UInt8.ofNat (48 + d)).toNat - 48 = d := by
        simp only [UInt8.toNat_ofNat']
        omega
      rw [List.foldr_cons, ih fun x hx => h x (by simp [hx]), value, Nat.ofDigits_cons]
      omega

theorem decimalValue_toDecimal (n : Nat) : decimalValue (toDecimal n) = n := by
  unfold toDecimal
  split
  · next h => rw [h]; rfl
  · rw [decimalValue_digits _ fun d hd => Nat.digits_lt_base (by omega) hd,
      Nat.ofDigits_digits]

theorem toDecimal_injective : Function.Injective toDecimal := by
  intro m n same
  rw [← decimalValue_toDecimal m, same, decimalValue_toDecimal]

theorem takeWhile_toDecimal (n : Nat) : (toDecimal n).takeWhile isDigit = toDecimal n := by
  have all : ∀ c ∈ toDecimal n, isDigit c = true := fun _ h => toDecimal_isDigit h
  simpa using @List.takeWhile_append_of_pos _ isDigit (toDecimal n) [] all

theorem dropWhile_toDecimal (n : Nat) : (toDecimal n).dropWhile isDigit = [] := by
  have all : ∀ c ∈ toDecimal n, isDigit c = true := fun _ h => toDecimal_isDigit h
  simpa using @List.dropWhile_append_of_pos _ isDigit (toDecimal n) [] all

/-- Printing and reading back, whenever the number fits the type read into. -/
theorem fromChars_toDecimal {width n : Nat} (h : n < 2 ^ width) :
    fromChars width (toDecimal n) = some (n, []) := by
  simp only [fromChars, takeWhile_toDecimal, dropWhile_toDecimal, toDecimal_ne_nil,
    decimalValue_toDecimal, h, if_true, if_false]

theorem not_mem_toDecimal {n : Nat} {c : UInt8} (h : isDigit c = false) : c ∉ toDecimal n := by
  intro hc
  rw [toDecimal_isDigit hc] at h
  cases h

end Decimal

section Fields

theorem idxOf?_append_cons {c : UInt8} {a : Bytes} (h : c ∉ a) (b : Bytes) :
    (a ++ c :: b).idxOf? c = some a.length := by
  induction a with
  | nil => simp [List.idxOf?_cons]
  | cons x xs ih =>
      simp only [List.mem_cons, not_or] at h
      have hx : (x == c) = false := by simpa using fun e => h.1 e.symm
      simp [List.idxOf?_cons, hx, ih h.2]

/-- The index of a byte is that of its first occurrence. -/
theorem not_mem_take_of_idxOf? {c : UInt8} {text : Bytes} {i : Nat}
    (h : text.idxOf? c = some i) : c ∉ text.take i := by
  obtain ⟨_, -, before⟩ := List.idxOf?_eq_some_iff.mp h
  intro mem
  obtain ⟨j, hj, same⟩ := List.mem_take_iff_getElem.mp mem
  exact before j (by omega) same

theorem idxOf?_eq_none {c : UInt8} {a : Bytes} (h : c ∉ a) : a.idxOf? c = none :=
  List.idxOf?_eq_none_iff.mpr h

/-- A string that contains a delimiter splits around its first occurrence. -/
theorem exists_first_delimiter {c : UInt8} {text : Bytes} (h : c ∈ text) :
    ∃ a b, text = a ++ c :: b ∧ c ∉ a := by
  induction text with
  | nil => cases h
  | cons x xs ih =>
      by_cases hx : x = c
      · exact ⟨[], xs, by simp [hx], by simp⟩
      · have hxs : c ∈ xs := by simpa [Ne.symm hx] using h
        obtain ⟨a, b, rfl, ha⟩ := ih hxs
        exact ⟨x :: a, b, rfl, by simp [Ne.symm hx, ha]⟩

/-- The text before the first delimiter is determined by the whole string. -/
theorem first_delimiter_unique {c : UInt8} {a a' b b' : Bytes} (ha : c ∉ a) (ha' : c ∉ a')
    (h : a ++ c :: b = a' ++ c :: b') : a = a' ∧ b = b' := by
  have hi := idxOf?_append_cons ha b
  rw [h, idxOf?_append_cons ha' b'] at hi
  have hl : a'.length = a.length := by simpa using hi
  have := List.append_inj h hl.symm
  exact ⟨this.1, (List.cons.inj this.2).2⟩

theorem rfind_eq_none {text : Bytes} {c : UInt8} : rfind text c = none ↔ c ∉ text := by
  induction text with
  | nil => simp [rfind]
  | cons x text ih =>
      rw [rfind, Option.or_eq_none_iff, Option.map_eq_none_iff, ih, List.mem_cons, not_or]
      by_cases same : x = c
      · simp [same]
      · simp [same, Ne.symm same]

/-- The last delimiter splits a string. -/
theorem rfind_eq_some {text : Bytes} {c : UInt8} {i : Nat} (h : rfind text c = some i) :
    text = text.take i ++ c :: text.drop (i + 1) ∧ c ∉ text.drop (i + 1) := by
  induction text generalizing i with
  | nil => cases h
  | cons x text ih =>
      rw [rfind, Option.or_eq_some_iff, Option.map_eq_some_iff, Option.map_eq_none_iff] at h
      obtain ⟨j, later, rfl⟩ | ⟨last, here⟩ := h
      · obtain ⟨whole, after⟩ := ih later
        refine ⟨?_, after⟩
        rw [List.take_succ_cons, List.drop_succ_cons, List.cons_append, ← whole]
      · split at here
        · next same =>
            obtain rfl := Option.some.inj here
            exact ⟨by rw [same]; rfl, rfind_eq_none.mp last⟩
        · cases here

end Fields

section Split

variable {delim : UInt8} {item rest : Bytes}

theorem split_item (h : delim ∉ item) : split delim (item ++ delim :: rest) =
    item :: split delim rest := by
  induction item with
  | nil => simp [split]
  | cons c item ih =>
      simp only [List.mem_cons, not_or] at h
      rw [List.cons_append, split, if_neg (Ne.symm h.1), ih h.2]

theorem split_last (h : delim ∉ item) (some : item ≠ []) : split delim item = [item] := by
  induction item with
  | nil => exact absurd rfl some
  | cons c item ih =>
      simp only [List.mem_cons, not_or] at h
      rw [split, if_neg (Ne.symm h.1)]
      cases item with
      | nil => rfl
      | cons d item => rw [ih h.2 (List.cons_ne_nil d item)]

theorem not_mem_of_mem_split {text : Bytes} (h : item ∈ split delim text) : delim ∉ item := by
  induction text generalizing item with
  | nil => cases h
  | cons c text ih =>
      rw [split] at h
      split at h
      · obtain rfl | h := List.mem_cons.mp h
        · exact List.not_mem_nil
        · exact ih h
      · next hc =>
          split at h
          · obtain rfl := List.mem_singleton.mp h
            simpa using Ne.symm hc
          · next first more hsplit =>
              obtain rfl | h := List.mem_cons.mp h
              · have := ih (hsplit ▸ List.mem_cons_self)
                simpa [Ne.symm hc] using this
              · exact ih (hsplit ▸ List.mem_cons_of_mem first h)

/-- The first field ends at the first delimiter. -/
theorem split_eq_cons {text : Bytes} {fields : List Bytes} (h : split delim text = item :: fields) :
    delim ∉ item ∧ (text = item ∨ ∃ rest, text = item ++ delim :: rest) := by
  refine ⟨not_mem_of_mem_split (h ▸ List.mem_cons_self), ?_⟩
  by_cases member : delim ∈ text
  · obtain ⟨first, rest, rfl, whole⟩ := exists_first_delimiter member
    rw [split_item whole] at h
    obtain ⟨rfl, -⟩ := List.cons.inj h
    exact .inr ⟨rest, rfl⟩
  · cases text with
    | nil => cases h
    | cons c text =>
        rw [split_last member (List.cons_ne_nil c text)] at h
        exact .inl (List.cons.inj h).1

/-- At a delimiter the reading may be taken up again. -/
theorem split_append_end (text rest : Bytes) :
    split delim (text ++ delim :: rest) = split delim (text ++ [delim]) ++ split delim rest := by
  induction text with
  | nil => simp [split]
  | cons c text ih =>
      rw [List.cons_append, List.cons_append, split, split]
      split
      · rw [ih, List.cons_append]
      · rw [ih]
        cases first : split delim (text ++ [delim]) with
        | nil =>
            cases text with
            | nil => simp [split] at first
            | cons d text =>
                rw [List.cons_append, split] at first
                split at first
                · cases first
                · split at first <;> cases first
        | cons item more => rfl

/-- What was written item by item is read item by item. -/
theorem split_flatMap {α : Type} (write : α → Bytes) (items : List α)
    (h : ∀ item ∈ items, delim ∉ write item) :
    split delim (items.flatMap fun item => write item ++ [delim]) = items.map write := by
  induction items with
  | nil => rfl
  | cons item items ih =>
      have whole := h item List.mem_cons_self
      rw [List.flatMap_cons, List.append_assoc, List.singleton_append, split_item whole,
        ih fun other member => h other (List.mem_cons_of_mem item member), List.map_cons]

end Split

end Text
