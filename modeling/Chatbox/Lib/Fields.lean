import Mathlib.Data.List.TakeWhile
import Chatbox.Lib.Text

/-!
Fields of a text: joining and searching them, and reading numbers from them as `std::stoi` and
`std::stoul` do.
-/

namespace Text

/-- `join_fields`: the fields from `start` on, with the delimiter between them. -/
def joinFields (fields : List Bytes) (start : Nat) (delim : UInt8) : Bytes :=
  [delim].intercalate (fields.drop start)

/-- `text.find_first_not_of(c, start)` -/
def findFirstNotOf (text : Bytes) (c : UInt8) (start : Nat) : Option Nat :=
  ((text.drop start).findIdx? (· != c)).map (· + start)

/-- `std::to_string` of a signed number. -/
def toDecimalInt (n : Int) : Bytes :=
  if n < 0 then 45 :: toDecimal n.natAbs else toDecimal n.natAbs

/-- The text without its sign. -/
def withoutSign : Bytes → Bytes
  | [] => []
  | c :: rest => if c = 45 ∨ c = 43 then rest else c :: rest

/-- `std::stoi`: the value and the number of characters consumed, nothing where it
throws. -/
def stoi (text : Bytes) : Option (Int × Nat) :=
  let number := text.dropWhile isSpace
  let digits := (withoutSign number).takeWhile isDigit
  let magnitude : Int := decimalValue digits
  let value := if number.head? = some 45 then -magnitude else magnitude
  if digits = [] then none
  else if value < -2147483648 ∨ 2147483647 < value then none
  else some (value, text.length - ((withoutSign number).length - digits.length))

/-- `std::stoul` into a 64-bit type, where a minus sign wraps around; nothing where it
throws. -/
def stoul (text : Bytes) : Option Nat :=
  let number := text.dropWhile isSpace
  let digits := (withoutSign number).takeWhile isDigit
  let magnitude := decimalValue digits
  if digits = [] then none
  else if 2 ^ 64 ≤ magnitude then none
  else if number.head? = some 45 then some ((2 ^ 64 - magnitude) % 2 ^ 64)
  else some magnitude

section Search

variable {c : UInt8} {before text : Bytes} {i : Nat}

theorem findFrom_eq_some : findFrom (before ++ text) c before.length = some i ↔
    ∃ word rest, text = word ++ c :: rest ∧ c ∉ word ∧ i = before.length + word.length := by
  rw [findFrom, List.drop_left, Option.map_eq_some_iff]
  constructor
  · rintro ⟨n, found, rfl⟩
    have member : c ∈ text := by
      by_contra absent
      rw [idxOf?_eq_none absent] at found
      cases found
    obtain ⟨word, rest, rfl, whole⟩ := exists_first_delimiter member
    rw [idxOf?_append_cons whole, Option.some.injEq] at found
    exact ⟨word, rest, rfl, whole, by omega⟩
  · rintro ⟨word, rest, rfl, whole, rfl⟩
    exact ⟨word.length, idxOf?_append_cons whole rest, Nat.add_comm _ _⟩

/-- The text begins with as many of the character as there are up to the place found. -/
theorem findFirstNotOf_eq_some : findFirstNotOf (before ++ text) c before.length = some i ↔
    ∃ k rest, text = List.replicate k c ++ rest ∧ rest ≠ [] ∧ rest.head? ≠ some c ∧
      i = before.length + k := by
  rw [findFirstNotOf, List.drop_left, Option.map_eq_some_iff]
  constructor
  · rintro ⟨k, found, rfl⟩
    obtain ⟨inside, other, same⟩ := List.findIdx?_eq_some_iff_getElem.mp found
    refine ⟨k, text.drop k, ?_, ?_, ?_, Nat.add_comm _ _⟩
    · have first : text.take k = List.replicate k c := by
        refine List.ext_getElem (by simp; omega) fun n hn hn' => ?_
        simpa using same n (by simpa using hn')
      rw [← first, List.take_append_drop]
    · exact fun none => absurd (List.drop_eq_nil_iff.mp none) (by omega)
    · rw [List.head?_drop, List.getElem?_eq_getElem inside, ne_eq, Option.some.injEq]
      simpa using other
  · rintro ⟨k, rest, rfl, some, other, rfl⟩
    obtain ⟨d, rest, rfl⟩ := List.exists_cons_of_ne_nil some
    refine ⟨k, ?_, Nat.add_comm _ _⟩
    rw [List.findIdx?_append]
    have none : (List.replicate k c).findIdx? (· != c) = none := by
      rw [List.findIdx?_eq_none_iff]
      intro d member
      simp [List.eq_of_mem_replicate member]
    have hit : (d != c) = true := by simpa using other
    simp [none, List.findIdx?_cons, hit]

/-- Where the text begins with the character, one at least is skipped. -/
theorem findFirstNotOf_cons_eq_some :
    findFirstNotOf (before ++ c :: text) c before.length = some i ↔
      ∃ k rest, c :: text = List.replicate (k + 1) c ++ rest ∧ rest ≠ [] ∧ rest.head? ≠ some c ∧
        i = before.length + (k + 1) := by
  rw [findFirstNotOf_eq_some]
  constructor
  · rintro ⟨k, rest, same, some, other, rfl⟩
    cases k with
    | zero =>
        rw [List.replicate_zero, List.nil_append] at same
        exact absurd (congrArg List.head? same.symm) other
    | succ k => exact ⟨k, rest, same, some, other, rfl⟩
  · rintro ⟨k, rest, same, some, other, rfl⟩
    exact ⟨k + 1, rest, same, some, other, rfl⟩

end Search

section Numbers

theorem stoi_digits {text : Bytes} (some_ : text ≠ []) (digits : ∀ c ∈ text, isDigit c = true)
    (fits : decimalValue text ≤ 2147483647) :
    stoi text = some ((decimalValue text : Int), text.length) := by
  cases text with
  | nil => exact absurd rfl some_
  | cons c rest =>
      have plain : isDigit c = true → isSpace c = false ∧ c ≠ 45 ∧ c ≠ 43 :=
        @forall_byte (fun c => isDigit c = true → isSpace c = false ∧ c ≠ 45 ∧ c ≠ 43)
          (by decide +kernel) c
      obtain ⟨space, minus, plus⟩ := plain (digits c List.mem_cons_self)
      have start : (c :: rest).dropWhile isSpace = c :: rest :=
        List.dropWhile_cons_of_neg (by simp [space])
      have unsigned : withoutSign (c :: rest) = c :: rest := by simp [withoutSign, minus, plus]
      have all : (c :: rest).takeWhile isDigit = c :: rest :=
        List.takeWhile_eq_self_iff.mpr digits
      have positive : (c :: rest).head? ≠ some 45 := by simpa using minus
      simp only [stoi, start, unsigned, all, if_neg positive, if_neg some_]
      rw [if_neg (by omega)]
      simp

theorem stoi_toDecimal {n : Nat} (fits : n ≤ 2147483647) :
    stoi (toDecimal n) = some ((n : Int), (toDecimal n).length) := by
  have value := decimalValue_toDecimal n
  rw [stoi_digits (toDecimal_ne_nil n) (fun _ => toDecimal_isDigit) (by omega), value]

theorem stoi_bounds {text : Bytes} {value : Int} {consumed : Nat}
    (h : stoi text = some (value, consumed)) : -2147483648 ≤ value ∧ value ≤ 2147483647 := by
  simp only [stoi, Option.ite_none_left_eq_some] at h
  obtain ⟨-, inside, same⟩ := h
  obtain ⟨rfl, -⟩ := Prod.mk.inj (Option.some.inj same)
  omega

theorem toDecimalInt_ne_nil (n : Int) : toDecimalInt n ≠ [] := by
  unfold toDecimalInt
  split
  · exact List.cons_ne_nil _ _
  · exact toDecimal_ne_nil _

theorem not_mem_toDecimalInt {n : Int} {c : UInt8} (digit : isDigit c = false) (minus : c ≠ 45) :
    c ∉ toDecimalInt n := by
  unfold toDecimalInt
  split
  · simpa [minus] using not_mem_toDecimal digit
  · exact not_mem_toDecimal digit

theorem toDecimalInt_natCast (n : Nat) : toDecimalInt n = toDecimal n := by
  rw [toDecimalInt, if_neg (by omega), Int.natAbs_natCast]

theorem length_toDecimalInt_le {n : Int} {k : Nat} (pos : 0 < k) (h : n.natAbs < 10 ^ k) :
    (toDecimalInt n).length ≤ k + 1 := by
  have length := length_toDecimal_le pos h
  unfold toDecimalInt
  split
  · simpa using length
  · omega

end Numbers

end Text
