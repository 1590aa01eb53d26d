import Chatbox.Lib.Text
import Mathlib.Data.List.GetD

/-!
UTF-8 as bytes. A text is a list of characters; its bytes can be taken apart again at
every character, for the first byte of a character is never one that continues another,
and it tells how many follow.
-/

namespace Utf8

open Text

/-- `(c & 0xc0) == 0x80` -/
def isContinuation (c : UInt8) : Bool := c &&& 0xc0 == 0x80

def encode (text : List Char) : Bytes := text.flatMap String.utf8EncodeChar

def Valid (bytes : Bytes) : Prop := ∃ text, encode text = bytes

theorem isContinuation_iff {c : UInt8} :
    isContinuation c = true ↔ 128 ≤ c.toNat ∧ c.toNat < 192 :=
  @forall_byte (fun c => isContinuation c = true ↔ 128 ≤ c.toNat ∧ c.toNat < 192)
    (by decide +kernel) c

/-- How long the character is that starts with the byte. -/
def charLength (c : UInt8) : Nat :=
  if c.toNat < 128 then 1 else if c.toNat < 224 then 2 else if c.toNat < 240 then 3 else 4

section Char

/-- The form that all characters have: a first byte and what follows of the number, six bits
at a time. -/
theorem charBytes {first : Nat} {rest : List Nat} (small : first < 256)
    (start : first < 128 ∨ 192 ≤ first)
    (length : rest.length + 1 =
      if first < 128 then 1 else if first < 224 then 2 else if first < 240 then 3 else 4) :
    ∃ d ds, UInt8.ofNat first :: rest.map (fun n => UInt8.ofNat (n % 0x40 + 0x80)) = d :: ds ∧
      isContinuation d = false ∧ (∀ d ∈ ds, isContinuation d = true) ∧
      ds.length + 1 = charLength d := by
  have value : (UInt8.ofNat first).toNat = first := by
    rw [UInt8.toNat_ofNat']
    exact Nat.mod_eq_of_lt small
  refine ⟨_, _, rfl, ?_, ?_, ?_⟩
  · rw [Bool.eq_false_iff, Ne, isContinuation_iff, value]
    omega
  · intro d hd
    obtain ⟨n, -, rfl⟩ := List.mem_map.mp hd
    rw [isContinuation_iff, UInt8.toNat_ofNat']
    omega
  · rw [charLength, value, List.length_map]
    exact length

/-- A character is a byte that continues nothing, and the bytes it announces. -/
theorem utf8EncodeChar_cons (c : Char) : ∃ d ds, String.utf8EncodeChar c = d :: ds ∧
    isContinuation d = false ∧ (∀ d ∈ ds, isContinuation d = true) ∧
    ds.length + 1 = charLength d := by
  have bound : c.val.toNat < 0x110000 := by
    have := c.valid
    simp only [UInt32.isValidChar, Nat.isValidChar] at this
    omega
  unfold String.utf8EncodeChar
  generalize c.val.toNat = v at bound ⊢
  simp only
  split
  · exact @charBytes v [] (by omega) (by omega) (by rw [if_pos (by omega)]; rfl)
  · split
    · refine @charBytes (v / 64 % 0x20 + 0xc0) [v] (by omega) (by omega) ?_
      rw [if_neg (by omega), if_pos (by omega)]
      rfl
    · split
      · refine @charBytes (v / 4096 % 0x10 + 0xe0) [v / 64, v] (by omega) (by omega) ?_
        rw [if_neg (by omega), if_neg (by omega), if_pos (by omega)]
        rfl
      · refine @charBytes (v / 262144 % 0x08 + 0xf0) [v / 4096, v / 64, v] (by omega) (by omega) ?_
        rw [if_neg (by omega), if_neg (by omega), if_neg (by omega)]
        rfl

theorem utf8EncodeChar_injective : Function.Injective String.utf8EncodeChar := by
  intro c d same
  have decoded : [c].utf8Encode.utf8DecodeChar? 0 = [d].utf8Encode.utf8DecodeChar? 0 := by
    rw [List.utf8Encode_singleton, List.utf8Encode_singleton, same]
  rw [List.utf8DecodeChar?_utf8Encode_singleton, List.utf8DecodeChar?_utf8Encode_singleton]
    at decoded
  exact Option.some.inj decoded

theorem length_utf8EncodeChar_pos (c : Char) : 0 < (String.utf8EncodeChar c).length := by
  rw [String.length_utf8EncodeChar]
  exact c.utf8Size_pos

theorem utf8EncodeChar_ofNat {n : Nat} (small : n < 128) :
    String.utf8EncodeChar (Char.ofNat n) = [UInt8.ofNat n] := by
  have all : ∀ n < 128, String.utf8EncodeChar (Char.ofNat n) = [UInt8.ofNat n] := by decide +kernel
  exact all n small

/-- In a character of more than one byte no byte is ASCII. -/
theorem utf8EncodeChar_wide {c : Char} (wide : 1 < c.utf8Size) :
    ∀ d ∈ String.utf8EncodeChar c, 128 ≤ d.toNat := by
  obtain ⟨first, rest, chars, -, follows, length⟩ := utf8EncodeChar_cons c
  have size := String.length_utf8EncodeChar c
  rw [chars, List.length_cons] at size
  rw [chars, List.forall_mem_cons]
  refine ⟨?_, fun d hd => (isContinuation_iff.mp (follows d hd)).1⟩
  by_contra small
  rw [charLength, if_pos (by omega)] at length
  omega

/-- The last byte of a character continues it, or is all there is. -/
theorem utf8EncodeChar_last {c : Char} {d : UInt8}
    (h : (String.utf8EncodeChar c).getLast? = some d) :
    isContinuation d = true ∨ String.utf8EncodeChar c = [d] := by
  obtain ⟨first, rest, chars, -, follows, -⟩ := utf8EncodeChar_cons c
  rw [chars] at h ⊢
  cases rest with
  | nil =>
      obtain rfl : first = d := by simpa using h
      exact .inr rfl
  | cons e rest =>
      rw [List.getLast?_cons_cons] at h
      exact .inl (follows d (List.mem_of_getLast? h))

/-- An ASCII byte ends only the character it is. -/
theorem utf8EncodeChar_last_iff {c a : Char} {d : UInt8} (ascii : String.utf8EncodeChar a = [d]) :
    (String.utf8EncodeChar c).getLast? = some d ↔ c = a := by
  constructor
  · intro last
    obtain continues | whole := utf8EncodeChar_last last
    · obtain ⟨first, rest, chars, starts, -⟩ := utf8EncodeChar_cons a
      obtain ⟨rfl, -⟩ := List.cons.inj (ascii.symm.trans chars)
      rw [continues] at starts
      cases starts
    · exact utf8EncodeChar_injective (whole.trans ascii.symm)
  · rintro rfl
    rw [ascii]
    rfl

/-- An ASCII byte is in no character but the one it is. -/
theorem mem_utf8EncodeChar_iff {c a : Char} {d : UInt8} (ascii : String.utf8EncodeChar a = [d]) :
    d ∈ String.utf8EncodeChar c ↔ c = a := by
  constructor
  · intro mem
    obtain wide | narrow := Nat.lt_or_ge 1 c.utf8Size
    · have large := utf8EncodeChar_wide wide d mem
      obtain ⟨first, rest, chars, -, -, length⟩ := utf8EncodeChar_cons a
      obtain ⟨rfl, rfl⟩ := List.cons.inj (ascii.symm.trans chars)
      rw [charLength, if_neg (by omega)] at length
      split_ifs at length <;> cases length
    · have size := c.utf8Size_pos
      obtain ⟨e, only⟩ := List.length_eq_one_iff.mp
        ((String.length_utf8EncodeChar c).trans (Nat.le_antisymm narrow size))
      rw [only, List.mem_singleton] at mem
      exact utf8EncodeChar_injective (by rw [only, ascii, mem])
  · rintro rfl
    simp [ascii]

end Char

section Encode

variable {before after xs : List Char} {rest part more : Bytes} {c : Char}

@[simp] theorem encode_nil : encode [] = [] := rfl

theorem encode_cons (c : Char) (text : List Char) :
    encode (c :: text) = String.utf8EncodeChar c ++ encode text := List.flatMap_cons

@[simp] theorem encode_append (a b : List Char) : encode (a ++ b) = encode a ++ encode b :=
  List.flatMap_append

@[simp] theorem encode_singleton (c : Char) : encode [c] = String.utf8EncodeChar c := by
  rw [encode_cons, encode_nil, List.append_nil]

/-- Nothing that is encoded starts in the middle of a character. -/
theorem encode_head (text : List Char) : ∀ d ∈ (encode text).head?, isContinuation d = false := by
  cases text with
  | nil => nofun
  | cons c text =>
      obtain ⟨first, rest, chars, starts, -⟩ := utf8EncodeChar_cons c
      rw [encode_cons, chars]
      intro d hd
      obtain rfl : first = d := by simpa using hd
      exact starts

theorem takeWhile_encode (text : List Char) : (encode text).takeWhile isContinuation = [] := by
  have head := encode_head text
  cases bytes : encode text with
  | nil => rfl
  | cons d ds =>
      rw [bytes] at head
      rw [List.takeWhile_cons_of_neg (by simpa using head)]

/-- Two encoded texts that start with the same byte start with the same number of bytes. -/
theorem utf8EncodeChar_length_eq {c d : Char} {a b : Bytes}
    (same : String.utf8EncodeChar c ++ a = String.utf8EncodeChar d ++ b) :
    (String.utf8EncodeChar c).length = (String.utf8EncodeChar d).length := by
  obtain ⟨x, xs, hc, -, -, lengthc⟩ := utf8EncodeChar_cons c
  obtain ⟨y, ys, hd, -, -, lengthd⟩ := utf8EncodeChar_cons d
  rw [hc, hd] at same ⊢
  obtain rfl : x = y := (List.cons.inj same).1
  rw [List.length_cons, List.length_cons, lengthc, lengthd]

/-- An encoded text that starts like another one goes on with whole characters. -/
theorem encode_eq_append (h : encode xs = encode before ++ rest) :
    ∃ ys, xs = before ++ ys ∧ encode ys = rest := by
  induction before generalizing xs with
  | nil => exact ⟨xs, rfl, h⟩
  | cons c before ih =>
      cases xs with
      | nil =>
          have length := congrArg List.length h
          simp only [encode_nil, encode_cons, List.length_nil, List.length_append] at length
          have := length_utf8EncodeChar_pos c
          omega
      | cons d xs =>
          rw [encode_cons, encode_cons, List.append_assoc] at h
          obtain ⟨char, tail⟩ := List.append_inj h (utf8EncodeChar_length_eq h)
          obtain rfl := utf8EncodeChar_injective char
          obtain ⟨ys, rfl, same⟩ := ih tail
          exact ⟨ys, rfl, same⟩

/-- The last byte before a position between two characters is the last of the character
there. -/
theorem getD_last_encode (before after : List Char) (c : Char) :
    some ((encode (before ++ [c]) ++ encode after).getD ((encode (before ++ [c])).length - 1) 0) =
      (String.utf8EncodeChar c).getLast? := by
  have pos := length_utf8EncodeChar_pos c
  have some_ : String.utf8EncodeChar c ≠ [] := List.length_pos_iff.mp pos
  have inside : (encode (before ++ [c])).length - 1 < (encode (before ++ [c])).length := by
    rw [encode_append, encode_singleton, List.length_append]
    omega
  rw [List.getD_append _ _ _ _ inside, List.getD_eq_getElem _ _ inside, ← List.getElem?_eq_getElem,
    ← List.getLast?_eq_getElem?, encode_append, encode_singleton, List.getLast?_append_of_ne_nil _ some_]

/-- A character that has been cut off cannot be completed by other characters. -/
theorem not_valid_part (cut : String.utf8EncodeChar c = part ++ more) (some_ : part ≠ [])
    (missing : more ≠ []) : ¬ Valid (encode before ++ (part ++ encode after)) := by
  rintro ⟨xs, whole⟩
  obtain ⟨ys, -, same⟩ := encode_eq_append whole
  obtain ⟨x, part, rfl⟩ := List.exists_cons_of_ne_nil some_
  obtain ⟨first, rest, chars, -, follows, length⟩ := utf8EncodeChar_cons c
  rw [List.cons_append, chars] at cut
  obtain ⟨rfl, restEq⟩ := List.cons.inj cut
  cases ys with
  | nil => cases same
  | cons d ys =>
      obtain ⟨first', rest', chars', starts', follows', length'⟩ := utf8EncodeChar_cons d
      rw [encode_cons, chars', List.cons_append, List.cons_append] at same
      obtain ⟨rfl, bytes⟩ := List.cons.inj same
      -- The rest of the other character reaches over the part into what comes after it.
      have longer : part.length < rest'.length := by
        have := List.length_pos_iff.mpr missing
        have := congrArg List.length restEq
        rw [List.length_append] at this
        omega
      obtain ⟨surplus, rfl⟩ : part <+: rest' :=
        List.prefix_of_prefix_length_le ⟨_, bytes.symm⟩ (List.prefix_append _ _) longer.le
      rw [List.append_assoc, List.append_cancel_left_eq] at bytes
      cases surplus with
      | nil => simp at longer
      | cons e surplus =>
          have starts := encode_head after e (by rw [← bytes]; rfl)
          have follows := follows' e (by simp)
          rw [starts] at follows
          cases follows

/-- An ASCII byte in an encoded text is a character of it, with whole characters around. -/
theorem encode_ascii {a : Char} {d : UInt8} {front back : Bytes}
    (ascii : String.utf8EncodeChar a = [d]) (h : encode xs = front ++ d :: back) :
    ∃ before after, xs = before ++ a :: after ∧ encode before = front ∧ encode after = back := by
  induction xs generalizing front with
  | nil => simp at h
  | cons x xs ih =>
      rw [encode_cons] at h
      obtain ⟨more, rfl, rest⟩ | ⟨more, chars, rest⟩ := List.append_eq_append_iff.mp h
      · obtain ⟨before, after, rfl, rfl, tail⟩ := ih rest
        exact ⟨x :: before, after, rfl, encode_cons x before, tail⟩
      · cases more with
        | nil =>
            obtain ⟨before, after, rfl, none, tail⟩ := @ih [] rest.symm
            refine ⟨x :: before, after, rfl, ?_, tail⟩
            rw [encode_cons, none, chars, List.append_nil, List.append_nil]
        | cons e more =>
            obtain ⟨rfl, tail⟩ := List.cons.inj rest
            have mem : d ∈ String.utf8EncodeChar x := by
              rw [chars]
              exact List.mem_append_right _ List.mem_cons_self
            obtain rfl := (mem_utf8EncodeChar_iff ascii).mp mem
            have length := congrArg List.length (ascii.symm.trans chars)
            simp only [List.length_append, List.length_cons, List.length_nil] at length
            obtain rfl : front = [] := List.length_eq_zero_iff.mp (by omega)
            obtain rfl : more = [] := List.length_eq_zero_iff.mp (by omega)
            exact ⟨[], xs, rfl, rfl, tail.symm⟩

theorem valid_ascii {s : String} (small : s.toList.all (·.toNat < 128) = true) :
    Valid (ascii s) := by
  refine ⟨s.toList, ?_⟩
  rw [ascii, encode, List.map_eq_flatMap]
  refine List.flatMap_congr fun c mem => ?_
  have char := utf8EncodeChar_ofNat (of_decide_eq_true (List.all_eq_true.mp small c mem))
  rwa [Char.ofNat_toNat] at char

/-- Before a byte that continues nothing there are whole characters. -/
theorem encode_boundary {d : UInt8} {front back : Bytes} (h : encode xs = front ++ d :: back)
    (starts : isContinuation d = false) :
    ∃ before after, xs = before ++ after ∧ encode before = front := by
  induction xs generalizing front with
  | nil => simp at h
  | cons x xs ih =>
      rw [encode_cons] at h
      obtain ⟨more, rfl, rest⟩ | ⟨more, chars, rest⟩ := List.append_eq_append_iff.mp h
      · obtain ⟨before, after, rfl, rfl⟩ := ih rest
        exact ⟨x :: before, after, rfl, encode_cons x before⟩
      · cases front with
        | nil => exact ⟨[], x :: xs, rfl, rfl⟩
        | cons e front =>
            refine ⟨[x], xs, rfl, ?_⟩
            cases more with
            | nil => rw [encode_singleton, chars, List.append_nil]
            | cons f more =>
                obtain ⟨rfl, -⟩ := List.cons.inj rest
                obtain ⟨first, others, bytes, -, follows, -⟩ := utf8EncodeChar_cons x
                obtain ⟨-, rfl⟩ := List.cons.inj (bytes.symm.trans chars)
                rw [follows d (by simp)] at starts
                cases starts

end Encode

section Decode

variable {bytes : Bytes} {c : Char}

/-- The character that the bytes start with, if they start with a whole one. -/
def decodeChar? (bytes : Bytes) : Option Char := bytes.toByteArray.utf8DecodeChar? 0

theorem decodeChar?_eq_some_iff :
    decodeChar? bytes = some c ↔ ∃ rest, bytes = String.utf8EncodeChar c ++ rest := by
  constructor
  · intro h
    obtain ⟨rest, whole⟩ := ByteArray.exists_of_utf8DecodeChar?_eq_some h
    refine ⟨rest.data.toList, ?_⟩
    have data := congrArg (fun b => b.data.toList) whole
    simpa using data
  · rintro ⟨rest, rfl⟩
    rw [decodeChar?, List.toByteArray_append]
    exact ByteArray.utf8DecodeChar?_utf8EncodeChar_append

end Decode

end Utf8
