import Chatbox.Protocol.Frame

/-!
Encoder and decoder of the frame layer are inverse to each other: a decoded
group is one of three shapes, each loop undoes the other, and the two size
checks accept exactly the same payloads. The accepted texts are therefore the
canonical Base64 texts and nothing else.
-/

namespace Chatbox.Protocol

open Text

section Sextets

theorem base64Value_base64Char {v : Nat} (h : v < 64) : base64Value (base64Char v) = v := by
  have all : ∀ v < 64, base64Value (base64Char v) = v := by decide +kernel
  exact all v h

theorem base64Char_valid {v : Nat} (h : v < 64) : ¬ base64Value (base64Char v) < 0 := by
  rw [base64Value_base64Char h]
  omega

theorem base64Value_toNat {v : Nat} (h : v < 64) : (base64Value (base64Char v)).toNat = v := by
  rw [base64Value_base64Char h]
  rfl

theorem base64Char_ne_padding {v : Nat} (h : v < 64) : base64Char v ≠ padding := by
  have all : ∀ v < 64, base64Char v ≠ padding := by decide +kernel
  exact all v h

/-- A character with a value is the one the encoder writes for that value. -/
theorem base64Char_base64Value {ch : UInt8} (h : ¬ base64Value ch < 0) :
    ∃ v < 64, ch = base64Char v := by
  have all : ∀ ch, ¬ base64Value ch < 0 → ∃ v < 64, ch = base64Char v := by
    intro ch
    apply forall_byte (P := fun ch => ¬ base64Value ch < 0 → ∃ v < 64, ch = base64Char v)
    decide +kernel
  exact all ch h

/-- Only the low six bits select a character. -/
theorem base64Char_of_mod {n v : Nat} (h : n % 64 = v) : base64Char n = base64Char v := by
  have mask (m : Nat) : m &&& 0x3f = m % 64 := Nat.and_two_pow_sub_one_eq_mod m 6
  simp only [base64Char, mask, ← h, Nat.mod_mod]

theorem shiftLeft_or {a b k : Nat} (h : b < 2 ^ k) : (a <<< k) ||| b = a * 2 ^ k + b := by
  rw [← Nat.shiftLeft_add_eq_or_of_lt h, Nat.shiftLeft_eq]

/-- The three bytes of a block occupy disjoint bits. -/
theorem block_eq {a b c : Nat} (hb : b < 256) (hc : c < 256) :
    (a <<< 16) ||| (b <<< 8) ||| c = a * 65536 + b * 256 + c := by
  have high : (a <<< 16) ||| (b <<< 8) = (a * 256 + b) <<< 8 := by
    rw [shiftLeft_or (by rw [Nat.shiftLeft_eq]; omega)]
    simp only [Nat.shiftLeft_eq]
    omega
  rw [high, shiftLeft_or (by omega)]
  omega

theorem encodeBlock_eq (a : UInt8) {b c : Option UInt8} {x y : Nat}
    (hb : b.elim 0 UInt8.toNat = x) (hc : c.elim 0 UInt8.toNat = y) (hx : x < 256) (hy : y < 256) :
    encodeBlock a b c =
      [base64Char (a.toNat / 4), base64Char (a.toNat % 4 * 16 + x / 16),
        if b.isSome then base64Char (x % 16 * 4 + y / 64) else padding,
        if c.isSome then base64Char (y % 64) else padding] := by
  have ha := a.toNat_lt
  simp only [encodeBlock, hb, hc, block_eq hx hy, Nat.shiftRight_eq_div_pow]
  rw [base64Char_of_mod (n := _ / 2 ^ 18) (v := a.toNat / 4) (by omega),
    base64Char_of_mod (n := _ / 2 ^ 12) (v := a.toNat % 4 * 16 + x / 16) (by omega),
    base64Char_of_mod (n := _ / 2 ^ 6) (v := x % 16 * 4 + y / 64) (by omega),
    base64Char_of_mod (n := _ + y) (v := y % 64) (by omega)]

theorem encodeBlock_three (a b c : UInt8) :
    encodeBlock a (some b) (some c) =
      [base64Char (a.toNat / 4), base64Char (a.toNat % 4 * 16 + b.toNat / 16),
        base64Char (b.toNat % 16 * 4 + c.toNat / 64), base64Char (c.toNat % 64)] :=
  encodeBlock_eq a rfl rfl b.toNat_lt c.toNat_lt

theorem encodeBlock_two (a b : UInt8) :
    encodeBlock a (some b) none =
      [base64Char (a.toNat / 4), base64Char (a.toNat % 4 * 16 + b.toNat / 16),
        base64Char (b.toNat % 16 * 4), padding] :=
  encodeBlock_eq a rfl rfl b.toNat_lt (by decide)

theorem encodeBlock_one (a : UInt8) :
    encodeBlock a none none =
      [base64Char (a.toNat / 4), base64Char (a.toNat % 4 * 16), padding, padding] :=
  encodeBlock_eq a rfl rfl (by decide) (by decide)

variable {v0 v1 v2 v3 : Nat}

theorem firstByte_toNat (h0 : v0 < 64) (h1 : v1 < 64) :
    (firstByte v0 v1).toNat = v0 * 4 + v1 / 16 := by
  have bits : (v0 <<< 2) ||| (v1 / 2 ^ 4) = v0 * 4 + v1 / 16 := shiftLeft_or (by omega)
  rw [firstByte, Nat.shiftRight_eq_div_pow, bits, UInt8.toNat_ofNat']
  omega

theorem secondByte_toNat (h2 : v2 < 64) :
    (secondByte v1 v2).toNat = v1 % 16 * 16 + v2 / 4 := by
  have bits : (v1 <<< 4) ||| (v2 / 2 ^ 2) = v1 * 16 + v2 / 4 := shiftLeft_or (by omega)
  rw [secondByte, Nat.shiftRight_eq_div_pow, bits, UInt8.toNat_ofNat']
  omega

theorem thirdByte_toNat (h3 : v3 < 64) :
    (thirdByte v2 v3).toNat = v2 % 4 * 64 + v3 := by
  have bits : (v2 <<< 6) ||| v3 = v2 * 64 + v3 := shiftLeft_or (by omega)
  rw [thirdByte, bits, UInt8.toNat_ofNat']
  omega

theorem decodeGroup_three (h0 : v0 < 64) (h1 : v1 < 64) (h2 : v2 < 64) (h3 : v3 < 64)
    (finalGroup : Bool) :
    decodeGroup (base64Char v0) (base64Char v1) (base64Char v2) (base64Char v3) finalGroup =
      .ok [firstByte v0 v1, secondByte v1 v2, thirdByte v2 v3] := by
  have n2 : (base64Char v2 == padding) = false := beq_eq_false_iff_ne.mpr (base64Char_ne_padding h2)
  have n3 : (base64Char v3 == padding) = false := beq_eq_false_iff_ne.mpr (base64Char_ne_padding h3)
  simp [decodeGroup, n2, n3, base64Char_valid, base64Value_toNat, h0, h1, h2, h3]

theorem decodeGroup_two (h0 : v0 < 64) (h1 : v1 < 64) (h2 : v2 < 64) (hz : v2 % 4 = 0) :
    decodeGroup (base64Char v0) (base64Char v1) (base64Char v2) padding true =
      .ok [firstByte v0 v1, secondByte v1 v2] := by
  have n2 : (base64Char v2 == padding) = false := beq_eq_false_iff_ne.mpr (base64Char_ne_padding h2)
  have mask : v2 &&& 3 = v2 % 4 := Nat.and_two_pow_sub_one_eq_mod v2 2
  simp [decodeGroup, n2, base64Char_valid, base64Value_toNat, h0, h1, h2, mask, hz]

theorem decodeGroup_one (h0 : v0 < 64) (h1 : v1 < 64) (hz : v1 % 16 = 0) :
    decodeGroup (base64Char v0) (base64Char v1) padding padding true =
      .ok [firstByte v0 v1] := by
  have mask : v1 &&& 15 = v1 % 16 := Nat.and_two_pow_sub_one_eq_mod v1 4
  simp [decodeGroup, base64Char_valid, base64Value_toNat, h0, h1, mask, hz]

/-- The three shapes of a group the decoder accepts. -/
inductive GroupShape : UInt8 → UInt8 → UInt8 → UInt8 → Bool → Prop where
  | three {v0 v1 v2 v3 : Nat} (h0 : v0 < 64) (h1 : v1 < 64) (h2 : v2 < 64) (h3 : v3 < 64)
      (finalGroup : Bool) :
      GroupShape (base64Char v0) (base64Char v1) (base64Char v2) (base64Char v3) finalGroup
  | two {v0 v1 v2 : Nat} (h0 : v0 < 64) (h1 : v1 < 64) (h2 : v2 < 64) (hz : v2 % 4 = 0) :
      GroupShape (base64Char v0) (base64Char v1) (base64Char v2) padding true
  | one {v0 v1 : Nat} (h0 : v0 < 64) (h1 : v1 < 64) (hz : v1 % 16 = 0) :
      GroupShape (base64Char v0) (base64Char v1) padding padding true

theorem groupShape_of_decodeGroup {c0 c1 c2 c3 : UInt8} {finalGroup : Bool} {group : Bytes}
    (h : decodeGroup c0 c1 c2 c3 finalGroup = .ok group) :
    GroupShape c0 c1 c2 c3 finalGroup := by
  have p0 : ¬ base64Value c0 < 0 := fun p => by simp [decodeGroup, failure, p] at h
  have p1 : ¬ base64Value c1 < 0 := fun p => by simp [decodeGroup, failure, p] at h
  obtain ⟨v0, h0, rfl⟩ := base64Char_base64Value p0
  obtain ⟨v1, h1, rfl⟩ := base64Char_base64Value p1
  by_cases e2 : c2 = padding
  · subst e2
    have e3 : c3 = padding := by_contra fun e => by simp [decodeGroup, failure, e] at h
    subst e3
    have fin : finalGroup = true := by
      cases finalGroup with
      | true => rfl
      | false => simp [decodeGroup, failure] at h
    subst fin
    have mask : v1 &&& 15 = v1 % 16 := Nat.and_two_pow_sub_one_eq_mod v1 4
    have hz : v1 % 16 = 0 := by_contra fun e => by
      simp [decodeGroup, failure, base64Value_toNat h1, p0, p1, mask, e] at h
    exact .one h0 h1 hz
  · have p2 : ¬ base64Value c2 < 0 := fun p => by simp [decodeGroup, failure, e2, p] at h
    obtain ⟨v2, h2, rfl⟩ := base64Char_base64Value p2
    by_cases e3 : c3 = padding
    · subst e3
      have fin : finalGroup = true := by
        cases finalGroup with
        | true => rfl
        | false => simp [decodeGroup, failure] at h
      subst fin
      have mask : v2 &&& 3 = v2 % 4 := Nat.and_two_pow_sub_one_eq_mod v2 2
      have hz : v2 % 4 = 0 := by_contra fun e => by
        simp [decodeGroup, failure, e2, base64Value_toNat h2, p0, p1, p2, mask, e] at h
      exact .two h0 h1 h2 hz
    · have p3 : ¬ base64Value c3 < 0 := fun p => by simp [decodeGroup, failure, e3, p] at h
      obtain ⟨v3, h3, rfl⟩ := base64Char_base64Value p3
      exact .three h0 h1 h2 h3 finalGroup

end Sextets

section Loops

theorem decodeGroup_encodeBlock_three (a b c : UInt8) (finalGroup : Bool) :
    ∃ c0 c1 c2 c3, encodeBlock a (some b) (some c) = [c0, c1, c2, c3] ∧
      decodeGroup c0 c1 c2 c3 finalGroup = .ok [a, b, c] := by
  have ha := a.toNat_lt
  have hb := b.toNat_lt
  have hc := c.toNat_lt
  refine ⟨_, _, _, _, encodeBlock_three a b c, ?_⟩
  rw [decodeGroup_three (by omega) (by omega) (by omega) (by omega)]
  have e0 : firstByte (a.toNat / 4) (a.toNat % 4 * 16 + b.toNat / 16) = a := by
    apply UInt8.toNat_inj.mp
    rw [firstByte_toNat (by omega) (by omega)]
    omega
  have e1 : secondByte (a.toNat % 4 * 16 + b.toNat / 16) (b.toNat % 16 * 4 + c.toNat / 64) = b := by
    apply UInt8.toNat_inj.mp
    rw [secondByte_toNat (by omega)]
    omega
  have e2 : thirdByte (b.toNat % 16 * 4 + c.toNat / 64) (c.toNat % 64) = c := by
    apply UInt8.toNat_inj.mp
    rw [thirdByte_toNat (by omega)]
    omega
  rw [e0, e1, e2]

theorem decodeGroup_encodeBlock_two (a b : UInt8) :
    ∃ c0 c1 c2 c3, encodeBlock a (some b) none = [c0, c1, c2, c3] ∧
      decodeGroup c0 c1 c2 c3 true = .ok [a, b] := by
  have ha := a.toNat_lt
  have hb := b.toNat_lt
  refine ⟨_, _, _, _, encodeBlock_two a b, ?_⟩
  rw [decodeGroup_two (by omega) (by omega) (by omega) (by omega)]
  have e0 : firstByte (a.toNat / 4) (a.toNat % 4 * 16 + b.toNat / 16) = a := by
    apply UInt8.toNat_inj.mp
    rw [firstByte_toNat (by omega) (by omega)]
    omega
  have e1 : secondByte (a.toNat % 4 * 16 + b.toNat / 16) (b.toNat % 16 * 4) = b := by
    apply UInt8.toNat_inj.mp
    rw [secondByte_toNat (by omega)]
    omega
  rw [e0, e1]

theorem decodeGroup_encodeBlock_one (a : UInt8) :
    ∃ c0 c1 c2 c3, encodeBlock a none none = [c0, c1, c2, c3] ∧
      decodeGroup c0 c1 c2 c3 true = .ok [a] := by
  have ha := a.toNat_lt
  refine ⟨_, _, _, _, encodeBlock_one a, ?_⟩
  rw [decodeGroup_one (by omega) (by omega) (by omega)]
  have e0 : firstByte (a.toNat / 4) (a.toNat % 4 * 16) = a := by
    apply UInt8.toNat_inj.mp
    rw [firstByte_toNat (by omega) (by omega)]
    omega
  rw [e0]

/-- The decoder's loop undoes the encoder's. -/
theorem decodeGroups_encodeBlocks (payload : Bytes) :
    decodeGroups (encodeBlocks payload) = .ok payload := by
  induction payload using encodeBlocks.induct with
  | case1 => rfl
  | case2 a =>
      obtain ⟨c0, c1, c2, c3, he, hd⟩ := decodeGroup_encodeBlock_one a
      simp only [encodeBlocks, he, decodeGroups, List.isEmpty_nil, hd]
      rfl
  | case3 a b =>
      obtain ⟨c0, c1, c2, c3, he, hd⟩ := decodeGroup_encodeBlock_two a b
      simp only [encodeBlocks, he, decodeGroups, List.isEmpty_nil, hd]
      rfl
  | case4 a b c rest ih =>
      obtain ⟨c0, c1, c2, c3, he, hd⟩ :=
        decodeGroup_encodeBlock_three a b c (encodeBlocks rest).isEmpty
      simp only [encodeBlocks, he, List.cons_append, List.nil_append, decodeGroups, hd, ih]
      rfl

/-- What a group decodes to is re-encoded to the same four characters, and only
the last group may carry padding. -/
theorem encodeBlocks_of_decodeGroup {c0 c1 c2 c3 : UInt8} {rest group : Bytes}
    (h : decodeGroup c0 c1 c2 c3 rest.isEmpty = .ok group) :
    (∀ output, encodeBlocks (group ++ output) = c0 :: c1 :: c2 :: c3 :: encodeBlocks output) ∨
      rest = [] ∧ encodeBlocks group = [c0, c1, c2, c3] := by
  have shape := groupShape_of_decodeGroup h
  generalize hfin : rest.isEmpty = finalGroup at h shape
  cases shape with
  | @three v0 v1 v2 v3 h0 h1 h2 h3 =>
      left
      intro output
      rw [decodeGroup_three h0 h1 h2 h3] at h
      cases h
      have s0 : (v0 * 4 + v1 / 16) / 4 = v0 := by omega
      have s1 : (v0 * 4 + v1 / 16) % 4 * 16 + (v1 % 16 * 16 + v2 / 4) / 16 = v1 := by omega
      have s2 : (v1 % 16 * 16 + v2 / 4) % 16 * 4 + (v2 % 4 * 64 + v3) / 64 = v2 := by omega
      have s3 : (v2 % 4 * 64 + v3) % 64 = v3 := by omega
      simp only [List.cons_append, List.nil_append, encodeBlocks, encodeBlock_three,
        firstByte_toNat h0 h1, secondByte_toNat h2, thirdByte_toNat h3, s0, s1, s2, s3]
  | @two v0 v1 v2 h0 h1 h2 hz =>
      right
      refine ⟨List.isEmpty_iff.mp hfin, ?_⟩
      rw [decodeGroup_two h0 h1 h2 hz] at h
      cases h
      have s0 : (v0 * 4 + v1 / 16) / 4 = v0 := by omega
      have s1 : (v0 * 4 + v1 / 16) % 4 * 16 + (v1 % 16 * 16 + v2 / 4) / 16 = v1 := by omega
      have s2 : (v1 % 16 * 16 + v2 / 4) % 16 * 4 = v2 := by omega
      simp only [encodeBlocks, encodeBlock_two, firstByte_toNat h0 h1, secondByte_toNat h2,
        s0, s1, s2]
  | @one v0 v1 h0 h1 hz =>
      right
      refine ⟨List.isEmpty_iff.mp hfin, ?_⟩
      rw [decodeGroup_one h0 h1 hz] at h
      cases h
      have s0 : (v0 * 4 + v1 / 16) / 4 = v0 := by omega
      have s1 : (v0 * 4 + v1 / 16) % 4 * 16 = v1 := by omega
      simp only [encodeBlocks, encodeBlock_one, firstByte_toNat h0 h1, s0, s1]

/-- The encoder's loop undoes the decoder's on every text the decoder accepts. -/
theorem encodeBlocks_of_decodeGroups {text output : Bytes} (hlen : text.length % 4 = 0)
    (h : decodeGroups text = .ok output) : encodeBlocks output = text := by
  induction text using decodeGroups.induct generalizing output with
  | case1 c0 c1 c2 c3 rest ih =>
      simp only [List.length_cons] at hlen
      cases hg : decodeGroup c0 c1 c2 c3 rest.isEmpty with
      | error e =>
          simp only [decodeGroups, hg] at h
          cases h
      | ok group =>
          cases hr : decodeGroups rest with
          | error e =>
              simp only [decodeGroups, hg, hr] at h
              cases h
          | ok tail =>
              simp only [decodeGroups, hg, hr] at h
              cases h
              have htail := ih (by omega) hr
              rcases encodeBlocks_of_decodeGroup hg with hall | ⟨rfl, hlast⟩
              · rw [hall, htail]
              · simp only [decodeGroups] at hr
                cases hr
                rw [List.append_nil, hlast]
  | case2 text hshort =>
      have empty : text = [] := by
        match text, hshort with
        | [], _ => rfl
        | [_], _ => simp at hlen
        | [_, _], _ => simp at hlen
        | [_, _, _], _ => simp at hlen
        | c0 :: c1 :: c2 :: c3 :: rest, hs => exact absurd rfl (hs c0 c1 c2 c3 rest)
      subst empty
      simp only [decodeGroups] at h
      cases h
      rfl

theorem length_encodeBlocks (payload : Bytes) :
    (encodeBlocks payload).length = (payload.length + 2) / 3 * 4 := by
  induction payload using encodeBlocks.induct with
  | case1 => rfl
  | case2 a => simp [encodeBlocks, encodeBlock]
  | case3 a b => simp [encodeBlocks, encodeBlock]
  | case4 a b c rest ih =>
      have block : (encodeBlock a (some b) (some c)).length = 4 := rfl
      simp only [encodeBlocks, List.length_append, ih, List.length_cons, block]
      omega

/-- Base64 text with no stray padding, no bits set under the padding and no
character outside the alphabet. -/
def CanonicalBase64 (text : Bytes) : Prop :=
  text.length % 4 = 0 ∧ ∃ sextets : List Nat, (∀ v ∈ sextets, v < 64) ∧
    (text = sextets.map base64Char ∨
      (text = sextets.map base64Char ++ [padding] ∧
        ∃ v, sextets.getLast? = some v ∧ v % 4 = 0) ∨
      (text = sextets.map base64Char ++ [padding, padding] ∧
        ∃ v, sextets.getLast? = some v ∧ v % 16 = 0))

theorem canonical_encodeBlocks (payload : Bytes) : CanonicalBase64 (encodeBlocks payload) := by
  refine ⟨by rw [length_encodeBlocks]; omega, ?_⟩
  induction payload using encodeBlocks.induct with
  | case1 => exact ⟨[], by simp, .inl rfl⟩
  | case2 a =>
      have ha := a.toNat_lt
      refine ⟨[a.toNat / 4, a.toNat % 4 * 16], ?_,
        .inr (.inr ⟨encodeBlock_one a, a.toNat % 4 * 16, rfl, by omega⟩)⟩
      intro v hv
      simp only [List.mem_cons, List.not_mem_nil, or_false] at hv
      omega
  | case3 a b =>
      have ha := a.toNat_lt
      have hb := b.toNat_lt
      refine ⟨[a.toNat / 4, a.toNat % 4 * 16 + b.toNat / 16, b.toNat % 16 * 4], ?_,
        .inr (.inl ⟨encodeBlock_two a b, b.toNat % 16 * 4, rfl, by omega⟩)⟩
      intro v hv
      simp only [List.mem_cons, List.not_mem_nil, or_false] at hv
      omega
  | case4 a b c rest ih =>
      have ha := a.toNat_lt
      have hb := b.toNat_lt
      have hc := c.toNat_lt
      obtain ⟨vs, hvs, htext⟩ := ih
      refine ⟨[a.toNat / 4, a.toNat % 4 * 16 + b.toNat / 16,
        b.toNat % 16 * 4 + c.toNat / 64, c.toNat % 64] ++ vs, ?_, ?_⟩
      · intro v hv
        rcases List.mem_append.mp hv with hv | hv
        · simp only [List.mem_cons, List.not_mem_nil, or_false] at hv
          omega
        · exact hvs v hv
      · simp only [encodeBlocks, encodeBlock_three, List.map_append, List.append_assoc]
        rcases htext with h | ⟨h, v, hv, hz⟩ | ⟨h, v, hv, hz⟩
        · exact .inl (by rw [h]; rfl)
        · refine .inr (.inl ⟨by rw [h]; rfl, v, ?_, hz⟩)
          rw [List.getLast?_append, hv]
          rfl
        · refine .inr (.inr ⟨by rw [h]; rfl, v, ?_, hz⟩)
          rw [List.getLast?_append, hv]
          rfl

/-- No line-ending character occurs in Base64 text. -/
theorem encodeBlocks_no_lineEnding {payload : Bytes} {ch : UInt8}
    (h : ch ∈ encodeBlocks payload) : ch ≠ newline ∧ ch ≠ carriageReturn := by
  have letters : ∀ v < 64, base64Char v ≠ newline ∧ base64Char v ≠ carriageReturn := by
    decide +kernel
  have pad : padding ≠ newline ∧ padding ≠ carriageReturn := by decide
  obtain ⟨-, vs, hvs, htext⟩ := canonical_encodeBlocks payload
  have hmem : ch ∈ vs.map base64Char ∨ ch = padding := by
    rcases htext with e | ⟨e, -⟩ | ⟨e, -⟩ <;> rw [e] at h
    · exact .inl h
    · exact (List.mem_append.mp h).imp_right List.mem_singleton.mp
    · exact (List.mem_append.mp h).imp_right fun hm => by
        simpa only [List.mem_cons, List.not_mem_nil, or_false, or_self] using hm
  rcases hmem with hm | rfl
  · obtain ⟨v, hv, rfl⟩ := List.mem_map.mp hm
    exact letters v (hvs v hv)
  · exact pad

end Loops

section Frames

def lineEndings : List Bytes := [[], [newline], [carriageReturn], [carriageReturn, newline]]

theorem stripLineEnding_append {body ending : Bytes}
    (hb : ∀ ch ∈ body, ch ≠ newline ∧ ch ≠ carriageReturn) (he : ending ∈ lineEndings) :
    stripLineEnding (body ++ ending) = body := by
  have noNewline : body.getLast? ≠ some newline := fun e =>
    (hb _ (List.mem_of_getLast? e)).1 rfl
  have noReturn : body.getLast? ≠ some carriageReturn := fun e =>
    (hb _ (List.mem_of_getLast? e)).2 rfl
  have distinct : carriageReturn ≠ newline := by decide
  simp only [lineEndings, List.mem_cons, List.not_mem_nil, or_false] at he
  rcases he with rfl | rfl | rfl | rfl
  · simp [stripLineEnding, noNewline, noReturn]
  · simp [stripLineEnding, noReturn]
  · simp [stripLineEnding, distinct]
  · have split : body ++ [carriageReturn, newline] = (body ++ [carriageReturn]) ++ [newline] := by
      simp
    rw [split]
    simp [stripLineEnding]

theorem eq_dropLast_append {l : Bytes} {ch : UInt8} (h : l.getLast? = some ch) :
    l = l.dropLast ++ [ch] := by
  obtain ⟨init, rfl⟩ := List.getLast?_eq_some_iff.mp h
  simp

theorem exists_lineEnding (frame : Bytes) :
    ∃ ending ∈ lineEndings, frame = stripLineEnding frame ++ ending := by
  unfold stripLineEnding
  by_cases hn : frame.getLast? = some newline
  · simp only [hn, if_true]
    by_cases hr : frame.dropLast.getLast? = some carriageReturn
    · refine ⟨[carriageReturn, newline], by simp [lineEndings], ?_⟩
      simp only [hr, if_true]
      have h := eq_dropLast_append hn
      rw [eq_dropLast_append hr] at h
      simpa using h
    · refine ⟨[newline], by simp [lineEndings], ?_⟩
      simp only [hr, if_false]
      exact eq_dropLast_append hn
  · simp only [hn, if_false]
    by_cases hr : frame.getLast? = some carriageReturn
    · refine ⟨[carriageReturn], by simp [lineEndings], ?_⟩
      simp only [hr, if_true]
      exact eq_dropLast_append hr
    · exact ⟨[], by simp [lineEndings], by simp [hr]⟩

theorem encodeFrame_ok_iff {payload frame : Bytes} :
    encodeFrame payload = .ok frame ↔
      payload ≠ [] ∧ payload.length ≤ maxPayloadLength ∧
        frame = encodeBlocks payload ++ [newline] := by
  have limit : maxPayloadLength = 3069 := rfl
  have bound (h : payload.length ≤ maxPayloadLength) :
      ¬ (encodeBlocks payload ++ [newline]).length > MAX_FRAME_LENGTH := by
    have frameLimit : MAX_FRAME_LENGTH = 4096 := rfl
    simp only [List.length_append, length_encodeBlocks, List.length_singleton]
    omega
  unfold encodeFrame
  split
  · next h => simp_all [failure]
  · next hne =>
      split
      · next hlong =>
          have : ¬ payload.length ≤ maxPayloadLength := by omega
          simp [failure, this]
      · next hshort =>
          have hlen : payload.length ≤ maxPayloadLength := by omega
          have nonempty : payload ≠ [] := by simpa using hne
          simp only [bound hlen, if_false, Except.ok.injEq, hlen, true_and, nonempty, ne_eq,
            not_false_eq_true]
          exact eq_comm

/-- The frame of an admissible payload, whatever line ending it arrives with,
decodes to the payload. -/
theorem decodeFrame_encodeBlocks {payload ending : Bytes} (hne : payload ≠ [])
    (hlen : payload.length ≤ maxPayloadLength) (he : ending ∈ lineEndings) :
    decodeFrame (encodeBlocks payload ++ ending) = .ok payload := by
  have limit : maxPayloadLength = 3069 := rfl
  have frameLimit : MAX_FRAME_LENGTH = 4096 := rfl
  have hl := length_encodeBlocks payload
  have pos : 0 < payload.length := List.length_pos_iff.mpr hne
  have nonempty : (encodeBlocks payload).isEmpty = false := by
    cases h : encodeBlocks payload with
    | nil =>
        rw [h] at hl
        simp only [List.length_nil] at hl
        omega
    | cons c cs => rfl
  have size : ¬ (encodeBlocks payload).length + 1 > MAX_FRAME_LENGTH := by omega
  have divisible : ¬ (encodeBlocks payload).length % 4 ≠ 0 := by omega
  have payloadNonempty : payload.isEmpty = false := by simpa using hne
  simp only [decodeFrame, stripLineEnding_append (fun _ h => encodeBlocks_no_lineEnding h) he,
    nonempty, size, divisible, if_false, decodeGroups_encodeBlocks, Bool.false_eq_true]
  simp only [bind, Except.bind, payloadNonempty, Bool.false_eq_true, if_false]
  rfl

/-- A frame the decoder accepts is the encoder's output for its payload, up to
the line ending. -/
theorem decodeFrame_ok {frame payload : Bytes} (h : decodeFrame frame = .ok payload) :
    payload ≠ [] ∧ payload.length ≤ maxPayloadLength ∧
      stripLineEnding frame = encodeBlocks payload := by
  have limit : maxPayloadLength = 3069 := rfl
  have frameLimit : MAX_FRAME_LENGTH = 4096 := rfl
  unfold decodeFrame at h
  simp only at h
  split at h
  · cases h
  split at h
  · cases h
  next size =>
  split at h
  · cases h
  next divisible =>
  cases hg : decodeGroups (stripLineEnding frame) with
  | error e =>
      rw [hg] at h
      cases h
  | ok output =>
      rw [hg] at h
      simp only [bind, Except.bind] at h
      split at h
      · cases h
      next hne =>
      cases h
      have same := encodeBlocks_of_decodeGroups (by omega) hg
      have hl := length_encodeBlocks payload
      rw [same] at hl
      exact ⟨by simpa using hne, by omega, same.symm⟩

/-- `encode_frame` succeeds exactly on the payloads within its limit; its output
is one line that fits the peer's buffer, and every way of reading that line gives
the payload back. -/
theorem encodeFrame_spec (payload : Bytes) :
    ((∃ frame, encodeFrame payload = .ok frame) ↔
      1 ≤ payload.length ∧ payload.length ≤ ((MAX_FRAME_LENGTH - 1) / 4) * 3) ∧
    ∀ frame, encodeFrame payload = .ok frame →
      ∃ body, frame = body ++ [newline] ∧ newline ∉ body ∧
        frame.length ≤ MAX_FRAME_LENGTH ∧ frame.length ≤ MAX_WIRE_LINE_LENGTH ∧
        decodeFrame frame = .ok payload ∧ decodeFrame body = .ok payload ∧
        decodeFrame (body ++ [carriageReturn, newline]) = .ok payload ∧
        decodeFrame (body ++ [carriageReturn]) = .ok payload := by
  refine ⟨?_, ?_⟩
  · simp only [encodeFrame_ok_iff, exists_and_left, exists_eq, and_true]
    exact and_congr_left fun _ => List.length_pos_iff.symm
  · intro frame h
    obtain ⟨hne, hlen, rfl⟩ := encodeFrame_ok_iff.mp h
    have size : (encodeBlocks payload ++ [newline]).length ≤ MAX_FRAME_LENGTH := by
      have limit : maxPayloadLength = 3069 := rfl
      have frameLimit : MAX_FRAME_LENGTH = 4096 := rfl
      simp only [List.length_append, length_encodeBlocks, List.length_singleton]
      omega
    have reads := fun ending => @decodeFrame_encodeBlocks payload ending hne hlen
    refine ⟨encodeBlocks payload, rfl, fun hm => (encodeBlocks_no_lineEnding hm).1 rfl,
      size, size, reads _ ?_, ?_, reads _ ?_, reads _ ?_⟩
    · simp [lineEndings]
    · simpa using reads [] (by simp [lineEndings])
    · simp [lineEndings]
    · simp [lineEndings]

/-- Every accepted frame is the canonical encoding of its payload, so two frames
of one payload can differ in nothing but the line ending. -/
theorem decodeFrame_canonical (frame payload : Bytes) (h : decodeFrame frame = .ok payload) :
    encodeFrame payload = .ok (stripLineEnding frame ++ [newline]) ∧
    CanonicalBase64 (stripLineEnding frame) ∧
    ∀ other, decodeFrame other = .ok payload →
      ∃ body, ∃ ending ∈ lineEndings, ∃ otherEnding ∈ lineEndings,
        frame = body ++ ending ∧ other = body ++ otherEnding := by
  obtain ⟨hne, hlen, same⟩ := decodeFrame_ok h
  refine ⟨encodeFrame_ok_iff.mpr ⟨hne, hlen, by rw [same]⟩, ?_, ?_⟩
  · rw [same]
    exact canonical_encodeBlocks payload
  · intro other ho
    obtain ⟨ending, he, hf⟩ := exists_lineEnding frame
    obtain ⟨otherEnding, hoe, hof⟩ := exists_lineEnding other
    have sameOther := (decodeFrame_ok ho).2.2
    exact ⟨encodeBlocks payload, ending, he, otherEnding, hoe, by rw [← same]; exact hf,
      by rw [← sameOther]; exact hof⟩

theorem decodeFrame_canonical_crlf :
    encodeFrame (ascii "f") = .ok (stripLineEnding (ascii "Zg==\r\n") ++ [newline]) :=
  (decodeFrame_canonical (ascii "Zg==\r\n") (ascii "f") (by decide)).1

end Frames

end Chatbox.Protocol
