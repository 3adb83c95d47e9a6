import Mathlib
import MixedWorkload.Text.Utf8

/-!
# Decoding what was encoded

The core library encodes a character by dividing its number into groups of six bits, and
`MixedWorkload.Text.Utf8.first?` puts the groups together again. One lemma for each length
says which bytes it accepts, and `MixedWorkload.Text.Utf8.first?_encodeChar` that these are
the ones that encode a character. The reader then never stops within a text
(`MixedWorkload.Text.Utf8.decode_encode`).
-/

namespace MixedWorkload.Text.Utf8

/-! ### The first character -/

theorem within_iff {low high byte : UInt8} :
    within low high byte = true ↔ low.toNat ≤ byte.toNat ∧ byte.toNat ≤ high.toNat := by
  rw [within, decide_eq_true_iff, UInt8.le_iff_toNat_le, UInt8.le_iff_toNat_le]

theorem isTail_iff {byte : UInt8} : isTail byte = true ↔ 0x80 ≤ byte.toNat ∧ byte.toNat ≤ 0xBF :=
  within_iff

variable {a b c d : UInt8} {rest : List UInt8}

theorem first?_one (h : a.toNat < 0x80) : first? (a :: rest) = some (Char.ofNat a.toNat, 1) := by
  have ha : a < 0x80 := UInt8.lt_iff_toNat_lt.mpr h
  simp only [first?, if_pos ha]

theorem first?_two (h : 0xC2 ≤ a.toNat ∧ a.toNat ≤ 0xDF) (hb : isTail b = true) :
    first? (a :: b :: rest) = some (Char.ofNat (a.toNat % 32 * 64 + tailBits b), 2) := by
  have ha : ¬a < 0x80 := by
    rw [UInt8.lt_iff_toNat_lt]
    change ¬a.toNat < 0x80
    omega
  have hin : within 0xC2 0xDF a = true := within_iff.mpr h
  simp only [first?, if_neg ha, if_pos hin, if_pos hb]

theorem first?_three (h : 0xE0 ≤ a.toNat ∧ a.toNat ≤ 0xEF) (hb : isSecond a b = true)
    (hc : isTail c = true) :
    first? (a :: b :: c :: rest) =
      some (Char.ofNat ((a.toNat % 16 * 64 + tailBits b) * 64 + tailBits c), 3) := by
  have ha : ¬a < 0x80 := by
    rw [UInt8.lt_iff_toNat_lt]
    change ¬a.toNat < 0x80
    omega
  have hout : ¬within 0xC2 0xDF a = true := by
    rw [within_iff]
    change ¬(0xC2 ≤ a.toNat ∧ a.toNat ≤ 0xDF)
    omega
  have hin : within 0xE0 0xEF a = true := within_iff.mpr h
  simp only [first?, if_neg ha, if_neg hout, if_pos hin, hb, hc, Bool.and_self, if_true]

theorem first?_four (h : 0xF0 ≤ a.toNat ∧ a.toNat ≤ 0xF4) (hb : isSecond a b = true)
    (hc : isTail c = true) (hd : isTail d = true) :
    first? (a :: b :: c :: d :: rest) =
      some (Char.ofNat (((a.toNat % 8 * 64 + tailBits b) * 64 + tailBits c) * 64 + tailBits d),
        4) := by
  have ha : ¬a < 0x80 := by
    rw [UInt8.lt_iff_toNat_lt]
    change ¬a.toNat < 0x80
    omega
  have hout : ¬within 0xC2 0xDF a = true := by
    rw [within_iff]
    change ¬(0xC2 ≤ a.toNat ∧ a.toNat ≤ 0xDF)
    omega
  have hout' : ¬within 0xE0 0xEF a = true := by
    rw [within_iff]
    change ¬(0xE0 ≤ a.toNat ∧ a.toNat ≤ 0xEF)
    omega
  have hin : within 0xF0 0xF4 a = true := within_iff.mpr h
  simp only [first?, if_neg ha, if_neg hout, if_neg hout', if_pos hin, hb, hc, hd, Bool.and_self,
    if_true]

/-- **The second byte of a longer character**: the least and the greatest first bytes leave
part of its range out. -/
theorem isSecond_of {a b : UInt8} (htail : 0x80 ≤ b.toNat ∧ b.toNat ≤ 0xBF)
    (hE0 : a.toNat = 0xE0 → 0xA0 ≤ b.toNat) (hED : a.toNat = 0xED → b.toNat ≤ 0x9F)
    (hF0 : a.toNat = 0xF0 → 0x90 ≤ b.toNat) (hF4 : a.toNat = 0xF4 → b.toNat ≤ 0x8F) :
    isSecond a b = true := by
  unfold isSecond secondRange
  split
  · next h => exact within_iff.mpr ⟨hE0 (congrArg UInt8.toNat h), htail.2⟩
  split
  · next h => exact within_iff.mpr ⟨htail.1, hED (congrArg UInt8.toNat h)⟩
  split
  · next h => exact within_iff.mpr ⟨hF0 (congrArg UInt8.toNat h), htail.2⟩
  split
  · next h => exact within_iff.mpr ⟨htail.1, hF4 (congrArg UInt8.toNat h)⟩
  · exact within_iff.mpr htail

theorem toNat_ofNat_of_lt {n : ℕ} (h : n < 256) : (UInt8.ofNat n).toNat = n :=
  UInt8.toNat_ofNat_of_lt' h

/-- **The first character of a text** is read off its bytes. -/
theorem first?_encodeChar (ch : Char) (rest : List UInt8) :
    first? (String.utf8EncodeChar ch ++ rest) =
      some (ch, (String.utf8EncodeChar ch).length) := by
  have hvalid : ch.toNat < 0xD800 ∨ 0xDFFF < ch.toNat ∧ ch.toNat < 0x110000 := ch.valid
  have hback {n : ℕ} (h : n = ch.toNat) : Char.ofNat n = ch := by rw [h, Char.ofNat_toNat]
  have hval : ch.val.toNat = ch.toNat := rfl
  unfold String.utf8EncodeChar
  rw [hval]
  -- one case for each length, in which the bytes are numbers made of the digits of `v`
  generalize ch.toNat = v at hvalid hback
  dsimp only
  split
  · have h₀ := toNat_ofNat_of_lt (n := v) (by omega)
    refine (first?_one (by omega)).trans ?_
    rw [h₀, hback rfl]
    rfl
  split
  · have h₀ := toNat_ofNat_of_lt (n := v / 64 % 0x20 + 0xc0) (by omega)
    have h₁ := toNat_ofNat_of_lt (n := v % 0x40 + 0x80) (by omega)
    refine (first?_two (by omega) (isTail_iff.mpr (by omega))).trans ?_
    rw [tailBits, hback (by omega)]
    rfl
  split
  · have h₀ := toNat_ofNat_of_lt (n := v / 4096 % 0x10 + 0xe0) (by omega)
    have h₁ := toNat_ofNat_of_lt (n := v / 64 % 0x40 + 0x80) (by omega)
    have h₂ := toNat_ofNat_of_lt (n := v % 0x40 + 0x80) (by omega)
    have hsecond : isSecond (UInt8.ofNat (v / 4096 % 0x10 + 0xe0))
        (UInt8.ofNat (v / 64 % 0x40 + 0x80)) = true := by
      rw [isSecond_of] <;> omega
    refine (first?_three (by omega) hsecond (isTail_iff.mpr (by omega))).trans ?_
    rw [tailBits, tailBits, hback (by omega)]
    rfl
  · have h₀ := toNat_ofNat_of_lt (n := v / 262144 % 0x08 + 0xf0) (by omega)
    have h₁ := toNat_ofNat_of_lt (n := v / 4096 % 0x40 + 0x80) (by omega)
    have h₂ := toNat_ofNat_of_lt (n := v / 64 % 0x40 + 0x80) (by omega)
    have h₃ := toNat_ofNat_of_lt (n := v % 0x40 + 0x80) (by omega)
    have hsecond : isSecond (UInt8.ofNat (v / 262144 % 0x08 + 0xf0))
        (UInt8.ofNat (v / 4096 % 0x40 + 0x80)) = true := by
      rw [isSecond_of] <;> omega
    refine (first?_four (by omega) hsecond (isTail_iff.mpr (by omega))
      (isTail_iff.mpr (by omega))).trans ?_
    rw [tailBits, tailBits, tailBits, hback (by omega)]
    rfl

/-! ### The bytes of a character -/

/-- The one byte of an ASCII character is its number. -/
theorem toNat_of_mem_encodeChar {ch : Char} (h : ch.toNat < 0x80) {byte : UInt8}
    (hmem : byte ∈ String.utf8EncodeChar ch) : byte.toNat = ch.toNat := by
  have hle : ch.val.toNat ≤ 0x7f := Nat.le_of_lt_succ h
  unfold String.utf8EncodeChar at hmem
  simp only [if_pos hle] at hmem
  rw [List.mem_singleton.mp hmem]
  exact toNat_ofNat_of_lt (Nat.lt_of_lt_of_le h (by norm_num))

/-- **No byte of a longer character is one of ASCII.** -/
theorem le_of_mem_encodeChar {ch : Char} (h : 0x80 ≤ ch.toNat) {byte : UInt8}
    (hmem : byte ∈ String.utf8EncodeChar ch) : 0x80 ≤ byte.toNat := by
  have hval : ch.val.toNat = ch.toNat := rfl
  have hbound : ch.toNat < 0x110000 := by
    rcases ch.valid with hlow | hhigh
    · exact lt_trans hlow (by norm_num)
    · exact hhigh.2
  have hbyte {n : ℕ} (hn : n < 256) (hge : 0x80 ≤ n) : 0x80 ≤ (UInt8.ofNat n).toNat := by
    rwa [toNat_ofNat_of_lt hn]
  unfold String.utf8EncodeChar at hmem
  rw [hval] at hmem
  dsimp only at hmem
  split at hmem
  · omega
  split at hmem
  · simp only [List.mem_cons, List.not_mem_nil, or_false] at hmem
    rcases hmem with rfl | rfl <;> exact hbyte (by omega) (by omega)
  split at hmem
  · simp only [List.mem_cons, List.not_mem_nil, or_false] at hmem
    rcases hmem with rfl | rfl | rfl <;> exact hbyte (by omega) (by omega)
  · simp only [List.mem_cons, List.not_mem_nil, or_false] at hmem
    rcases hmem with rfl | rfl | rfl | rfl <;> exact hbyte (by omega) (by omega)

/-! ### A whole text -/

/-- The bytes of a character already read are passed over. -/
theorem decodeFrom_skip (position : ℕ) (xs rest : List UInt8) :
    decodeFrom position xs.length (xs ++ rest) = decodeFrom position 0 rest := by
  induction xs with
  | nil => rfl
  | cons x xs ih => exact ih

theorem decodeFrom_encodeChar (position : ℕ) (ch : Char) (rest : List UInt8) :
    decodeFrom position 0 (String.utf8EncodeChar ch ++ rest) =
      (decodeFrom (position + (String.utf8EncodeChar ch).length) 0 rest).map (ch :: ·) := by
  have hfirst := first?_encodeChar ch rest
  cases hbytes : String.utf8EncodeChar ch with
  | nil => exact absurd hbytes String.utf8EncodeChar_ne_nil
  | cons byte bytes =>
    rw [hbytes] at hfirst
    rw [List.cons_append, decodeFrom, ← List.cons_append, hfirst]
    dsimp only
    rw [List.length_cons, Nat.add_sub_cancel, decodeFrom_skip]

theorem decodeFrom_encode (position : ℕ) (cs : List Char) :
    decodeFrom position 0 (cs.flatMap String.utf8EncodeChar) = .ok cs := by
  induction cs generalizing position with
  | nil => rfl
  | cons ch cs ih =>
    rw [List.flatMap_cons, decodeFrom_encodeChar, ih]
    rfl

/-- The bytes of an array from a place on, as they are collected. -/
theorem toList_loop (bytes : ByteArray) (i : ℕ) (collected : List UInt8) :
    ByteArray.toList.loop bytes i collected =
      collected.reverse ++ bytes.data.toList.drop i := by
  induction i, collected using ByteArray.toList.loop.induct bytes with
  | case1 i collected hi ih =>
    have hlength : i < bytes.data.toList.length := hi
    have hget : bytes.get! i = bytes.data.toList[i] := getElem!_pos bytes.data i hi
    rw [ByteArray.toList.loop, if_pos hi, ih, List.reverse_cons, List.append_assoc, hget,
      List.singleton_append, ← List.drop_eq_getElem_cons hi]
  | case2 i collected hi =>
    rw [ByteArray.toList.loop, if_neg hi, List.drop_eq_nil_of_le (Nat.le_of_not_lt hi),
      List.append_nil]

theorem toList_toByteArray (bytes : List UInt8) : bytes.toByteArray.toList = bytes := by
  rw [ByteArray.toList, toList_loop, List.toList_data_toByteArray]
  rfl

/-- The bytes of a text are those of its characters. -/
theorem encode_eq (s : String) : encode s = s.toList.flatMap String.utf8EncodeChar := by
  have hbytes : s.toUTF8 = (s.toList.flatMap String.utf8EncodeChar).toByteArray := by
    conv_lhs => rw [← String.ofList_toList (s := s)]
    rfl
  rw [encode, hbytes, toList_toByteArray]

/-- **Decoding undoes encoding.** -/
theorem decode_encode (s : String) : decode (encode s) = .ok s.toList := by
  rw [encode_eq]
  exact decodeFrom_encode 0 s.toList

end MixedWorkload.Text.Utf8
