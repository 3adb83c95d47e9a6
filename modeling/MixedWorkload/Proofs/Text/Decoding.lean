import MixedWorkload.Proofs.Text.Utf8

/-!
# What is decoded was encoded

`MixedWorkload.Proofs.Text.Utf8` says that the bytes of a text are decoded to the text. Here
is the other direction: bytes that are decoded are those of the text
(`MixedWorkload.Text.Utf8.decode_eq_ok_iff`), so that the reader accepts no second form of
any character. Bytes that are not decoded are named by the number of those in front that are
a text, and this is the longest such beginning
(`MixedWorkload.Text.Utf8.decode_eq_error_iff`).
-/

namespace MixedWorkload.Text.Utf8

/-! ### One character -/

section Characters

variable {a b c d : UInt8}

/-- The second byte of a longer character is a continuation byte, and after the least and
the greatest first bytes it is not any one. -/
theorem bounds_of_isSecond (h : isSecond a b = true) :
    (0x80 ≤ b.toNat ∧ b.toNat ≤ 0xBF) ∧ (a.toNat = 0xE0 → 0xA0 ≤ b.toNat) ∧
      (a.toNat = 0xED → b.toNat ≤ 0x9F) ∧ (a.toNat = 0xF0 → 0x90 ≤ b.toNat) ∧
      (a.toNat = 0xF4 → b.toNat ≤ 0x8F) := by
  have hnat {n : UInt8} : a = n ↔ a.toNat = n.toNat := UInt8.toNat_inj.symm
  simp only [isSecond, secondRange, hnat, UInt8.reduceToNat] at h
  split_ifs at h <;> simp only [within_iff, UInt8.reduceToNat] at h <;> omega

theorem toNat_ofNat_char {n : ℕ} (h : n < 0xD800 ∨ 0xDFFF < n ∧ n < 0x110000) :
    (Char.ofNat n).val.toNat = n := by
  have hvalid : n.isValidChar := h
  rw [Char.ofNat, dif_pos hvalid]
  rfl

theorem eq_ofNat {n : ℕ} (h : a.toNat = n) : a = UInt8.ofNat n := by
  rw [← h, UInt8.ofNat_toNat]

theorem encodeChar_one (h : a.toNat < 0x80) :
    String.utf8EncodeChar (Char.ofNat a.toNat) = [a] := by
  unfold String.utf8EncodeChar
  rw [toNat_ofNat_char (by omega)]
  dsimp only
  rw [if_pos (by omega), UInt8.ofNat_toNat]

theorem encodeChar_two (h : 0xC2 ≤ a.toNat ∧ a.toNat ≤ 0xDF) (hb : isTail b = true) :
    String.utf8EncodeChar (Char.ofNat (a.toNat % 32 * 64 + tailBits b)) = [a, b] := by
  rw [isTail_iff] at hb
  unfold String.utf8EncodeChar tailBits
  rw [toNat_ofNat_char (by omega)]
  dsimp only
  rw [if_neg (by omega), if_pos (by omega), ← eq_ofNat (a := a) (by omega),
    ← eq_ofNat (a := b) (by omega)]

theorem encodeChar_three (h : 0xE0 ≤ a.toNat ∧ a.toNat ≤ 0xEF) (hb : isSecond a b = true)
    (hc : isTail c = true) :
    String.utf8EncodeChar (Char.ofNat ((a.toNat % 16 * 64 + tailBits b) * 64 + tailBits c)) =
      [a, b, c] := by
  obtain ⟨hb, hE0, hED, -, -⟩ := bounds_of_isSecond hb
  rw [isTail_iff] at hc
  unfold String.utf8EncodeChar tailBits
  rw [toNat_ofNat_char (by omega)]
  dsimp only
  rw [if_neg (by omega), if_neg (by omega), if_pos (by omega), ← eq_ofNat (a := a) (by omega),
    ← eq_ofNat (a := b) (by omega), ← eq_ofNat (a := c) (by omega)]

theorem encodeChar_four (h : 0xF0 ≤ a.toNat ∧ a.toNat ≤ 0xF4) (hb : isSecond a b = true)
    (hc : isTail c = true) (hd : isTail d = true) :
    String.utf8EncodeChar
        (Char.ofNat (((a.toNat % 8 * 64 + tailBits b) * 64 + tailBits c) * 64 + tailBits d)) =
      [a, b, c, d] := by
  obtain ⟨hb, -, -, hF0, hF4⟩ := bounds_of_isSecond hb
  rw [isTail_iff] at hc hd
  unfold String.utf8EncodeChar tailBits
  rw [toNat_ofNat_char (by omega)]
  dsimp only
  rw [if_neg (by omega), if_neg (by omega), if_neg (by omega), ← eq_ofNat (a := a) (by omega),
    ← eq_ofNat (a := b) (by omega), ← eq_ofNat (a := c) (by omega),
    ← eq_ofNat (a := d) (by omega)]

end Characters

/-- **The reader of one character** reads the bytes of that character. -/
theorem eq_encodeChar_of_first? {bytes : List UInt8} {ch : Char} {n : ℕ}
    (h : first? bytes = some (ch, n)) :
    ∃ rest, bytes = String.utf8EncodeChar ch ++ rest ∧ n = (String.utf8EncodeChar ch).length := by
  unfold first? at h
  split at h
  · next a rest =>
    split at h
    · next ha =>
      cases h
      rw [encodeChar_one (UInt8.lt_iff_toNat_lt.mp ha)]
      exact ⟨rest, rfl, rfl⟩
    split at h
    · next ha =>
      split at h
      · next b rest =>
        split at h
        · next hb =>
          cases h
          rw [encodeChar_two (within_iff.mp ha) hb]
          exact ⟨rest, rfl, rfl⟩
        · cases h
      · cases h
    split at h
    · next ha =>
      split at h
      · next b c rest =>
        split at h
        · next hbc =>
          rw [Bool.and_eq_true] at hbc
          cases h
          rw [encodeChar_three (within_iff.mp ha) hbc.1 hbc.2]
          exact ⟨rest, rfl, rfl⟩
        · cases h
      · cases h
    split at h
    · next ha =>
      split at h
      · next b c d rest =>
        split at h
        · next hbcd =>
          rw [Bool.and_eq_true, Bool.and_eq_true] at hbcd
          cases h
          rw [encodeChar_four (within_iff.mp ha) hbcd.1.1 hbcd.1.2 hbcd.2]
          exact ⟨rest, rfl, rfl⟩
        · cases h
      · cases h
    · cases h
  · cases h

/-- **No character begins the bytes** that the reader refuses. -/
theorem first?_eq_none_iff {bytes : List UInt8} :
    first? bytes = none ↔ ∀ ch, ¬String.utf8EncodeChar ch <+: bytes := by
  constructor
  · rintro hnone ch ⟨rest, rfl⟩
    rw [first?_encodeChar] at hnone
    cases hnone
  · intro h
    cases hfirst : first? bytes with
    | none => rfl
    | some p =>
      obtain ⟨ch, n⟩ := p
      obtain ⟨rest, rfl, -⟩ := eq_encodeChar_of_first? hfirst
      exact absurd ⟨rest, rfl⟩ (h ch)

/-! ### All bytes -/

/-- **Bytes that are a text.** -/
def IsText (bytes : List UInt8) : Prop :=
  ∃ text, bytes = encode text

/-- **The longest text in front**: the first bytes, of the given number, are a text, and what
is behind them does not begin with a character, although it is not empty. -/
def BreaksAt (bytes : List UInt8) (n : ℕ) : Prop :=
  ∃ text rest, bytes = encode text ++ rest ∧ n = (encode text).length ∧ rest ≠ [] ∧
    ∀ ch, ¬String.utf8EncodeChar ch <+: rest

theorem isText_flatMap (cs : List Char) : IsText (cs.flatMap String.utf8EncodeChar) :=
  ⟨String.ofList cs, by rw [encode_eq, String.toList_ofList]⟩

/-- All bytes are a text and what no character begins, which may be nothing. -/
theorem exists_split (bytes : List UInt8) :
    ∃ (cs : List Char) (rest : List UInt8), bytes = cs.flatMap String.utf8EncodeChar ++ rest ∧
      (rest = [] ∨ first? rest = none) := by
  -- each character takes off a byte at least
  induction hn : bytes.length using Nat.strong_induction_on generalizing bytes with
  | _ n ih =>
    cases hfirst : first? bytes with
    | none => exact ⟨[], bytes, rfl, Or.inr hfirst⟩
    | some p =>
      obtain ⟨ch, size⟩ := p
      obtain ⟨rest, rfl, -⟩ := eq_encodeChar_of_first? hfirst
      have hne : String.utf8EncodeChar ch ≠ [] := String.utf8EncodeChar_ne_nil
      have hpos := List.length_pos_of_ne_nil hne
      have hlt : rest.length < n := by
        rw [← hn, List.length_append]
        omega
      obtain ⟨cs, rest', rfl, hrest⟩ := ih rest.length hlt rest rfl
      exact ⟨ch :: cs, rest', by rw [List.flatMap_cons, List.append_assoc], hrest⟩

/-- A text in front is passed over. -/
theorem decodeFrom_append (position : ℕ) (cs : List Char) (rest : List UInt8) :
    decodeFrom position 0 (cs.flatMap String.utf8EncodeChar ++ rest) =
      (decodeFrom (position + (cs.flatMap String.utf8EncodeChar).length) 0 rest).map (cs ++ ·) := by
  induction cs generalizing position with
  | nil => cases h : decodeFrom position 0 rest <;> simp [h, Except.map]
  | cons ch cs ih =>
    rw [List.flatMap_cons, List.append_assoc, decodeFrom_encodeChar, ih, List.length_append,
      Nat.add_assoc]
    cases decodeFrom _ 0 rest <;> rfl

theorem decodeFrom_of_first?_eq_none {position : ℕ} {bytes : List UInt8} (hne : bytes ≠ [])
    (h : first? bytes = none) : decodeFrom position 0 bytes = .error ⟨position⟩ := by
  cases bytes with
  | nil => exact absurd rfl hne
  | cons byte bytes => rw [decodeFrom, h]

/-- **What is decoded was encoded.** -/
theorem decode_eq_ok_iff {bytes : List UInt8} {cs : List Char} :
    decode bytes = .ok cs ↔ bytes = cs.flatMap String.utf8EncodeChar := by
  constructor
  · intro h
    obtain ⟨cs', rest, rfl, hrest⟩ := exists_split bytes
    rw [decode, decodeFrom_append] at h
    by_cases hnil : rest = []
    · subst hnil
      have hcs : cs' ++ [] = cs := Except.ok.inj h
      rw [List.append_nil] at hcs ⊢
      rw [hcs]
    · rw [decodeFrom_of_first?_eq_none hnil (hrest.resolve_left hnil)] at h
      cases h
  · rintro rfl
    exact decodeFrom_encode 0 cs

/-- **What is not decoded** breaks off behind the longest text in front. -/
theorem decode_eq_error_iff {bytes : List UInt8} {n : ℕ} :
    decode bytes = .error ⟨n⟩ ↔ BreaksAt bytes n := by
  constructor
  · intro h
    obtain ⟨cs, rest, rfl, hrest⟩ := exists_split bytes
    have htext : encode (String.ofList cs) = cs.flatMap String.utf8EncodeChar := by
      rw [encode_eq, String.toList_ofList]
    rw [decode, decodeFrom_append, Nat.zero_add] at h
    by_cases hnil : rest = []
    · rw [hnil] at h
      cases h
    · have hnone := hrest.resolve_left hnil
      rw [decodeFrom_of_first?_eq_none hnil hnone, ← htext] at h
      cases h
      exact ⟨String.ofList cs, rest, by rw [htext], rfl, hnil, first?_eq_none_iff.mp hnone⟩
  · rintro ⟨text, rest, rfl, rfl, hne, hrest⟩
    rw [decode, encode_eq, decodeFrom_append, Nat.zero_add,
      decodeFrom_of_first?_eq_none hne (first?_eq_none_iff.mpr hrest)]
    rfl

end MixedWorkload.Text.Utf8
