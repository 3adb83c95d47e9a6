import MixedWorkload.Decimal.Style
import MixedWorkload.Decimal.Reader
import MixedWorkload.Proofs.Binary64.Difference
import MixedWorkload.Proofs.Binary64.Nearest
import MixedWorkload.Proofs.Decimal.Shortest
import MixedWorkload.Proofs.Text.Digits

/-!
# Reading what was written

A double that was written in any of the styles of this library is read back as it was: the sign
of zero, infinities and the double that is no number included
(`MixedWorkload.Decimal.Style.IsReadable.readFloat?_render`). So no two doubles are written alike
(`MixedWorkload.Decimal.Style.IsReadable.render_injective`).

There are three parts to it. The shortest decimal of a double rounds to it, which is
`MixedWorkload.Decimal.rounded_shortest`. The reader finds a decimal of the same value in each of
the two layouts, `MixedWorkload.Decimal.exists_read?_positional` and
`MixedWorkload.Decimal.exists_read?_scientific`. And it rounds that decimal, its shortcuts for
huge exponents included, which is `MixedWorkload.Decimal.rounds_toFloat`.
-/

namespace MixedWorkload.Decimal

open Binary64 Text

open Float.Model.UnpackedFloat (Sign)

/-! ### Decimals as fractions -/

variable (d : Decimal)

theorem fraction_pos : 0 < d.fraction.2 :=
  Nat.pow_pos (by norm_num)

theorem fraction_div : (d.fraction.1 : ℚ) / d.fraction.2 = d.value := by
  have hpow : (10 : ℚ) ^ d.exponent.toNat = 10 ^ d.exponent * 10 ^ (-d.exponent).toNat := by
    rw [← zpow_natCast, ← zpow_natCast, ← zpow_add₀ (by norm_num)]
    congr 1
    omega
  have hnum : (d.fraction.1 : ℚ) = d.coefficient * 10 ^ d.exponent.toNat := by
    exact_mod_cast rfl
  have hden : (d.fraction.2 : ℚ) = 10 ^ (-d.exponent).toNat := by
    exact_mod_cast rfl
  rw [hnum, hden, hpow, ← mul_assoc, mul_div_cancel_right₀ _ (by positivity), value]

theorem value_nonneg : 0 ≤ d.value := by
  rw [value]
  positivity

/-- **A decimal is below the power of ten** after its leading exponent. -/
theorem value_lt : d.value < 10 ^ (d.leadingExponent + 1) := by
  have hlt : d.coefficient < 10 ^ d.digits.length :=
    (Nat.length_toDigits_le_iff (by norm_num) Nat.length_toDigits_pos).mp le_rfl
  have hcast : (d.coefficient : ℚ) < 10 ^ d.digits.length := by exact_mod_cast hlt
  have hexp : d.leadingExponent + 1 = d.digits.length + d.exponent := by
    rw [leadingExponent]
    ring
  rw [hexp, zpow_add₀ (by norm_num), zpow_natCast, value]
  gcongr

/-- **A positive decimal is at least the power of ten** of its leading exponent. -/
theorem le_value (hd : 0 < d.coefficient) : 10 ^ d.leadingExponent ≤ d.value := by
  have hle : 10 ^ (d.digits.length - 1) ≤ d.coefficient := by
    rcases Nat.eq_zero_or_pos (d.digits.length - 1) with h0 | hpos
    · rw [h0]
      exact hd
    · have hiff := Nat.length_toDigits_le_iff (n := d.coefficient) (b := 10) (by norm_num) hpos
      exact le_of_not_gt fun hlt => absurd (hiff.mpr hlt) (by rw [digits] at hpos ⊢; omega)
  have hcast : (10 : ℚ) ^ (d.digits.length - 1) ≤ d.coefficient := by exact_mod_cast hle
  have hexp : d.leadingExponent = (d.digits.length - 1 : ℕ) + d.exponent := by
    have hpos : 0 < d.digits.length := Nat.length_toDigits_pos
    rw [leadingExponent]
    omega
  rw [hexp, zpow_add₀ (by norm_num), zpow_natCast, value]
  gcongr

/-! ### Rounding a decimal -/

/-- A number this large rounds to infinity. -/
theorem rounded_eq_infiniteUnits {u : ℚ} (h : overflowUnits ≤ u) : rounded u = infiniteUnits := by
  have hu : 0 ≤ u := le_trans (Nat.cast_nonneg _) h
  have hle : infiniteUnits ≤ onGrid u :=
    le_of_not_gt fun hlt => absurd ((onGrid_lt_iff hu).mp hlt) (not_lt_of_ge h)
  rw [rounded_of_nonneg hu, roundedMagnitude, min_eq_right hle]

theorem unitsOfOne_lt : 2 * unitsOfOne < 10 ^ 329 := by
  calc 2 * unitsOfOne = (2 ^ 93) ^ 11 * 2 ^ 52 := by
        rw [unitsOfOne, unitPlaces, ← pow_mul, ← pow_add, ← pow_succ']
    _ < (10 ^ 28) ^ 11 * 10 ^ 16 := by gcongr <;> norm_num
    _ = 10 ^ 324 := by rw [← pow_mul, ← pow_add]
    _ ≤ 10 ^ 329 := by gcongr <;> norm_num

theorem overflowUnits_le : (overflowUnits : ℚ) ≤ 10 ^ 310 * unitsOfOne := by
  rw [overflowUnits_eq, unitsOfOne]
  calc (((2 ^ 53 - 1 : ℕ) : ℚ) + 1 / 2) * 2 ^ lastGrid ≤ 2 ^ 53 * 2 ^ lastGrid := by
        gcongr
        norm_num
    _ ≤ (2 ^ 205) ^ 5 * 2 ^ unitPlaces := by
        rw [← pow_add, ← pow_mul, ← pow_add]
        exact pow_le_pow_right₀ one_le_two (by decide)
    _ ≤ (10 ^ 62) ^ 5 * 2 ^ unitPlaces := by gcongr; norm_num
    _ = 10 ^ 310 * 2 ^ unitPlaces := by rw [← pow_mul]

/-- A decimal that is taken for zero is less than half the least double. -/
theorem units_lt_half (h : d.coefficient = 0 ∨ d.leadingExponent ≤ belowLeast) :
    d.value * unitsOfOne < 1 / 2 := by
  have hone := unitsOfOne_pos
  rcases h with h0 | hexp
  · rw [value, h0, Nat.cast_zero, zero_mul, zero_mul]
    norm_num
  · have hexp' : d.leadingExponent + 1 ≤ -(329 : ℕ) := by
      rw [belowLeast] at hexp
      omega
    calc d.value * unitsOfOne < 10 ^ (d.leadingExponent + 1) * unitsOfOne := by
          gcongr
          exact d.value_lt
      _ ≤ 10 ^ (-(329 : ℕ) : ℤ) * unitsOfOne :=
          mul_le_mul_of_nonneg_right (zpow_le_zpow_right₀ (by norm_num) hexp') hone.le
      _ < 1 / 2 := by
          rw [zpow_neg, zpow_natCast, inv_mul_lt_iff₀ (by positivity)]
          rw [mul_one_div, lt_div_iff₀ two_pos, mul_comm]
          exact unitsOfOne_lt

/-- A decimal that is taken for infinity is beyond the greatest double. -/
theorem overflowUnits_le_units (hd : 0 < d.coefficient)
    (h : beyondGreatest ≤ d.leadingExponent) : overflowUnits ≤ d.value * unitsOfOne := by
  have hone := unitsOfOne_pos
  calc (overflowUnits : ℚ) ≤ 10 ^ 310 * unitsOfOne := overflowUnits_le
    _ ≤ 10 ^ d.leadingExponent * unitsOfOne := by
        gcongr
        rw [← zpow_natCast]
        exact zpow_le_zpow_right₀ (by norm_num) h
    _ ≤ d.value * unitsOfOne := by
        gcongr
        exact d.le_value hd

/-- **Reading a decimal rounds it**, the shortcuts for huge exponents included. -/
theorem rounds_toFloat : Rounds d.toFloat d.value := by
  unfold toFloat
  split
  · next hsmall =>
    obtain ⟨hn, hunits⟩ := rounds_zero .positive
    have hnonneg := mul_nonneg d.value_nonneg unitsOfOne_pos.le
    rw [zero_mul, rounded_zero] at hunits
    refine ⟨hn, ?_⟩
    rw [(rounded_eq_zero_iff hnonneg).mpr (d.units_lt_half hsmall).le]
    exact hunits
  · next hlarge =>
    rw [not_or] at hlarge
    split
    · next hexp =>
      have hcoefficient := Nat.pos_of_ne_zero hlarge.1
      refine ⟨rfl, ?_⟩
      rw [rounded_eq_infiniteUnits (d.overflowUnits_le_units hcoefficient hexp)]
      rfl
    · rw [← fraction_div]
      exact rounds_nearest _ d.fraction_pos

/-! ### Reading a layout -/

/-- **An exponent is read back.** -/
theorem readExponent?_toString {plus : String} (hplus : plus = "" ∨ plus = "+") (z : ℤ) :
    readExponent? ('e' :: ((if 0 ≤ z then plus else "").toList ++ (toString z).toList)) =
      some z := by
  have hdigits (n : ℕ) : Digits.read? (Nat.toDigits 10 n) = some n := by
    rw [Digits.read?_eq_some Nat.toDigits_ne_nil (Digits.isDigit_toDigits n),
      Digits.value_toDigits]
  rw [readExponent?, if_pos (Or.inl rfl)]
  cases z with
  | ofNat n =>
    have htext : (toString (Int.ofNat n)).toList = Nat.toDigits 10 n := String.toList_ofList
    have hsplit : splitSign (plus.toList ++ Nat.toDigits 10 n) = (false, Nat.toDigits 10 n) := by
      rcases hplus with rfl | rfl
      · exact splitSign_of_isDigit fun c hc =>
          Digits.isDigit_toDigits n c (List.mem_of_mem_head? hc)
      · rfl
    have hnonneg : 0 ≤ Int.ofNat n := Int.natCast_nonneg n
    rw [if_pos hnonneg, htext, hsplit]
    dsimp only
    rw [hdigits]
    rfl
  | negSucc n =>
    have htext : (toString (Int.negSucc n)).toList = '-' :: Nat.toDigits 10 (n + 1) := by
      have hrepr : (Nat.repr (n + 1)).toList = Nat.toDigits 10 (n + 1) := String.toList_ofList
      change ("-" ++ Nat.repr (n + 1)).toList = _
      rw [String.toList_append, hrepr]
      rfl
    have hsplit : splitSign ("".toList ++ '-' :: Nat.toDigits 10 (n + 1)) =
        (true, Nat.toDigits 10 (n + 1)) := rfl
    rw [if_neg (by omega), htext, hsplit]
    dsimp only
    rw [hdigits]
    rfl

section Layout

variable {whole places ex : List Char} {e : ℤ} (hwhole : ∀ c ∈ whole, c.isDigit = true)
  (hne : whole ≠ []) (hhead : ∀ c ∈ ex.head?, c = 'e') (he : readExponent? ex = some e)

include hwhole hne hhead he

/-- Digits and an exponent. -/
theorem read?_whole : read? (whole ++ ex) = some ⟨Digits.value whole, e⟩ := by
  have hlead : Digits.leading (whole ++ ex) = (whole, ex) :=
    Digits.leading_append hwhole fun c hc => by rw [hhead c hc]; decide
  unfold read?
  rw [hlead]
  dsimp only
  rw [List.isEmpty_eq_false_iff.mpr hne, Bool.false_and, if_neg Bool.false_ne_true]
  split
  · exact absurd (hhead '.' rfl) (by decide)
  · rw [he, List.append_nil]
    simp only [Option.map_some, List.length_nil, Nat.cast_zero, sub_zero]

/-- Digits, a point, more digits and an exponent. -/
theorem read?_places (hplaces : ∀ c ∈ places, c.isDigit = true) :
    read? (whole ++ '.' :: (places ++ ex)) =
      some ⟨Digits.value (whole ++ places), e - places.length⟩ := by
  have hlead : Digits.leading (whole ++ '.' :: (places ++ ex)) = (whole, '.' :: (places ++ ex)) :=
    Digits.leading_append hwhole fun c hc => by cases hc; decide
  have hlead' : Digits.leading (places ++ ex) = (places, ex) :=
    Digits.leading_append hplaces fun c hc => by rw [hhead c hc]; decide
  unfold read?
  rw [hlead]
  dsimp only
  rw [List.isEmpty_eq_false_iff.mpr hne, Bool.false_and, if_neg Bool.false_ne_true]
  split
  · next rest hrest =>
    rw [← (List.cons.inj hrest).2, hlead', he]
    rfl
  · next hno => exact absurd rfl (hno _)

end Layout

theorem isDigit_digits : ∀ c ∈ d.digits, c.isDigit = true :=
  Digits.isDigit_toDigits d.coefficient

theorem digits_ne_nil : d.digits ≠ [] :=
  Nat.toDigits_ne_nil

theorem value_digits : Digits.value d.digits = d.coefficient :=
  Digits.value_toDigits d.coefficient

section Positional

variable {d} {suffix : String}

theorem readExponent?_nil : readExponent? [] = some 0 := rfl

theorem head_nil : ∀ c ∈ ([] : List Char).head?, c = 'e' := fun _ hc => by cases hc

/-- A whole number is read back, with a zero behind its point or without. -/
theorem exists_read?_whole (hsuffix : suffix = "" ∨ suffix = ".0") (hnonneg : 0 ≤ d.exponent) :
    ∃ d', read? (positional suffix d).toList = some d' ∧ d'.value = d.value := by
  have hwhole : ∀ c ∈ d.digits ++ List.replicate d.exponent.toNat '0', c.isDigit = true :=
    List.forall_mem_append.mpr ⟨d.isDigit_digits, Digits.isDigit_zeros _⟩
  have hne : d.digits ++ List.replicate d.exponent.toNat '0' ≠ [] :=
    List.append_ne_nil_of_left_ne_nil d.digits_ne_nil _
  have hvalue : Digits.value (d.digits ++ List.replicate d.exponent.toNat '0') =
      10 ^ d.exponent.toNat * d.coefficient := by
    rw [Digits.value_append, Digits.value_zeros, List.length_replicate, value_digits, add_zero]
  have hcast : ((10 ^ d.exponent.toNat * d.coefficient : ℕ) : ℚ) = d.value := by
    rw [value, Nat.cast_mul, Nat.cast_pow, ← zpow_natCast, Int.toNat_of_nonneg hnonneg, mul_comm]
    rfl
  rw [positional, if_pos hnonneg, String.toList_append, String.toList_ofList]
  rcases hsuffix with rfl | rfl
  · refine ⟨_, read?_whole hwhole hne head_nil readExponent?_nil, ?_⟩
    rw [value, zpow_zero, mul_one, hvalue, hcast]
  · refine ⟨_, read?_places hwhole hne head_nil readExponent?_nil (Digits.isDigit_zeros 1), ?_⟩
    rw [value, Digits.value_append, Digits.value_zeros, hvalue, ← hcast]
    push_cast
    norm_num
    ring

/-- A fraction is read back, as the decimal that it was. -/
theorem read?_fraction (hneg : ¬0 ≤ d.exponent) :
    read? (positional suffix d).toList = some ⟨d.coefficient, d.exponent⟩ := by
  have hpadded : ∀ c ∈ List.replicate ((-d.exponent).toNat + 1 - d.digits.length) '0' ++ d.digits,
      c.isDigit = true :=
    List.forall_mem_append.mpr ⟨Digits.isDigit_zeros _, d.isDigit_digits⟩
  have hvalue : Digits.value (List.replicate ((-d.exponent).toNat + 1 - d.digits.length) '0' ++
      d.digits) = d.coefficient := by
    rw [Digits.value_append, Digits.value_zeros, value_digits, mul_zero, zero_add]
  have hlength : (-d.exponent).toNat + 1 ≤ (List.replicate
      ((-d.exponent).toNat + 1 - d.digits.length) '0' ++ d.digits).length := by
    rw [List.length_append, List.length_replicate]
    omega
  rw [positional, if_neg hneg]
  dsimp only
  generalize List.replicate ((-d.exponent).toNat + 1 - d.digits.length) '0' ++ d.digits = padded
    at *
  have hplaces : (padded.drop (padded.length - (-d.exponent).toNat)).length =
      (-d.exponent).toNat := by
    rw [List.length_drop]
    omega
  have hne : padded.take (padded.length - (-d.exponent).toNat) ≠ [] := by
    rw [← List.length_pos_iff, List.length_take]
    omega
  have htaken : ∀ c ∈ padded.take (padded.length - (-d.exponent).toNat), c.isDigit = true :=
    fun c hc => hpadded c (List.mem_of_mem_take hc)
  have hdropped : ∀ c ∈ padded.drop (padded.length - (-d.exponent).toNat), c.isDigit = true :=
    fun c hc => hpadded c (List.mem_of_mem_drop hc)
  have hread := read?_places htaken hne head_nil readExponent?_nil hdropped
  rw [List.take_append_drop, hvalue, hplaces, List.append_nil] at hread
  rw [String.toList_append, String.toList_append, String.toList_ofList, String.toList_ofList,
    String.toList_ofList, List.append_assoc, List.singleton_append]
  refine hread.trans ?_
  congr 2
  omega

/-- **Positional notation is read back.** -/
theorem exists_read?_positional (hsuffix : suffix = "" ∨ suffix = ".0") :
    ∃ d', read? (positional suffix d).toList = some d' ∧ d'.value = d.value := by
  by_cases hnonneg : 0 ≤ d.exponent
  · exact exists_read?_whole hsuffix hnonneg
  · exact ⟨_, read?_fraction hnonneg, rfl⟩

end Positional

/-- **Scientific notation is read back.** -/
theorem exists_read?_scientific {plus : String} (hplus : plus = "" ∨ plus = "+") :
    ∃ d', read? (scientific plus d).toList = some d' ∧ d'.value = d.value := by
  have hexponent := readExponent?_toString hplus d.leadingExponent
  have hhead : ∀ c ∈ ('e' :: ((if 0 ≤ d.leadingExponent then plus else "").toList ++
      (toString d.leadingExponent).toList)).head?, c = 'e' := by
    intro c hc
    exact (Option.some.inj hc).symm
  refine ⟨⟨d.coefficient, d.exponent⟩, ?_, rfl⟩
  unfold scientific
  dsimp only
  rw [String.toList_append, String.toList_append, String.toList_append, List.append_assoc,
    List.append_assoc]
  have hdigits := d.isDigit_digits
  have hvalue := d.value_digits
  have hlength : d.leadingExponent = d.exponent + d.digits.length - 1 := rfl
  split
  · next first second rest h =>
    rw [h, List.forall_mem_cons] at hdigits
    rw [h] at hvalue
    rw [h, List.length_cons] at hlength
    have hread := read?_places (List.forall_mem_singleton.mpr hdigits.1) (List.cons_ne_nil _ _)
      hhead hexponent hdigits.2
    rw [List.singleton_append, List.singleton_append, hvalue] at hread
    rw [String.toList_ofList]
    refine hread.trans ?_
    congr 2
    omega
  · next hshort =>
    have hone : d.digits.length = 1 := by
      cases h : d.digits with
      | nil => exact absurd h d.digits_ne_nil
      | cons first rest =>
        cases rest with
        | nil => rfl
        | cons second rest => exact absurd h (hshort first second rest)
    have hread := read?_whole hdigits d.digits_ne_nil hhead hexponent
    rw [hvalue] at hread
    rw [String.toList_ofList]
    refine hread.trans ?_
    congr 2
    omega

/-! ### Reading what was written -/

/-- **A number begins with a digit or a point**, after its sign. -/
theorem head_of_read? {cs : List Char} {d : Decimal} (h : read? cs = some d) :
    ∃ c rest, cs = c :: rest ∧ (c.isDigit = true ∨ c = '.') := by
  cases cs with
  | nil => cases h
  | cons c rest =>
    refine ⟨c, rest, rfl, ?_⟩
    by_contra hc
    rw [not_or] at hc
    have hlead : Digits.leading (c :: rest) = ([], c :: rest) := by
      rw [Digits.leading, List.takeWhile_cons_of_neg hc.1, List.dropWhile_cons_of_neg hc.1]
    unfold read? at h
    rw [hlead] at h
    dsimp only at h
    split at h
    · next hrest => exact hc.2 (List.cons.inj hrest).1
    · cases h

/-- No name begins so. -/
theorem readName?_eq_none {c : Char} (hc : c.isDigit = true ∨ c = '.') (rest : List Char) :
    readName? (c :: rest) = none := by
  have hlower : c.toLower ≠ 'n' ∧ c.toLower ≠ 'i' := by
    rcases hc with hc | rfl
    · have hnine : c.val ≤ '9'.val := by
        rw [Char.isDigit, Bool.and_eq_true, decide_eq_true_iff, decide_eq_true_iff] at hc
        exact hc.2
      have hupper : ¬('A'.val ≤ c.val ∧ c.val ≤ 'Z'.val) := fun h =>
        absurd (UInt32.le_trans h.1 hnine) (by decide)
      rw [Char.toLower, dif_neg hupper]
      exact ⟨fun h => absurd (h ▸ hnine) (by decide), fun h => absurd (h ▸ hnine) (by decide)⟩
    · decide
  have hhead (name : List Char) (h : String.ofList ((c :: rest).map Char.toLower) =
      String.ofList name) : name.head? = some c.toLower := by
    rw [← String.toList_ofList (l := name), ← h, String.toList_ofList]
    rfl
  unfold readName?
  split
  · next h => exact absurd (Option.some.inj (hhead ['n', 'a', 'n'] h)).symm hlower.1
  · next h => exact absurd (Option.some.inj (hhead ['i', 'n', 'f'] h)).symm hlower.2
  · next h =>
    exact absurd (Option.some.inj (hhead ['i', 'n', 'f', 'i', 'n', 'i', 't', 'y'] h)).symm hlower.2
  · rfl

/-- **A number with a sign** is read as its decimal is. -/
theorem readFloat?_of_read? {cs : List Char} {d : Decimal} (h : read? cs = some d)
    (negative : Bool) :
    readFloat? ((signText negative).toList ++ cs) = some (withSign negative d.toFloat) := by
  obtain ⟨c, rest, rfl, hc⟩ := head_of_read? h
  have hsplit : splitSign ((signText negative).toList ++ c :: rest) = (negative, c :: rest) := by
    cases negative with
    | true => rfl
    | false =>
      change splitSign (c :: rest) = _
      unfold splitSign
      split
      · next heq => exact absurd ((List.cons.inj heq).1 ▸ hc) (by decide)
      · next heq => exact absurd ((List.cons.inj heq).1 ▸ hc) (by decide)
      · rfl
  unfold readFloat?
  rw [hsplit]
  dsimp only
  rw [readName?_eq_none hc, h]
  rfl

theorem readFloat?_notANumberText : readFloat? notANumberText.toList = some (0.0 / 0.0) := by
  with_unfolding_all rfl

theorem readFloat?_infinityText (negative : Bool) :
    readFloat? (signText negative ++ infinityText).toList =
      some (withSign negative (1.0 / 0.0)) := by
  cases negative <;> with_unfolding_all rfl

theorem toFloat_of_value_eq_zero {d : Decimal} (h : d.value = 0) : d.toFloat = ofMagnitude 0 := by
  have hpow : (10 : ℚ) ^ d.exponent ≠ 0 := by positivity
  have hzero : d.coefficient = 0 := by exact_mod_cast (mul_eq_zero.mp h).resolve_right hpow
  rw [toFloat, if_pos (Or.inl hzero)]

/-- **The value of the shortest decimal**, rounded and with its sign, is the double again. -/
theorem withSign_toFloat_eq {x : Float} {s : Sign} {m : ℕ} {e : ℤ} {hm : 0 < m}
    (hx : decoded x = .finite s m e hm) {tie : Tie} {d : Decimal}
    (hvalue : d.value = (shortest tie m (e + 1074).toNat).value) :
    withSign (isMinus s) d.toFloat = x := by
  have hcan := isCanonical_of_decoded hx
  have hle : m * 2 ^ (e + 1074).toNat ≤ infiniteUnits := hcan.lt_infiniteUnits.le
  have hscale : (e + 1074).toNat = 0 ∨ fractions ≤ m := by
    rcases hcan.normal with hnormal | he
    · exact Or.inr hnormal
    · exact Or.inl (by omega)
  obtain ⟨-, hround⟩ := rounded_shortest tie hm hcan.lt hscale hle
  have hmagnitude : units d.toFloat = magnitudeUnits m e := by
    rw [d.rounds_toFloat.units, hvalue, hround, magnitudeUnits]
  have hne : units d.toFloat ≠ 0 := by
    rw [hmagnitude]
    exact_mod_cast (magnitudeUnits_pos e hm).ne'
  have hsigned : units x = s.apply (magnitudeUnits m e : ℕ) := by
    rw [units, hx]
    rfl
  cases s with
  | positive => exact eq_of_units_eq (hmagnitude.trans hsigned.symm) hne
  | negative =>
    have hunits : units (-d.toFloat) = -units d.toFloat := units_neg _
    refine eq_of_units_eq (hunits.trans ?_) (hunits.trans_ne (neg_ne_zero.mpr hne))
    rw [hmagnitude, hsigned]
    rfl

/-- A style whose marks the reader knows. -/
structure Style.IsReadable (style : Style) : Prop where
  /-- A whole number ends there, or has a zero behind its point. -/
  wholeSuffix : style.wholeSuffix = "" ∨ style.wholeSuffix = ".0"
  /-- A positive exponent may have a sign. -/
  exponentPlus : style.exponentPlus = "" ∨ style.exponentPlus = "+"

namespace Style.IsReadable

variable {style : Style} (h : style.IsReadable)

include h

theorem exists_read?_layOut (d : Decimal) :
    ∃ d', read? (style.layOut d).toList = some d' ∧ d'.value = d.value := by
  unfold layOut
  split
  · exact d.exists_read?_scientific h.exponentPlus
  · exact exists_read?_positional h.wholeSuffix

/-- **What was written is read back**, whatever the double. -/
theorem readFloat?_render (x : Float) : readFloat? (style.render x).toList = some x := by
  unfold render
  rw [parts_ofFloat]
  cases hx : decoded x with
  | notANumber =>
    dsimp only
    have hdecoded : decoded x = decoded (0.0 / 0.0) := hx.trans rfl
    rw [readFloat?_notANumberText, decoded_injective hdecoded]
  | infinity s =>
    have hinf : decoded x = decoded (withSign (isMinus s) (1.0 / 0.0)) := by
      rw [hx]
      cases s <;> rfl
    dsimp only
    rw [readFloat?_infinityText, decoded_injective hinf]
  | zero s =>
    obtain ⟨d, hd, hvalue⟩ := exists_read?_positional (d := ⟨0, 0⟩) h.wholeSuffix
    have hzero : d.value = 0 := by
      rw [hvalue, value, Nat.cast_zero, zero_mul]
    have hdecoded : decoded x = decoded (withSign (isMinus s) d.toFloat) := by
      rw [hx, toFloat_of_value_eq_zero hzero]
      cases s <;> rfl
    have htext : (signText (isMinus s) ++ ("0" ++ style.wholeSuffix)).toList =
        (signText (isMinus s)).toList ++ (positional style.wholeSuffix ⟨0, 0⟩).toList :=
      String.toList_append
    dsimp only
    rw [if_pos rfl, htext, readFloat?_of_read? hd, decoded_injective hdecoded]
  | finite s m e hm =>
    obtain ⟨d, hd, hvalue⟩ := h.exists_read?_layOut (shortest style.tie m (e + 1074).toNat)
    dsimp only
    rw [if_neg hm.ne', String.toList_append, readFloat?_of_read? hd, withSign_toFloat_eq hx hvalue]

/-- **No two doubles are written alike.** -/
theorem render_injective : Function.Injective style.render := by
  intro x y hxy
  have hx := h.readFloat?_render x
  rw [hxy, h.readFloat?_render y] at hx
  exact (Option.some.inj hx).symm

end Style.IsReadable

end MixedWorkload.Decimal
