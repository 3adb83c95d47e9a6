import Mathlib
import MixedWorkload.Text.Digits

/-!
# Digits

What the readers of numbers do with the digits that the writers wrote: the value of a list of
digits, taken as a whole or in two parts, and the digits that lead a text.
-/

namespace MixedWorkload.Text

/-- A text that starts with a digit. -/
theorem splitSign_of_isDigit {cs : List Char} (h : ∀ c ∈ cs.head?, c.isDigit = true) :
    splitSign cs = (false, cs) := by
  unfold splitSign
  split
  · exact absurd (h '-' rfl) (by decide)
  · exact absurd (h '+' rfl) (by decide)
  · rfl

namespace Digits

variable {ds es rest : List Char}

theorem value_toDigits (n : ℕ) : value (Nat.toDigits 10 n) = n :=
  Nat.ofDigitChars_ten_toDigits

theorem value_append (ds es : List Char) :
    value (ds ++ es) = 10 ^ es.length * value ds + value es :=
  (Nat.ofDigitChars_append 0).trans Nat.ofDigitChars_eq_ofDigitChars_zero

theorem value_zeros (n : ℕ) : value (List.replicate n '0') = 0 :=
  Nat.ofDigitChars_replicate_zero

theorem isDigit_toDigits (n : ℕ) : ∀ c ∈ Nat.toDigits 10 n, c.isDigit = true :=
  fun _ hc => Nat.isDigit_of_mem_toDigits (by norm_num) (by norm_num) hc

theorem isDigit_zeros (n : ℕ) : ∀ c ∈ List.replicate n '0', c.isDigit = true := by
  intro c hc
  rw [List.eq_of_mem_replicate hc]
  decide

/-- **The digits that lead a text** are the ones that stand before another character. -/
theorem leading_append (hds : ∀ c ∈ ds, c.isDigit = true)
    (hrest : ∀ c ∈ rest.head?, c.isDigit = false) : leading (ds ++ rest) = (ds, rest) := by
  have htake : rest.takeWhile Char.isDigit = [] ∧ rest.dropWhile Char.isDigit = rest := by
    cases rest with
    | nil => exact ⟨rfl, rfl⟩
    | cons c rest =>
      have hc : ¬c.isDigit = true := by
        rw [hrest c rfl]
        exact Bool.false_ne_true
      exact ⟨List.takeWhile_cons_of_neg hc, List.dropWhile_cons_of_neg hc⟩
  rw [leading, List.takeWhile_append_of_pos hds, List.dropWhile_append_of_pos hds, htake.1,
    htake.2, List.append_nil]

theorem read?_eq_some (hne : ds ≠ []) (hds : ∀ c ∈ ds, c.isDigit = true) :
    read? ds = some (value ds) := by
  have hall : (!ds.isEmpty && ds.all Char.isDigit) = true := by
    rw [Bool.and_eq_true, Bool.not_eq_true', List.isEmpty_eq_false_iff, List.all_eq_true]
    exact ⟨hne, hds⟩
  rw [read?, if_pos hall]

end Digits

/-- **A number of 32 bits is read as it was written.** -/
theorem readUInt32?_toString (n : UInt32) : readUInt32? (toString n).toList = some n := by
  have htext : (toString n).toList = Nat.toDigits 10 n.toNat := String.toList_ofList
  have hdigits := Digits.isDigit_toDigits n.toNat
  have hread : Digits.read? (Nat.toDigits 10 n.toNat) = some n.toNat := by
    rw [Digits.read?_eq_some Nat.toDigits_ne_nil hdigits, Digits.value_toDigits]
  rw [htext]
  unfold readUInt32?
  split
  · next ds heq =>
    -- there is no sign in front of the digits
    have hplus := hdigits '+' (heq ▸ List.mem_cons_self)
    exact absurd hplus (by decide)
  · dsimp only
    rw [hread, Option.bind_some, if_pos n.toNat_lt, UInt32.ofNat_toNat]

end MixedWorkload.Text
