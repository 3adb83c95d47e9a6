import Mathlib
import MixedWorkload.Decimal.Reader
import MixedWorkload.Text.Blank

/-!
# Blanks around texts and numbers

Trimming takes off what is put around a text, if the text itself begins and ends with
something else (`MixedWorkload.Text.trimBy_append`). A text that is read as a number has no
blanks in it at all, for the readers look at every character
(`MixedWorkload.Text.isSolid_of_readUInt32?`, `MixedWorkload.Text.isSolid_of_readInt64?`,
`MixedWorkload.Text.isSolid_of_readFloat?`), so blanks may be put around a number as well.
-/

namespace MixedWorkload.Text

/-! ### Trimming -/

/-- **A list that trimming leaves alone**: neither end is of the class. -/
structure IsTrimmed {α : Type} (blank : α → Bool) (xs : List α) : Prop where
  /-- The first element is not of the class. -/
  head : ∀ x ∈ xs.head?, blank x = false
  /-- The last element is not of the class. -/
  last : ∀ x ∈ xs.getLast?, blank x = false

section Trimming

variable {α : Type} {blank : α → Bool} {xs left right : List α}

theorem dropWhile_eq_self (h : ∀ x ∈ xs.head?, blank x = false) : xs.dropWhile blank = xs := by
  cases xs with
  | nil => rfl
  | cons x xs =>
    have hx : ¬blank x = true := by
      rw [h x rfl]
      exact Bool.false_ne_true
    exact List.dropWhile_cons_of_neg hx

/-- **Trimming takes off what was put around.** -/
theorem trimBy_append (hleft : ∀ x ∈ left, blank x = true) (h : IsTrimmed blank xs)
    (hright : ∀ x ∈ right, blank x = true) : trimBy blank (left ++ xs ++ right) = xs := by
  have hreverse : ∀ x ∈ right.reverse, blank x = true := fun x hx =>
    hright x (List.mem_reverse.mp hx)
  rw [trimBy, List.append_assoc, List.dropWhile_append_of_pos hleft]
  cases xs with
  | nil =>
    rw [List.nil_append, List.dropWhile_eq_nil_iff.mpr hright]
    rfl
  | cons x xs =>
    -- the blanks behind are taken off as the ones in front of the reversed list
    have hhead : (x :: xs ++ right).dropWhile blank = x :: xs ++ right :=
      dropWhile_eq_self fun y hy => h.head y hy
    have hlast : ((x :: xs).reverse).dropWhile blank = (x :: xs).reverse := by
      refine dropWhile_eq_self ?_
      rw [List.head?_reverse]
      exact h.last
    rw [hhead, List.reverse_append, List.dropWhile_append_of_pos hreverse, hlast,
      List.reverse_reverse]

theorem trimBy_eq_self (h : IsTrimmed blank xs) : trimBy blank xs = xs := by
  have hnil : ∀ x ∈ ([] : List α), blank x = true := fun x hx => absurd hx List.not_mem_nil
  have htrim := trimBy_append hnil h hnil
  rwa [List.nil_append, List.append_nil] at htrim

/-- Trimming does not see what is put around of its class, be the list itself trimmed or
not. -/
theorem trimBy_around (hleft : ∀ x ∈ left, blank x = true) (hright : ∀ x ∈ right, blank x = true) :
    trimBy blank (left ++ xs ++ right) = trimBy blank xs := by
  have hreverse : ∀ x ∈ right.reverse, blank x = true := fun x hx =>
    hright x (List.mem_reverse.mp hx)
  rw [trimBy, List.append_assoc, List.dropWhile_append_of_pos hleft, List.dropWhile_append, trimBy]
  split
  · next hempty =>
    rw [List.isEmpty_iff.mp hempty, List.dropWhile_eq_nil_iff.mpr hright]
  · rw [List.reverse_append, List.dropWhile_append_of_pos hreverse]

/-- What trimming takes off is of its class. -/
theorem exists_eq_trimBy (blank : α → Bool) (xs : List α) :
    ∃ left right, xs = left ++ trimBy blank xs ++ right ∧ (∀ x ∈ left, blank x = true) ∧
      ∀ x ∈ right, blank x = true := by
  refine ⟨xs.takeWhile blank, ((xs.dropWhile blank).reverse.takeWhile blank).reverse, ?_,
    fun x hx => List.mem_takeWhile_imp hx,
    fun x hx => List.mem_takeWhile_imp (List.mem_reverse.mp hx)⟩
  rw [trimBy, List.append_assoc, ← List.reverse_append, List.takeWhile_append_dropWhile,
    List.reverse_reverse, List.takeWhile_append_dropWhile]

/-- **Trimming twice**, of a smaller class first, is trimming once. -/
theorem trimBy_trimBy {blank' : α → Bool} (h : ∀ x, blank' x = true → blank x = true)
    (xs : List α) : trimBy blank (trimBy blank' xs) = trimBy blank xs := by
  obtain ⟨left, right, heq, hleft, hright⟩ := exists_eq_trimBy blank' xs
  conv_rhs => rw [heq]
  exact (trimBy_around (fun x hx => h x (hleft x hx)) fun x hx => h x (hright x hx)).symm

section Encoded

variable {β : Type} {blank' : β → Bool} {f : α → List β}

theorem dropWhile_flatMap (h : ∀ x, ∀ y ∈ f x, blank' y = blank x) (hne : ∀ x, f x ≠ [])
    (xs : List α) : (xs.flatMap f).dropWhile blank' = (xs.dropWhile blank).flatMap f := by
  induction xs with
  | nil => rfl
  | cons x xs ih =>
    rw [List.flatMap_cons]
    cases hx : blank x with
    | true =>
      have hall : ∀ y ∈ f x, blank' y = true := fun y hy => (h x y hy).trans hx
      rw [List.dropWhile_append_of_pos hall, ih, List.dropWhile_cons_of_pos hx]
    | false =>
      have hhead : ∀ y ∈ (f x ++ xs.flatMap f).head?, blank' y = false := by
        intro y hy
        rw [List.head?_append_of_ne_nil _ (hne x)] at hy
        exact (h x y (List.mem_of_mem_head? hy)).trans hx
      have hneg : ¬blank x = true := Bool.eq_false_iff.mp hx
      rw [dropWhile_eq_self hhead, List.dropWhile_cons_of_neg hneg, List.flatMap_cons]

/-- **Trimming what a list is written as**: if an element is of the class exactly if all it
is written as is, writing the trimmed list is trimming what is written. -/
theorem trimBy_flatMap (h : ∀ x, ∀ y ∈ f x, blank' y = blank x) (hne : ∀ x, f x ≠ [])
    (xs : List α) : trimBy blank' (xs.flatMap f) = (trimBy blank xs).flatMap f := by
  have hreverse : ∀ x, ∀ y ∈ (List.reverse ∘ f) x, blank' y = blank x :=
    fun x y hy => h x y (List.mem_reverse.mp hy)
  have hne' : ∀ x, (List.reverse ∘ f) x ≠ [] := fun x hx => hne x (List.reverse_eq_nil_iff.mp hx)
  rw [trimBy, dropWhile_flatMap h hne, List.reverse_flatMap, dropWhile_flatMap hreverse hne',
    List.reverse_flatMap, trimBy]
  congr 1
  funext x
  exact List.reverse_reverse (f x)

end Encoded

theorem isTrimmed_of_forall (h : ∀ x ∈ xs, blank x = false) : IsTrimmed blank xs :=
  ⟨fun x hx => h x (List.mem_of_mem_head? hx), fun x hx => h x (List.mem_of_getLast? hx)⟩

end Trimming

/-! ### Texts without blanks -/

/-- **A text without blanks.** -/
def IsSolid (cs : List Char) : Prop :=
  ∀ c ∈ cs, isBlank c = false

theorem isSolid_nil : IsSolid [] := fun _ hc => absurd hc List.not_mem_nil

theorem isSolid_cons {c : Char} {cs : List Char} (h : isBlank c = false) (hs : IsSolid cs) :
    IsSolid (c :: cs) :=
  List.forall_mem_cons.mpr ⟨h, hs⟩

theorem isSolid_append {cs ds : List Char} (h : IsSolid cs) (hs : IsSolid ds) :
    IsSolid (cs ++ ds) :=
  List.forall_mem_append.mpr ⟨h, hs⟩

theorem IsSolid.isTrimmed {cs : List Char} (h : IsSolid cs) : IsTrimmed isBlank cs :=
  isTrimmed_of_forall h

/-- A blank character is outside the digits and the letters. -/
theorem isBlank_eq_false_of_bounds {c : Char} (hlow : 0x20 < c.toNat) (hhigh : c.toNat < 0x80) :
    isBlank c = false := by
  simp only [isBlank, inRanges, blankRanges, List.any_cons, List.any_nil, Bool.or_false,
    Bool.or_eq_false_iff, decide_eq_false_iff_not]
  omega

theorem isBlank_of_isDigit {c : Char} (h : c.isDigit = true) : isBlank c = false := by
  rw [Char.isDigit, Bool.and_eq_true, decide_eq_true_iff, decide_eq_true_iff, ge_iff_le,
    UInt32.le_iff_toNat_le, UInt32.le_iff_toNat_le] at h
  have hlow : 48 ≤ c.toNat := h.1
  have hhigh : c.toNat ≤ 57 := h.2
  exact isBlank_eq_false_of_bounds (by omega) (by omega)

/-- Blanks have no case. -/
theorem isBlank_toLower {c : Char} (h : isBlank c.toLower = false) : isBlank c = false := by
  by_cases hupper : c.val ≥ 'A'.val ∧ c.val ≤ 'Z'.val
  · rw [ge_iff_le, UInt32.le_iff_toNat_le, UInt32.le_iff_toNat_le] at hupper
    have hlow : 65 ≤ c.toNat := hupper.1
    have hhigh : c.toNat ≤ 90 := hupper.2
    exact isBlank_eq_false_of_bounds (by omega) (by omega)
  · rwa [Char.toLower, dif_neg hupper] at h

/-! ### The readers of numbers -/

theorem isSolid_of_read? {cs : List Char} {n : ℕ} (h : Digits.read? cs = some n) :
    IsSolid cs := by
  unfold Digits.read? at h
  split at h
  · next hc =>
    rw [Bool.and_eq_true] at hc
    exact fun c hmem => isBlank_of_isDigit (List.all_eq_true.mp hc.2 c hmem)
  · cases h

/-- A sign is no blank. -/
theorem isSolid_of_splitSign {cs : List Char} (h : IsSolid (splitSign cs).2) : IsSolid cs := by
  unfold splitSign at h
  split at h
  · exact isSolid_cons (by decide) h
  · exact isSolid_cons (by decide) h
  · exact h

theorem isSolid_of_readUInt32? {cs : List Char} {n : UInt32} (h : readUInt32? cs = some n) :
    IsSolid cs := by
  unfold readUInt32? at h
  obtain ⟨m, hm, -⟩ := Option.bind_eq_some_iff.mp h
  split at hm
  · exact isSolid_cons (by decide) (isSolid_of_read? hm)
  · exact isSolid_of_read? hm

theorem isSolid_of_readInt64? {cs : List Char} {n : Int64} (h : readInt64? cs = some n) :
    IsSolid cs := by
  unfold readInt64? at h
  obtain ⟨m, hm, -⟩ := Option.bind_eq_some_iff.mp h
  exact isSolid_of_splitSign (isSolid_of_read? hm)

theorem isSolid_of_readExponent? {cs : List Char} {e : ℤ}
    (h : Decimal.readExponent? cs = some e) : IsSolid cs := by
  unfold Decimal.readExponent? at h
  split at h
  · exact isSolid_nil
  · next c cs =>
    split at h
    · next hc =>
      obtain ⟨n, hn, -⟩ := Option.map_eq_some_iff.mp h
      obtain ⟨m, hm, -⟩ := Option.bind_eq_some_iff.mp hn
      refine isSolid_cons ?_ (isSolid_of_splitSign (isSolid_of_read? hm))
      rcases hc with rfl | rfl <;> decide
    · cases h

/-- Digits in front of a text without blanks leave it so. -/
theorem isSolid_of_leading {cs : List Char} (h : IsSolid (Digits.leading cs).2) : IsSolid cs := by
  rw [← List.takeWhile_append_dropWhile (p := Char.isDigit) (l := cs)]
  exact isSolid_append (fun c hc => isBlank_of_isDigit (List.mem_takeWhile_imp hc)) h

theorem isSolid_of_readDecimal? {cs : List Char} {d : Decimal} (h : Decimal.read? cs = some d) :
    IsSolid cs := by
  refine isSolid_of_leading ?_
  unfold Decimal.read? at h
  generalize Digits.leading cs = split at h
  obtain ⟨whole, rest⟩ := split
  dsimp only at h ⊢
  split at h
  · split at h
    · cases h
    · obtain ⟨e, he, -⟩ := Option.map_eq_some_iff.mp h
      exact isSolid_cons (by decide) (isSolid_of_leading (isSolid_of_readExponent? he))
  · split at h
    · cases h
    · obtain ⟨e, he, -⟩ := Option.map_eq_some_iff.mp h
      exact isSolid_of_readExponent? he

theorem isSolid_of_readName? {cs : List Char} {x : Float} (h : Decimal.readName? cs = some x) :
    IsSolid cs := by
  have hlower (name : List Char) (hname : String.ofList (cs.map Char.toLower) = String.ofList name)
      (hsolid : IsSolid name) : IsSolid cs := by
    have hmap : cs.map Char.toLower = name := by
      rw [← String.toList_ofList (l := cs.map Char.toLower), hname, String.toList_ofList]
    exact fun c hc => isBlank_toLower (hsolid c.toLower (hmap ▸ List.mem_map_of_mem hc))
  unfold Decimal.readName? at h
  split at h
  · next hs => exact hlower ['n', 'a', 'n'] hs (by intro c hc; fin_cases hc <;> rfl)
  · next hs => exact hlower ['i', 'n', 'f'] hs (by intro c hc; fin_cases hc <;> rfl)
  · next hs =>
    exact hlower ['i', 'n', 'f', 'i', 'n', 'i', 't', 'y'] hs (by intro c hc; fin_cases hc <;> rfl)
  · cases h

/-- **A number has no blanks in it.** -/
theorem isSolid_of_readFloat? {cs : List Char} {x : Float} (h : Decimal.readFloat? cs = some x) :
    IsSolid cs := by
  refine isSolid_of_splitSign ?_
  unfold Decimal.readFloat? at h
  generalize splitSign cs = split at h
  obtain ⟨y, hy, -⟩ := Option.map_eq_some_iff.mp h
  cases hname : Decimal.readName? split.2 with
  | some z => exact isSolid_of_readName? hname
  | none =>
    rw [hname] at hy
    obtain ⟨d, hd, -⟩ := Option.map_eq_some_iff.mp hy
    exact isSolid_of_readDecimal? hd

end MixedWorkload.Text
