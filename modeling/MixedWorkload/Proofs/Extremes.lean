import MixedWorkload.Proofs.Binary64.Order

/-!
# Extremes of a list

The least number of a list is a member that no member is less than. This is
`MixedWorkload.leastNumber?`, which has no answer for a list without a number, and
`MixedWorkload.greatestNumber?` is the same with the order turned round. The folds of the
library find these numbers (`MixedWorkload.least_of_leastNumber?`,
`MixedWorkload.greatest_of_greatestNumber?`) up to the sign of a zero, and stay at the
infinity they start from if there is none.

Both folds are one: they keep a number until one that comes *before* it is met, and the two
orders are told apart by an integer key, the units of a double or their negation.
-/

namespace MixedWorkload

open Binary64

/-! ### The first number in an order -/

/-- The first member of a list that is a number and that no member comes before. -/
def firstNumber? (before : Float → Float → Prop) [DecidableRel before] (xs : List Float) :
    Option Float :=
  xs.find? fun m => !m.isNaN && xs.all fun v => !decide (before v m)

/-- **The least number of a list**, if it has any number. -/
def leastNumber? (xs : List Float) : Option Float :=
  firstNumber? (· < ·) xs

/-- **The greatest number of a list**, if it has any number. -/
def greatestNumber? (xs : List Float) : Option Float :=
  firstNumber? (· > ·) xs

/-- The number that is kept when another value is met. -/
def keep (before : Float → Float → Prop) [DecidableRel before] (x y : Float) : Float :=
  if y.isNaN || decide (before x y) then x else y

theorem least_eq_foldl (xs : List Float) : least xs = xs.foldl (keep (· < ·)) infinity := rfl

theorem greatest_eq_foldl (xs : List Float) :
    greatest xs = xs.foldl (keep (· > ·)) (-infinity) := rfl

/-- An integer key for an order of doubles, in which nothing compares with what is no
number. -/
def Measures (key : Float → ℤ) (before : Float → Float → Prop) : Prop :=
  ∀ x y, before x y ↔ x.isNaN = false ∧ y.isNaN = false ∧ key x < key y

theorem measures_lt : Measures units (· < ·) := fun _ _ => lt_iff

theorem measures_gt : Measures (fun x => -units x) (· > ·) := by
  intro x y
  change y < x ↔ x.isNaN = false ∧ y.isNaN = false ∧ -units x < -units y
  rw [lt_iff, neg_lt_neg_iff]
  exact ⟨fun h => ⟨h.2.1, h.1, h.2.2⟩, fun h => ⟨h.2.1, h.1, h.2.2⟩⟩

/-- A member of a list that is a number and has the least key of all numbers in it. -/
structure IsFirst (key : Float → ℤ) (m : Float) (xs : List Float) : Prop where
  /-- It is one of the list. -/
  mem : m ∈ xs
  /-- It is a number. -/
  isNumber : m.isNaN = false
  /-- No number of the list has a smaller key. -/
  le : ∀ v ∈ xs, v.isNaN = false → key m ≤ key v

section Order

variable {before : Float → Float → Prop} [DecidableRel before] {key : Float → ℤ}

/-- **Folding keeps the first number**, counting the one it starts from. -/
theorem isFirst_foldl (hkey : Measures key before) {x : Float} (hx : x.isNaN = false)
    (xs : List Float) : IsFirst key (xs.foldl (keep before) x) (x :: xs) := by
  induction xs generalizing x with
  | nil =>
    refine ⟨List.mem_singleton_self x, hx, fun v hv _ => ?_⟩
    rw [List.mem_singleton.mp hv]
    exact le_rfl
  | cons y ys ih =>
    rw [List.foldl_cons]
    by_cases hy : y.isNaN || decide (before x y)
    · -- `x` is kept, and `y` is no number or comes after it
      have hkeep : keep before x y = x := if_pos hy
      rw [hkeep]
      obtain ⟨hmem, hnum, hle⟩ := ih hx
      refine ⟨?_, hnum, fun v hv hvn => ?_⟩
      · rcases List.mem_cons.mp hmem with h | h
        · exact List.mem_cons.mpr (Or.inl h)
        · exact List.mem_cons_of_mem _ (List.mem_cons_of_mem _ h)
      · rcases List.mem_cons.mp hv with rfl | hv
        · exact hle v List.mem_cons_self hvn
        rcases List.mem_cons.mp hv with rfl | hv
        · rw [hvn, Bool.false_or, decide_eq_true_iff, hkey] at hy
          exact le_trans (hle x List.mem_cons_self hx) (le_of_lt hy.2.2)
        · exact hle v (List.mem_cons_of_mem _ hv) hvn
    · -- `y` takes the place of `x`
      have hkeep : keep before x y = y := if_neg hy
      rw [Bool.or_eq_true, not_or, Bool.not_eq_true, decide_eq_true_iff, hkey] at hy
      obtain ⟨hyn, hnot⟩ := hy
      rw [hkeep]
      obtain ⟨hmem, hnum, hle⟩ := ih hyn
      refine ⟨List.mem_cons_of_mem _ hmem, hnum, fun v hv hvn => ?_⟩
      rcases List.mem_cons.mp hv with rfl | hv
      · have hyv : key y ≤ key v := by
          by_contra hlt
          exact hnot ⟨hvn, hyn, by omega⟩
        exact le_trans (hle y List.mem_cons_self hyn) hyv
      · exact hle v hv hvn

/-- The first number of a list, by its key. -/
theorem isFirst_of_firstNumber? (hkey : Measures key before) {m : Float} {xs : List Float}
    (h : firstNumber? before xs = some m) : IsFirst key m xs := by
  have hm := List.find?_some h
  rw [Bool.and_eq_true, Bool.not_eq_true', List.all_eq_true] at hm
  refine ⟨List.mem_of_find?_eq_some h, hm.1, fun v hv hvn => ?_⟩
  have hnot := hm.2 v hv
  rw [Bool.not_eq_true', decide_eq_false_iff_not, hkey] at hnot
  by_contra hlt
  exact hnot ⟨hvn, hm.1, by omega⟩

/-- A list has a first number as soon as it has one with the least key. -/
theorem firstNumber?_ne_none (hkey : Measures key before) {m : Float} {xs : List Float}
    (h : IsFirst key m xs) : firstNumber? before xs ≠ none := by
  intro hnone
  refine absurd ?_ (List.find?_eq_none.mp hnone m h.mem)
  rw [Bool.and_eq_true, Bool.not_eq_true', List.all_eq_true]
  refine ⟨h.isNumber, fun v hv => ?_⟩
  rw [Bool.not_eq_true', decide_eq_false_iff_not, hkey]
  intro hlt
  have hle := h.le v hv hlt.1
  omega

/-- First numbers of one list have one key. -/
theorem IsFirst.key_eq {m m' : Float} {xs : List Float} (h : IsFirst key m xs)
    (h' : IsFirst key m' xs) : key m = key m' :=
  le_antisymm (h.le m' h'.mem h'.isNumber) (h'.le m h.mem h.isNumber)

/-- What is no number does not matter. -/
theorem IsFirst.cons {m x : Float} {xs : List Float} (h : IsFirst key m xs)
    (hx : x.isNaN = true) : IsFirst key m (x :: xs) := by
  refine ⟨List.mem_cons_of_mem x h.mem, h.isNumber, fun v hv hvn => ?_⟩
  rcases List.mem_cons.mp hv with rfl | hv
  · rw [hx] at hvn
    cases hvn
  · exact h.le v hv hvn

/-- **Folding from the last number of the order finds a first number**, or stays there if
there is none. -/
theorem foldl_keep (hkey : Measures key before) {top : Float} (htop : top.isNaN = false)
    (hlast : ∀ v, v.isNaN = false → key v ≤ key top)
    (hunique : ∀ v, v.isNaN = false → key v = key top → v = top) (xs : List Float) :
    IsFirst key (xs.foldl (keep before) top) xs ∨
      (∀ v ∈ xs, v.isNaN = true) ∧ xs.foldl (keep before) top = top := by
  obtain ⟨hmem, hnum, hle⟩ := isFirst_foldl hkey htop xs
  have hfirst : ∀ v ∈ xs, v.isNaN = false → key (xs.foldl (keep before) top) ≤ key v :=
    fun v hv => hle v (List.mem_cons_of_mem _ hv)
  rcases List.mem_cons.mp hmem with heq | hin
  · by_cases hall : ∀ v ∈ xs, v.isNaN = true
    · exact Or.inr ⟨hall, heq⟩
    · -- every number of the list shares its key with the last of the order
      rw [not_forall] at hall
      obtain ⟨v, hall⟩ := hall
      rw [Classical.not_imp, Bool.not_eq_true] at hall
      obtain ⟨hv, hvn⟩ := hall
      have hkv : key v = key top := le_antisymm (hlast v hvn) (heq ▸ hfirst v hv hvn)
      refine Or.inl ⟨?_, hnum, hfirst⟩
      rw [heq, ← hunique v hvn hkv]
      exact hv
  · exact Or.inl ⟨hin, hnum, hfirst⟩

end Order

/-! ### The folds of the library -/

theorem isNaN_least (xs : List Float) : (least xs).isNaN = false := by
  rw [least_eq_foldl]
  exact (isFirst_foldl measures_lt rfl xs).isNumber

theorem isNaN_greatest (xs : List Float) : (greatest xs).isNaN = false := by
  rw [greatest_eq_foldl]
  exact (isFirst_foldl measures_gt rfl xs).isNumber

theorem units_ne_zero_of_infinite {x : Float} (h : units x = infiniteUnits) : units x ≠ 0 := by
  have hpos := infiniteUnits_pos
  omega

theorem least_cases (xs : List Float) :
    IsFirst units (least xs) xs ∨ (∀ v ∈ xs, v.isNaN = true) ∧ least xs = infinity := by
  rw [least_eq_foldl]
  refine foldl_keep measures_lt rfl (fun v _ => ?_) (fun v _ h => ?_) xs
  · exact (units_bounds v).2
  · exact eq_of_units_eq h (units_ne_zero_of_infinite h)

theorem greatest_cases (xs : List Float) :
    IsFirst (fun x => -units x) (greatest xs) xs ∨
      (∀ v ∈ xs, v.isNaN = true) ∧ greatest xs = -infinity := by
  have hpos := infiniteUnits_pos
  rw [greatest_eq_foldl]
  refine foldl_keep measures_gt rfl (fun v _ => ?_) (fun v _ h => ?_) xs
  · have hv := (units_bounds v).1
    rw [units_neg_infinity]
    omega
  · have hv : units v = units (-infinity) := neg_inj.mp h
    refine eq_of_units_eq hv ?_
    rw [hv, units_neg_infinity]
    omega

/-- **The fold finds a least number** in a list that has a number. -/
theorem isFirst_least {xs : List Float} {v : Float} (hv : v ∈ xs) (hn : v.isNaN = false) :
    IsFirst units (least xs) xs := by
  rcases least_cases xs with hl | ⟨hall, -⟩
  · exact hl
  · rw [hall v hv] at hn
    cases hn

theorem isFirst_greatest {xs : List Float} {v : Float} (hv : v ∈ xs) (hn : v.isNaN = false) :
    IsFirst (fun x => -units x) (greatest xs) xs := by
  rcases greatest_cases xs with hl | ⟨hall, -⟩
  · exact hl
  · rw [hall v hv] at hn
    cases hn

/-- A list without a number has no first one. -/
theorem firstNumber?_eq_none {before : Float → Float → Prop} [DecidableRel before]
    {xs : List Float} (h : ∀ v ∈ xs, v.isNaN = true) : firstNumber? before xs = none := by
  refine List.find?_eq_none.mpr fun v hv => ?_
  rw [h v hv]
  exact Bool.false_ne_true

/-- A list with a number has a least one. -/
theorem exists_leastNumber? {xs : List Float} {v : Float} (hv : v ∈ xs)
    (hn : v.isNaN = false) : ∃ m, leastNumber? xs = some m ∧ IsFirst units m xs := by
  have hne := firstNumber?_ne_none measures_lt (isFirst_least hv hn)
  obtain ⟨m, hm⟩ := Option.ne_none_iff_exists'.mp hne
  exact ⟨m, hm, isFirst_of_firstNumber? measures_lt hm⟩

/-- **The fold finds the least number**, up to the sign of a zero. -/
theorem least_of_leastNumber? {xs : List Float} {m : Float} (h : leastNumber? xs = some m) :
    m.isNaN = false ∧ units (least xs) = units m := by
  have hm := isFirst_of_firstNumber? measures_lt h
  exact ⟨hm.isNumber, (isFirst_least hm.mem hm.isNumber).key_eq hm⟩

theorem least_of_leastNumber?_eq_none {xs : List Float} (h : leastNumber? xs = none) :
    least xs = infinity := by
  rcases least_cases xs with hl | ⟨-, hinf⟩
  · exact absurd h (firstNumber?_ne_none measures_lt hl)
  · exact hinf

/-- **The fold finds the greatest number**, up to the sign of a zero. -/
theorem greatest_of_greatestNumber? {xs : List Float} {m : Float}
    (h : greatestNumber? xs = some m) :
    m.isNaN = false ∧ units (greatest xs) = units m := by
  have hm := isFirst_of_firstNumber? measures_gt h
  exact ⟨hm.isNumber, neg_inj.mp ((isFirst_greatest hm.mem hm.isNumber).key_eq hm)⟩

theorem greatest_of_greatestNumber?_eq_none {xs : List Float} (h : greatestNumber? xs = none) :
    greatest xs = -infinity := by
  rcases greatest_cases xs with hl | ⟨-, hinf⟩
  · exact absurd h (firstNumber?_ne_none measures_gt hl)
  · exact hinf

/-- A list has a greatest number if and only if it has a least one. -/
theorem greatestNumber?_eq_none_iff {xs : List Float} :
    greatestNumber? xs = none ↔ leastNumber? xs = none := by
  constructor
  · intro h
    rcases greatest_cases xs with hl | ⟨hall, -⟩
    · exact absurd h (firstNumber?_ne_none measures_gt hl)
    · exact firstNumber?_eq_none hall
  · intro h
    rcases least_cases xs with hl | ⟨hall, -⟩
    · exact absurd h (firstNumber?_ne_none measures_lt hl)
    · exact firstNumber?_eq_none hall

/-! ### Reordering a list -/

section Perm

variable {key : Float → ℤ} {m m' top : Float} {xs ys : List Float} (h : xs.Perm ys)

include h

theorem IsFirst.perm (hm : IsFirst key m xs) : IsFirst key m ys :=
  ⟨h.mem_iff.mp hm.mem, hm.isNumber, fun v hv => hm.le v (h.mem_iff.mpr hv)⟩

/-- **Reordering keeps the first number**, up to what the key does not tell apart. -/
theorem key_eq_of_perm (hx : IsFirst key m xs ∨ (∀ v ∈ xs, v.isNaN = true) ∧ m = top)
    (hy : IsFirst key m' ys ∨ (∀ v ∈ ys, v.isNaN = true) ∧ m' = top) : key m = key m' := by
  rcases hx with hm | ⟨hall, rfl⟩
  · rcases hy with hm' | ⟨hall', -⟩
    · exact (hm.perm h).key_eq hm'
    · have hnan := hall' m (h.mem_iff.mp hm.mem)
      rw [hm.isNumber] at hnan
      cases hnan
  · rcases hy with hm' | ⟨-, rfl⟩
    · have hnan := hall m' (h.mem_iff.mpr hm'.mem)
      rw [hm'.isNumber] at hnan
      cases hnan
    · rfl

theorem units_least_of_perm : units (least xs) = units (least ys) :=
  key_eq_of_perm h (least_cases xs) (least_cases ys)

theorem units_greatest_of_perm : units (greatest xs) = units (greatest ys) :=
  neg_inj.mp (key_eq_of_perm h (greatest_cases xs) (greatest_cases ys))

end Perm

/-! ### Extremes of numbers -/

/-- **The least of a list**: a member that none is less than. -/
structure IsLeastOf (m : Float) (xs : List Float) : Prop where
  /-- It is one of the list. -/
  mem : m ∈ xs
  /-- It is at most each of them. -/
  le : ∀ x ∈ xs, m ≤ x

/-- **The greatest of a list**: a member that none is greater than. -/
structure IsGreatestOf (m : Float) (xs : List Float) : Prop where
  /-- It is one of the list. -/
  mem : m ∈ xs
  /-- Each of them is at most it. -/
  le : ∀ x ∈ xs, x ≤ m

/-- If all of a list are numbers, the first in the order is the least. -/
theorem IsFirst.isLeastOf {m : Float} {xs : List Float} (h : IsFirst units m xs)
    (hxs : ∀ x ∈ xs, x.isNaN = false) : IsLeastOf m xs :=
  ⟨h.mem, fun x hx => le_iff.mpr ⟨h.isNumber, hxs x hx, h.le x hx (hxs x hx)⟩⟩

/-- If all of a list are numbers, the first in the opposite order is the greatest. -/
theorem IsFirst.isGreatestOf {m : Float} {xs : List Float} (h : IsFirst (fun x => -units x) m xs)
    (hxs : ∀ x ∈ xs, x.isNaN = false) : IsGreatestOf m xs :=
  ⟨h.mem, fun x hx => le_iff.mpr
    ⟨hxs x hx, h.isNumber, neg_le_neg_iff.mp (h.le x hx (hxs x hx))⟩⟩

end MixedWorkload
