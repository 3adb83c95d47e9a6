import Mathlib
import MixedWorkload.Keyed

/-!
# Lists in the order of their keys

Entries under keys are put in order one after another, and an entry replaces the one that has its
key. So the list that comes out has, for each key, the last entry that was put in
(`MixedWorkload.IsLast`), and nothing else: this is `MixedWorkload.mem_sortKeyed_iff`. Together
with the order it says everything about the list, for there is only one list in order with given
members. If no key is given twice, the order in which the entries were put in does not matter
(`MixedWorkload.sortKeyed_eq_of_perm`).

Keys may be replaced by what they stand for, and the entries be put in order once more. An entry
then counts if its key is the greatest of those that stand for the same thing
(`MixedWorkload.isLast_map_iff`).
-/

namespace MixedWorkload

variable {κ μ ν : Type}

/-- **A strict order of keys.** -/
structure OrdersKeys (before : κ → κ → Bool) : Prop where
  /-- No key comes before itself. -/
  irrefl : ∀ a, before a a = false
  /-- What comes before a key comes before the later ones. -/
  trans : ∀ a b c, before a b = true → before b c = true → before a c = true
  /-- Of two keys, one comes before the other. -/
  total : ∀ a b, ¬before a b = true → ¬before b a = true → a = b

/-- **The last entry for its key** in a list. -/
def IsLast (entries : List (κ × ν)) (e : κ × ν) : Prop :=
  ∃ front back, entries = front ++ e :: back ∧ ∀ e' ∈ back, e'.1 ≠ e.1

/-! ### Last entries -/

section Last

variable {entries : List (κ × ν)} {e : κ × ν}

theorem IsLast.mem (h : IsLast entries e) : e ∈ entries := by
  obtain ⟨front, back, rfl, -⟩ := h
  exact List.mem_append_right _ List.mem_cons_self

/-- **One more entry** is the last for its key, and takes nothing from the other keys. -/
theorem isLast_append_singleton {new : κ × ν} :
    IsLast (entries ++ [new]) e ↔ e = new ∨ IsLast entries e ∧ e.1 ≠ new.1 := by
  constructor
  · rintro ⟨front, back, heq, hback⟩
    rcases List.eq_nil_or_concat back with rfl | ⟨back, last, rfl⟩
    · exact Or.inl (List.append_inj_right' heq rfl |> List.cons.inj |>.1).symm
    · have hsplit : entries ++ [new] = (front ++ e :: back) ++ [last] := by
        rw [heq, List.concat_eq_append, List.append_assoc, List.cons_append]
      obtain ⟨rfl, hlast⟩ := List.append_inj' hsplit rfl
      rw [(List.cons.inj hlast).1]
      refine Or.inr ⟨⟨front, back, rfl, fun e' he' => hback e' ?_⟩, (hback last ?_).symm⟩
      · rw [List.concat_eq_append]
        exact List.mem_append_left _ he'
      · rw [List.concat_eq_append]
        exact List.mem_append_right _ List.mem_cons_self
  · rintro (rfl | ⟨⟨front, back, rfl, hback⟩, hne⟩)
    · exact ⟨entries, [], rfl, fun _ h => absurd h List.not_mem_nil⟩
    · refine ⟨front, back ++ [new], by simp, fun e' he' => ?_⟩
      rcases List.mem_append.mp he' with he' | he'
      · exact hback e' he'
      · rw [List.mem_singleton.mp he']
        exact hne.symm

/-- Every key has a last entry. -/
theorem exists_isLast {key : κ} (h : key ∈ entries.map Prod.fst) :
    ∃ value, IsLast entries (key, value) := by
  induction entries using List.reverseRecOn with
  | nil => cases h
  | append_singleton entries entry ih =>
    by_cases hkey : key = entry.1
    · subst hkey
      exact ⟨entry.2, isLast_append_singleton.mpr (Or.inl rfl)⟩
    · rw [List.map_append, List.mem_append] at h
      obtain ⟨value, hlast⟩ := ih (h.resolve_right fun hmem => hkey (List.mem_singleton.mp hmem))
      exact ⟨value, isLast_append_singleton.mpr (Or.inr ⟨hlast, hkey⟩)⟩

/-- If no key is given twice, every entry is the last one for its key. -/
theorem isLast_iff_mem (h : (entries.map Prod.fst).Nodup) : IsLast entries e ↔ e ∈ entries := by
  refine ⟨IsLast.mem, fun hmem => ?_⟩
  obtain ⟨value, hlast⟩ := exists_isLast (List.mem_map_of_mem hmem)
  have hsame := List.inj_on_of_nodup_map h hmem hlast.mem rfl
  rwa [hsame]

end Last

/-! ### Putting entries in order -/

section Keyed

variable {before : κ → κ → Bool} {key : κ} {value : ν} {entries : List (κ × ν)} {e : κ × ν}

theorem mem_insertKeyed (h : e ∈ insertKeyed before key value entries) :
    e = (key, value) ∨ e ∈ entries := by
  induction entries with
  | nil => exact Or.inl (List.mem_singleton.mp h)
  | cons entry entries ih =>
    rw [insertKeyed] at h
    split_ifs at h
    · exact List.mem_cons.mp h
    · rcases List.mem_cons.mp h with rfl | h
      · exact Or.inr List.mem_cons_self
      · exact (ih h).imp_right (List.mem_cons_of_mem _)
    · exact (List.mem_cons.mp h).imp_right (List.mem_cons_of_mem _)

variable (hbefore : OrdersKeys before)

include hbefore

theorem OrdersKeys.ne {a b : κ} (h : before a b = true) : a ≠ b := by
  rintro rfl
  rw [hbefore.irrefl a] at h
  cases h

theorem OrdersKeys.asymm {a b : κ} (h : before a b = true) : before b a = false := by
  by_contra hba
  exact hbefore.ne (hbefore.trans a b a h (eq_true_of_ne_false hba)) rfl

/-- **Inserting keeps the order of the keys.** -/
theorem pairwise_insertKeyed (h : entries.Pairwise fun a b => before a.1 b.1 = true) (key : κ)
    (value : ν) : (insertKeyed before key value entries).Pairwise fun a b =>
      before a.1 b.1 = true := by
  induction entries with
  | nil => exact List.pairwise_singleton _ _
  | cons entry entries ih =>
    obtain ⟨hentry, hentries⟩ := List.pairwise_cons.mp h
    rw [insertKeyed]
    split_ifs with hfirst hlater
    · refine List.pairwise_cons.mpr ⟨fun e he => ?_, h⟩
      rcases List.mem_cons.mp he with rfl | he
      · exact hfirst
      · exact hbefore.trans _ _ _ hfirst (hentry e he)
    · refine List.pairwise_cons.mpr ⟨fun e he => ?_, ih hentries⟩
      rcases mem_insertKeyed he with rfl | he
      · exact hlater
      · exact hentry e he
    · -- neither key comes before the other, so the new entry takes the place of the old one
      obtain rfl := hbefore.total _ _ hfirst hlater
      exact List.pairwise_cons.mpr ⟨hentry, hentries⟩

/-- **The members after inserting**: the new entry, and those with other keys. -/
theorem mem_insertKeyed_iff (h : entries.Pairwise fun a b => before a.1 b.1 = true) :
    e ∈ insertKeyed before key value entries ↔ e = (key, value) ∨ e ∈ entries ∧ e.1 ≠ key := by
  induction entries with
  | nil =>
    rw [insertKeyed, List.mem_singleton]
    simp
  | cons entry entries ih =>
    obtain ⟨hentry, hentries⟩ := List.pairwise_cons.mp h
    rw [insertKeyed]
    split_ifs with hfirst hlater
    · -- all the keys come later
      have hother : ∀ e ∈ entry :: entries, e.1 ≠ key := by
        intro e he
        rcases List.mem_cons.mp he with rfl | he
        · exact (hbefore.ne hfirst).symm
        · exact (hbefore.ne (hbefore.trans _ _ _ hfirst (hentry e he))).symm
      rw [List.mem_cons]
      exact or_congr_right (and_iff_left_of_imp (hother e)).symm
    · have hne : entry.1 ≠ key := hbefore.ne hlater
      rw [List.mem_cons, ih hentries, List.mem_cons]
      constructor
      · rintro (rfl | rfl | ⟨he, hkey⟩)
        · exact Or.inr ⟨Or.inl rfl, hne⟩
        · exact Or.inl rfl
        · exact Or.inr ⟨Or.inr he, hkey⟩
      · rintro (rfl | ⟨rfl | he, hkey⟩)
        · exact Or.inr (Or.inl rfl)
        · exact Or.inl rfl
        · exact Or.inr (Or.inr ⟨he, hkey⟩)
    · -- the first entry has the key, and no other one has
      obtain rfl := hbefore.total _ _ hfirst hlater
      rw [List.mem_cons, List.mem_cons]
      refine or_congr_right ⟨fun he => ⟨Or.inr he, (hbefore.ne (hentry e he)).symm⟩, ?_⟩
      rintro ⟨rfl | he, hkey⟩
      · exact absurd rfl hkey
      · exact he

theorem pairwise_sortKeyed (entries : List (κ × ν)) :
    (sortKeyed before entries).Pairwise fun a b => before a.1 b.1 = true := by
  induction entries using List.reverseRecOn with
  | nil => exact List.Pairwise.nil
  | append_singleton entries entry ih =>
    rw [sortKeyed, List.foldl_append]
    exact pairwise_insertKeyed hbefore ih entry.1 entry.2

/-- **The members of a list in order** are the last entries for their keys. -/
theorem mem_sortKeyed_iff : e ∈ sortKeyed before entries ↔ IsLast entries e := by
  induction entries using List.reverseRecOn with
  | nil =>
    refine iff_of_false List.not_mem_nil ?_
    rintro ⟨front, back, h, -⟩
    simp at h
  | append_singleton entries entry ih =>
    have hstep : sortKeyed before (entries ++ [entry]) =
        insertKeyed before entry.1 entry.2 (sortKeyed before entries) := by
      rw [sortKeyed, List.foldl_append]
      rfl
    rw [hstep, mem_insertKeyed_iff hbefore (pairwise_sortKeyed hbefore entries), ih,
      isLast_append_singleton]

/-- There is one list in order with given members. -/
theorem eq_of_mem_iff {xs ys : List (κ × ν)} (hxs : xs.Pairwise fun a b => before a.1 b.1 = true)
    (hys : ys.Pairwise fun a b => before a.1 b.1 = true) (h : ∀ e, e ∈ xs ↔ e ∈ ys) : xs = ys := by
  have hnodup {zs : List (κ × ν)} (hzs : zs.Pairwise fun a b => before a.1 b.1 = true) :
      zs.Nodup := hzs.imp fun hab heq => hbefore.ne hab (congrArg Prod.fst heq)
  have hperm : xs.Perm ys := (List.perm_ext_iff_of_nodup (hnodup hxs) (hnodup hys)).mpr h
  refine hperm.eq_of_pairwise (fun a b _ _ hab hba => ?_) hxs hys
  rw [hbefore.asymm hab] at hba
  cases hba

/-- **The order of the entries does not matter**, if no key is given twice. -/
theorem sortKeyed_eq_of_perm {entries' : List (κ × ν)} (h : entries.Perm entries')
    (hnodup : (entries.map Prod.fst).Nodup) :
    sortKeyed before entries = sortKeyed before entries' := by
  have hnodup' : (entries'.map Prod.fst).Nodup := (h.map Prod.fst).nodup_iff.mp hnodup
  refine eq_of_mem_iff hbefore (pairwise_sortKeyed hbefore _) (pairwise_sortKeyed hbefore _)
    fun e => ?_
  rw [mem_sortKeyed_iff hbefore, mem_sortKeyed_iff hbefore, isLast_iff_mem hnodup,
    isLast_iff_mem hnodup', h.mem_iff]

/-- **What the keys stand for**: the last entry is that of the greatest key. -/
theorem isLast_map_iff (h : entries.Pairwise fun a b => before a.1 b.1 = true) {f : κ → μ} {m : μ} :
    IsLast (entries.map fun e => (f e.1, e.2)) (m, value) ↔
      ∃ key, (key, value) ∈ entries ∧ f key = m ∧
        ∀ e ∈ entries, f e.1 = m → before key e.1 = false := by
  constructor
  · rintro ⟨front, back, heq, hback⟩
    obtain ⟨front, rest, rfl, rfl, hrest⟩ := List.map_eq_append_iff.mp heq
    obtain ⟨⟨key, value⟩, back, rfl, hentry, rfl⟩ := List.map_eq_cons_iff.mp hrest
    obtain ⟨rfl, rfl⟩ := Prod.mk.inj hentry
    refine ⟨key, List.mem_append_right _ List.mem_cons_self, rfl, fun e he hsame => ?_⟩
    rcases List.mem_append.mp he with hfront | hrest
    · exact hbefore.asymm ((List.pairwise_append.mp h).2.2 e hfront _ List.mem_cons_self)
    · rcases List.mem_cons.mp hrest with rfl | he
      · exact hbefore.irrefl _
      · exact absurd hsame (hback _ (List.mem_map_of_mem he))
  · rintro ⟨key, hmem, rfl, hgreatest⟩
    obtain ⟨front, back, rfl⟩ := List.append_of_mem hmem
    refine ⟨front.map fun e => (f e.1, e.2), back.map fun e => (f e.1, e.2), by simp, ?_⟩
    rintro _ he' hsame
    obtain ⟨e, he, rfl⟩ := List.mem_map.mp he'
    have hlater := (List.pairwise_cons.mp (List.pairwise_append.mp h).2.1).1 e he
    rw [hgreatest e (List.mem_append_right _ (List.mem_cons_of_mem _ he)) hsame] at hlater
    cases hlater

end Keyed

/-! ### The two orders of keys -/

theorem ordersKeys_textBefore : OrdersKeys textBefore where
  irrefl s := decide_eq_false (String.lt_irrefl s)
  trans _ _ _ hst htu := decide_eq_true (String.lt_trans (of_decide_eq_true hst)
    (of_decide_eq_true htu))
  total _ _ hst hts := String.le_antisymm (String.not_lt.mp fun h => hts (decide_eq_true h))
    (String.not_lt.mp fun h => hst (decide_eq_true h))

theorem ordersKeys_numberBefore : OrdersKeys numberBefore where
  irrefl a := decide_eq_false (UInt32.lt_irrefl a)
  trans _ _ _ hab hbc := decide_eq_true (UInt32.lt_trans (of_decide_eq_true hab)
    (of_decide_eq_true hbc))
  total _ _ hab hba := UInt32.le_antisymm (UInt32.not_lt.mp fun h => hba (decide_eq_true h))
    (UInt32.not_lt.mp fun h => hab (decide_eq_true h))

end MixedWorkload
