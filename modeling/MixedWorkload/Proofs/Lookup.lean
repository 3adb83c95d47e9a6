import MixedWorkload.Proofs.Partition

/-!
# Looking a type up

The groups of a log stand in the ascending order of their types, and a type is looked up among
them by halving. A half can be left out because of the group in the middle: if its type is above
the wanted one, so are all types behind it
(`MixedWorkload.QueryGroups.find?_take`), and if it is not, all types before it are below
(`MixedWorkload.QueryGroups.find?_drop`). So halving finds what going through the groups one by
one would find (`MixedWorkload.QueryGroups.search?_eq_find?`), however many groups there are and
whether or not one of them has the type.

`MixedWorkload.QueryGroups.LooksUp` says what this means for groups, and
`MixedWorkload.QueryGroups.looksUp_of_ascending` that it holds of all that ascend, those of a log
among them.
-/

namespace MixedWorkload

namespace QueryGroups

/-- **Every type can be looked up** among groups. -/
structure LooksUp (q : QueryGroups) : Prop where
  /-- What is found is what going through the groups one by one finds. -/
  get?_eq_find? : ∀ t, q.get? t = q.groups.find? fun g => g.type == t
  /-- A group is found under its own type, and under no other. -/
  get?_eq_some_iff : ∀ t g, q.get? t = some g ↔ g ∈ q.groups ∧ g.type = t
  /-- Nothing is found under a type that no group has, and only then. -/
  get?_eq_none_iff : ∀ t, q.get? t = none ↔ ∀ g ∈ q.groups, g.type ≠ t

/-! ### Leaving out a half -/

/-- The types of a list of groups ascend. -/
def Ascending (groups : List QueryGroup) : Prop :=
  groups.Pairwise fun g g' => g.type < g'.type

section Half

variable {groups : List QueryGroup} (h : Ascending groups) {t : TransactionType} {m k : ℕ}
  (hm : m < groups.length)

include h

/-- **The groups behind the middle** are too great if the middle one is. -/
theorem find?_take (hk : m ≤ k) (hlt : t < groups[m].type) :
    (groups.take k).find? (fun g => g.type == t) = groups.find? fun g => g.type == t := by
  have hbehind : (groups.drop k).find? (fun g => g.type == t) = none := by
    refine List.find?_eq_none.mpr fun g hg => ?_
    obtain ⟨i, hi, rfl⟩ := List.mem_iff_getElem.mp hg
    rw [List.length_drop] at hi
    have hlen : k + i < groups.length := by omega
    rw [List.getElem_drop, beq_iff_eq]
    rcases Nat.eq_or_lt_of_le (hk.trans (Nat.le_add_right k i)) with rfl | hmi
    · exact (UInt32.ne_of_lt hlt).symm
    · have hgreater := List.pairwise_iff_getElem.mp h m (k + i) hm hlen hmi
      exact (UInt32.ne_of_lt (UInt32.lt_trans hlt hgreater)).symm
  conv_rhs => rw [← List.take_append_drop k groups]
  rw [List.find?_append, hbehind, Option.or_none]

/-- **The groups before the middle** are too small if the middle one is not too great. -/
theorem find?_drop (hge : ¬t < groups[m].type) :
    (groups.drop m).find? (fun g => g.type == t) = groups.find? fun g => g.type == t := by
  have hbefore : (groups.take m).find? (fun g => g.type == t) = none := by
    refine List.find?_eq_none.mpr fun g hg => ?_
    obtain ⟨i, hi, rfl⟩ := List.mem_iff_getElem.mp hg
    rw [List.length_take] at hi
    have him : i < m := by omega
    rw [List.getElem_take, beq_iff_eq]
    have hless := List.pairwise_iff_getElem.mp h i m (him.trans hm) hm him
    exact UInt32.ne_of_lt (UInt32.lt_of_lt_of_le hless (UInt32.not_lt.mp hge))
  conv_rhs => rw [← List.take_append_drop m groups]
  rw [List.find?_append, hbefore, Option.none_or]

end Half

/-! ### Halving -/

/-- **Halving finds what one finds one by one.** -/
theorem search?_eq_find? {groups : List QueryGroup} (h : Ascending groups) (t : TransactionType) :
    search? t groups = groups.find? fun g => g.type == t := by
  -- the half that is kept ascends as well, which is all that the search relies on
  fun_induction search? t groups with
  | case1 groups hlen hhalf hlt ih =>
    rw [ih (h.sublist (List.take_sublist _ _))]
    exact find?_take h hhalf (by omega) hlt
  | case2 groups hlen hhalf hge ih =>
    rw [ih (h.sublist (List.drop_sublist _ _))]
    exact find?_drop h hhalf hge
  | case3 groups hlen =>
    match groups with
    | [] => rfl
    | [g] =>
      rw [List.head?_cons, List.find?_singleton, Option.filter_some]
    | _ :: _ :: _ => exact absurd (Nat.one_lt_succ_succ _) hlen

/-! ### What is found -/

/-- **No two groups have one type** if the types ascend. -/
theorem eq_of_type_eq {groups : List QueryGroup} (h : Ascending groups) {g g' : QueryGroup}
    (hg : g ∈ groups) (hg' : g' ∈ groups) (htype : g.type = g'.type) : g = g' := by
  have hnodup : (groups.map QueryGroup.type).Nodup :=
    List.pairwise_map.mpr (h.imp UInt32.ne_of_lt)
  exact List.inj_on_of_nodup_map hnodup hg hg' htype

/-- **Types can be looked up among groups that ascend.** -/
theorem looksUp_of_ascending {q : QueryGroups} (h : Ascending q.groups) : q.LooksUp where
  get?_eq_find? := search?_eq_find? h
  get?_eq_some_iff t g := by
    rw [get?, search?_eq_find? h]
    constructor
    · intro hfind
      exact ⟨List.mem_of_find?_eq_some hfind, beq_iff_eq.mp (List.find?_some hfind :)⟩
    · rintro ⟨hg, rfl⟩
      cases hfind : q.groups.find? fun g' => g'.type == g.type with
      | none => exact absurd (beq_self_eq_true g.type) (List.find?_eq_none.mp hfind g hg)
      | some g' =>
        have htype : g'.type = g.type := beq_iff_eq.mp (List.find?_some hfind :)
        rw [eq_of_type_eq h (List.mem_of_find?_eq_some hfind) hg htype]
  get?_eq_none_iff t := by
    rw [get?, search?_eq_find? h, List.find?_eq_none]
    simp only [beq_iff_eq, ne_eq]

/-! ### The groups of a log -/

variable {log : NormalizedLog} {q : QueryGroups}

/-- The groups of a log are those of its analytical records. -/
theorem eq_ofRecords_of_ofLog (h : ofLog log = .ok q) :
    q = ofRecords log.range log.analytical := by
  cases hrecords : log.analytical with
  | nil =>
    rw [ofLog_eq_error hrecords] at h
    cases h
  | cons r rs =>
    have hne : log.analytical ≠ [] := hrecords ▸ List.cons_ne_nil r rs
    rw [ofLog_eq_ok hne, hrecords] at h
    exact (Except.ok.inj h).symm

/-- **The groups of a log ascend.** -/
theorem ascending_of_ofLog (h : ofLog log = .ok q) : Ascending q.groups := by
  rw [Ascending, ← List.pairwise_map (f := QueryGroup.type) (R := (· < ·)),
    eq_ofRecords_of_ofLog h, map_type_groups]
  exact pairwise_occurringTypes log.analytical

/-- A log has a group of a type exactly if it has an analytical record of it. -/
theorem mem_map_type_of_ofLog (h : ofLog log = .ok q) {t : TransactionType} :
    t ∈ q.groups.map QueryGroup.type ↔ ∃ r ∈ log.analytical, r.record.type = t := by
  rw [eq_ofRecords_of_ofLog h, map_type_groups, mem_occurringTypes, List.mem_map]

/-- **Looking a type up is complete.** Halving finds what going through the groups one by one
finds, whenever their types ascend. Those of a log do, and a type is found among them exactly if
the log has an analytical record of it. -/
theorem findsEveryType :
    (∀ q : QueryGroups, Ascending q.groups → q.LooksUp) ∧
      ∀ (log : NormalizedLog) (q : QueryGroups), ofLog log = .ok q →
        q.LooksUp ∧
          ∀ t, (q.get? t).isSome = true ↔ ∃ r ∈ log.analytical, r.record.type = t := by
  refine ⟨fun q => looksUp_of_ascending, fun log q h => ?_⟩
  have hlooksUp := looksUp_of_ascending (ascending_of_ofLog h)
  refine ⟨hlooksUp, fun t => ?_⟩
  rw [← mem_map_type_of_ofLog h, hlooksUp.get?_eq_find?, List.find?_isSome, List.mem_map]
  simp only [beq_iff_eq]

/-- Three queries, one of them executed twice. -/
def threeQueries : NormalizedLog :=
  (⟨[⟨12, 0.0, 1.5, "a", 0⟩, ⟨7, 0.5, 0.25, "b", 0⟩, ⟨2, 1.0, 0.1, "c", 0⟩, ⟨9, 1.5, 0.5, "b", 0⟩,
    ⟨7, 2.0, 3.0, "b", 0⟩]⟩ : TimingLog).normalize .reference .subtractive 2

/-- The first, the middle and the last of three queries are found, and nothing is found between
them or around them. -/
theorem findsEveryType_threeQueries :
    ∃ q, ofLog threeQueries = .ok q ∧ Ascending q.groups ∧ q.LooksUp ∧
      ([7, 9, 12].all fun t => (q.get? t).isSome) = true ∧
      ([0, 2, 8, 10, 13, 4294967295].any fun t => (q.get? t).isSome) = false := by
  have hne : threeQueries.analytical ≠ [] := by
    rw [← List.length_pos_iff]
    decide +kernel
  have hlog := ofLog_eq_ok hne
  have hascending := ascending_of_ofLog hlog
  obtain ⟨-, hsome⟩ := findsEveryType.2 threeQueries _ hlog
  have htypes : (threeQueries.analytical.map fun r => r.record.type) = [12, 7, 9, 7] := by
    decide +kernel
  have hiff (t : TransactionType) :
      ((ofRecords threeQueries.range threeQueries.analytical).get? t).isSome =
        decide (t ∈ [12, 7, 9, 7]) := by
    rw [Bool.eq_iff_iff, hsome, decide_eq_true_iff, ← htypes, List.mem_map]
  refine ⟨_, hlog, hascending, findsEveryType.1 _ hascending, ?_, ?_⟩
  · simp only [hiff]
    decide
  · simp only [hiff]
    decide

end QueryGroups

end MixedWorkload
