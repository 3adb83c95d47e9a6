import MixedWorkload.Proofs.Factors
import MixedWorkload.Proofs.Keys
import MixedWorkload.Proofs.Positions
import MixedWorkload.Proofs.Results

/-!
# Which factors make a table

Factors come as nothing at all, as a list, or under the offsets of their queries, and each of the
three is checked in its own way. What is accepted is the same each time: one acceptable factor
for every query of the range and none besides (`MixedWorkload.FactorOverride.IsComplete`). The
table that is made then has the factor of an offset in the place of its query, and a list makes
the table that it would make with its offsets written out. For one range
`MixedWorkload.AnalyticalRange.ResolvesExactly` lists all this.

Factors under offsets are looked up one after another, and the search ends with the first offset
that has none. `MixedWorkload.FactorTable.lookUpFrom_eq_ok_iff` says what a search that comes to
its end has found, place by place, and this is all that is used of it.
-/

namespace MixedWorkload

open Binary64

/-! ### What is asked of factors -/

/-- The number of types in a range, zero if it ends before it begins. -/
def AnalyticalRange.width (r : AnalyticalRange) : ℕ :=
  r.upper.toNat + 1 - r.lower.toNat

namespace FactorOverride

/-- **An override in order**: offsets ascend, so that none of them is given twice. -/
def IsOrdered : FactorOverride → Prop
  | .mapping entries => entries.Pairwise fun a b => a.1 < b.1
  | _ => True

/-- **The factor that an override gives** under an offset, counted from one. -/
inductive Gives : FactorOverride → ℕ → Float → Prop
  | builtIn {i : ℕ} {x : Float} (h : FactorTable.builtIn[i]? = some x) : Gives .none (i + 1) x
  | sequence {xs : List Float} {i : ℕ} {x : Float} (h : xs[i]? = some x) :
    Gives (.sequence xs) (i + 1) x
  | mapping {entries : List (UInt32 × Float)} {offset : UInt32} {x : Float}
    (h : (offset, x) ∈ entries) : Gives (.mapping entries) offset.toNat x

/-- **An override that is complete** for a number of queries. -/
def IsComplete (queries : ℕ) : FactorOverride → Prop
  | .none => queries = 22
  | .sequence xs => xs.length = queries ∧ ∀ x ∈ xs, x.isFinite = true ∧ ¬x < 0.0
  | .mapping entries =>
    {k : ℕ | ∃ entry ∈ entries, entry.1.toNat = k} = Set.Icc 1 queries ∧
      ∀ entry ∈ entries, entry.2.isFinite = true ∧ ¬entry.2 < 0.0

/-- A list of factors with their offsets written out. -/
def numbered (xs : List Float) : FactorOverride :=
  .mapping (xs.mapIdx fun i x => (UInt32.ofNat (i + 1), x))

end FactorOverride

/-- **A table of what an override gives** for the queries of a range. -/
structure FactorTable.IsTableOf (t : FactorTable) (override : FactorOverride)
    (r : AnalyticalRange) : Prop where
  /-- It is for that range. -/
  range_eq : t.range = r
  /-- It has one factor for each query. -/
  length_eq : t.length = r.width
  /-- A type of the range has the factor of its offset, and the override gives no other. -/
  gives_iff : ∀ type, r.Spans type → ∀ x,
    override.Gives (type.toNat - r.lower.toNat + 1) x ↔ x = t.factorFor type
  /-- Any other type has the factor zero. -/
  factorFor_eq_zero : ∀ type, ¬r.Spans type → t.factorFor type = 0.0
  /-- Every type has a factor that is finite and not negative. -/
  isFinite_factorFor : ∀ type, (t.factorFor type).isFinite = true ∧ ¬t.factorFor type < 0.0

/-- **The complete overrides make a table**, and no others do. -/
structure AnalyticalRange.ResolvesExactly (r : AnalyticalRange) : Prop where
  /-- The number of queries is computed without wrapping. -/
  queryCount_eq : r.queryCount = r.width
  /-- There is a table if and only if the override is complete. -/
  ok_iff : ∀ override, override.IsOrdered →
    ((∃ t, FactorTable.resolve override r = .ok t) ↔ override.IsComplete r.width)
  /-- Every failure is one of the configuration. -/
  error_config : ∀ override e, FactorTable.resolve override r = .error e →
    ∃ fault, e = .config fault
  /-- The table has what the override gives. -/
  isTableOf : ∀ override t, override.IsOrdered → FactorTable.resolve override r = .ok t →
    t.IsTableOf override r
  /-- A list makes the same table, or fails in the same way, with its offsets written out. -/
  resolve_numbered : ∀ xs, xs.length = r.width → (FactorOverride.numbered xs).IsOrdered ∧
    FactorTable.resolve (.numbered xs) r = FactorTable.resolve (.sequence xs) r

/-! ### Overrides in order -/

namespace FactorOverride

theorem isOrdered_ofOffsets (entries : List (UInt32 × Float)) : (ofOffsets entries).IsOrdered :=
  (pairwise_sortKeyed ordersKeys_numberBefore entries).imp of_decide_eq_true

/-- **Every override that is read from a file is in order.** -/
theorem isOrdered_ofDocument {document : FactorDocument} {override : FactorOverride}
    (h : ofDocument document = .ok override) : override.IsOrdered := by
  cases document with
  | sequence factors =>
    cases h
    exact trivial
  | mapping entries =>
    obtain ⟨offsets, -, rfl⟩ := exists_of_map_eq_ok h
    exact isOrdered_ofOffsets offsets

end FactorOverride

/-! ### The width of a range -/

namespace AnalyticalRange

variable {r : AnalyticalRange}

/-- **The number of queries** is the width, if there is a type outside the range. -/
theorem queryCount_eq_width (h : r ≠ ⟨0, 4294967295⟩) : r.queryCount = r.width := by
  have hlower := r.lower.toNat_lt
  rw [queryCount, width]
  split
  · next hlt =>
    have hnat := UInt32.lt_iff_toNat_lt.mp hlt
    omega
  · next hle =>
    have hle := UInt32.not_lt.mp hle
    have hnat := UInt32.le_iff_toNat_le.mp hle
    have hwidth := width_lt_of_ne h
    rw [UInt32.toNat_add, UInt32.toNat_sub_of_le _ _ hle, UInt32.toNat_one,
      Nat.mod_eq_of_lt hwidth]
    omega

theorem width_lt (h : r ≠ ⟨0, 4294967295⟩) : r.width < 2 ^ 32 := by
  have hwidth := width_lt_of_ne h
  rw [width]
  omega

/-- The position of a type of the range is below the width. -/
theorem Spans.position_lt {t : TransactionType} (h : r.Spans t) :
    t.toNat - r.lower.toNat < r.width := by
  have hlower := UInt32.le_iff_toNat_le.mp h.1
  have hupper := UInt32.le_iff_toNat_le.mp h.2
  rw [width]
  omega

end AnalyticalRange

namespace FactorTable

variable {entries : List (UInt32 × Float)}

theorem isFactor_iff_not_lt {x : Float} : isFactor x = true ↔ x.isFinite = true ∧ ¬x < 0.0 := by
  rw [isFactor, Bool.and_eq_true, Bool.not_eq_true', decide_eq_false_iff_not]

theorem isFactor_of_mem_builtIn : ∀ x ∈ builtIn, isFactor x = true := by decide +kernel

/-! ### Looking factors up -/

/-- What is looked up is among the entries. -/
theorem mem_of_lookUp {k : ℕ} {x : Float} (h : lookUp entries k = .ok x) :
    ∃ offset, (offset, x) ∈ entries ∧ offset.toNat = k := by
  unfold lookUp at h
  split at h
  · next entry hfind =>
    cases h
    have hoffset := List.find?_some hfind
    exact ⟨entry.1, List.mem_of_find?_eq_some hfind, beq_iff_eq.mp hoffset⟩
  · cases h

/-- **An offset is found** if and only if there is an entry for it. -/
theorem exists_lookUp_iff {k : ℕ} :
    (∃ x, lookUp entries k = .ok x) ↔ ∃ entry ∈ entries, entry.1.toNat = k := by
  constructor
  · rintro ⟨x, hx⟩
    obtain ⟨offset, hmem, hoffset⟩ := mem_of_lookUp hx
    exact ⟨_, hmem, hoffset⟩
  · rintro ⟨entry, hmem, hoffset⟩
    unfold lookUp
    split
    · exact ⟨_, rfl⟩
    · next hnone =>
      exact absurd (beq_iff_eq.mpr hoffset) (List.find?_eq_none.mp hnone entry hmem)

/-- **A search that comes to its end** has found every offset. -/
theorem lookUpFrom_eq_ok_iff {offset n : ℕ} {xs : List Float} :
    lookUpFrom entries offset n = .ok xs ↔
      xs.length = n ∧ ∀ i x, xs[i]? = some x → lookUp entries (offset + i) = .ok x := by
  induction n generalizing offset xs with
  | zero =>
    rw [lookUpFrom, Except.ok.injEq, List.length_eq_zero_iff, eq_comm]
    refine (and_iff_left_of_imp ?_).symm
    rintro rfl i x hi
    cases hi
  | succ n ih =>
    rw [lookUpFrom]
    constructor
    · intro h
      obtain ⟨x, hx, h⟩ := exists_of_bind_eq_ok h
      obtain ⟨ys, hys, h⟩ := exists_of_bind_eq_ok h
      cases h
      obtain ⟨hlength, hfound⟩ := ih.mp hys
      refine ⟨congrArg (· + 1) hlength, fun i y hi => ?_⟩
      cases i with
      | zero =>
        cases hi
        exact hx
      | succ i =>
        have hshift : offset + (i + 1) = offset + 1 + i := by omega
        rw [hshift]
        exact hfound i y hi
    · rintro ⟨hlength, hfound⟩
      obtain ⟨x, ys, rfl⟩ := List.exists_cons_of_length_eq_add_one hlength
      have hx := hfound 0 x rfl
      have hys : lookUpFrom entries (offset + 1) n = .ok ys := by
        refine ih.mpr ⟨Nat.succ.inj hlength, fun i y hi => ?_⟩
        rw [Nat.add_right_comm]
        exact hfound (i + 1) y hi
      simp only [Nat.add_zero] at hx
      simp only [hx, hys, bind, Except.bind, pure, Except.pure]

/-- **A search comes to its end** if and only if there is an entry for every offset. -/
theorem exists_lookUpFrom_iff {offset n : ℕ} :
    (∃ xs, lookUpFrom entries offset n = .ok xs) ↔
      ∀ i < n, ∃ entry ∈ entries, entry.1.toNat = offset + i := by
  induction n generalizing offset with
  | zero => exact ⟨fun _ i hi => absurd hi (Nat.not_lt_zero i), fun _ => ⟨[], rfl⟩⟩
  | succ n ih =>
    constructor
    · rintro ⟨xs, hxs⟩ i hi
      obtain ⟨hlength, hfound⟩ := lookUpFrom_eq_ok_iff.mp hxs
      rw [← hlength] at hi
      exact exists_lookUp_iff.mp ⟨_, hfound i _ (List.getElem?_eq_getElem hi)⟩
    · intro h
      obtain ⟨x, hx⟩ := exists_lookUp_iff.mpr (h 0 (Nat.succ_pos n))
      obtain ⟨xs, hxs⟩ : ∃ xs, lookUpFrom entries (offset + 1) n = .ok xs := by
        refine ih.mpr fun i hi => ?_
        rw [Nat.add_right_comm]
        exact h (i + 1) (Nat.succ_lt_succ hi)
      rw [Nat.add_zero] at hx
      exact ⟨x :: xs, by simp only [lookUpFrom, hx, hxs, bind, Except.bind, pure, Except.pure]⟩

/-! ### Factors under offsets -/

/-- If offsets ascend, each has one factor. -/
theorem factor_unique (hordered : (FactorOverride.mapping entries).IsOrdered)
    {e e' : UInt32 × Float} (he : e ∈ entries) (he' : e' ∈ entries)
    (hoffset : e.1.toNat = e'.1.toNat) : e = e' := by
  have hnodup : (entries.map Prod.fst).Nodup :=
    List.pairwise_map.mpr (hordered.imp fun hlt => UInt32.ne_of_lt hlt)
  exact List.inj_on_of_nodup_map hnodup he he' (UInt32.toNat_inj.mp hoffset)

/-- **Chosen by offset**: all offsets are those of queries, and each query has a factor. -/
theorem choose_mapping_eq_ok_iff {n : ℕ} {xs : List Float} :
    choose n (.mapping entries) = .ok xs ↔
      (∀ entry ∈ entries, 1 ≤ entry.1.toNat ∧ entry.1.toNat ≤ n) ∧
        lookUpFrom entries 1 n = .ok xs := by
  have hoffset (offset : UInt32) :
      (offset == 0 || decide (n < offset.toNat)) = false ↔ 1 ≤ offset.toNat ∧ offset.toNat ≤ n := by
    rw [Bool.or_eq_false_iff, beq_eq_false_iff_ne, decide_eq_false_iff_not, Nat.not_lt, Ne,
      ← UInt32.toNat_inj, UInt32.toNat_zero, Nat.one_le_iff_ne_zero]
  rw [choose]
  split
  · next entry hfind =>
    refine ⟨fun h => (nomatch h), fun h => ?_⟩
    have hfault := List.find?_some hfind
    rw [(hoffset entry.1).mpr (h.1 entry (List.mem_of_find?_eq_some hfind))] at hfault
    cases hfault
  · next hnone =>
    refine (and_iff_right fun entry hentry => ?_).symm
    have hok := List.find?_eq_none.mp hnone entry hentry
    rw [Bool.not_eq_true] at hok
    exact (hoffset entry.1).mp hok

/-- **A complete mapping is chosen**, and only a complete one. -/
theorem isComplete_mapping_iff {n : ℕ} (hordered : (FactorOverride.mapping entries).IsOrdered) :
    (FactorOverride.mapping entries).IsComplete n ↔
      ∃ xs, choose n (.mapping entries) = .ok xs ∧ ∀ x ∈ xs, isFactor x = true := by
  constructor
  · rintro ⟨hoffsets, hfactors⟩
    have hbounds : ∀ entry ∈ entries, 1 ≤ entry.1.toNat ∧ entry.1.toNat ≤ n := by
      intro entry hentry
      have hmem : entry.1.toNat ∈ {k : ℕ | ∃ entry ∈ entries, entry.1.toNat = k} :=
        ⟨entry, hentry, rfl⟩
      rw [hoffsets] at hmem
      exact hmem
    have hsearch : ∀ i < n, ∃ entry ∈ entries, entry.1.toNat = 1 + i := by
      intro i hi
      have hmem : 1 + i ∈ Set.Icc 1 n := ⟨Nat.le_add_right 1 i, by omega⟩
      rw [← hoffsets] at hmem
      exact hmem
    obtain ⟨xs, hxs⟩ := exists_lookUpFrom_iff.mpr hsearch
    refine ⟨xs, choose_mapping_eq_ok_iff.mpr ⟨hbounds, hxs⟩, fun x hx => ?_⟩
    obtain ⟨i, hi⟩ := List.mem_iff_getElem?.mp hx
    obtain ⟨offset, hmem, -⟩ := mem_of_lookUp ((lookUpFrom_eq_ok_iff.mp hxs).2 i x hi)
    exact isFactor_iff_not_lt.mpr (hfactors (offset, x) hmem)
  · rintro ⟨xs, hxs, hfactors⟩
    obtain ⟨hbounds, hxs⟩ := choose_mapping_eq_ok_iff.mp hxs
    have hfound := exists_lookUpFrom_iff.mp ⟨xs, hxs⟩
    obtain ⟨hlength, hxs⟩ := lookUpFrom_eq_ok_iff.mp hxs
    refine ⟨Set.Subset.antisymm ?_ ?_, fun entry hentry => ?_⟩
    · rintro _ ⟨entry, hentry, rfl⟩
      exact hbounds entry hentry
    · rintro k ⟨hone, hn⟩
      obtain ⟨entry, hentry, hoffset⟩ := hfound (k - 1) (by omega)
      exact ⟨entry, hentry, by omega⟩
    · -- the factor in the place of an entry is that of the entry
      obtain ⟨hone, hn⟩ := hbounds entry hentry
      have hplace : entry.1.toNat - 1 < xs.length := by omega
      have hlookUp := hxs _ _ (List.getElem?_eq_getElem hplace)
      obtain ⟨offset, hmem, hoffset⟩ := mem_of_lookUp hlookUp
      have hsame : entry.1.toNat = offset.toNat := by omega
      have hvalue := congrArg Prod.snd (factor_unique hordered hentry hmem hsame)
      rw [← isFactor_iff_not_lt, hvalue]
      exact hfactors _ (List.getElem_mem hplace)

/-! ### Any override -/

/-- **A complete override is resolved**, and only a complete one. -/
theorem exists_resolve_iff {override : FactorOverride} {r : AnalyticalRange}
    (hordered : override.IsOrdered) :
    (∃ t, resolve override r = .ok t) ↔ override.IsComplete r.queryCount := by
  have hresolve : (∃ t, resolve override r = .ok t) ↔
      ∃ xs, choose r.queryCount override = .ok xs ∧ ∀ x ∈ xs, isFactor x = true := by
    constructor
    · rintro ⟨t, ht⟩
      obtain ⟨hchoose, -, hfactors⟩ := resolve_eq_ok_iff.mp ht
      exact ⟨t.factors, hchoose, hfactors⟩
    · rintro ⟨xs, hchoose, hfactors⟩
      exact ⟨⟨r, xs⟩, resolve_eq_ok_iff.mpr ⟨hchoose, rfl, hfactors⟩⟩
  rw [hresolve]
  cases override with
  | none =>
    change _ ↔ r.queryCount = 22
    rw [choose]
    split
    · next heq => exact iff_of_true ⟨builtIn, rfl, isFactor_of_mem_builtIn⟩ heq
    · next hne =>
      refine iff_of_false ?_ hne
      rintro ⟨_, h, -⟩
      cases h
  | sequence xs =>
    simp only [FactorOverride.IsComplete, ← isFactor_iff_not_lt, choose]
    split
    · next heq =>
      constructor
      · rintro ⟨ys, h, hfactors⟩
        cases h
        exact ⟨heq, hfactors⟩
      · rintro ⟨-, hfactors⟩
        exact ⟨xs, rfl, hfactors⟩
    · next hne =>
      constructor
      · rintro ⟨_, h, -⟩
        cases h
      · rintro ⟨heq, -⟩
        exact absurd heq hne
  | mapping entries => exact (isComplete_mapping_iff hordered).symm

/-- **What is chosen is what is given**, offset by offset. -/
theorem gives_of_choose {override : FactorOverride} {n : ℕ} {xs : List Float}
    (h : choose n override = .ok xs) :
    xs.length = n ∧ ∀ i x, xs[i]? = some x → override.Gives (i + 1) x := by
  cases override with
  | none =>
    rw [choose] at h
    split at h
    · next heq =>
      cases h
      exact ⟨heq.symm, fun i x hi => .builtIn hi⟩
    · cases h
  | sequence ys =>
    rw [choose] at h
    split at h
    · next heq =>
      cases h
      exact ⟨heq, fun i x hi => .sequence hi⟩
    · cases h
  | mapping entries =>
    obtain ⟨hlength, hfound⟩ := lookUpFrom_eq_ok_iff.mp (choose_mapping_eq_ok_iff.mp h).2
    refine ⟨hlength, fun i x hi => ?_⟩
    obtain ⟨offset, hmem, hoffset⟩ := mem_of_lookUp (hfound i x hi)
    rw [Nat.add_comm i 1, ← hoffset]
    exact .mapping hmem

/-- **An offset has one factor.** -/
theorem gives_unique {override : FactorOverride} (hordered : override.IsOrdered) {k : ℕ}
    {x y : Float} (hx : override.Gives k x) (hy : override.Gives k y) : x = y := by
  cases hx with
  | builtIn hx =>
    cases hy with
    | builtIn hy => exact Option.some.inj (hx.symm.trans hy)
  | sequence hx =>
    cases hy with
    | sequence hy => exact Option.some.inj (hx.symm.trans hy)
  | mapping hx =>
    generalize hk : UInt32.toNat _ = k at hy
    cases hy with
    | mapping hy => exact congrArg Prod.snd (factor_unique hordered hx hy hk)

/-- **The table of an override** has its factors in the places of their queries. -/
theorem isTableOf {override : FactorOverride} {r : AnalyticalRange} {t : FactorTable}
    (hr : r ≠ ⟨0, 4294967295⟩) (hordered : override.IsOrdered) (h : resolve override r = .ok t) :
    t.IsTableOf override r := by
  have hmade := IsMade.resolve h
  obtain ⟨hchoose, hrange, -⟩ := resolve_eq_ok_iff.mp h
  rw [AnalyticalRange.queryCount_eq_width hr] at hchoose
  obtain ⟨hlength, hgives⟩ := gives_of_choose hchoose
  -- a type of the range has the factor in its place, which is there
  have hinside : ∀ type, r.Spans type → t.factors[type.toNat - r.lower.toNat]? =
      some (t.factorFor type) := by
    intro type htype
    have hplace := htype.position_lt
    rw [← hlength] at hplace
    rw [factorFor, hrange, AnalyticalRange.indexOf_eq htype, Option.bind_some,
      List.getElem?_eq_getElem hplace, Option.getD_some]
  have houtside : ∀ type, ¬r.Spans type → t.factorFor type = 0.0 := by
    intro type htype
    have hindex : r.indexOf type = none := by
      rw [← Option.not_isSome_iff_eq_none, AnalyticalRange.isSome_indexOf]
      exact htype
    rw [factorFor, hrange, hindex]
    rfl
  refine ⟨hrange, hlength, fun type htype x => ?_, houtside, fun type => ?_⟩
  · have hown := hgives _ _ (hinside type htype)
    refine ⟨fun hx => gives_unique hordered hx hown, ?_⟩
    rintro rfl
    exact hown
  · rw [← isFactor_iff_not_lt]
    by_cases htype : r.Spans type
    · exact hmade.isFactor _ (List.mem_of_getElem? (hinside type htype))
    · rw [houtside type htype]
      exact isFactor_zero

/-! ### A list with its offsets -/

theorem toNat_offset {i : ℕ} (h : i + 1 < 2 ^ 32) : (UInt32.ofNat (i + 1)).toNat = i + 1 :=
  UInt32.toNat_ofNat_of_lt' h

/-- The entries of a list whose offsets are written out. -/
theorem mem_numbered {xs : List Float} (hlength : xs.length < 2 ^ 32) {entry : UInt32 × Float} :
    entry ∈ xs.mapIdx (fun i x => (UInt32.ofNat (i + 1), x)) ↔
      ∃ i, xs[i]? = some entry.2 ∧ entry.1.toNat = i + 1 := by
  constructor
  · intro h
    obtain ⟨i, hi, rfl⟩ := List.mem_mapIdx.mp h
    exact ⟨i, List.getElem?_eq_getElem hi, toNat_offset (by omega)⟩
  · rintro ⟨i, hi, hoffset⟩
    obtain ⟨hplace, hvalue⟩ := List.getElem?_eq_some_iff.mp hi
    refine List.mem_mapIdx.mpr ⟨i, hplace, Prod.ext (UInt32.toNat_inj.mp ?_) hvalue⟩
    rw [hoffset]
    exact toNat_offset (by omega)

theorem isOrdered_numbered {xs : List Float} (hlength : xs.length < 2 ^ 32) :
    (FactorOverride.numbered xs).IsOrdered := by
  refine List.pairwise_iff_getElem.mpr fun i j hi hj hij => ?_
  rw [List.length_mapIdx] at hi hj
  rw [List.getElem_mapIdx, List.getElem_mapIdx, UInt32.lt_iff_toNat_lt,
    toNat_offset (by omega), toNat_offset (by omega)]
  omega

/-- **A list is chosen as it is**, with its offsets or without them. -/
theorem choose_numbered {xs : List Float} (hlength : xs.length < 2 ^ 32) :
    choose xs.length (.numbered xs) = .ok xs := by
  refine choose_mapping_eq_ok_iff.mpr ⟨fun entry hentry => ?_, lookUpFrom_eq_ok_iff.mpr
    ⟨rfl, fun i x hi => ?_⟩⟩
  · obtain ⟨i, hi, hoffset⟩ := (mem_numbered hlength).mp hentry
    obtain ⟨hplace, -⟩ := List.getElem?_eq_some_iff.mp hi
    omega
  · have hplace := (List.getElem?_eq_some_iff.mp hi).1
    have hoffset : (UInt32.ofNat (i + 1)).toNat = 1 + i := by
      rw [toNat_offset (by omega), Nat.add_comm]
    have hmem : (UInt32.ofNat (i + 1), x) ∈ xs.mapIdx fun i x => (UInt32.ofNat (i + 1), x) :=
      (mem_numbered hlength).mpr ⟨i, hi, by rw [hoffset, Nat.add_comm]⟩
    -- there is an entry for the offset, and it is the only one
    obtain ⟨y, hy⟩ := exists_lookUp_iff.mpr ⟨_, hmem, hoffset⟩
    obtain ⟨offset, hmem', hoffset'⟩ := mem_of_lookUp hy
    have hsame := factor_unique (isOrdered_numbered hlength) hmem hmem'
      (hoffset.trans hoffset'.symm)
    rw [hy, (Prod.mk.inj hsame).2]

theorem resolve_numbered {xs : List Float} {r : AnalyticalRange} (hwidth : r.queryCount < 2 ^ 32)
    (hlength : xs.length = r.queryCount) :
    resolve (.numbered xs) r = resolve (.sequence xs) r := by
  have hnumbered : choose xs.length (.numbered xs) = .ok xs := choose_numbered (by omega)
  rw [hlength] at hnumbered
  rw [resolve, resolve, hnumbered, choose, if_pos hlength]

end FactorTable

/-- **Resolution is exact** for every range that leaves out a type. -/
theorem AnalyticalRange.resolvesExactly {r : AnalyticalRange} (hr : r ≠ ⟨0, 4294967295⟩) :
    r.ResolvesExactly where
  queryCount_eq := queryCount_eq_width hr
  ok_iff override hordered := by
    rw [FactorTable.exists_resolve_iff hordered, queryCount_eq_width hr]
  error_config _ _ h := FactorTable.resolve_eq_error h
  isTableOf _ _ hordered h := FactorTable.isTableOf hr hordered h
  resolve_numbered xs hlength := by
    have hwidth := width_lt hr
    refine ⟨FactorTable.isOrdered_numbered (by omega), ?_⟩
    rw [← queryCount_eq_width hr] at hlength hwidth
    exact FactorTable.resolve_numbered hwidth hlength

/-- The range of all types but the greatest. -/
theorem AnalyticalRange.resolvesExactly_widest :
    (⟨0, 4294967294⟩ : AnalyticalRange) ≠ ⟨0, 4294967295⟩ ∧
      (⟨0, 4294967294⟩ : AnalyticalRange).ResolvesExactly :=
  have h : (⟨0, 4294967294⟩ : AnalyticalRange) ≠ ⟨0, 4294967295⟩ := by decide
  ⟨h, resolvesExactly h⟩

end MixedWorkload
