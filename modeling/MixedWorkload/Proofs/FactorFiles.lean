import MixedWorkload.Proofs.Offsets

/-!
# The order of a factor file

In JSON the members of an object have no order, and the factors of a file do not depend on it
either, as long as no name is given twice: two files that have the same members make the same
table, or are refused for the same reason (`MixedWorkload.FactorTable.sameFromFiles_of_perm`). The
spelling of names and numbers and the white space between them do not matter any more than the
order does.

The reason is the order in which names are looked at, which is that of the texts and not that of
the file. So it is the same name each time that is found to denote no offset, and the same one
that decides about an offset for which there are several.
-/

namespace MixedWorkload

open Json Text

/-- The table that a factor file makes for a range of queries. -/
def FactorTable.ofFile (path : String) (file : List UInt8) (range : AnalyticalRange) :
    Except Error FactorTable := do
  resolve (← FactorOverride.ofFile path file) range

/-- **Two files make the same table** for a range of queries, that of their members. -/
structure FactorTable.SameFromFiles (path : String) (file file' : List UInt8)
    (entries : List (String × Option Float)) (range : AnalyticalRange) : Prop where
  /-- They make the same table, or fail in the same way: about the same name, offset or query, or
  both because they do not hold factors, whatever the parser says about this. -/
  ofFile_eq : ofFile path file range = ofFile path file' range
  /-- The table has a factor for each query. -/
  length_eq : ∀ t, ofFile path file range = .ok t → t.length = range.queryCount
  /-- The factor of an offset is that of the greatest name for it, in the order of texts. -/
  factor_iff : ∀ t, ofFile path file range = .ok t →
    ∀ offset : UInt32, 1 ≤ offset.toNat → offset.toNat ≤ range.queryCount → ∀ x,
      t.factors[offset.toNat - 1]? = some x ↔
        ∃ key, (key, some x) ∈ entries ∧ FactorOverride.keyOffset? key = some offset ∧
          ∀ key' ∈ entries.map Prod.fst, FactorOverride.keyOffset? key' = some offset →
            textBefore key key' = false

/-! ### Members with numbers -/

variable {entries entries' : List (String × Option Float)} {numbers : List (String × Float)}

/-- In another order, the members are the same numbers under names in another order. -/
theorem exists_mapM_numbered_of_perm (hperm : entries.Perm entries')
    (h : entries.mapM numbered = some numbers) :
    ∃ numbers', entries'.mapM numbered = some numbers' ∧ numbers.Perm numbers' := by
  obtain rfl := mapM_numbered_eq_some_iff.mp h
  have hrange : entries' ∈ Set.range (List.map withNumber) := by
    rw [Set.range_list_map]
    intro e he
    obtain ⟨n, -, hn⟩ := List.mem_map.mp (hperm.mem_iff.mpr he)
    exact ⟨n, hn⟩
  obtain ⟨numbers', rfl⟩ := hrange
  exact ⟨numbers', mapM_numbered_eq_some_iff.mpr rfl,
    (List.map_perm_map_iff withNumber_injective).mp hperm⟩

/-! ### Files with an object -/

variable {path : String} {file file' : List UInt8} {range : AnalyticalRange}

/-- **The override in a file with an object** is made of its members, if all of them have
numbers. -/
theorem ofFile_of_isObjectFile (hpath : factorFormat path = .json)
    (h : IsObjectFile file entries) : FactorOverride.ofFile path file =
      (entries.mapM numbered).elim (.error (.serialization .json)) fun numbers =>
        FactorOverride.ofDocument (.mapping numbers) := by
  rw [FactorOverride.ofFile, hpath, FactorDocument.ofFile_json_of_isObjectFile h]
  cases entries.mapM numbered <;> rfl

/-- The order of different names does not matter. -/
theorem ofDocument_eq_of_perm {numbers' : List (String × Float)} (hperm : numbers.Perm numbers')
    (hnodup : (numbers.map Prod.fst).Nodup) :
    FactorOverride.ofDocument (.mapping numbers) =
      FactorOverride.ofDocument (.mapping numbers') := by
  rw [FactorOverride.ofDocument, FactorOverride.ofDocument,
    sortKeyed_eq_of_perm ordersKeys_textBefore hperm hnodup]

/-- The names of numbers under names. -/
theorem map_fst_withNumber (numbers : List (String × Float)) :
    (numbers.map withNumber).map Prod.fst = numbers.map Prod.fst := by
  rw [List.map_map]
  rfl

/-- **Files with the same members** make the same override, or none for the same reason. -/
theorem override_eq_of_perm (hpath : factorFormat path = .json) (h : IsObjectFile file entries)
    (h' : IsObjectFile file' entries') (hperm : entries.Perm entries')
    (hnodup : (entries.map Prod.fst).Nodup) :
    FactorOverride.ofFile path file = FactorOverride.ofFile path file' := by
  rw [ofFile_of_isObjectFile hpath h, ofFile_of_isObjectFile hpath h']
  cases hnumbers : entries.mapM numbered with
  | some numbers =>
    obtain ⟨numbers', hnumbers', hperm'⟩ := exists_mapM_numbered_of_perm hperm hnumbers
    rw [mapM_numbered_eq_some_iff.mp hnumbers, map_fst_withNumber] at hnodup
    rw [hnumbers']
    exact ofDocument_eq_of_perm hperm' hnodup
  | none =>
    cases hnumbers' : entries'.mapM numbered with
    | none => rfl
    | some numbers' =>
      obtain ⟨numbers, hsome, -⟩ := exists_mapM_numbered_of_perm hperm.symm hnumbers'
      rw [hnumbers] at hsome
      cases hsome

/-! ### Tables -/

namespace FactorTable

/-- **The table of an override by offsets** has the factor of an offset in its place. -/
theorem getElem?_of_resolve {offsets : List (UInt32 × Float)} {t : FactorTable}
    (hordered : (FactorOverride.mapping offsets).IsOrdered)
    (h : resolve (.mapping offsets) range = .ok t) {offset : UInt32} {x : Float}
    (hone : 1 ≤ offset.toNat) (hcount : offset.toNat ≤ range.queryCount) :
    t.factors[offset.toNat - 1]? = some x ↔ (offset, x) ∈ offsets := by
  obtain ⟨hlength, hgives⟩ := gives_of_choose (resolve_eq_ok_iff.mp h).1
  have hplace : offset.toNat - 1 < t.factors.length := by omega
  have hshift : offset.toNat - 1 + 1 = offset.toNat := by omega
  have hown := hgives _ _ (List.getElem?_eq_getElem hplace)
  rw [hshift] at hown
  constructor
  · intro hx
    have hgiven := hgives _ _ hx
    rw [hshift] at hgiven
    generalize hk : offset.toNat = k at hgiven
    cases hgiven with
    | mapping hmem =>
      rwa [← UInt32.toNat_inj.mp hk] at hmem
  · intro hmem
    rw [List.getElem?_eq_getElem hplace, gives_unique hordered hown (.mapping hmem)]

/-- A table that is made of a file with an object. -/
theorem exists_offsets_of_ofFile (hpath : factorFormat path = .json)
    (h : IsObjectFile file entries) (hnodup : (entries.map Prod.fst).Nodup) {t : FactorTable}
    (ht : ofFile path file range = .ok t) :
    ∃ offsets, (FactorOverride.mapping offsets).IsOrdered ∧
      resolve (.mapping offsets) range = .ok t ∧
      ∀ offset x, (offset, x) ∈ offsets ↔
        ∃ key, (key, some x) ∈ entries ∧ FactorOverride.keyOffset? key = some offset ∧
          ∀ key' ∈ entries.map Prod.fst, FactorOverride.keyOffset? key' = some offset →
            textBefore key key' = false := by
  obtain ⟨override, hoverride, hresolve⟩ := exists_of_bind_eq_ok ht
  rw [ofFile_of_isObjectFile hpath h] at hoverride
  cases hnumbers : entries.mapM numbered with
  | none =>
    rw [hnumbers] at hoverride
    cases hoverride
  | some numbers =>
    rw [hnumbers, Option.elim_some] at hoverride
    obtain rfl := mapM_numbered_eq_some_iff.mp hnumbers
    rw [map_fst_withNumber] at hnodup ⊢
    obtain ⟨offsets, rfl⟩ := FactorOverride.exists_offsets_of_ofDocument hoverride
    obtain ⟨-, hmem⟩ := FactorOverride.mem_of_ofDocument_iff hoverride
    refine ⟨offsets, FactorOverride.isOrdered_ofDocument hoverride, hresolve, fun offset x => ?_⟩
    rw [hmem]
    refine exists_congr fun key => ?_
    have hentry : (key, some x) ∈ numbers.map withNumber ↔ (key, x) ∈ numbers :=
      List.mem_map_of_injective (a := (key, x)) withNumber_injective
    rw [hentry]
    constructor
    · rintro ⟨hdenotes, hlast, hgreatest⟩
      exact ⟨hlast.mem, hdenotes, hgreatest⟩
    · rintro ⟨hmem, hdenotes, hgreatest⟩
      exact ⟨hdenotes, (isLast_iff_mem hnodup).mpr hmem, hgreatest⟩

/-- **The order of a factor file does not matter.** Two files with objects of the same members, no
name given twice, make the same table for a range of queries, or fail in the same way. In the
table, an offset has the factor of a name that denotes it, the greatest in the order of texts. -/
theorem sameFromFiles_of_perm (hpath : factorFormat path = .json) (h : IsObjectFile file entries)
    (h' : IsObjectFile file' entries') (hperm : entries.Perm entries')
    (hnodup : (entries.map Prod.fst).Nodup) (range : AnalyticalRange) :
    SameFromFiles path file file' entries range where
  ofFile_eq := by rw [ofFile, ofFile, override_eq_of_perm hpath h h' hperm hnodup]
  length_eq t ht := by
    obtain ⟨offsets, -, hresolve, -⟩ := exists_offsets_of_ofFile hpath h hnodup ht
    exact (gives_of_choose (resolve_eq_ok_iff.mp hresolve).1).1
  factor_iff t ht offset hone hcount x := by
    obtain ⟨offsets, hordered, hresolve, hmem⟩ := exists_offsets_of_ofFile hpath h hnodup ht
    rw [getElem?_of_resolve hordered hresolve hone hcount, hmem]

/-! ### Two files -/

/-- A number of one digit, as a member under a name. -/
theorem isValue_of_digits {ds : List Char} (hds : ∀ c ∈ ds, c.isDigit = true)
    (hzero : isWholePart ds = true) {x : Float} (hx : numberOf? ds [] 0 = some x) :
    IsValue ds (some x) := by
  have h := SpellsUnsigned.digits hds hzero .none .none
  rw [List.append_nil, List.append_nil, hx] at h
  exact .number (.unsigned h)

/-- The members of `MixedWorkload.FactorOverride.twoSpellings`. -/
def twoMembers : List Member :=
  [⟨[], ['1'], [], ⟨[], ['1'], [], some 1.0⟩, "1"⟩,
    ⟨[], ['0', '1'], [], ⟨[], ['2'], [], some 2.0⟩, "01"⟩]

/-- The same members in the other order, spelt in another way. -/
def otherMembers : List Member :=
  [⟨[' '], ['\\', 'u', '0', '0', '3', '0', '1'], [' '], ⟨[' '], ['2'], [], some 2.0⟩, "01"⟩,
    ⟨[' '], ['1'], [], ⟨[' '], ['1'], [' '], some 1.0⟩, "1"⟩]

/-- A file with these members. -/
def otherSpellings : List UInt8 :=
  Text.Utf8.encode "\x7b \"\\u00301\" : 2, \"1\": 1 \x7d\n"

theorem isValue_one : IsValue ['1'] (some 1.0) :=
  isValue_of_digits (List.forall_mem_singleton.mpr rfl) rfl (by rfl)

theorem isValue_two : IsValue ['2'] (some 2.0) :=
  isValue_of_digits (List.forall_mem_singleton.mpr rfl) rfl (by rfl)

theorem isObjectFile_twoSpellings :
    IsObjectFile FactorOverride.twoSpellings [("1", some 1.0), ("01", some 2.0)] := by
  have hone : SpellsText ['1'] ['1'] := .plain (by decide) .nil
  have hspelt : ∀ m ∈ twoMembers, m.IsSpelt :=
    List.forall_mem_cons.mpr ⟨⟨by decide, hone, by decide, by decide, by decide⟩,
      List.forall_mem_singleton.mpr
        ⟨by decide, .plain (by decide) hone, by decide, by decide, by decide⟩⟩
  have hvalues : ∀ m ∈ twoMembers, IsValue m.element.value m.element.number? :=
    List.forall_mem_cons.mpr ⟨isValue_one, List.forall_mem_singleton.mpr isValue_two⟩
  have hnil : IsSpaces [] := by decide
  exact ⟨_, rfl, .members hnil hnil (List.cons_ne_nil _ _) hspelt hvalues⟩

theorem isObjectFile_otherSpellings :
    IsObjectFile otherSpellings [("01", some 2.0), ("1", some 1.0)] := by
  have hone : SpellsText ['1'] ['1'] := .plain (by decide) .nil
  have hzero : hexValue? ['0', '0', '3', '0'] = some 0x30 := rfl
  have hspelt : ∀ m ∈ otherMembers, m.IsSpelt :=
    List.forall_mem_cons.mpr ⟨⟨by decide, .single hzero rfl hone, by decide, by decide, by decide⟩,
      List.forall_mem_singleton.mpr ⟨by decide, hone, by decide, by decide, by decide⟩⟩
  have hvalues : ∀ m ∈ otherMembers, IsValue m.element.value m.element.number? :=
    List.forall_mem_cons.mpr ⟨isValue_two, List.forall_mem_singleton.mpr isValue_one⟩
  have hnil : IsSpaces [] := by decide
  have hline : IsSpaces ['\n'] := by decide
  exact ⟨_, rfl, .members hnil hline (List.cons_ne_nil _ _) hspelt hvalues⟩

/-- The two files make the same table, with a factor for its only query. -/
theorem sameFromFiles_twoSpellings :
    factorFormat "f" = .json ∧
      IsObjectFile FactorOverride.twoSpellings [("1", some 1.0), ("01", some 2.0)] ∧
      IsObjectFile otherSpellings [("01", some 2.0), ("1", some 1.0)] ∧
      [("1", some (1.0 : Float)), ("01", some 2.0)].Perm [("01", some 2.0), ("1", some 1.0)] ∧
      ([("1", some (1.0 : Float)), ("01", some 2.0)].map Prod.fst).Nodup ∧
      SameFromFiles "f" FactorOverride.twoSpellings otherSpellings
        [("1", some 1.0), ("01", some 2.0)] ⟨7, 7⟩ ∧
      ofFile "f" FactorOverride.twoSpellings ⟨7, 7⟩ = .ok ⟨⟨7, 7⟩, [1.0]⟩ := by
  have hformat : factorFormat "f" = .json := FactorOverride.factorFormat_f
  have hperm : [("1", some (1.0 : Float)), ("01", some 2.0)].Perm
      [("01", some 2.0), ("1", some 1.0)] := .swap _ _ _
  have hnodup : ([("1", some (1.0 : Float)), ("01", some 2.0)].map Prod.fst).Nodup := by decide
  refine ⟨hformat, isObjectFile_twoSpellings, isObjectFile_otherSpellings, hperm, hnodup,
    sameFromFiles_of_perm hformat isObjectFile_twoSpellings isObjectFile_otherSpellings hperm
      hnodup ⟨7, 7⟩, ?_⟩
  rw [ofFile, FactorOverride.ofFile_twoSpellings.2]
  rfl

end FactorTable

end MixedWorkload
