import MixedWorkload.Proofs.FactorEntries
import MixedWorkload.Proofs.Resolution

/-!
# Which factor an offset gets

In a factor file the offsets of the queries are written as keys. Two keys that are written
differently may denote the same offset, such as `7` and `07`, and an override has one factor for
an offset. The file is not refused then: the key that is later in the order of texts decides, and
if it is given twice, the later entry of the file. `MixedWorkload.FactorOverride.Decides` says
this in terms of the file, and `MixedWorkload.FactorOverride.mem_of_ofDocument_iff` that nothing
else gets into an override.

So an override keeps the factors of all keys if and only if the keys of the file denote different
offsets, which is the last part of `MixedWorkload.FactorOverride.IsMadeOf`, and files are what
`MixedWorkload.FactorOverride.isMadeOf_of_ofFile` is about.
-/

namespace MixedWorkload.FactorOverride

/-- The offset that a key denotes. -/
def keyOffset? (key : String) : Option UInt32 :=
  Text.readUInt32? (Text.trim key.toList)

/-- **The entry that decides about an offset**: the last one of the greatest key for it. -/
structure Decides (entries : List (String × Float)) (offset : UInt32) (key : String)
    (factor : Float) : Prop where
  /-- The key denotes the offset. -/
  denotes : keyOffset? key = some offset
  /-- No later entry of the file has the same key. -/
  last : IsLast entries (key, factor)
  /-- No key of the file that comes later in the order of texts denotes the offset. -/
  greatest : ∀ key' ∈ entries.map Prod.fst, keyOffset? key' = some offset →
    textBefore key key' = false

/-- **An override keeps the factors of all keys** if it has one entry for each of them, with its
factor. -/
structure KeepsKeys (entries : List (String × Float)) (offsets : List (UInt32 × Float)) : Prop where
  /-- There are as many offsets as there are different keys. -/
  length_eq : offsets.length = (entries.map Prod.fst).dedup.length
  /-- The factor of a key is found under its offset. -/
  mem : ∀ key factor, IsLast entries (key, factor) →
    ∃ offset, keyOffset? key = some offset ∧ (offset, factor) ∈ offsets

/-- **What an override holds** of entries under keys. -/
structure IsMadeOf (entries : List (String × Float)) (offsets : List (UInt32 × Float)) : Prop where
  /-- Each key denotes an offset, which has exactly one factor. -/
  denotes : ∀ key ∈ entries.map Prod.fst, ∃ offset, keyOffset? key = some offset ∧
    ∃! factor, (offset, factor) ∈ offsets
  /-- The factors are those of the entries that decide. -/
  mem_iff : ∀ offset factor, (offset, factor) ∈ offsets ↔ ∃ key, Decides entries offset key factor
  /-- All keys keep their factors if and only if no two of them denote the same offset. -/
  keepsKeys_iff : KeepsKeys entries offsets ↔
    ∀ key ∈ entries.map Prod.fst, ∀ key' ∈ entries.map Prod.fst,
      keyOffset? key = keyOffset? key' → key = key'

variable {entries : List (String × Float)} {offsets : List (UInt32 × Float)}

/-! ### From keys to offsets -/

theorem readEntry_eq_ok_iff {entry : String × Float} {new : UInt32 × Float} :
    readEntry entry = .ok new ↔ keyOffset? entry.1 = some new.1 ∧ new.2 = entry.2 := by
  unfold readEntry keyOffset?
  split
  · next offset hoffset =>
    rw [hoffset, Except.ok.injEq, Option.some.injEq, Prod.ext_iff]
    exact and_congr_right fun _ => eq_comm
  · next hnone =>
    rw [hnone]
    exact ⟨fun h => (nomatch h), fun h => (nomatch h.1)⟩

/-- **Reading the keys of a list** replaces them by their offsets, if they have any. -/
theorem eq_map_of_mapM_readEntry {sorted : List (String × Float)}
    (h : sorted.mapM readEntry = .ok offsets) :
    (∀ entry ∈ sorted, (keyOffset? entry.1).isSome = true) ∧
      offsets = sorted.map fun entry => ((keyOffset? entry.1).getD 0, entry.2) := by
  induction sorted generalizing offsets with
  | nil =>
    cases h
    exact ⟨fun _ he => absurd he List.not_mem_nil, rfl⟩
  | cons entry sorted ih =>
    rw [List.mapM_cons] at h
    obtain ⟨new, hnew, h⟩ := exists_of_bind_eq_ok h
    obtain ⟨rest, hrest, h⟩ := exists_of_bind_eq_ok h
    cases h
    obtain ⟨hoffset, hfactor⟩ := readEntry_eq_ok_iff.mp hnew
    obtain ⟨hsome, rfl⟩ := ih hrest
    refine ⟨List.forall_mem_cons.mpr ⟨Option.isSome_of_eq_some hoffset, hsome⟩, ?_⟩
    rw [List.map_cons, hoffset, Option.getD_some, ← hfactor]

/-- **An override made of entries under keys.** Every key denotes an offset, for which there is a
factor, and the factors are those of the entries that decide. -/
theorem mem_of_ofDocument_iff (h : ofDocument (.mapping entries) = .ok (.mapping offsets)) :
    (∀ key ∈ entries.map Prod.fst, ∃ offset, keyOffset? key = some offset ∧
      ∃ factor, (offset, factor) ∈ offsets) ∧
    ∀ offset factor, (offset, factor) ∈ offsets ↔ ∃ key, Decides entries offset key factor := by
  obtain ⟨read, hread, hoffsets⟩ := exists_of_map_eq_ok h
  cases hoffsets
  obtain ⟨hsome, rfl⟩ := eq_map_of_mapM_readEntry hread
  have hpairwise := pairwise_sortKeyed ordersKeys_textBefore entries
  -- the keys of the file are those of the list in order
  have hsorted {key : String} (hkey : key ∈ entries.map Prod.fst) :
      ∃ factor, (key, factor) ∈ sortKeyed textBefore entries := by
    obtain ⟨factor, hlast⟩ := exists_isLast hkey
    exact ⟨factor, (mem_sortKeyed_iff ordersKeys_textBefore).mpr hlast⟩
  have hdenotes {entry : String × Float} (hentry : entry ∈ sortKeyed textBefore entries)
      (offset : UInt32) :
      (keyOffset? entry.1).getD 0 = offset ↔ keyOffset? entry.1 = some offset := by
    obtain ⟨own, hown⟩ := Option.isSome_iff_exists.mp (hsome entry hentry)
    rw [hown, Option.getD_some, Option.some.injEq]
  refine ⟨fun key hkey => ?_, fun offset factor => ?_⟩
  · obtain ⟨factor, hentry⟩ := hsorted hkey
    obtain ⟨offset, hoffset⟩ := Option.isSome_iff_exists.mp (hsome _ hentry)
    have hin : offset ∈ ((sortKeyed textBefore entries).map fun entry =>
        ((keyOffset? entry.1).getD 0, entry.2)).map Prod.fst := by
      rw [List.map_map]
      exact List.mem_map.mpr ⟨_, hentry, (hdenotes hentry offset).mpr hoffset⟩
    obtain ⟨last, hlast⟩ := exists_isLast hin
    exact ⟨offset, hoffset, last, (mem_sortKeyed_iff ordersKeys_numberBefore).mpr hlast⟩
  · rw [mem_sortKeyed_iff ordersKeys_numberBefore,
      isLast_map_iff ordersKeys_textBefore hpairwise (f := fun key => (keyOffset? key).getD 0)]
    refine exists_congr fun key => ⟨?_, fun hdecides => ?_⟩
    · rintro ⟨hmem, hoffset, hgreatest⟩
      refine ⟨(hdenotes hmem offset).mp hoffset, (mem_sortKeyed_iff ordersKeys_textBefore).mp hmem,
        fun key' hkey' hoffset' => ?_⟩
      obtain ⟨factor', hentry'⟩ := hsorted hkey'
      exact hgreatest _ hentry' ((hdenotes hentry' offset).mpr hoffset')
    · have hmem := (mem_sortKeyed_iff ordersKeys_textBefore).mpr hdecides.last
      refine ⟨hmem, (hdenotes hmem offset).mpr hdecides.denotes, fun entry hentry hoffset => ?_⟩
      have hlast := (mem_sortKeyed_iff ordersKeys_textBefore).mp hentry
      exact hdecides.greatest _ (List.mem_map_of_mem hlast.mem)
        ((hdenotes hentry offset).mp hoffset)

theorem exists_offsets_of_ofDocument {override : FactorOverride}
    (h : ofDocument (.mapping entries) = .ok override) :
    ∃ offsets, override = .mapping offsets := by
  obtain ⟨read, -, rfl⟩ := exists_of_map_eq_ok h
  exact ⟨_, rfl⟩

/-! ### When nothing is lost -/

/-- **Factors are lost** only to other keys for the same offset. -/
theorem keepsKeys_iff (h : ofDocument (.mapping entries) = .ok (.mapping offsets)) :
    KeepsKeys entries offsets ↔
      ∀ key ∈ entries.map Prod.fst, ∀ key' ∈ entries.map Prod.fst,
        keyOffset? key = keyOffset? key' → key = key' := by
  obtain ⟨hdenoted, hmem⟩ := mem_of_ofDocument_iff h
  have hnodup : (offsets.map Prod.fst).Nodup :=
    List.pairwise_map.mpr ((isOrdered_ofDocument h).imp fun hlt => UInt32.ne_of_lt hlt)
  -- the offsets of the override are those of the keys
  have himage : (entries.map Prod.fst).toFinset.image keyOffset? =
      (offsets.map Prod.fst).toFinset.image some := by
    ext o
    simp only [Finset.mem_image, List.mem_toFinset]
    constructor
    · rintro ⟨key, hkey, rfl⟩
      obtain ⟨offset, hoffset, factor, hfactor⟩ := hdenoted key hkey
      exact ⟨offset, List.mem_map_of_mem hfactor, hoffset.symm⟩
    · rintro ⟨offset, hoffset, rfl⟩
      obtain ⟨⟨_, factor⟩, hfactor, rfl⟩ := List.mem_map.mp hoffset
      obtain ⟨key, hdecides⟩ := (hmem _ _).mp hfactor
      exact ⟨key, List.mem_map_of_mem hdecides.last.mem, hdecides.denotes⟩
  have hcard : offsets.length = ((entries.map Prod.fst).toFinset.image keyOffset?).card := by
    rw [himage, Finset.card_image_of_injective _ (Option.some_injective _),
      List.toFinset_card_of_nodup hnodup, List.length_map]
  constructor
  · intro hkeeps key hkey key' hkey' hsame
    have hinj : Set.InjOn keyOffset? (entries.map Prod.fst).toFinset := by
      rw [← Finset.card_image_iff, ← hcard, hkeeps.length_eq, List.card_toFinset]
    exact hinj (List.mem_toFinset.mpr hkey) (List.mem_toFinset.mpr hkey') hsame
  · intro hinj
    refine ⟨?_, fun key factor hlast => ?_⟩
    · rw [hcard, Finset.card_image_iff.mpr, List.card_toFinset]
      exact fun key hkey key' hkey' hsame =>
        hinj key (List.mem_toFinset.mp hkey) key' (List.mem_toFinset.mp hkey') hsame
    · have hkey := List.mem_map_of_mem (f := Prod.fst) hlast.mem
      obtain ⟨offset, hoffset, -⟩ := hdenoted key hkey
      refine ⟨offset, hoffset, (hmem offset factor).mpr ⟨key, hoffset, hlast, ?_⟩⟩
      intro key' hkey' hoffset'
      rw [hinj key hkey key' hkey' (hoffset.trans hoffset'.symm)]
      exact ordersKeys_textBefore.irrefl _

/-! ### Files -/

/-- **What an override made of a file holds.** Where a factor file has entries under keys and is
accepted, the entries are those that the file holds in its format. Each key denotes an offset,
which has exactly one factor in the override; the factor is that of the entry that decides about
the offset, so it is the last one of the key that is the greatest among the keys for the offset in
the order of texts. All keys keep their factors if and only if no two different keys denote the
same offset. -/
theorem isMadeOf_of_ofFile {path : String} {file : List UInt8} {override : FactorOverride}
    (hfile : FactorDocument.ofFile (factorFormat path) file = .ok (.mapping entries))
    (h : ofFile path file = .ok override) :
    HoldsEntries path file entries ∧
      ∃ offsets, override = .mapping offsets ∧ IsMadeOf entries offsets := by
  have hdocument : ofDocument (.mapping entries) = .ok override := by
    rw [← h, ofFile, hfile]
    rfl
  obtain ⟨offsets, rfl⟩ := exists_offsets_of_ofDocument hdocument
  obtain ⟨hdenoted, hmem⟩ := mem_of_ofDocument_iff hdocument
  refine ⟨holdsEntries_of_ofFile hfile, offsets, rfl, fun key hkey => ?_, hmem,
    keepsKeys_iff hdocument⟩
  obtain ⟨offset, hoffset, factor, hfactor⟩ := hdenoted key hkey
  refine ⟨offset, hoffset, factor, hfactor, fun other hother => ?_⟩
  exact congrArg Prod.snd
    (FactorTable.factor_unique (isOrdered_ofDocument hdocument) hother hfactor rfl)

/-- A file that has two spellings of one offset. -/
def twoSpellings : List UInt8 :=
  Text.Utf8.encode "\x7b\"1\":1,\"01\":2\x7d"

theorem factorFormat_f : factorFormat "f" = .json := by
  have hsplit : "f".splitOn "/" = ["f"] := by cbv
  rw [factorFormat, fileName?, hsplit]
  rfl

theorem ofFile_twoSpellings :
    FactorDocument.ofFile (factorFormat "f") twoSpellings =
      .ok (.mapping [("1", 1.0), ("01", 2.0)]) ∧
    ofFile "f" twoSpellings = .ok (.mapping [(1, 1.0)]) := by
  have hdocument : FactorDocument.ofFile (factorFormat "f") twoSpellings =
      .ok (.mapping [("1", 1.0), ("01", 2.0)]) := by
    rw [factorFormat_f, FactorDocument.ofFile, readText, twoSpellings, Text.Utf8.decode_encode]
    rfl
  refine ⟨hdocument, ?_⟩
  rw [ofFile, hdocument]
  rfl

/-- **Two spellings of one offset** leave one factor, so that the other one is lost. -/
theorem not_keepsKeys_twoSpellings :
    FactorDocument.ofFile (factorFormat "f") twoSpellings =
      .ok (.mapping [("1", 1.0), ("01", 2.0)]) ∧
    ofFile "f" twoSpellings = .ok (.mapping [(1, 1.0)]) ∧
    ¬KeepsKeys [("1", 1.0), ("01", 2.0)] [(1, 1.0)] :=
  ⟨ofFile_twoSpellings.1, ofFile_twoSpellings.2, fun h => absurd h.length_eq (by decide)⟩

theorem isMadeOf_twoSpellings :
    FactorDocument.ofFile (factorFormat "f") twoSpellings =
      .ok (.mapping [("1", 1.0), ("01", 2.0)]) ∧
    ofFile "f" twoSpellings = .ok (.mapping [(1, 1.0)]) ∧
    HoldsEntries "f" twoSpellings [("1", 1.0), ("01", 2.0)] ∧
    ∃ offsets, FactorOverride.mapping [(1, 1.0)] = .mapping offsets ∧
      IsMadeOf [("1", 1.0), ("01", 2.0)] offsets :=
  ⟨ofFile_twoSpellings.1, ofFile_twoSpellings.2,
    isMadeOf_of_ofFile ofFile_twoSpellings.1 ofFile_twoSpellings.2⟩

end MixedWorkload.FactorOverride
