import Mathlib.Data.List.Forall2
import MixedWorkload.Factors.File
import MixedWorkload.Proofs.ConfigFiles
import MixedWorkload.Proofs.Json.Objects

/-!
# What a factor file holds

A factor file holds a list of factors or factors under keys. In TOML they are the entry `factors`
of the document, a list of numbers or a table of numbers
(`MixedWorkload.FactorDocument.ofFile_toml_eq_ok_iff`); of a file with the header of that table
and an entry on each line they are the numbers in these lines
(`MixedWorkload.FactorDocument.ofFile_fileOfLines_eq_ok_iff`). In JSON they are the document
itself; of a file that is an object, the members are read as they are if all of them have numbers,
and the file is refused otherwise (`MixedWorkload.FactorDocument.ofFile_json_of_isObjectFile`).

`MixedWorkload.HoldsEntries` puts the two together: what it means for a file of either format that
certain factors under certain keys are in it.
-/

namespace MixedWorkload

open Json

/-- **A step for each element of a list** gives a list if each of them gives an element. -/
theorem mapM_eq_some_iff {α β : Type} {f : α → Option β} {as : List α} {bs : List β} :
    as.mapM f = some bs ↔ List.Forall₂ (fun a b => f a = some b) as bs := by
  induction as generalizing bs with
  | nil =>
    rw [List.mapM_nil, List.forall₂_nil_left_iff]
    exact ⟨fun h => (Option.some.inj h).symm, fun h => congrArg some h.symm⟩
  | cons a as ih =>
    rw [List.mapM_cons, List.forall₂_cons_left_iff]
    constructor
    · intro h
      obtain ⟨b, hb, h⟩ := Option.bind_eq_some_iff.mp h
      obtain ⟨bs', hbs', h⟩ := Option.bind_eq_some_iff.mp h
      exact ⟨b, bs', hb, ih.mp hbs', (Option.some.inj h).symm⟩
    · rintro ⟨b, bs', hb, hbs', rfl⟩
      rw [hb, ih.mpr hbs']
      rfl

variable {file : List UInt8}

/-! ### Factors in TOML -/

namespace FactorDocument

/-- **A node holds factors**: it is a list of numbers, or a table of numbers under the keys of the
factors. -/
inductive IsHeldBy : FactorDocument → Toml.Node → Prop
  | sequence {factors : List Float} {nodes : List Toml.Node}
    (hnodes : List.Forall₂ Config.IsDouble nodes factors) :
    IsHeldBy (.sequence factors) (.list nodes)
  | mapping {entries : List (String × Float)} {origin : Toml.Origin} {nodes : Toml.Entries}
    (hnodes : List.Forall₂ (fun node entry => node.1 = entry.1 ∧ Config.IsDouble node.2 entry.2)
      nodes entries) : IsHeldBy (.mapping entries) (.table origin nodes)

/-- A number under a key. -/
theorem keyed_eq_some_iff {node : String × Toml.Node} {entry : String × Float} :
    (Config.doubleOf? node.2).map (node.1, ·) = some entry ↔
      node.1 = entry.1 ∧ Config.IsDouble node.2 entry.2 := by
  rw [Option.map_eq_some_iff, ← Config.doubleOf?_eq_some_iff]
  constructor
  · rintro ⟨x, hx, rfl⟩
    exact ⟨rfl, hx⟩
  · rintro ⟨hkey, hx⟩
    exact ⟨entry.2, hx, Prod.ext hkey rfl⟩

/-- **The factors of a node** are those that it holds. -/
theorem ofNode?_eq_some_iff {node : Toml.Node} {factors : FactorDocument} :
    ofNode? node = some factors ↔ factors.IsHeldBy node := by
  constructor
  · intro h
    unfold ofNode? at h
    split at h
    · obtain ⟨xs, hxs, rfl⟩ := Option.map_eq_some_iff.mp h
      exact .sequence ((mapM_eq_some_iff.mp hxs).imp fun _ _ => Config.doubleOf?_eq_some_iff.mp)
    · obtain ⟨entries, hentries, rfl⟩ := Option.map_eq_some_iff.mp h
      exact .mapping ((mapM_eq_some_iff.mp hentries).imp fun _ _ => keyed_eq_some_iff.mp)
    · cases h
  · rintro (hnodes | hnodes)
    · have hread := mapM_eq_some_iff.mpr (hnodes.imp fun _ _ => Config.doubleOf?_eq_some_iff.mpr)
      rw [ofNode?, hread]
      rfl
    · have hread := mapM_eq_some_iff.mpr (hnodes.imp fun _ _ => keyed_eq_some_iff.mpr)
      rw [ofNode?, hread]
      rfl

/-- **A file of TOML with factors**: they are the entry `factors` of its document. -/
def IsTomlFile (factors : FactorDocument) (file : List UInt8) : Prop :=
  ∃ (text : String) (document : Toml.Table) (node : Toml.Node), file = Text.Utf8.encode text ∧
    Toml.read? text.toList = some document ∧ ("factors", node) ∈ document.entries ∧
    factors.IsHeldBy node

/-- The factors in a file that is text. -/
theorem ofFile_encode (format : DocumentFormat) (text : String) :
    ofFile format (Text.Utf8.encode text) =
      (read? format text.toList).elim (.error (.serialization format)) .ok := by
  rw [ofFile, readText_encode]
  dsimp only [bind, Except.bind]
  cases read? format text.toList <;> rfl

/-- **The factors of a text of TOML** are those of the entry `factors` of its document. -/
theorem read?_toml_eq_some_iff {text : List Char} {factors : FactorDocument} :
    read? .toml text = some factors ↔
      ∃ document node, Toml.read? text = some document ∧
        ("factors", node) ∈ document.entries ∧ factors.IsHeldBy node := by
  constructor
  · intro h
    obtain ⟨node, hnode, hfactors⟩ := Option.bind_eq_some_iff.mp h
    obtain ⟨document, hdocument, hkey⟩ := Option.bind_eq_some_iff.mp hnode
    exact ⟨document, node, hdocument, Toml.Table.mem_of_get?_eq_some hkey,
      ofNode?_eq_some_iff.mp hfactors⟩
  · rintro ⟨document, node, hdocument, hmem, hfactors⟩
    have hkey := (Toml.Table.get?_eq_some_iff (Toml.distinct_of_read? hdocument)).mpr hmem
    exact Option.bind_eq_some_iff.mpr ⟨node,
      Option.bind_eq_some_iff.mpr ⟨document, hdocument, hkey⟩, ofNode?_eq_some_iff.mpr hfactors⟩

/-- **The factors of a file of TOML** are its entry `factors`, and a file without this entry, or
with something else under it, is refused. -/
theorem ofFile_toml_eq_ok_iff {factors : FactorDocument} :
    ofFile .toml file = .ok factors ↔ factors.IsTomlFile file := by
  constructor
  · intro h
    obtain ⟨cs, hcs, -⟩ := exists_of_bind_eq_ok h
    obtain rfl := readText_eq_ok_iff.mp hcs
    rw [ofFile_encode, elim_eq_ok_iff, read?_toml_eq_some_iff] at h
    obtain ⟨document, node, hnode⟩ := h
    exact ⟨_, document, node, rfl, hnode⟩
  · rintro ⟨text, document, node, rfl, hnode⟩
    rw [ofFile_encode, elim_eq_ok_iff, read?_toml_eq_some_iff]
    exact ⟨document, node, hnode⟩

/-- A file of TOML with the header of the factors and a plain entry on each line behind it. -/
def fileOfLines (lines : List Toml.Line) : List UInt8 :=
  Text.Utf8.encode ("[factors]\n" ++ String.ofList (lines.flatMap Toml.Line.text))

/-- **The factors in plain lines** are those that the entries of the lines hold. -/
theorem ofFile_fileOfLines_eq_ok_iff {lines : List Toml.Line}
    (hspelt : ∀ line ∈ lines, line.IsSpelt) (hkeys : (lines.map Toml.Line.key).Nodup)
    {factors : FactorDocument} :
    ofFile .toml (fileOfLines lines) = .ok factors ↔
      factors.IsHeldBy (.table .given (lines.map Toml.Line.entry)) := by
  have htext : ("[factors]\n" ++ String.ofList (lines.flatMap Toml.Line.text)).toList =
      '[' :: (['f', 'a', 'c', 't', 'o', 'r', 's'] ++ ']' :: '\n' ::
        lines.flatMap Toml.Line.text) := by
    simp only [String.toList_append, String.toList_ofList]
    rfl
  have hread := Toml.read?_header_lines hspelt hkeys ['f', 'a', 'c', 't', 'o', 'r', 's'] nofun
    (List.all_eq_true.mp rfl)
  rw [fileOfLines, ofFile_encode, elim_eq_ok_iff, read?_toml_eq_some_iff, htext, hread]
  constructor
  · rintro ⟨document, node, hdocument, hmem, hfactors⟩
    obtain rfl := Option.some.inj hdocument
    obtain ⟨-, rfl⟩ := Prod.mk.inj (List.mem_singleton.mp hmem)
    exact hfactors
  · intro hfactors
    exact ⟨_, _, rfl, List.mem_singleton_self _, hfactors⟩

/-- A table under a header of its own. -/
example :
    ofFile .toml (Text.Utf8.encode "[factors]\n1 = 2\n\"02\" = 0.5\n") =
      .ok (.mapping [("1", 2.0), ("02", 0.5)]) := by
  rw [ofFile_encode]
  rfl

end FactorDocument

/-! ### Members of JSON with numbers -/

/-- **A file with an object of JSON**, and its members. -/
def IsObjectFile (file : List UInt8) (entries : List (String × Option Float)) : Prop :=
  ∃ s : String, file = Text.Utf8.encode s ∧ IsObject s.toList entries

/-- An entry that has a number. -/
def withNumber (e : String × Float) : String × Option Float :=
  (e.1, some e.2)

theorem withNumber_injective : Function.Injective withNumber := by
  intro e e' h
  obtain ⟨hkey, hvalue⟩ := Prod.mk.inj h
  exact Prod.ext hkey (Option.some.inj hvalue)

variable {members : List (String × Option Float)} {numbers : List (String × Float)}

theorem numbered_eq_some_iff {e : String × Option Float} {n : String × Float} :
    numbered e = some n ↔ e = withNumber n := by
  obtain ⟨key, x?⟩ := e
  cases x? with
  | none => exact ⟨fun h => (nomatch h), fun h => (nomatch (Prod.mk.inj h).2)⟩
  | some x =>
    rw [numbered, Option.map_some, Option.some.injEq]
    refine ⟨?_, fun h => withNumber_injective h⟩
    rintro rfl
    rfl

/-- **All members have numbers** if and only if the entries are numbers under names. -/
theorem mapM_numbered_eq_some_iff :
    members.mapM numbered = some numbers ↔ members = numbers.map withNumber := by
  simp only [mapM_eq_some_iff, numbered_eq_some_iff]
  rw [← List.forall₂_map_right_iff, List.forall₂_eq_eq_eq]

/-- **What is read of a file with an object**: the numbers under names, in the order of the file,
if all members have numbers. -/
theorem FactorDocument.ofFile_json_of_isObjectFile (h : IsObjectFile file members) :
    ofFile .json file =
      (members.mapM numbered).elim (.error (.serialization .json)) fun numbers =>
        .ok (.mapping numbers) := by
  obtain ⟨s, rfl, hobject⟩ := h
  have hread : read? .json s.toList = (members.mapM numbered).map .mapping :=
    readFactors?_of_isObject hobject
  rw [ofFile_encode, hread]
  cases members.mapM numbered <;> rfl

/-! ### Files of either format -/

/-- **A file holds factors under keys**, in the format that its name tells. -/
structure HoldsEntries (path : String) (file : List UInt8) (entries : List (String × Float)) :
    Prop where
  /-- In TOML they are a table, the entry `factors` of the document. -/
  toml : factorFormat path = .toml → (FactorDocument.mapping entries).IsTomlFile file
  /-- If the document is that table alone, with an entry on each line, they are the numbers in
  these lines. -/
  toml_lines : factorFormat path = .toml → ∀ lines : List Toml.Line,
    (∀ line ∈ lines, line.IsSpelt) → (lines.map Toml.Line.key).Nodup →
    file = FactorDocument.fileOfLines lines →
    List.Forall₂ (fun line entry => line.entry.1 = entry.1 ∧
      Config.IsDouble line.entry.2 entry.2) lines entries
  /-- In JSON they are the members of the object that the file is. -/
  json : factorFormat path = .json → ∀ members, IsObjectFile file members →
    members = entries.map withNumber

/-- **Factors under keys that have been read of a file** are those that it holds. -/
theorem holdsEntries_of_ofFile {path : String} {entries : List (String × Float)}
    (h : FactorDocument.ofFile (factorFormat path) file = .ok (.mapping entries)) :
    HoldsEntries path file entries where
  toml hpath := by
    rw [hpath] at h
    exact FactorDocument.ofFile_toml_eq_ok_iff.mp h
  toml_lines hpath lines hspelt hkeys hfile := by
    rw [hpath, hfile, FactorDocument.ofFile_fileOfLines_eq_ok_iff hspelt hkeys] at h
    cases h with
    | mapping hnodes => exact List.forall₂_map_left_iff.mp hnodes
  json hpath members hmembers := by
    rw [hpath, FactorDocument.ofFile_json_of_isObjectFile hmembers] at h
    cases hnumbers : members.mapM numbered with
    | none =>
      rw [hnumbers] at h
      cases h
    | some numbers =>
      rw [hnumbers] at h
      cases h
      exact mapM_numbered_eq_some_iff.mp hnumbers

end MixedWorkload
