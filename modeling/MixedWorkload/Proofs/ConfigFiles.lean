import MixedWorkload.Config.File
import MixedWorkload.Proofs.Results
import MixedWorkload.Proofs.Text.Decoding
import MixedWorkload.Proofs.Toml.Lines

/-!
# What a configuration file says

A configuration file gives the four settings under four names, `new_order_id`, `olap_lower_id`,
`olap_upper_id` and `throughput_bin_secs`, and nothing else in it matters.
`MixedWorkload.Config.Layer.IsGivenBy` says so of a document: a setting is that of the entry of
its own name, and it is not given if there is no such entry. A document that has an entry of one
of these names with a value of the wrong kind gives no settings at all.

What the library reads of a file is exactly that
(`MixedWorkload.Config.Layer.ofFile_eq_ok_iff`). It looks a key up and takes the entry that it
finds first, which is the only one as no key of a document is given twice. For a file of plain
lines the document is known from its text
(`MixedWorkload.Config.Layer.ofFile_lines_eq_ok_iff`).
-/

namespace MixedWorkload

variable {file : List UInt8}

/-- **Files that are text** are those that a text is encoded by. -/
theorem readText_eq_ok_iff {cs : List Char} :
    readText file = .ok cs ↔ file = Text.Utf8.encode (String.ofList cs) := by
  rw [Text.Utf8.encode_eq, String.toList_ofList, ← Text.Utf8.decode_eq_ok_iff, readText]
  cases Text.Utf8.decode file with
  | error place => exact ⟨fun h => (nomatch h), fun h => (nomatch h)⟩
  | ok cs' => exact ⟨fun h => congrArg _ (Except.ok.inj h), fun h => congrArg _ (Except.ok.inj h)⟩

theorem readText_encode (text : String) : readText (Text.Utf8.encode text) = .ok text.toList := by
  rw [readText_eq_ok_iff, String.ofList_toList]

namespace Config

/-! ### Values of entries -/

/-- **A node holds a type**: it is an integer of thirty-two bits. -/
inductive IsType : Toml.Node → TransactionType → Prop
  | integer (t : TransactionType) : IsType (.scalar (.integer t.toNat)) t

/-- **A node holds a double**: it is a number, with a point or without. -/
inductive IsDouble : Toml.Node → Float → Prop
  | integer (n : Int) : IsDouble (.scalar (.integer n)) (.ofInt n)
  | float (x : Float) : IsDouble (.scalar (.float x)) x

/-- **What a document says under a key**, where a node may hold a value: nothing without an entry
of that key, and otherwise the value that its node holds. -/
inductive Says {α : Type} (document : Toml.Table) (key : String) (holds : Toml.Node → α → Prop) :
    Option α → Prop
  | nothing (h : ∀ node, (key, node) ∉ document.entries) : Says document key holds none
  | value {node : Toml.Node} {a : α} (hentry : (key, node) ∈ document.entries)
    (hnode : holds node a) : Says document key holds (some a)

theorem typeOf?_eq_some_iff {node : Toml.Node} {t : TransactionType} :
    typeOf? node = some t ↔ IsType node t := by
  constructor
  · intro h
    unfold typeOf? at h
    split at h
    · next n =>
      split at h
      · next hfits =>
        cases h
        have hlt : n.toNat < 2 ^ 32 := by omega
        have hsame : n = ((UInt32.ofNat n.toNat).toNat : Int) := by
          rw [UInt32.toNat_ofNat_of_lt' hlt]
          omega
        have hholds := IsType.integer (UInt32.ofNat n.toNat)
        rwa [← hsame] at hholds
      · cases h
    · cases h
  · rintro ⟨⟩
    have hlt := t.toNat_lt
    rw [typeOf?, if_pos ⟨by omega, by omega⟩, Int.toNat_natCast, UInt32.ofNat_toNat]

theorem doubleOf?_eq_some_iff {node : Toml.Node} {x : Float} :
    doubleOf? node = some x ↔ IsDouble node x := by
  constructor
  · intro h
    unfold doubleOf? at h
    split at h
    · next n =>
      cases h
      exact .integer n
    · cases h
      exact .float x
    · cases h
  · rintro ⟨⟩ <;> rfl

/-! ### Settings of a document -/

variable {document : Toml.Table}

/-- **An entry that need not be there** is read as what the document says under its key. -/
theorem entry?_eq_some_iff {α : Type} {holds : Toml.Node → α → Prop}
    {read : Toml.Node → Option α} (hread : ∀ node a, read node = some a ↔ holds node a)
    (hdocument : document.Distinct) {setting : Setting} {value : Option α} :
    entry? document setting read = some value ↔ Says document setting.entry holds value := by
  unfold entry?
  cases hkey : document.get? setting.entry with
  | none =>
    have habsent : ∀ node, (setting.entry, node) ∉ document.entries := fun node hmem =>
      Toml.Table.get?_eq_none_iff.mp hkey (List.mem_map_of_mem hmem)
    constructor
    · intro h
      obtain rfl := Option.some.inj h
      exact .nothing habsent
    · rintro (_ | ⟨hentry, -⟩)
      · rfl
      · exact absurd hentry (habsent _)
  | some node =>
    have hentry := (Toml.Table.get?_eq_some_iff hdocument).mp hkey
    constructor
    · intro h
      obtain ⟨a, ha, rfl⟩ := Option.map_eq_some_iff.mp h
      exact .value hentry ((hread _ _).mp ha)
    · rintro (hnothing | ⟨hother, hnode⟩)
      · exact absurd hentry (hnothing node)
      · -- there is no other entry of that key
        obtain rfl := Option.some.inj
          (hkey.symm.trans ((Toml.Table.get?_eq_some_iff hdocument).mpr hother))
        exact Option.map_eq_some_iff.mpr ⟨_, (hread _ _).mpr hnode, rfl⟩

/-- **The settings that a document gives**: each one is that of the entry of its name, if there is
such an entry. -/
structure Layer.IsGivenBy (l : Layer) (document : Toml.Table) : Prop where
  /-- The type counted as NewOrder. -/
  newOrderId : Says document "new_order_id" IsType l.newOrderId
  /-- The least analytical type. -/
  lower : Says document "olap_lower_id" IsType l.lower
  /-- The greatest analytical type. -/
  upper : Says document "olap_upper_id" IsType l.upper
  /-- The width of a throughput bin. -/
  binWidth : Says document "throughput_bin_secs" IsDouble l.binWidth

theorem Layer.ofDocument?_eq_some_iff (hdocument : document.Distinct) {l : Layer} :
    Layer.ofDocument? document = some l ↔ l.IsGivenBy document := by
  have htype (setting : Setting) {value : Option TransactionType} :
      entry? document setting typeOf? = some value ↔ Says document setting.entry IsType value :=
    entry?_eq_some_iff (fun _ _ => typeOf?_eq_some_iff) hdocument
  have hdouble (setting : Setting) {value : Option Float} :
      entry? document setting doubleOf? = some value ↔
        Says document setting.entry IsDouble value :=
    entry?_eq_some_iff (fun _ _ => doubleOf?_eq_some_iff) hdocument
  constructor
  · intro h
    obtain ⟨newOrderId, hnewOrderId, h⟩ := Option.bind_eq_some_iff.mp h
    obtain ⟨lower, hlower, h⟩ := Option.bind_eq_some_iff.mp h
    obtain ⟨upper, hupper, h⟩ := Option.bind_eq_some_iff.mp h
    obtain ⟨binWidth, hbinWidth, h⟩ := Option.bind_eq_some_iff.mp h
    obtain rfl := Option.some.inj h
    exact ⟨(htype .newOrderId).mp hnewOrderId, (htype .lowerId).mp hlower,
      (htype .upperId).mp hupper, (hdouble .binWidth).mp hbinWidth⟩
  · intro h
    rw [Layer.ofDocument?, (htype .newOrderId).mpr h.newOrderId, (htype .lowerId).mpr h.lower,
      (htype .upperId).mpr h.upper, (hdouble .binWidth).mpr h.binWidth]
    rfl

/-! ### Settings of a file -/

/-- The settings that a file gives that is text. -/
theorem Layer.ofFile_encode (text : String) :
    Layer.ofFile (Text.Utf8.encode text) =
      ((Toml.read? text.toList).bind ofDocument?).elim (.error (.serialization .toml)) .ok := by
  rw [Layer.ofFile, readText_encode]
  dsimp only [bind, Except.bind]
  cases (Toml.read? text.toList).bind ofDocument? <;> rfl

/-- **The settings that a file gives** are those of the document in its text, and files that are
no text, hold no document or give a setting a value of the wrong kind are refused. -/
theorem Layer.ofFile_eq_ok_iff {l : Layer} :
    Layer.ofFile file = .ok l ↔
      ∃ text document, file = Text.Utf8.encode text ∧
        Toml.read? text.toList = some document ∧ l.IsGivenBy document := by
  constructor
  · intro h
    obtain ⟨cs, hcs, -⟩ := exists_of_bind_eq_ok h
    obtain rfl := readText_eq_ok_iff.mp hcs
    rw [ofFile_encode, elim_eq_ok_iff] at h
    obtain ⟨document, hread, hlayer⟩ := Option.bind_eq_some_iff.mp h
    exact ⟨_, document, rfl, hread,
      (ofDocument?_eq_some_iff (Toml.distinct_of_read? hread)).mp hlayer⟩
  · rintro ⟨text, document, rfl, hread, hgiven⟩
    rw [ofFile_encode, hread, elim_eq_ok_iff]
    exact (ofDocument?_eq_some_iff (Toml.distinct_of_read? hread)).mpr hgiven

/-- **A file of plain lines** gives the settings that the entries of its lines give. -/
theorem Layer.ofFile_lines_eq_ok_iff {lines : List Toml.Line}
    (hspelt : ∀ line ∈ lines, line.IsSpelt) (hkeys : (lines.map Toml.Line.key).Nodup) {l : Layer} :
    Layer.ofFile (Text.Utf8.encode (String.ofList (lines.flatMap Toml.Line.text))) = .ok l ↔
      l.IsGivenBy ⟨.given, lines.map Toml.Line.entry⟩ := by
  have hread := Toml.read?_lines hspelt hkeys
  rw [ofFile_encode, String.toList_ofList, hread, elim_eq_ok_iff]
  exact ofDocument?_eq_some_iff (Toml.distinct_of_read? hread)

end Config

end MixedWorkload
