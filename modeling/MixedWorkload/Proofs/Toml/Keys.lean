import Mathlib.Data.List.Infix
import Mathlib.Data.List.Nodup
import MixedWorkload.Toml.Reader

/-!
# No key is given twice

In a TOML document no key is given twice, neither in the whole file nor in any of the tables
inside it (`MixedWorkload.Toml.distinct_of_read?`). So it does not matter which entry of a table
is found first, and to look a key up is to ask for its entry
(`MixedWorkload.Toml.Table.get?_eq_some_iff`).

Every table of a document is changed in one of two ways, by an entry under a key that has none or
by another node under a key that has one, and `MixedWorkload.Toml.enter` makes such a change at
the end of a path. The invariant is about the whole tree for that reason: a table that is entered
later has to have kept it as well.
-/

namespace MixedWorkload.Toml

/-! ### Trees without repeated keys -/

/-- **No key is given twice** in any of the tables of a tree. -/
inductive Node.Distinct : Node → Prop
  | scalar (value : Scalar) : Distinct (.scalar value)
  | list {elements : List Node} (elements_distinct : ∀ node ∈ elements, Distinct node) :
    Distinct (.list elements)
  | table {origin : Origin} {entries : Entries} (keys : (entries.map Prod.fst).Nodup)
    (nodes : ∀ entry ∈ entries, Distinct entry.2) : Distinct (.table origin entries)
  | tables {elements : List Node} (elements_distinct : ∀ node ∈ elements, Distinct node) :
    Distinct (.tables elements)

/-- **No key is given twice** in a table or in those inside it. -/
structure Table.Distinct (t : Table) : Prop where
  /-- The keys of the table are different. -/
  keys : (t.entries.map Prod.fst).Nodup
  /-- So are those in its nodes. -/
  nodes : ∀ entry ∈ t.entries, entry.2.Distinct

theorem Table.Distinct.node {t : Table} (h : t.Distinct) : t.node.Distinct :=
  .table h.keys h.nodes

theorem Node.Distinct.table_distinct {origin : Origin} {entries : Entries}
    (h : (Node.table origin entries).Distinct) : (⟨origin, entries⟩ : Table).Distinct := by
  cases h with
  | table keys nodes => exact ⟨keys, nodes⟩

theorem Table.distinct_of_nil (origin : Origin) : (⟨origin, []⟩ : Table).Distinct :=
  ⟨List.nodup_nil, fun _ h => absurd h List.not_mem_nil⟩

/-- Any element of a list of tables keeps the rule on its own. -/
theorem Node.Distinct.of_mem_tables {elements : List Node} (h : (Node.tables elements).Distinct)
    {node : Node} (hnode : node ∈ elements) : node.Distinct := by
  cases h with
  | tables h => exact h node hnode

/-! ### Keys looked up, added and replaced -/

namespace Table

variable {t : Table} {key : String} {node : Node}

theorem get?_eq_none_iff : t.get? key = none ↔ key ∉ t.entries.map Prod.fst := by
  rw [get?, List.lookup_eq_none_iff, List.mem_map]
  constructor
  · rintro h ⟨entry, hentry, rfl⟩
    exact absurd (h entry hentry) (by simp)
  · intro h entry hentry
    exact bne_iff_ne.mpr fun hkey => h ⟨entry, hentry, hkey.symm⟩

/-- What is found under a key is an entry. -/
theorem mem_of_get?_eq_some (h : t.get? key = some node) : (key, node) ∈ t.entries := by
  obtain ⟨before, after, hentries, -⟩ := List.lookup_eq_some_iff.mp h
  rw [hentries]
  exact List.mem_append_right _ List.mem_cons_self

/-- **Where no key is given twice**, a key is looked up by its entry. -/
theorem get?_eq_some_iff (h : t.Distinct) :
    t.get? key = some node ↔ (key, node) ∈ t.entries := by
  refine ⟨mem_of_get?_eq_some, fun hmem => ?_⟩
  cases hfound : t.get? key with
  | none => exact absurd (List.mem_map_of_mem hmem) (get?_eq_none_iff.mp hfound)
  | some found =>
    have hsame := List.inj_on_of_nodup_map h.keys hmem (mem_of_get?_eq_some hfound) rfl
    rw [(Prod.mk.inj hsame).2]

theorem Distinct.add (h : t.Distinct) (hkey : t.get? key = none) (hnode : node.Distinct) :
    (t.add key node).Distinct where
  keys := by
    rw [Table.add, List.map_append]
    refine List.Nodup.append h.keys (List.nodup_singleton _) ?_
    exact List.disjoint_singleton.mpr (get?_eq_none_iff.mp hkey)
  nodes entry hentry := by
    rcases List.mem_append.mp hentry with hold | hnew
    · exact h.nodes entry hold
    · rw [List.mem_singleton.mp hnew]
      exact hnode

theorem Distinct.replace (h : t.Distinct) (hnode : node.Distinct) :
    (t.replace key node).Distinct where
  keys := by
    have hkeys : (t.replace key node).entries.map Prod.fst = t.entries.map Prod.fst := by
      rw [Table.replace, List.map_map]
      refine List.map_congr_left fun entry _ => ?_
      rw [Function.comp_apply]
      split
      · next hkey => exact hkey.symm
      · rfl
    rw [hkeys]
    exact h.keys
  nodes entry hentry := by
    obtain ⟨old, hold, rfl⟩ := List.mem_map.mp hentry
    split
    · exact hnode
    · exact h.nodes old hold

end Table

/-! ### Changes to a tree -/

/-- **A change keeps the rule** if it makes tables without repeated keys of such tables. -/
def KeepsDistinct (change : Table → Option Table) : Prop :=
  ∀ t t', t.Distinct → change t = some t' → t'.Distinct

variable {route : Route} {change : Table → Option Table} {key : String} {value : Node}

/-- **Along a path**, a change keeps the rule for the tree if it does so at the end. -/
theorem keepsDistinct_enter (hchange : KeepsDistinct change) (path : List String) :
    KeepsDistinct (enter route change path) := by
  induction path with
  | nil => exact hchange
  | cons key path ih =>
    intro t t' ht h
    rw [enter] at h
    split at h
    · next hkey =>
      -- the table is missing
      obtain ⟨inner, hinner, rfl⟩ := Option.map_eq_some_iff.mp h
      exact ht.add hkey (ih _ _ (Table.distinct_of_nil _) hinner).node
    · next origin entries hkey =>
      have hentered := ht.nodes _ (Table.mem_of_get?_eq_some hkey)
      split at h
      · obtain ⟨inner, hinner, rfl⟩ := Option.map_eq_some_iff.mp h
        exact ht.replace (ih _ _ hentered.table_distinct hinner).node
      · cases h
    · next elements hkey =>
      have hlist := ht.nodes _ (Table.mem_of_get?_eq_some hkey)
      split at h
      · next origin entries hlast =>
        obtain ⟨inner, hinner, rfl⟩ := Option.map_eq_some_iff.mp h
        have hentered := hlist.of_mem_tables (List.mem_of_getLast? hlast)
        refine ht.replace (.tables fun node hnode => ?_)
        rcases List.mem_append.mp hnode with hold | hnew
        · exact hlist.of_mem_tables (List.mem_of_mem_dropLast hold)
        · rw [List.mem_singleton.mp hnew]
          exact (ih _ _ hentered.table_distinct hinner).node
      · cases h
    · cases h

theorem keepsDistinct_insertValue (hvalue : value.Distinct) (dots : List String) :
    KeepsDistinct (insertValue dots key value) := by
  refine keepsDistinct_enter (fun t t' ht h => ?_) dots
  split at h
  · next hfree =>
    cases h
    exact ht.add (Option.isNone_iff_eq_none.mp hfree.2) hvalue
  · cases h

theorem keepsDistinct_giveTable (parents : List String) :
    KeepsDistinct (giveTable parents key) := by
  refine keepsDistinct_enter (fun t t' ht h => ?_) parents
  split at h
  · next hkey =>
    cases h
    exact ht.add hkey (Table.distinct_of_nil .given).node
  · next entries hkey =>
    cases h
    have himplied := (ht.nodes _ (Table.mem_of_get?_eq_some hkey)).table_distinct
    exact ht.replace (.table himplied.keys himplied.nodes)
  · cases h

theorem keepsDistinct_giveElement (parents : List String) :
    KeepsDistinct (giveElement parents key) := by
  have hnew : (Node.table .given []).Distinct := (Table.distinct_of_nil .given).node
  refine keepsDistinct_enter (fun t t' ht h => ?_) parents
  split at h
  · next hkey =>
    cases h
    exact ht.add hkey (.tables (List.forall_mem_singleton.mpr hnew))
  · next elements hkey =>
    cases h
    have hlist := ht.nodes _ (Table.mem_of_get?_eq_some hkey)
    refine ht.replace (.tables fun node hnode => ?_)
    rcases List.mem_append.mp hnode with hold | hlast
    · exact hlist.of_mem_tables hold
    · rw [List.mem_singleton.mp hlast]
      exact hnew
  · cases h

/-! ### Values -/

section Parts

variable {read? : List Char → Option (Node × List Char)}
  (hread : ∀ cs node rest, read? cs = some (node, rest) → node.Distinct)

include hread

theorem distinct_of_elementsUpTo? {steps : Nat} {cs rest : List Char} {elements : List Node}
    (h : elementsUpTo? read? steps cs = some (elements, rest)) :
    ∀ node ∈ elements, node.Distinct := by
  induction steps generalizing cs elements with
  | zero => cases h
  | succ steps ih =>
    rw [elementsUpTo?] at h
    obtain ⟨⟨element, more⟩, helement, h⟩ := Option.bind_eq_some_iff.mp h
    have hfirst := hread _ _ _ helement
    dsimp only at h
    split at h
    · cases h
      exact List.forall_mem_singleton.mpr hfirst
    · split at h
      · cases h
        exact List.forall_mem_singleton.mpr hfirst
      · obtain ⟨⟨others, last⟩, hothers, h⟩ := Option.bind_eq_some_iff.mp h
        cases h
        exact List.forall_mem_cons.mpr ⟨hfirst, ih hothers⟩
    · cases h

theorem distinct_of_list? {cs rest : List Char} {node : Node}
    (h : list? read? cs = some (node, rest)) : node.Distinct := by
  rw [list?] at h
  split at h
  · cases h
    exact .list fun _ hnode => absurd hnode List.not_mem_nil
  · obtain ⟨⟨elements, more⟩, helements, h⟩ := Option.map_eq_some_iff.mp h
    cases h
    exact .list (distinct_of_elementsUpTo? hread helements)

theorem distinct_of_entriesUpTo? {steps : Nat} {t t' : Table} {cs rest : List Char}
    (ht : t.Distinct) (h : entriesUpTo? read? steps t cs = some (t', rest)) : t'.Distinct := by
  induction steps generalizing t cs with
  | zero => cases h
  | succ steps ih =>
    rw [entriesUpTo?] at h
    obtain ⟨⟨⟨dots, key⟩, behind⟩, -, h⟩ := Option.bind_eq_some_iff.mp h
    obtain ⟨text, -, h⟩ := Option.bind_eq_some_iff.mp h
    obtain ⟨⟨value, more⟩, hvalue, h⟩ := Option.bind_eq_some_iff.mp h
    obtain ⟨larger, hinsert, h⟩ := Option.bind_eq_some_iff.mp h
    have hlarger := keepsDistinct_insertValue (hread _ _ _ hvalue) dots _ _ ht hinsert
    split at h
    · cases h
      exact hlarger
    · exact ih hlarger h
    · cases h

theorem distinct_of_inlineTable? {cs rest : List Char} {node : Node}
    (h : inlineTable? read? cs = some (node, rest)) : node.Distinct := by
  rw [inlineTable?] at h
  split at h
  · cases h
    exact (Table.distinct_of_nil .closed).node
  · obtain ⟨⟨t, more⟩, ht, h⟩ := Option.map_eq_some_iff.mp h
    cases h
    have hentries := distinct_of_entriesUpTo? hread (Table.distinct_of_nil .given) ht
    exact .table hentries.keys hentries.nodes

end Parts

/-- **No value has a repeated key**, however deep its tables nest. -/
theorem distinct_of_value? {depth : Nat} {cs rest : List Char} {node : Node}
    (h : value? depth cs = some (node, rest)) : node.Distinct := by
  induction depth generalizing cs rest node with
  | zero =>
    unfold value? at h
    split at h
    · cases h
    · cases h
    · obtain ⟨⟨scalar, more⟩, -, h⟩ := Option.map_eq_some_iff.mp h
      cases h
      exact .scalar scalar
  | succ depth ih =>
    unfold value? at h
    split at h
    · exact distinct_of_list? (fun _ _ _ => ih) h
    · exact distinct_of_inlineTable? (fun _ _ _ => ih) h
    · obtain ⟨⟨scalar, more⟩, -, h⟩ := Option.map_eq_some_iff.mp h
      cases h
      exact .scalar scalar

/-! ### Lines -/

variable {r r' : Reading} {cs rest : List Char}

theorem distinct_of_headerLine? (hr : r.document.Distinct)
    (h : headerLine? r cs = some (r', rest)) : r'.document.Distinct := by
  unfold headerLine? at h
  split at h
  · obtain ⟨⟨⟨parents, key⟩, behind⟩, -, h⟩ := Option.bind_eq_some_iff.mp h
    dsimp only at h
    split at h
    · obtain ⟨document, hgive, h⟩ := Option.bind_eq_some_iff.mp h
      obtain ⟨more, -, h⟩ := Option.bind_eq_some_iff.mp h
      cases h
      exact keepsDistinct_giveElement parents _ _ hr hgive
    · cases h
  · obtain ⟨⟨⟨parents, key⟩, behind⟩, -, h⟩ := Option.bind_eq_some_iff.mp h
    dsimp only at h
    split at h
    · obtain ⟨document, hgive, h⟩ := Option.bind_eq_some_iff.mp h
      obtain ⟨more, -, h⟩ := Option.bind_eq_some_iff.mp h
      cases h
      exact keepsDistinct_giveTable parents _ _ hr hgive
    · cases h

theorem distinct_of_valueLine? (hr : r.document.Distinct)
    (h : valueLine? r cs = some (r', rest)) : r'.document.Distinct := by
  rw [valueLine?] at h
  obtain ⟨⟨⟨dots, key⟩, behind⟩, -, h⟩ := Option.bind_eq_some_iff.mp h
  obtain ⟨text, -, h⟩ := Option.bind_eq_some_iff.mp h
  obtain ⟨⟨value, more⟩, hvalue, h⟩ := Option.bind_eq_some_iff.mp h
  obtain ⟨document, hinsert, h⟩ := Option.bind_eq_some_iff.mp h
  obtain ⟨last, -, h⟩ := Option.bind_eq_some_iff.mp h
  cases h
  exact keepsDistinct_enter (keepsDistinct_insertValue (distinct_of_value? hvalue) dots) _ _ _
    hr hinsert

/-- **The lines of a file** add to a document without repeating a key. -/
theorem distinct_of_linesUpTo? {steps : Nat} {t : Table} (hr : r.document.Distinct)
    (h : linesUpTo? steps r cs = some t) : t.Distinct := by
  induction steps generalizing r cs with
  | zero =>
    unfold linesUpTo? at h
    split at h
    · cases h
      exact hr
    · cases h
  | succ steps ih =>
    unfold linesUpTo? at h
    split at h
    · cases h
      exact hr
    · dsimp only at h
      split at h
      · obtain ⟨⟨r', more⟩, hline, h⟩ := Option.bind_eq_some_iff.mp h
        exact ih (distinct_of_headerLine? hr hline) h
      · obtain ⟨⟨r', more⟩, hline, h⟩ := Option.bind_eq_some_iff.mp h
        obtain ⟨_, -, hsame⟩ := Option.map_eq_some_iff.mp hline
        cases hsame
        exact ih hr h
      · exact ih hr h
      · obtain ⟨⟨r', more⟩, hline, h⟩ := Option.bind_eq_some_iff.mp h
        obtain ⟨_, -, hsame⟩ := Option.map_eq_some_iff.mp hline
        cases hsame
        exact ih hr h
      · obtain ⟨⟨r', more⟩, hline, h⟩ := Option.bind_eq_some_iff.mp h
        exact ih (distinct_of_valueLine? hr hline) h

/-- **No key is given twice in a document** that can be read. -/
theorem distinct_of_read? {t : Table} (h : read? cs = some t) : t.Distinct :=
  distinct_of_linesUpTo? (Table.distinct_of_nil .given) h

end MixedWorkload.Toml
