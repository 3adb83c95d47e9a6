import MixedWorkload.Proofs.Text.Blank
import MixedWorkload.Proofs.Toml.Integers
import MixedWorkload.Proofs.Toml.Keys

/-!
# Files of plain lines

Most TOML files that one writes by hand have one entry on each line, a key without quotation
marks, the sign, and a value without parts: a number, a truth value or a date. Such a file is read
as the document with these entries, in their order (`MixedWorkload.Toml.read?_lines`), and under a
header it is read as the table with these entries (`MixedWorkload.Toml.read?_header_lines`).

A line is read without looking at what follows it, because it ends with a line end. So one line is
one step of the reader, whatever has been read before (`MixedWorkload.Toml.linesUpTo?_text`), and a
file is read by induction on its lines.
-/

namespace MixedWorkload.Toml

open scoped Powers

/-! ### Lines -/

/-- A line with a plain value. -/
structure Line where
  /-- The key. -/
  key : List Char
  /-- The blanks between the key and the sign. -/
  before : List Char
  /-- The blanks between the sign and the value. -/
  after : List Char
  /-- The value as it is written. -/
  run : List Char
  /-- The value. -/
  value : Scalar

namespace Line

/-- The line as it is written. -/
def text (l : Line) : List Char :=
  l.key ++ (l.before ++ '=' :: (l.after ++ (l.run ++ ['\n'])))

/-- The entry that the line makes. -/
def entry (l : Line) : String × Node :=
  (String.ofList l.key, .scalar l.value)

/-- **A line is spelt** as lines with plain values are. -/
structure IsSpelt (l : Line) : Prop where
  /-- There is a key. -/
  key_ne_nil : l.key ≠ []
  /-- It needs no quotation marks. -/
  key_chars : ∀ c ∈ l.key, isKeyChar c = true
  /-- Blanks may stand in front of the sign -/
  before_blank : ∀ c ∈ l.before, isSpace c = true
  /-- and behind it. -/
  after_blank : ∀ c ∈ l.after, isSpace c = true
  /-- There is a value. -/
  run_ne_nil : l.run ≠ []
  /-- It is written in one run. -/
  run_chars : ∀ c ∈ l.run, isRunChar c = true
  /-- It is the value of that run. -/
  value_eq : scalarOf? l.run = some l.value

end Line

/-- A line begins with its key. -/
theorem Line.IsSpelt.exists_eq_cons {l : Line} (h : l.IsSpelt) (rest : List Char) :
    ∃ c cs, l.text ++ rest = c :: cs ∧ isKeyChar c = true := by
  obtain ⟨c, key, hkey⟩ := List.exists_cons_of_ne_nil h.key_ne_nil
  refine ⟨c, key ++ (l.before ++ '=' :: (l.after ++ (l.run ++ ['\n']))) ++ rest, ?_,
    h.key_chars c (hkey ▸ List.mem_cons_self)⟩
  rw [Line.text, hkey, List.cons_append, List.cons_append]

/-! ### Characters of keys and of runs -/

section Chars

variable {c d : Char}

theorem isRunChar_of_isKeyChar (h : isKeyChar c = true) : isRunChar c = true := by
  simp only [isKeyChar, isRunChar, Bool.or_eq_true] at h ⊢
  rcases h with (h | h) | h <;> simp [h]

theorem isRunChar_of_isDigit (h : c.isDigit = true) : isRunChar c = true := by
  simp [isRunChar, Char.isAlphanum, h]

theorem ne_of_isRunChar (h : isRunChar c = true) (hd : isRunChar d = false) : c ≠ d := by
  rintro rfl
  exact absurd h (by simp [hd])

theorem isSpace_of_isRunChar (h : isRunChar c = true) : isSpace c = false := by
  rw [isSpace, Bool.or_eq_false_iff, beq_eq_false_iff_ne, beq_eq_false_iff_ne]
  exact ⟨ne_of_isRunChar h rfl, ne_of_isRunChar h rfl⟩

/-- Blanks are skipped up to what is none. -/
theorem skipSpaces_append {blanks rest : List Char} (hblanks : ∀ c ∈ blanks, isSpace c = true)
    (hrest : ∀ c ∈ rest.head?, isSpace c = false) : skipSpaces (blanks ++ rest) = rest := by
  rw [skipSpaces, List.dropWhile_append_of_pos hblanks, Text.dropWhile_eq_self hrest]

/-- What begins with a run does not begin with a blank. -/
theorem isSpace_of_mem_head? {run rest : List Char} (hne : run ≠ [])
    (hrun : ∀ c ∈ run, isRunChar c = true) : ∀ c ∈ (run ++ rest).head?, isSpace c = false := by
  obtain ⟨c, run, rfl⟩ := List.exists_cons_of_ne_nil hne
  intro d hd
  obtain rfl := Option.some.inj hd
  exact isSpace_of_isRunChar (hrun c List.mem_cons_self)

/-- The longest run at the start of a text, if it is followed by another character. -/
theorem takeWhile_append_cons {p : Char → Bool} {run : List Char} (hrun : ∀ c ∈ run, p c = true)
    (hd : p d = false) (rest : List Char) : (run ++ d :: rest).takeWhile p = run := by
  have hnot : ¬p d = true := Bool.not_eq_true _ ▸ hd
  rw [List.takeWhile_append_of_pos hrun, List.takeWhile_cons_of_neg hnot, List.append_nil]

end Chars

/-! ### Keys -/

section Keys

variable {key : List Char} (hne : key ≠ []) (hkey : ∀ c ∈ key, isKeyChar c = true)

include hne hkey

/-- **A key without quotation marks** is read up to the first character that cannot belong to
it. -/
theorem keyPart?_append {d : Char} (hd : isKeyChar d = false) (rest : List Char) :
    keyPart? (key ++ d :: rest) = some (String.ofList key, d :: rest) := by
  obtain ⟨c, cs, rfl⟩ := List.exists_cons_of_ne_nil hne
  have hc := isRunChar_of_isKeyChar (hkey c List.mem_cons_self)
  have htake := takeWhile_append_cons hkey hd rest
  unfold keyPart?
  split
  · next heq => exact absurd (List.cons.inj heq).1 (ne_of_isRunChar hc rfl)
  · next heq => exact absurd (List.cons.inj heq).1 (ne_of_isRunChar hc rfl)
  · simp only [htake, List.drop_left, List.isEmpty_cons, Bool.false_eq_true, if_false]

/-- **A whole key of one part**, with blanks behind it and then a character that is no dot. -/
theorem key?_append (blanks : List Char) (hblanks : ∀ c ∈ blanks, isSpace c = true) {d : Char}
    (hd : isKeyChar d = false) (hspace : isSpace d = false) (hdot : d ≠ '.') (rest : List Char) :
    key? (key ++ (blanks ++ d :: rest)) = some (([], String.ofList key), d :: rest) := by
  have hrun : ∀ c ∈ key, isRunChar c = true := fun c hc => isRunChar_of_isKeyChar (hkey c hc)
  have hskip : skipSpaces (blanks ++ d :: rest) = d :: rest :=
    skipSpaces_append hblanks fun c hc => Option.some.inj hc ▸ hspace
  have hpart : keyPart? (key ++ (blanks ++ d :: rest)) =
      some (String.ofList key, blanks ++ d :: rest) := by
    cases blanks with
    | nil => exact keyPart?_append hne hkey hd rest
    | cons b blanks =>
      refine keyPart?_append hne hkey ?_ (blanks ++ d :: rest)
      rw [← Bool.not_eq_true]
      intro hb
      have hspace := isSpace_of_isRunChar (isRunChar_of_isKeyChar hb)
      rw [hblanks b List.mem_cons_self] at hspace
      cases hspace
  obtain ⟨n, hn⟩ : ∃ n, (key ++ (blanks ++ d :: rest)).length = n + 1 :=
    Nat.exists_eq_succ_of_ne_zero (by simp)
  have hkeys : keyUpTo? (n + 1) (key ++ (blanks ++ d :: rest)) =
      some ([String.ofList key], d :: rest) := by
    have hself : skipSpaces (key ++ (blanks ++ d :: rest)) = key ++ (blanks ++ d :: rest) :=
      Text.dropWhile_eq_self (isSpace_of_mem_head? hne hrun)
    rw [keyUpTo?, hself, hpart]
    dsimp only [bind, Option.bind]
    rw [hskip]
    split
    · next heq => exact absurd (List.cons.inj heq).1 hdot
    · rfl
  rw [key?, hn, hkeys]
  rfl

end Keys

/-! ### Values -/

/-- **A value without parts** is read up to the end of its line. -/
theorem value?_append {run : List Char} (hne : run ≠ []) (hrun : ∀ c ∈ run, isRunChar c = true)
    {scalar : Scalar} (hvalue : scalarOf? run = some scalar) (depth : Nat) (rest : List Char) :
    value? depth (run ++ '\n' :: rest) = some (.scalar scalar, '\n' :: rest) := by
  have hsplit : splitRun (run ++ '\n' :: rest) = (run, '\n' :: rest) := by
    have htake := takeWhile_append_cons hrun (show isRunChar '\n' = false from rfl) rest
    simp only [splitRun, htake, List.drop_left]
    rfl
  obtain ⟨c, cs, rfl⟩ := List.exists_cons_of_ne_nil hne
  have hc := hrun c List.mem_cons_self
  have hmarks : ¬(c = '"' ∨ c = '\'') :=
    not_or.mpr ⟨ne_of_isRunChar hc rfl, ne_of_isRunChar hc rfl⟩
  have hscalar : scalar? (c :: cs ++ '\n' :: rest) = some (scalar, '\n' :: rest) := by
    rw [List.cons_append] at hsplit ⊢
    simp only [scalar?, if_neg hmarks, hsplit, hvalue, Option.map_some]
  unfold value?
  split
  · next heq => exact absurd (List.cons.inj heq).1 (ne_of_isRunChar hc rfl)
  · next heq => exact absurd (List.cons.inj heq).1 (ne_of_isRunChar hc rfl)
  · rw [hscalar]
    rfl

/-- **A line with an integer** in digits is spelt as it should be. -/
theorem Line.isSpelt_digits {key before after ds : List Char} (hkey_ne : key ≠ [])
    (hkey : ∀ c ∈ key, isKeyChar c = true) (hbefore : ∀ c ∈ before, isSpace c = true)
    (hafter : ∀ c ∈ after, isSpace c = true) (hne : ds ≠ []) (hds : ∀ c ∈ ds, c.isDigit = true)
    (hzero : ds.head? ≠ some '0' ∨ ds.length = 1) (hfits : Text.Digits.value ds < 2 ^ (63 : ℕ)) :
    (⟨key, before, after, ds, .integer (Text.Digits.value ds)⟩ : Line).IsSpelt where
  key_ne_nil := hkey_ne
  key_chars := hkey
  before_blank := hbefore
  after_blank := hafter
  run_ne_nil := hne
  run_chars c hc := isRunChar_of_isDigit (hds c hc)
  value_eq := scalarOf?_digits hds hne hzero hfits

/-- The line `id = 12`. -/
example : (⟨['i', 'd'], [' '], [' '], ['1', '2'], .integer 12⟩ : Line).IsSpelt :=
  Line.isSpelt_digits nofun (List.all_eq_true.mp rfl) (List.all_eq_true.mp rfl)
    (List.all_eq_true.mp rfl) nofun (List.all_eq_true.mp rfl) (.inl (by decide)) (by decide)

/-! ### Steps of the reader -/

variable {r : Reading} {steps : Nat} {rest : List Char}

/-- **A line** is read for its entry, whatever follows it. -/
theorem valueLine?_text {l : Line} (h : l.IsSpelt) :
    valueLine? r (l.text ++ rest) =
      (enter .header (insertValue [] l.entry.1 l.entry.2) r.header r.document).map fun document =>
        (⟨document, r.header⟩, rest) := by
  have htext : l.text ++ rest =
      l.key ++ (l.before ++ '=' :: (l.after ++ (l.run ++ '\n' :: rest))) := by
    simp only [Line.text, List.append_assoc, List.cons_append, List.nil_append]
  have hkey := key?_append h.key_ne_nil h.key_chars l.before h.before_blank
    (show isKeyChar '=' = false from rfl) rfl (by decide) (l.after ++ (l.run ++ '\n' :: rest))
  have hequals : equals? ('=' :: (l.after ++ (l.run ++ '\n' :: rest))) =
      some (l.run ++ '\n' :: rest) :=
    congrArg some (skipSpaces_append h.after_blank
      (isSpace_of_mem_head? h.run_ne_nil h.run_chars))
  have hvalue := value?_append h.run_ne_nil h.run_chars h.value_eq (depthLimit - 1) rest
  rw [valueLine?, htext, hkey]
  dsimp only [bind, Option.bind]
  rw [hequals]
  dsimp only
  rw [hvalue]
  dsimp only [Line.entry]
  cases enter .header (insertValue [] (String.ofList l.key) (.scalar l.value)) r.header
    r.document <;> rfl

/-- What begins with a key is read as a key with its value. -/
theorem linesUpTo?_of_isKeyChar {c : Char} {cs : List Char} (hc : isKeyChar c = true) :
    linesUpTo? (steps + 1) r (c :: cs) =
      (valueLine? r (c :: cs)).bind fun line => linesUpTo? steps line.1 line.2 := by
  have hrun := isRunChar_of_isKeyChar hc
  have hskip : skipSpaces (c :: cs) = c :: cs :=
    List.dropWhile_cons_of_neg (Bool.not_eq_true _ ▸ isSpace_of_isRunChar hrun)
  rw [linesUpTo?, hskip]
  dsimp only
  split
  · next heq => exact absurd (List.cons.inj heq).1 (ne_of_isRunChar hrun rfl)
  · next heq => exact absurd (List.cons.inj heq).1 (ne_of_isRunChar hrun rfl)
  · next heq => exact absurd (List.cons.inj heq).1 (ne_of_isRunChar hrun rfl)
  · next heq => exact absurd (List.cons.inj heq).1 (ne_of_isRunChar hrun rfl)
  · rfl

/-- **One line** is one step, which adds its entry under the last header. -/
theorem linesUpTo?_text {l : Line} (h : l.IsSpelt) :
    linesUpTo? (steps + 1) r (l.text ++ rest) =
      (enter .header (insertValue [] l.entry.1 l.entry.2) r.header r.document).bind fun document =>
        linesUpTo? steps ⟨document, r.header⟩ rest := by
  obtain ⟨c, cs, htext, hc⟩ := h.exists_eq_cons rest
  rw [htext, linesUpTo?_of_isKeyChar hc, ← htext, valueLine?_text h, Option.bind_map]
  rfl

/-- A header is one step too. -/
theorem linesUpTo?_header {cs : List Char} :
    linesUpTo? (steps + 1) r ('[' :: cs) =
      (headerLine? r cs).bind fun line => linesUpTo? steps line.1 line.2 := by
  have hskip : skipSpaces ('[' :: cs) = '[' :: cs := rfl
  rw [linesUpTo?, hskip]
  rfl

/-- **A header** of one part gives an empty document a table. -/
theorem headerLine?_empty {name : List Char} (hne : name ≠ [])
    (hname : ∀ c ∈ name, isKeyChar c = true) :
    headerLine? ⟨.empty, []⟩ (name ++ ']' :: '\n' :: rest) =
      some (⟨⟨.given, [(String.ofList name, .table .given [])]⟩, [String.ofList name]⟩, rest) := by
  have hkey := key?_append hne hname [] nofun (show isKeyChar ']' = false from rfl) rfl
    (by decide) ('\n' :: rest)
  rw [List.nil_append] at hkey
  unfold headerLine?
  split
  · next heq =>
    -- the key begins no second bracket
    obtain ⟨c, cs, rfl⟩ := List.exists_cons_of_ne_nil hne
    have hc := isRunChar_of_isKeyChar (hname c List.mem_cons_self)
    exact absurd (List.cons.inj heq).1 (ne_of_isRunChar hc rfl)
  · rw [hkey]
    rfl

/-! ### Documents -/

/-- **Lines with different keys** add their entries to a document that grows, entry by entry, under
the last header. -/
theorem linesUpTo?_lines {header : List String} (documentOf : Entries → Table)
    (hgrow : ∀ (entries : Entries) (key : String) (node : Node), key ∉ entries.map Prod.fst →
      enter .header (insertValue [] key node) header (documentOf entries) =
        some (documentOf (entries ++ [(key, node)])))
    {lines : List Line} (hspelt : ∀ l ∈ lines, l.IsSpelt) (entries : Entries)
    (hkeys : ((entries ++ lines.map Line.entry).map Prod.fst).Nodup) :
    linesUpTo? (steps + lines.length) ⟨documentOf entries, header⟩ (lines.flatMap Line.text) =
      some (documentOf (entries ++ lines.map Line.entry)) := by
  induction lines generalizing entries with
  | nil =>
    rw [List.map_nil, List.append_nil]
    unfold linesUpTo?
    rfl
  | cons l lines ih =>
    obtain ⟨hl, hlines⟩ := List.forall_mem_cons.mp hspelt
    rw [List.map_cons, List.append_cons] at hkeys ⊢
    have hnew : l.entry.1 ∉ entries.map Prod.fst := by
      rw [List.map_append, List.map_append] at hkeys
      have hdisjoint := List.disjoint_of_nodup_append (List.Nodup.of_append_left hkeys)
      exact fun hmem => hdisjoint hmem List.mem_cons_self
    rw [List.flatMap_cons, List.length_cons, ← Nat.add_assoc, linesUpTo?_text hl,
      hgrow entries _ _ hnew]
    exact ih hlines _ hkeys

/-- There are no more lines than characters. -/
theorem length_le_length_text (lines : List Line) :
    lines.length ≤ (lines.flatMap Line.text).length := by
  induction lines with
  | nil => exact Nat.zero_le 0
  | cons l lines ih =>
    have hline : 1 ≤ l.text.length := by
      simp only [Line.text, List.length_append, List.length_cons]
      omega
    rw [List.flatMap_cons, List.length_append, List.length_cons]
    omega

/-- An entry under a new key, at the end of a table that is not a dotted one. -/
theorem insertValue_eq_some {t : Table} (horigin : t.origin ≠ .dotted) {key : String}
    (hkey : key ∉ t.entries.map Prod.fst) (node : Node) :
    insertValue [] key node t = some (t.add key node) := by
  have hfree : (t.get? key).isNone = true :=
    Option.isNone_iff_eq_none.mpr (Table.get?_eq_none_iff.mpr hkey)
  rw [insertValue, enter, if_pos]
  exact ⟨iff_of_false horigin (fun h => h rfl), hfree⟩

/-- What begins with no byte-order mark is read from its start. -/
theorem skipByteOrderMark_of_isRunChar {c : Char} {cs : List Char} (hc : isRunChar c = true) :
    skipByteOrderMark (c :: cs) = c :: cs := by
  unfold skipByteOrderMark
  split
  · next heq => exact absurd (List.cons.inj heq).1 (ne_of_isRunChar hc rfl)
  · rfl

theorem nodup_keys {lines : List Line} (hkeys : (lines.map Line.key).Nodup) :
    ((lines.map Line.entry).map Prod.fst).Nodup := by
  have hmap : (lines.map Line.entry).map Prod.fst = (lines.map Line.key).map String.ofList := by
    rw [List.map_map, List.map_map]
    rfl
  rw [hmap]
  exact hkeys.map fun _ _ => String.ofList_inj.mp

variable {lines : List Line} (hspelt : ∀ l ∈ lines, l.IsSpelt)
  (hkeys : (lines.map Line.key).Nodup)

include hspelt hkeys

/-- **A file of plain lines** with different keys is the document of their entries. -/
theorem read?_lines :
    read? (lines.flatMap Line.text) = some ⟨.given, lines.map Line.entry⟩ := by
  have hmark : skipByteOrderMark (lines.flatMap Line.text) = lines.flatMap Line.text := by
    cases lines with
    | nil => rfl
    | cons l lines =>
      obtain ⟨c, cs, htext, hc⟩ :=
        (hspelt l List.mem_cons_self).exists_eq_cons (lines.flatMap Line.text)
      rw [List.flatMap_cons, htext, skipByteOrderMark_of_isRunChar (isRunChar_of_isKeyChar hc)]
  have hsteps : (lines.flatMap Line.text).length + 1 =
      (lines.flatMap Line.text).length + 1 - lines.length + lines.length := by
    have hle := length_le_length_text lines
    omega
  have hgrow (entries : Entries) (key : String) (node : Node) (hkey : key ∉ entries.map Prod.fst) :
      enter .header (insertValue [] key node) [] ⟨.given, entries⟩ =
        some ⟨.given, entries ++ [(key, node)]⟩ :=
    insertValue_eq_some (t := ⟨.given, entries⟩) nofun hkey node
  rw [read?, hmark, hsteps]
  exact linesUpTo?_lines (Table.mk .given) hgrow hspelt [] (nodup_keys hkeys)

/-- **Plain lines under a header** are a table with their entries. -/
theorem read?_header_lines (name : List Char) (hne : name ≠ [])
    (hname : ∀ c ∈ name, isKeyChar c = true) :
    read? ('[' :: (name ++ ']' :: '\n' :: lines.flatMap Line.text)) =
      some ⟨.given, [(String.ofList name, .table .given (lines.map Line.entry))]⟩ := by
  have hsteps : ('[' :: (name ++ ']' :: '\n' :: lines.flatMap Line.text)).length + 1 =
      (name.length + (lines.flatMap Line.text).length - lines.length + 3) + lines.length + 1 := by
    have hle := length_le_length_text lines
    simp only [List.length_cons, List.length_append]
    omega
  have hgrow (entries : Entries) (key : String) (node : Node) (hkey : key ∉ entries.map Prod.fst) :
      enter .header (insertValue [] key node) [String.ofList name]
          ⟨.given, [(String.ofList name, .table .given entries)]⟩ =
        some ⟨.given, [(String.ofList name, .table .given (entries ++ [(key, node)]))]⟩ := by
    have hinsert := insertValue_eq_some (t := ⟨.given, entries⟩) nofun hkey node
    simp only [enter, Table.get?, List.lookup_cons, BEq.rfl, Route.mayEnter, if_true, hinsert,
      Option.map_some, Table.replace, List.map_cons, List.map_nil]
    rfl
  rw [read?]
  change linesUpTo? (('[' :: _).length + 1) _ ('[' :: _) = _
  rw [hsteps, linesUpTo?_header, headerLine?_empty hne hname]
  exact linesUpTo?_lines (fun entries => ⟨.given, [(String.ofList name, .table .given entries)]⟩)
    hgrow hspelt [] (nodup_keys hkeys)

end MixedWorkload.Toml
