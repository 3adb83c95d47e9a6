import MixedWorkload.CommandLine.Program
import MixedWorkload.Proofs.Files
import MixedWorkload.Proofs.Results
import MixedWorkload.Proofs.Text.Splitting

/-!
# What is written can be read

A file that is written at a path is found there again. Writing takes the last part of a path for a
name and follows the others, and reading follows all of them; when the last part is a name, both
come to the same place (`MixedWorkload.Store.write_of_endsIn`), and at no other path anything is
written. What is put at that place makes no difference to where paths lead, so whatever was written
can be read (`MixedWorkload.Store.read_of_write`).

What is written under another name goes to another place. So after a list of files with different
names was written into a directory, every one of them can be read and has the contents it was given
(`MixedWorkload.Store.read_of_writeFiles`).
-/

namespace MixedWorkload

/-! ### Names in paths -/

/-- **A path ends in a name**, the last one of its parts, under which there can be a file. -/
structure Path.EndsIn (path name : String) : Prop where
  /-- It is the last part. -/
  exists_parts : ∃ parts, path.splitOn "/" = parts ++ [name]
  /-- It stands for something. -/
  isIdle_eq : isIdle name = false
  /-- It does not lead up. -/
  ne_dots : name ≠ ".."
  /-- No slash is behind it. -/
  endsInSlash_eq : endsInSlash path = false

/-- A text that names a file in a directory. -/
structure Path.IsName (name : String) : Prop where
  /-- No slash is in it. -/
  notMem : '/' ∉ name.toList
  /-- It stands for something. -/
  isIdle_eq : isIdle name = false
  /-- It does not lead up. -/
  ne_dots : name ≠ ".."

namespace Path

section IsName

variable {name : String} (h : IsName name) (directory : String)

include h

theorem IsName.ne_empty : name ≠ "" := by
  rintro rfl
  exact absurd h.isIdle_eq (by decide)

omit h in
/-- A path into a directory ends in a slash and the name. -/
theorem toList_join (name : String) :
    ∃ front, (join directory name).toList = front ++ '/' :: name.toList := by
  unfold join endsInSlash
  split
  · next hslash =>
    rw [beq_iff_eq, List.getLast?_eq_some_iff] at hslash
    obtain ⟨front, hfront⟩ := hslash
    exact ⟨front, by simp [hfront]⟩
  · exact ⟨directory.toList, by simp⟩

/-- **The last part of a path** into a directory is the name. -/
theorem splitOn_join : ∃ parts, (join directory name).splitOn "/" = parts ++ [name] := by
  obtain ⟨front, hfront⟩ := toList_join directory name
  have hslash : "/" = String.singleton '/' := rfl
  rw [hslash, Text.splitOn_singleton, hfront, List.splitOn_append_cons_self,
    List.splitOn_eq_singleton h.notMem, List.map_append, List.map_singleton, String.ofList_toList]
  exact ⟨_, rfl⟩

/-- The parts of a path into a directory that is given by its name. -/
theorem splitOn_join_of_notMem (hdirectory : '/' ∉ directory.toList) :
    (join directory name).splitOn "/" = [directory, name] := by
  have hslash : "/" = String.singleton '/' := rfl
  have hend : ¬endsInSlash directory = true := by
    rw [endsInSlash, beq_iff_eq]
    exact fun hlast => hdirectory (List.mem_of_getLast? hlast)
  have htext : (directory ++ "/" ++ name).toList =
      directory.toList ++ '/' :: name.toList := by
    simp
  rw [join, if_neg hend, hslash, Text.splitOn_singleton, ← hslash, htext,
    List.splitOn_append_cons_self_of_not_mem hdirectory, List.splitOn_eq_singleton h.notMem,
    List.map_cons, List.map_singleton, String.ofList_toList, String.ofList_toList]

theorem endsInSlash_join : endsInSlash (join directory name) = false := by
  obtain ⟨front, hfront⟩ := toList_join directory name
  have hne : name.toList ≠ [] := fun hnil => h.ne_empty (String.toList_inj.mp hnil)
  rw [endsInSlash, hfront, List.getLast?_append_of_ne_nil _ (List.cons_ne_nil _ _),
    List.getLast?_cons, List.getLast?_eq_some_getLast hne, Option.getD_some, beq_eq_false_iff_ne]
  intro hlast
  exact h.notMem (Option.some.inj hlast ▸ List.getLast_mem hne)

/-- **A path into a directory** ends in the name. -/
theorem IsName.endsIn_join : EndsIn (join directory name) name where
  exists_parts := splitOn_join h directory
  isIdle_eq := h.isIdle_eq
  ne_dots := h.ne_dots
  endsInSlash_eq := endsInSlash_join h directory

end IsName

/-- **The last part of a path** is empty only for paths that are empty or end in a slash. -/
theorem exists_splitOn_eq {path : String} (hne : path ≠ "") (hend : endsInSlash path = false) :
    ∃ parts last, path.splitOn "/" = parts ++ [last] ∧ last ≠ "" := by
  have hslash : "/" = String.singleton '/' := rfl
  by_cases hmem : '/' ∈ path.toList
  · -- the last slash of the path is the first one from behind
    obtain ⟨last, front, hback, hnot⟩ := List.eq_append_cons_of_mem (List.mem_reverse.mpr hmem)
    have htext : path.toList = front.reverse ++ '/' :: last.reverse := by
      rw [← List.reverse_reverse path.toList, hback]
      simp
    refine ⟨(front.reverse.splitOn '/').map String.ofList, String.ofList last.reverse, ?_, ?_⟩
    · rw [hslash, Text.splitOn_singleton, htext, List.splitOn_append_cons_self,
        List.splitOn_eq_singleton (mt List.mem_reverse.mp hnot), List.map_append,
        List.map_singleton]
    · intro hempty
      obtain rfl : last = [] := by
        simpa using congrArg String.toList hempty
      rw [endsInSlash, htext, List.reverse_nil, List.getLast?_concat] at hend
      exact absurd hend (by decide)
  · exact ⟨[], path, Text.splitOn_singleton_of_notMem hmem, hne⟩

end Path

namespace Store

variable {s t : Store} {path directory name : String} {location place : Location}
  {contents : List UInt8}

/-! ### Actions that succeed -/

section Succeeding

variable {ε ε' α β : Type} {a : α} {b : β}

/-- **Two actions** succeed together if the first does, and the second from the store that the
first leaves. -/
theorem bind_apply_eq_ok_iff {x : ExceptT ε (StateM Store) α}
    {f : α → ExceptT ε (StateM Store) β} :
    (x >>= f) s = (.ok b, t) ↔ ∃ a u, x s = (.ok a, u) ∧ f a u = (.ok b, t) := by
  rw [bind_apply]
  rcases x s with ⟨cause | a, u⟩
  · constructor
    · intro h
      cases h
    · rintro ⟨_, _, h, -⟩
      cases h
  · constructor
    · intro h
      exact ⟨a, u, rfl, h⟩
    · rintro ⟨_, _, h, hf⟩
      cases h
      exact hf

theorem adapt_apply_eq_ok_iff {f : ε → ε'} {x : ExceptT ε (StateM Store) α} :
    (x.adapt f) s = (.ok a, t) ↔ x s = (.ok a, t) := by
  rw [adapt_apply]
  rcases x s with ⟨cause | a', u⟩
  · constructor <;> intro h <;> cases h
  · constructor <;> intro h <;> cases h <;> rfl

theorem writeFile_eq_ok_iff {u : Unit} :
    (FileSystem.writeFile path contents : ExceptT FileError (StateM Store) Unit) s = (.ok u, t) ↔
      s.write path contents = .ok t := by
  change act (·.write path contents) s = _ ↔ _
  rw [act]
  rcases s.write path contents with cause | next
  · constructor <;> intro h <;> cases h
  · constructor <;> intro h <;> cases h <;> rfl

/-- **A directory that can be made** is made, and those above it are not looked at. -/
theorem ensureDirectories_of_makeDirectory {above : List String}
    (h : s.makeDirectory path = .ok t) :
    (ensureDirectories (path :: above) : ExceptT FileError (StateM Store) Unit) s =
      (.ok (), t) := by
  have hmake : (FileSystem.makeDirectory path : ExceptT FileError (StateM Store) Unit) s =
      (.ok (), t) := by
    change act (·.makeDirectory path) s = _
    rw [act, h]
  have hensure : (ensureDirectory path : ExceptT FileError (StateM Store) Unit) s =
      (.ok (), t) := by
    rw [ensureDirectory, tryCatch_apply, hmake]
  rw [ensureDirectories, tryCatch_apply, hensure]

end Succeeding

/-! ### Where a path leads -/

@[simp] theorem isDirectory_put (s : Store) (other place : Location) (contents : List UInt8) :
    (s.put other contents).isDirectory place = s.isDirectory place := rfl

/-- A place is entered if it is a directory. -/
theorem enter_eq_ok_iff : s.enter location = .ok place ↔
    place = location ∧ s.isDirectory location = true := by
  unfold enter exists?
  cases hdirectory : s.isDirectory location <;> cases (s.contents? location).isSome <;>
    simp [eq_comm]

theorem step_put {part : String} (h : s.step location part = .ok place) (other : Location)
    (contents : List UInt8) : (s.put other contents).step location part = .ok place := by
  obtain ⟨above, henter, hpart⟩ := bind_eq_ok_iff.mp h
  refine bind_eq_ok_iff.mpr ⟨above, ?_, hpart⟩
  rwa [enter_eq_ok_iff, isDirectory_put, ← enter_eq_ok_iff]

theorem follow_put {parts : List String} (h : s.follow location parts = .ok place)
    (other : Location) (contents : List UInt8) :
    (s.put other contents).follow location parts = .ok place := by
  induction parts generalizing location with
  | nil => exact h
  | cons part parts ih =>
    rw [follow, List.foldlM_cons] at h ⊢
    obtain ⟨next, hstep, hrest⟩ := bind_eq_ok_iff.mp h
    exact bind_eq_ok_iff.mpr ⟨next, step_put hstep other contents, ih hrest⟩

/-- **A new file does not change where paths lead.** -/
theorem locate_put (h : s.locate path = .ok place) (other : Location) (contents : List UInt8) :
    (s.put other contents).locate path = .ok place := by
  obtain ⟨start, horigin, hfollow⟩ := bind_eq_ok_iff.mp h
  exact bind_eq_ok_iff.mpr ⟨start, horigin, follow_put hfollow other contents⟩

/-! ### Contents of places -/

theorem contents?_put_self : (s.put location contents).contents? location = some contents := by
  have hnone : (s.files.filter fun file => file.1 != location).lookup location = none :=
    List.lookup_eq_none_iff.mpr fun file hfile => by
      simpa [bne_comm] using (List.mem_filter.mp hfile).2
  rw [contents?, put, List.lookup_append, hnone, Option.none_or, List.lookup_cons_self]

theorem contents?_put_of_ne (h : place ≠ location) :
    (s.put location contents).contents? place = s.contents? place := by
  have hlast : [(location, contents)].lookup place = none := by
    rw [List.lookup_cons, beq_eq_false_iff_ne.mpr h, List.lookup_nil]
  have hkept : (s.files.filter fun file => file.1 != location).lookup place =
      s.files.lookup place := by
    induction s.files with
    | nil => rfl
    | cons file files ih =>
      by_cases hfile : file.1 = location
      · have hne : ¬(file.1 != location) = true := by simpa using hfile
        have hplace : (place == file.1) = false := beq_eq_false_iff_ne.mpr (hfile ▸ h)
        rw [List.filter_cons, if_neg hne, ih, List.lookup_cons, hplace]
      · have hne : (file.1 != location) = true := by simpa using hfile
        rw [List.filter_cons, if_pos hne, List.lookup_cons, List.lookup_cons, ih]
  rw [contents?, put, List.lookup_append, hlast, Option.or_none, hkept, contents?]

/-- **A file is read** where its path leads, if no directory is there. -/
theorem read_eq_ok_iff : s.read path = .ok contents ↔ ∃ location,
    s.locate path = .ok location ∧ s.isDirectory location = false ∧
      s.contents? location = some contents := by
  refine bind_eq_ok_iff.trans (exists_congr fun location => and_congr_right fun _ => ?_)
  cases s.isDirectory location <;> cases s.contents? location <;> simp [pure, Except.pure]

/-! ### Names at the end of paths -/

section EndsIn

variable (h : Path.EndsIn path name)

include h

/-- **A path that ends in a name** leads to a place of that name. -/
theorem locate_of_endsIn : ∃ parts, path.splitOn "/" = parts ++ [name] ∧
    ∀ s : Store, s.locate path = (do
      let above ← s.enter (← s.follow (← s.origin path) parts)
      child above name) := by
  obtain ⟨parts, hparts⟩ := h.exists_parts
  refine ⟨parts, hparts, fun s => ?_⟩
  have hlast (above : Location) : s.step above name = (do
      let above ← s.enter above
      child above name) := by
    simp only [step, h.isIdle_eq, h.ne_dots, Bool.false_eq_true, if_false]
  simp only [locate, follow, hparts, List.foldlM_append, List.foldlM_cons, List.foldlM_nil,
    bind_pure, hlast]

/-- The place has that name. -/
theorem getLast?_of_locate (hlocate : s.locate path = .ok location) :
    location.getLast? = some name := by
  obtain ⟨parts, -, hpath⟩ := locate_of_endsIn h
  rw [hpath] at hlocate
  obtain ⟨_, -, hlocate⟩ := bind_eq_ok_iff.mp hlocate
  obtain ⟨_, -, hlocate⟩ := bind_eq_ok_iff.mp hlocate
  obtain ⟨above, -, hchild⟩ := bind_eq_ok_iff.mp hlocate
  unfold child at hchild
  split at hchild
  · cases hchild
  · rw [← Except.ok.inj hchild, List.getLast?_concat]

/-- **Writing under a name** comes to the place where reading looks for it. -/
theorem write_of_endsIn (s : Store) (contents : List UInt8) : s.write path contents = (do
    let location ← s.locate path
    if s.isDirectory location then throw .isADirectory
    else return s.put location contents) := by
  obtain ⟨parts, hparts, hlocate⟩ := locate_of_endsIn h
  have hidle := h.isIdle_eq
  rw [Path.isIdle, Bool.or_eq_false_iff, beq_eq_false_iff_ne, beq_eq_false_iff_ne] at hidle
  have hreverse : (path.splitOn "/").reverse.dropWhile (· == "") = name :: parts.reverse := by
    have hne : ¬(name == "") = true := by
      rw [beq_iff_eq]
      exact hidle.1
    rw [hparts, List.reverse_append, List.reverse_singleton, List.singleton_append]
    exact List.dropWhile_cons_of_neg hne
  have hdots : ¬(name = "." ∨ name = "..") := not_or.mpr ⟨hidle.2, h.ne_dots⟩
  have htarget : s.target path = (do
      let above ← s.enter (← s.follow (← s.origin path) parts)
      return .name above name false) := by
    simp only [target, hreverse, List.reverse_reverse, if_neg hdots, h.endsInSlash_eq]
  simp only [write, htarget, hlocate, bind_assoc, pure_bind]

/-- What is written under a name is put where its path leads. -/
theorem write_eq_ok_iff : s.write path contents = .ok t ↔ ∃ location,
    s.locate path = .ok location ∧ s.isDirectory location = false ∧
      t = s.put location contents := by
  rw [write_of_endsIn h]
  refine bind_eq_ok_iff.trans (exists_congr fun location => and_congr_right fun _ => ?_)
  cases s.isDirectory location <;> simp [pure, Except.pure, eq_comm]

end EndsIn

/-- What something is made under, if it can be a file, is the name that the path ends in. -/
theorem endsIn_of_target {directory : Location}
    (h : s.target path = .ok (.name directory name false)) : Path.EndsIn path name := by
  obtain ⟨start, horigin, h⟩ := bind_eq_ok_iff.mp h
  have hne : path ≠ "" := by
    rintro rfl
    cases horigin
  split at h
  · cases h
  · next last above hsplit =>
    obtain ⟨_, -, h⟩ := bind_eq_ok_iff.mp h
    obtain ⟨_, -, h⟩ := bind_eq_ok_iff.mp h
    split at h
    · obtain ⟨_, -, h⟩ := bind_eq_ok_iff.mp h
      cases h
    · next hdots =>
      obtain ⟨-, rfl, hend⟩ := Target.name.inj (Except.ok.inj h)
      obtain ⟨hdot, hdots⟩ := not_or.mp hdots
      obtain ⟨parts, last, hparts, hlast⟩ := Path.exists_splitOn_eq hne hend
      -- nothing was dropped, as the last part is not empty
      have hreverse : (path.splitOn "/").reverse.dropWhile (· == "") =
          last :: parts.reverse := by
        rw [hparts, List.reverse_append, List.reverse_singleton, List.singleton_append]
        exact List.dropWhile_cons_of_neg (by rwa [beq_iff_eq])
      obtain ⟨rfl, -⟩ := List.cons.inj (hsplit.symm.trans hreverse)
      refine ⟨⟨parts, hparts⟩, ?_, hdots, hend⟩
      rw [Path.isIdle, Bool.or_eq_false_iff, beq_eq_false_iff_ne, beq_eq_false_iff_ne]
      exact ⟨hlast, hdot⟩

/-- **Files are written under names only**, those that their paths end in. -/
theorem exists_endsIn_of_write (h : s.write path contents = .ok t) :
    ∃ name, Path.EndsIn path name := by
  obtain ⟨target, htarget, hwrite⟩ := bind_eq_ok_iff.mp h
  cases target with
  | directory location => cases hwrite
  | name directory name slash =>
    cases slash with
    | true => cases hwrite
    | false => exact ⟨name, endsIn_of_target htarget⟩

/-- **What was written is read.** -/
theorem read_of_write (h : s.write path contents = .ok t) : t.read path = .ok contents := by
  obtain ⟨name, hname⟩ := exists_endsIn_of_write h
  obtain ⟨location, hlocate, hdirectory, rfl⟩ := (write_eq_ok_iff hname).mp h
  exact read_eq_ok_iff.mpr ⟨location, locate_put hlocate location contents, hdirectory,
    contents?_put_self⟩

/-- **What was there before is still read** after something was written under another name. -/
theorem read_of_write_of_ne {other otherName : String} {more : List UInt8}
    (h : Path.EndsIn path name) (hother : Path.EndsIn other otherName) (hne : name ≠ otherName)
    (hread : s.read path = .ok contents) (hwrite : s.write other more = .ok t) :
    t.read path = .ok contents := by
  obtain ⟨place, hplace, -, rfl⟩ := (write_eq_ok_iff hother).mp hwrite
  obtain ⟨location, hlocate, hdirectory, hcontents⟩ := read_eq_ok_iff.mp hread
  have hplaces : location ≠ place := by
    rintro rfl
    have hname := getLast?_of_locate h hlocate
    rw [getLast?_of_locate hother hplace] at hname
    exact hne (Option.some.inj hname).symm
  refine read_eq_ok_iff.mpr ⟨location, locate_put hlocate place more, hdirectory, ?_⟩
  rw [contents?_put_of_ne hplaces, hcontents]

/-- **A store takes a file** at a path that leads to a place where no directory is. -/
def Takes (s : Store) (path : String) : Prop :=
  ∃ location, s.locate path = .ok location ∧ s.isDirectory location = false

/-- In particular at a path of two parts, which are followed from where the path starts. -/
theorem takes_join {start : Location} (hdirectory : '/' ∉ directory.toList)
    (h : Path.IsName name) (horigin : s.origin (Path.join directory name) = .ok start)
    (hfollow : s.follow start [directory, name] = .ok location)
    (hfree : s.isDirectory location = false) : s.Takes (Path.join directory name) := by
  refine ⟨location, bind_eq_ok_iff.mpr ⟨start, horigin, ?_⟩, hfree⟩
  rw [Path.splitOn_join_of_notMem h directory hdirectory]
  exact hfollow

theorem takes_put (h : s.Takes path) (other : Location) (contents : List UInt8) :
    (s.put other contents).Takes path := by
  obtain ⟨location, hlocate, hdirectory⟩ := h
  exact ⟨location, locate_put hlocate other contents, hdirectory⟩

/-! ### Files in a directory -/

section Files

open CommandLine

variable {files : List (String × String)} {file : String × String} {paths : List String}

/-- **One file and the others**: the files are written one after the other. -/
theorem writeFiles_cons_eq_ok_iff :
    (writeFiles directory (file :: files) : ExceptT FileError (StateM Store) _) s =
        (.ok paths, t) ↔
      ∃ next rest, s.write (Path.join directory file.1) (Text.Utf8.encode file.2) = .ok next ∧
        (writeFiles directory files : ExceptT FileError (StateM Store) _) next = (.ok rest, t) ∧
        paths = Path.join directory file.1 :: rest := by
  rw [writeFiles, bind_apply_eq_ok_iff]
  constructor
  · rintro ⟨_, next, hfile, hfiles⟩
    obtain ⟨rest, u, hrest, hpaths⟩ := bind_apply_eq_ok_iff.mp hfiles
    cases hpaths
    exact ⟨next, rest, writeFile_eq_ok_iff.mp hfile, hrest, rfl⟩
  · rintro ⟨next, rest, hfile, hrest, rfl⟩
    exact ⟨(), next, writeFile_eq_ok_iff.mpr hfile,
      bind_apply_eq_ok_iff.mpr ⟨rest, t, hrest, rfl⟩⟩

/-- **Two lists of files** are written one after the other. -/
theorem writeFiles_append_eq_ok_iff {others : List (String × String)} :
    (writeFiles directory (files ++ others) : ExceptT FileError (StateM Store) _) s =
        (.ok paths, t) ↔
      ∃ first next rest,
        (writeFiles directory files : ExceptT FileError (StateM Store) _) s = (.ok first, next) ∧
        (writeFiles directory others : ExceptT FileError (StateM Store) _) next = (.ok rest, t) ∧
        paths = first ++ rest := by
  induction files generalizing s paths with
  | nil =>
    constructor
    · intro h
      exact ⟨[], s, paths, rfl, h, rfl⟩
    · rintro ⟨first, next, rest, hfirst, hrest, rfl⟩
      cases hfirst
      exact hrest
  | cons file files ih =>
    rw [List.cons_append, writeFiles_cons_eq_ok_iff]
    constructor
    · rintro ⟨u, more, hfile, hmore, rfl⟩
      obtain ⟨first, next, rest, hfirst, hrest, rfl⟩ := ih.mp hmore
      exact ⟨_, next, rest, writeFiles_cons_eq_ok_iff.mpr ⟨u, first, hfile, hfirst, rfl⟩, hrest,
        rfl⟩
    · rintro ⟨_, next, rest, hfiles, hrest, rfl⟩
      obtain ⟨u, first, hfile, hfirst, rfl⟩ := writeFiles_cons_eq_ok_iff.mp hfiles
      exact ⟨u, _, hfile, ih.mpr ⟨first, next, rest, hfirst, hrest, rfl⟩, rfl⟩

/-- Files that are written under other names leave a file as it is. -/
theorem read_of_writeFiles_of_notMem {name : String} (h : Path.IsName name)
    (hnames : ∀ file ∈ files, Path.IsName file.1) (hnot : name ∉ files.map Prod.fst)
    (hread : s.read (Path.join directory name) = .ok contents)
    (hwrite : (writeFiles directory files : ExceptT FileError (StateM Store) _) s =
      (.ok paths, t)) :
    t.read (Path.join directory name) = .ok contents := by
  induction files generalizing s paths with
  | nil =>
    obtain ⟨-, rfl⟩ := Prod.mk.inj hwrite
    exact hread
  | cons file files ih =>
    obtain ⟨next, rest, hfirst, hrest, -⟩ := writeFiles_cons_eq_ok_iff.mp hwrite
    rw [List.map_cons, List.mem_cons, not_or] at hnot
    exact ih (fun file hfile => hnames file (List.mem_cons_of_mem _ hfile)) hnot.2
      (read_of_write_of_ne (h.endsIn_join directory)
        ((hnames file List.mem_cons_self).endsIn_join directory) hnot.1 hread hfirst) hrest

/-- **Every file is read** after files with different names were written into a directory. -/
theorem read_of_writeFiles (hnames : ∀ file ∈ files, Path.IsName file.1)
    (hnodup : (files.map Prod.fst).Nodup)
    (hwrite : (writeFiles directory files : ExceptT FileError (StateM Store) _) s =
      (.ok paths, t)) :
    ∀ file ∈ files, t.read (Path.join directory file.1) = .ok (Text.Utf8.encode file.2) := by
  induction files generalizing s paths with
  | nil => exact fun file hfile => absurd hfile List.not_mem_nil
  | cons file files ih =>
    obtain ⟨next, rest, hfirst, hrest, -⟩ := writeFiles_cons_eq_ok_iff.mp hwrite
    rw [List.map_cons, List.nodup_cons] at hnodup
    rw [List.forall_mem_cons] at hnames ⊢
    exact ⟨read_of_writeFiles_of_notMem hnames.1 hnames.2 hnodup.1
      (read_of_write hfirst) hrest, ih hnames.2 hnodup.2 hrest⟩

/-- **Files are written** into a store that takes all of them. -/
theorem exists_writeFiles (hnames : ∀ file ∈ files, Path.IsName file.1)
    (htakes : ∀ file ∈ files, s.Takes (Path.join directory file.1)) :
    ∃ t, (writeFiles directory files : ExceptT FileError (StateM Store) _) s =
      (.ok (files.map fun file => Path.join directory file.1), t) := by
  induction files generalizing s with
  | nil => exact ⟨s, rfl⟩
  | cons file files ih =>
    rw [List.forall_mem_cons] at hnames htakes
    obtain ⟨location, hlocate, hdirectory⟩ := htakes.1
    have hrest : ∀ other ∈ files, (s.put location (Text.Utf8.encode file.2)).Takes
        (Path.join directory other.1) := fun other hother => takes_put (htakes.2 other hother) _ _
    obtain ⟨t, ht⟩ := ih hnames.2 hrest
    have hwrite : s.write (Path.join directory file.1) (Text.Utf8.encode file.2) =
        .ok (s.put location (Text.Utf8.encode file.2)) :=
      (write_eq_ok_iff (hnames.1.endsIn_join directory)).mpr ⟨location, hlocate, hdirectory, rfl⟩
    exact ⟨t, writeFiles_cons_eq_ok_iff.mpr ⟨_, _, hwrite, ht, rfl⟩⟩

end Files

end Store

end MixedWorkload
