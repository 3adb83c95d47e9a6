import MixedWorkload.Files.Store
import Mathlib.Data.List.Basic

/-!
# What operations on files leave behind

On a store an action on files is a function: it takes a store and gives a result and the
store afterwards. `MixedWorkload.Store.bind_apply` and its companions say what the ways of
combining actions make of these functions, so that a program can be followed from store to
store.

Of the operations themselves only two things are needed. Making directories, even if it
fails halfway, adds directories and does nothing else
(`MixedWorkload.Store.grows_ensureDirectories`). And writing a file is decided by the path
alone, never by the contents: either it fails whatever is written and leaves the store as
it is, or it puts whatever is written at one place (`MixedWorkload.Store.write_cases`).
-/

namespace MixedWorkload

namespace Store

/-! ### Actions as functions -/

section Actions

variable {ε ε' α β : Type} {s t : Store}

theorem bind_state_apply (x : StateM Store α) (f : α → StateM Store β) :
    (x >>= f) s = f (x s).1 (x s).2 := rfl

theorem bind_apply (x : ExceptT ε (StateM Store) α) (f : α → ExceptT ε (StateM Store) β) :
    (x >>= f) s = match x s with
      | (.ok a, t) => f a t
      | (.error cause, t) => (.error cause, t) := by
  change (match x s with | (result, t) => ExceptT.bindCont f result t) = _
  rcases x s with ⟨_ | _, _⟩ <;> rfl

/-- **Actions that only read**: if they leave the store as it is and come to results, one
after the other does so too. -/
theorem bind_apply_of_reads {x : ExceptT ε (StateM Store) α}
    {f : α → ExceptT ε (StateM Store) β} {result : Except ε α} {next : α → Except ε β}
    (hx : x s = (result, s)) (hf : ∀ a, f a s = (next a, s)) :
    (x >>= f) s = (result >>= next, s) := by
  rw [bind_apply, hx]
  cases result with
  | error cause => rfl
  | ok a => exact hf a

theorem tryCatch_apply (x : ExceptT ε (StateM Store) α)
    (f : ε → ExceptT ε (StateM Store) α) :
    (tryCatch x f) s = match x s with
      | (.ok a, t) => (.ok a, t)
      | (.error cause, t) => f cause t := by
  change (match x s with | (result, t) => (match result with
    | .ok a => pure (.ok a)
    | .error cause => f cause : StateM Store (Except ε α)) t) = _
  rcases x s with ⟨_ | _, _⟩ <;> rfl

theorem adapt_apply (f : ε → ε') (x : ExceptT ε (StateM Store) α) :
    (x.adapt f) s = ((x s).1.mapError f, (x s).2) := rfl

end Actions

variable {s t u : Store}

/-! ### Making directories -/

/-- The second store is the first with more directories, and the same files. -/
def Grows (s t : Store) : Prop :=
  ∃ more, t = { s with directories := s.directories ++ more }

theorem Grows.refl (s : Store) : s.Grows s :=
  ⟨[], by rw [List.append_nil]⟩

theorem Grows.trans (hst : s.Grows t) (htu : t.Grows u) : s.Grows u := by
  obtain ⟨more, rfl⟩ := hst
  obtain ⟨others, rfl⟩ := htu
  exact ⟨more ++ others, by simp only [List.append_assoc]⟩

/-- **One directory**: what can be made is one more directory. -/
theorem grows_of_makeDirectory {path : String} (h : s.makeDirectory path = .ok t) :
    s.Grows t := by
  rcases htarget : s.target path with cause | target
  · simp [makeDirectory, htarget, bind, Except.bind] at h
  cases target with
  | directory location => simp [makeDirectory, htarget, bind, Except.bind] at h
  | name directory name slash =>
    rcases hchild : child directory name with cause | location
    · simp [makeDirectory, htarget, hchild, bind, Except.bind] at h
    · simp only [makeDirectory, htarget, hchild, bind, Except.bind] at h
      split at h
      · cases h
      · exact ⟨[location], (Except.ok.inj h).symm⟩

/-- An action on directories: whatever comes of it, at most directories were added. -/
def OnlyGrows {ε α : Type} (x : ExceptT ε (StateM Store) α) : Prop :=
  ∀ s : Store, s.Grows (x s).2

section OnlyGrows

variable {ε α β : Type} {x : ExceptT ε (StateM Store) α}

/-- An action that leaves the store as it is. -/
theorem OnlyGrows.of_eq (h : ∀ s, (x s).2 = s) : OnlyGrows x :=
  fun s => (h s).symm ▸ Grows.refl s

theorem OnlyGrows.bind {f : α → ExceptT ε (StateM Store) β} (hx : OnlyGrows x)
    (hf : ∀ a, OnlyGrows (f a)) : OnlyGrows (x >>= f) := by
  intro s
  have hgrows := hx s
  rw [bind_apply]
  rcases h : x s with ⟨cause | a, t⟩ <;> rw [h] at hgrows
  · exact hgrows
  · exact hgrows.trans (hf a t)

theorem OnlyGrows.tryCatch {f : ε → ExceptT ε (StateM Store) α} (hx : OnlyGrows x)
    (hf : ∀ cause, OnlyGrows (f cause)) : OnlyGrows (tryCatch x f) := by
  intro s
  have hgrows := hx s
  rw [tryCatch_apply]
  rcases h : x s with ⟨cause | a, t⟩ <;> rw [h] at hgrows
  · exact hgrows.trans (hf cause t)
  · exact hgrows

end OnlyGrows

theorem onlyGrows_makeDirectory (path : String) :
    OnlyGrows (FileSystem.makeDirectory path : ExceptT FileError (StateM Store) Unit) := by
  intro s
  change s.Grows (act (·.makeDirectory path) s).2
  unfold act
  split
  next t h => exact grows_of_makeDirectory h
  next cause h => exact Grows.refl s

theorem onlyGrows_ensureDirectory (path : String) :
    OnlyGrows (ensureDirectory path : ExceptT FileError (StateM Store) Unit) := by
  refine (onlyGrows_makeDirectory path).tryCatch fun cause => ?_
  refine OnlyGrows.bind (.of_eq fun _ => rfl) fun exists? => .of_eq fun s => ?_
  cases exists? <;> rfl

/-- **Many directories**: making a directory, and for want of them those above it, adds
directories at most. -/
theorem onlyGrows_ensureDirectories (paths : List String) :
    OnlyGrows (ensureDirectories paths : ExceptT FileError (StateM Store) Unit) := by
  induction paths with
  | nil => exact .of_eq fun _ => rfl
  | cons path above ih =>
    refine (onlyGrows_ensureDirectory path).tryCatch fun cause => ?_
    split
    · exact ih.bind fun _ => onlyGrows_ensureDirectory path
    · exact .of_eq fun _ => rfl

/-! ### Writing files -/

/-- **One file**: a path either takes no contents at all or takes any contents to the same
place. -/
theorem write_cases (s : Store) (path : String) :
    (∃ cause, ∀ contents, s.write path contents = .error cause) ∨
      ∃ location, ∀ contents, s.write path contents = .ok (s.put location contents) := by
  rcases htarget : s.target path with cause | target
  · exact .inl ⟨cause, fun contents => by rw [write, htarget]; rfl⟩
  cases target with
  | directory location =>
    exact .inl ⟨.isADirectory, fun contents => by rw [write, htarget]; rfl⟩
  | name directory name slash =>
    cases slash with
    | true => exact .inl ⟨.isADirectory, fun contents => by rw [write, htarget]; rfl⟩
    | false =>
      rcases hchild : child directory name with cause | location
      · exact .inl ⟨cause, fun contents => by
          simp only [write, htarget, hchild, bind, Except.bind]⟩
      · have hwrite (contents : List UInt8) : s.write path contents =
            if s.isDirectory location then throw .isADirectory
            else pure (s.put location contents) := by
          simp only [write, htarget, hchild, bind, Except.bind]
        cases hdirectory : s.isDirectory location with
        | true => exact .inl ⟨.isADirectory, fun contents => by rw [hwrite, hdirectory]; rfl⟩
        | false => exact .inr ⟨location, fun contents => by rw [hwrite, hdirectory]; rfl⟩

/-- The same, as an action: a failure leaves the store as it is. -/
theorem writeFile_cases (s : Store) (path : String) :
    (∃ cause, ∀ contents,
        (FileSystem.writeFile path contents : ExceptT FileError (StateM Store) Unit) s =
          (.error cause, s)) ∨
      ∃ location, ∀ contents,
        (FileSystem.writeFile path contents : ExceptT FileError (StateM Store) Unit) s =
          (.ok (), s.put location contents) := by
  rcases write_cases s path with ⟨cause, h⟩ | ⟨location, h⟩
  · refine .inl ⟨cause, fun contents => ?_⟩
    change act (·.write path contents) s = _
    rw [act, h]
  · refine .inr ⟨location, fun contents => ?_⟩
    change act (·.write path contents) s = _
    rw [act, h]

end Store

end MixedWorkload
