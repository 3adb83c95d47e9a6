import MixedWorkload.Proofs.Csv.Finished

/-!
# Where records begin

A record remembers the place where its reading began, which need not be the place of its first
byte. Between the two there may be line ends that belong to no record: empty lines, and the line
feed of a pair whose carriage return has already ended the record before. So the bytes in front
of a record behind the first one fall into two parts, all up to the terminator of the record
before and a gap of further terminators (`MixedWorkload.Csv.Follows`), and the remembered place
is the one between the two parts.

That this holds of every record of a file is an invariant of the reader,
`MixedWorkload.Csv.Placed`. A byte is skipped, goes into the record that is being read, or ends
that record (`MixedWorkload.Csv.Scanner.moves_step`), and each of the three keeps the invariant.
-/

namespace MixedWorkload.Csv

variable {file front through gap : List UInt8} {n : ℕ} {place : Position} {byte : UInt8}

/-- **The place behind some bytes** of a file. -/
def placeBehind (front : List UInt8) : Position :=
  ⟨1 + front.count lineFeed, front.length⟩

theorem placeBehind_concat (front : List UInt8) (byte : UInt8) :
    placeBehind (front ++ [byte]) = (placeBehind front).advance byte := by
  by_cases h : byte = lineFeed
  · subst h
    simp [placeBehind, Position.advance, Nat.add_assoc]
  · simp [placeBehind, Position.advance, h]

/-- **The bytes in front of a record** that is not the first one of its file: all up to the
terminator of the record before, which has the position `n`, and a gap. -/
structure Follows (file through gap : List UInt8) (n : ℕ) : Prop where
  /-- The record before ends with the first part. -/
  endsRecord : EndsRecord through n
  /-- In the gap there are only terminators. -/
  isTerminator_gap : ∀ byte ∈ gap, isTerminator byte = true
  /-- Behind it is the first byte of the record, which is none. -/
  exists_first : ∃ byte rest, file = through ++ gap ++ byte :: rest ∧ isTerminator byte = false

/-- The terminator of a record stands at one place of a file. -/
theorem EndsRecord.eq_of_append {front' rest rest' : List UInt8}
    (h : EndsRecord front n) (h' : EndsRecord front' n) (heq : front ++ rest = front' ++ rest') :
    front = front' := by
  wlog hle : front.length ≤ front'.length generalizing front front' rest rest'
  · exact (this h' h heq.symm (Nat.le_of_not_le hle)).symm
  obtain ⟨middle, hmiddle⟩ : front <+: front' :=
    List.prefix_of_prefix_length_le (heq ▸ List.prefix_append front rest)
      (List.prefix_append front' rest') hle
  rcases List.eq_nil_or_concat middle with rfl | ⟨middle, byte, rfl⟩
  · rw [← hmiddle, List.append_nil]
  · -- otherwise the record is finished before its terminator
    have hlength := h'.length_dropLast
    rw [← hmiddle, List.concat_eq_append, ← List.append_assoc, List.dropLast_concat] at hlength
    have hprefix := (finished_prefix_append front middle).length_le
    rw [h.length_eq, hlength] at hprefix
    exact absurd hprefix (Nat.not_succ_le_self n)

/-- What follows in a file does not change what is in front of a record. -/
theorem Follows.append (h : Follows file through gap n) (rest : List UInt8) :
    Follows (file ++ rest) through gap n := by
  obtain ⟨byte, rest', rfl, hfirst⟩ := h.exists_first
  refine ⟨h.endsRecord, h.isTerminator_gap, byte, rest' ++ rest, ?_, hfirst⟩
  rw [List.append_assoc, List.cons_append]

/-- A record follows the one with the position `n`, and its reading began at a place. -/
def FollowsAt (file : List UInt8) (n : ℕ) (place : Position) : Prop :=
  ∃ through gap, Follows file through gap n ∧ place = placeBehind through

/-- There is only one place where the reading of a record can have begun. -/
theorem FollowsAt.eq_placeBehind (h : FollowsAt file n place)
    (hfollows : Follows file through gap n) : place = placeBehind through := by
  obtain ⟨through', gap', hfollows', rfl⟩ := h
  obtain ⟨byte, rest, heq, -⟩ := hfollows.exists_first
  obtain ⟨byte', rest', heq', -⟩ := hfollows'.exists_first
  rw [heq, List.append_assoc, List.append_assoc] at heq'
  rw [hfollows.endsRecord.eq_of_append hfollows'.endsRecord heq']

theorem FollowsAt.append (h : FollowsAt file n place) (rest : List UInt8) :
    FollowsAt (file ++ rest) n place := by
  obtain ⟨through, gap, hfollows, hplace⟩ := h
  exact ⟨through, gap, hfollows.append rest, hplace⟩

/-- **Between two records**: the one with the position `n` has ended at a place, and nothing but
terminators came behind it. -/
def Between (front : List UInt8) (n : ℕ) (place : Position) : Prop :=
  ∃ through gap, front = through ++ gap ∧ EndsRecord through n ∧
    (∀ byte ∈ gap, isTerminator byte = true) ∧ place = placeBehind through

theorem Between.skip (h : Between front n place) (hterminator : isTerminator byte = true) :
    Between (front ++ [byte]) n place := by
  obtain ⟨through, gap, rfl, hends, hgap, hplace⟩ := h
  refine ⟨through, gap ++ [byte], List.append_assoc _ _ _, hends, ?_, hplace⟩
  intro b hb
  rcases List.mem_append.mp hb with hb | hb
  · exact hgap b hb
  · rwa [List.mem_singleton.mp hb]

theorem Between.begin (h : Between front n place) (hfirst : isTerminator byte = false) :
    FollowsAt (front ++ [byte]) n place := by
  obtain ⟨through, gap, rfl, hends, hgap, hplace⟩ := h
  exact ⟨through, gap, ⟨hends, hgap, byte, [], rfl, hfirst⟩, hplace⟩

/-! ### All bytes of a file -/

/-- **The places are right** at the end of a beginning of a file. -/
structure Placed (front : List UInt8) : Prop where
  /-- The reader knows where it is. -/
  here_eq : (scan front).here = placeBehind front
  /-- Between two records it knows where the one before ended. -/
  between : (scan front).mode = .betweenRecords → ∀ n, (finished front).length = n + 1 →
    Between front n (scan front).start
  /-- Within a record it knows where the one before ended. -/
  within : (scan front).mode ≠ .betweenRecords → ∀ n, (finished front).length = n + 1 →
    FollowsAt front n (scan front).start
  /-- And the finished records have kept it. -/
  remembered : ∀ n r, (finished front)[n + 1]? = some r → FollowsAt front n r.start

/-- Where no record is finished, there is nothing to know but where the reader is. -/
theorem placed_of_finished_eq_nil (hhere : (scan front).here = placeBehind front)
    (hnil : finished front = []) : Placed front where
  here_eq := hhere
  between _ n hlength := by
    rw [hnil] at hlength
    exact absurd hlength.symm (Nat.succ_ne_zero n)
  within _ n hlength := by
    rw [hnil] at hlength
    exact absurd hlength.symm (Nat.succ_ne_zero n)
  remembered n r hr := by
    rw [hnil, List.getElem?_nil] at hr
    cases hr

/-- What stands at a position of a list with one more element. -/
theorem getElem?_concat {α : Type*} {l : List α} {a b : α} {i : ℕ}
    (h : (l ++ [a])[i]? = some b) : l[i]? = some b ∨ l.length = i ∧ b = a := by
  rw [List.getElem?_append] at h
  split at h
  · exact Or.inl h
  · next hlength =>
    rw [List.getElem?_singleton] at h
    split at h
    · exact Or.inr ⟨by omega, (Option.some.inj h).symm⟩
    · cases h

section Step

variable (h : Placed front) (hstep : scan (front ++ [byte]) = (scan front).step byte)

include h hstep

theorem Placed.concat_skipped (hmode : (scan front).mode = .betweenRecords)
    (hterminator : isTerminator byte = true)
    (heq : (scan front).step byte = { scan front with here := (scan front).here.advance byte }) :
    Placed (front ++ [byte]) := by
  rw [heq] at hstep
  have hfinished : finished (front ++ [byte]) = finished front := by
    rw [finished, hstep, finished]
  constructor
  · rw [hstep, placeBehind_concat, ← h.here_eq]
  · intro _ n hlength
    rw [hstep]
    exact (h.between hmode n (hfinished ▸ hlength)).skip hterminator
  · intro hmode'
    rw [hstep] at hmode'
    exact absurd hmode hmode'
  · intro n r hr
    exact (h.remembered n r (hfinished ▸ hr)).append [byte]

theorem Placed.concat_within
    (hfirst : (scan front).mode = .betweenRecords → isTerminator byte = false)
    (hmode : ((scan front).step byte).mode ≠ .betweenRecords)
    (hstart : ((scan front).step byte).start = (scan front).start)
    (hhere : ((scan front).step byte).here = (scan front).here.advance byte)
    (hrecords : ((scan front).step byte).records = (scan front).records) :
    Placed (front ++ [byte]) := by
  have hfinished : finished (front ++ [byte]) = finished front := by
    rw [finished, hstep, hrecords, finished]
  constructor
  · rw [hstep, hhere, placeBehind_concat, ← h.here_eq]
  · intro hmode'
    rw [hstep] at hmode'
    exact absurd hmode' hmode
  · intro _ n hlength
    rw [hfinished] at hlength
    rw [hstep, hstart]
    by_cases hbetween : (scan front).mode = .betweenRecords
    · exact (h.between hbetween n hlength).begin (hfirst hbetween)
    · exact (h.within hbetween n hlength).append [byte]
  · intro n r hr
    exact (h.remembered n r (hfinished ▸ hr)).append [byte]

theorem Placed.concat_terminator (hmode : (scan front).mode ≠ .betweenRecords)
    (heq : (scan front).step byte =
      ({ scan front with here := (scan front).here.advance byte } : Scanner).endRecord) :
    Placed (front ++ [byte]) := by
  rw [heq] at hstep
  have hfinished : finished (front ++ [byte]) = finished front ++ [(scan front).record] := by
    rw [finished, hstep]
    exact List.reverse_cons
  have hhere : (scan front).here.advance byte = placeBehind (front ++ [byte]) := by
    rw [placeBehind_concat, h.here_eq]
  constructor
  · rw [hstep]
    exact hhere
  · intro _ n hlength
    refine ⟨front ++ [byte], [], (List.append_nil _).symm, ⟨hlength, ?_⟩, List.forall_mem_nil _, ?_⟩
    · rw [hfinished, List.length_append, List.length_singleton] at hlength
      rw [List.dropLast_concat]
      exact Nat.succ.inj hlength
    · rw [hstep]
      exact hhere
  · intro hmode'
    rw [hstep] at hmode'
    exact absurd rfl hmode'
  · intro n r hr
    rw [hfinished] at hr
    rcases getElem?_concat hr with hr | ⟨hlength, hr⟩
    · exact (h.remembered n r hr).append [byte]
    · -- the record that the byte has ended
      rw [hr]
      exact (h.within hmode n hlength).append [byte]

end Step

/-- **One more byte** keeps the places right. -/
theorem Placed.concat (h : Placed front) (byte : UInt8) : Placed (front ++ [byte]) := by
  by_cases hmark : front ++ [byte] = byteOrderMark
  · rw [hmark]
    exact placed_of_finished_eq_nil rfl rfl
  have hstep := scan_concat hmark
  rcases (scan front).moves_step byte with ⟨hmode, hterminator, heq⟩ |
    ⟨hfirst, hmode, hstart, hhere, hrecords⟩ | ⟨hmode, -, heq⟩
  · exact h.concat_skipped hstep hmode hterminator heq
  · exact h.concat_within hstep hfirst hmode hstart hhere hrecords
  · exact h.concat_terminator hstep hmode heq

/-- **The places are right** in every file. -/
theorem placed (file : List UInt8) : Placed file := by
  induction file using List.reverseRecOn with
  | nil => exact placed_of_finished_eq_nil rfl rfl
  | append_singleton front byte ih => exact ih.concat byte

/-- **A record remembers the place behind the terminator of the one before**, whatever empty
lines are between the two. -/
theorem followsAt_of_getElem?_records {r : Record} (hr : (records file)[n + 1]? = some r) :
    FollowsAt file n r.start := by
  have hplaced := placed file
  have hrecords : records file = (scan file).finish := rfl
  rw [hrecords, Scanner.finish] at hr
  split at hr
  · exact hplaced.remembered n r hr
  · next hmode =>
    rw [List.reverse_cons] at hr
    rcases getElem?_concat hr with hr | ⟨hlength, hr⟩
    · exact hplaced.remembered n r hr
    · -- the record that the end of the file has ended
      rw [hr]
      exact hplaced.within hmode n hlength

end MixedWorkload.Csv
